import OmniRealtime.Lib.Utf8Lossy

/-!
# Text streamed from token ids

`scheduling/token_text_streaming.py`: `make_token_text_stream_output_builder`, which the builders of
the transcription models share. Ids wait until a delta is due and ends on a whole character.

Ids decode to bytes, and bytes to text with replacement. Times are what the clock said.

1. `buildStreamOutput`, `runBuilder`: one call, and the calls of a request.
2. `token_text_adds_up`: the deltas and the ids that still wait decode to the text of all ids, and
   no id waits behind a terminal flush that gives out unfinished characters.
-/

namespace OmniRealtime

open List Option

namespace TokenText

open Utf8Lossy

/-! ## The builder -/

structure BuilderConfig where
  tokenBytes : ℤ → List UInt8
  eosTokenId : Option ℤ
  minEmitInterval : ℚ
  allowTerminalFlush : Bool
  emitTrailingReplacementOnTerminal : Bool

/-- What the builder keeps on the request. -/
structure BuilderState where
  pendingIds : List ℤ := []
  lastEmit : ℚ := 0

/-- A call, with what it reads of the request: `streams` where the request is there and asks for a
    stream, `finished` where it says that it is. -/
structure BuilderCall where
  inflightMiddleChunks : ℕ
  streams : Bool
  tokenData : Option ℤ
  finished : Bool
  now : ℚ

structure TextDelta where
  text : List Char
  tokenId : Option ℤ

section Builder

variable (cfg : BuilderConfig)

def decodeIds (ids : List ℤ) : List Char := decode (ids.flatMap cfg.tokenBytes)

def isEos (tokenId : Option ℤ) : Bool := tokenId.isSome && tokenId == cfg.eosTokenId

/-- The call is let through: the request streams, and no chunk of its prompt is left. -/
def BuilderCall.passes (call : BuilderCall) : Bool :=
  decide (call.inflightMiddleChunks = 0) && call.streams

def BuilderCall.terminal (call : BuilderCall) : Bool := cfg.allowTerminalFlush && call.finished

/-- The id a call adds, if it adds one. -/
def BuilderCall.ids (call : BuilderCall) : List ℤ :=
  if call.passes && !isEos cfg call.tokenData then call.tokenData.toList else []

/-- The clock holds a delta back. -/
def throttled (state : BuilderState) (call : BuilderCall) : Bool :=
  !isEos cfg call.tokenData && !call.terminal cfg && decide (0 < cfg.minEmitInterval) &&
    decide (0 < state.lastEmit) && decide (call.now - state.lastEmit < cfg.minEmitInterval)

/-- The part behind the id: a delta of what waits, if it is due. -/
def emitPending (state : BuilderState) (call : BuilderCall) : BuilderState × List TextDelta :=
  if state.pendingIds = [] then (state, [])
  else if throttled cfg state call then (state, [])
  else
    let delta := decodeIds cfg state.pendingIds
    -- a delta that ends in U+FFFD may end inside a character
    if EndsLossy delta ∧ ¬(call.terminal cfg ∧ cfg.emitTrailingReplacementOnTerminal) then
      (state, [])
    else if delta = [] then ({ state with pendingIds := [] }, [])
    else ({ pendingIds := [], lastEmit := call.now }, [⟨delta, call.tokenData⟩])

def buildStreamOutput (state : BuilderState) (call : BuilderCall) :
    BuilderState × List TextDelta :=
  if !call.passes then (state, [])
  else if call.tokenData = none ∧ !call.terminal cfg then (state, [])
  else emitPending cfg { state with pendingIds := state.pendingIds ++ call.ids cfg } call

def runBuilder (state : BuilderState) : List BuilderCall → BuilderState × List TextDelta
  | [] => (state, [])
  | call :: calls =>
    let (next, sent) := buildStreamOutput cfg state call
    let (last, later) := runBuilder next calls
    (last, sent ++ later)

end Builder

/-- The deltas joined. -/
def streamedText (deltas : List TextDelta) : List Char := deltas.flatMap TextDelta.text

/-! ## The calls of a request -/

/-- A step of the model, as the builder sees it. -/
structure StepCall where
  inflightMiddleChunks : ℕ
  streams : Bool
  tokenData : Option ℤ
  now : ℚ

/-- The calls of a request: steps, perhaps one at which it has finished, and flushes. -/
structure RequestCalls where
  steps : List StepCall
  finishing : Option StepCall
  /-- `flush` samples no token. -/
  flushes : List (ℕ × Bool × ℚ)

open RequestCalls

def StepCall.call (step : StepCall) (finished : Bool) : BuilderCall :=
  ⟨step.inflightMiddleChunks, step.streams, step.tokenData, finished, step.now⟩

def flushCall : ℕ × Bool × ℚ → BuilderCall
  | (inflightMiddleChunks, streams, now) => ⟨inflightMiddleChunks, streams, none, true, now⟩

def RequestCalls.calls (request : RequestCalls) : List BuilderCall :=
  request.steps.map (·.call false) ++
    (request.finishing.toList.map (·.call true) ++ request.flushes.map flushCall)

/-- All ids of a request but the end of sequence. -/
def RequestCalls.ids (cfg : BuilderConfig) (request : RequestCalls) : List ℤ :=
  request.calls.flatMap (BuilderCall.ids cfg)

/-! ## What waits -/

section Pending

variable {cfg : BuilderConfig} {state : BuilderState} {ids : List ℤ} {sent : List Char}

/-- What was sent and what waits decode to the text of the ids. -/
def Covers (cfg : BuilderConfig) (ids : List ℤ) (sent : List Char) (state : BuilderState) : Prop :=
  decodeIds cfg ids = sent ++ decodeIds cfg state.pendingIds

/-- What was sent was decoded from ids that end on a character boundary, and the others wait. -/
def CutAt (cfg : BuilderConfig) (ids : List ℤ) (sent : List Char) (state : BuilderState) : Prop :=
  ∃ done, ids = done ++ state.pendingIds ∧ Complete (done.flatMap cfg.tokenBytes) ∧
    sent = decodeIds cfg done

theorem CutAt.covers (h : CutAt cfg ids sent state) : Covers cfg ids sent state := by
  obtain ⟨done, rfl, hdone, rfl⟩ := h
  unfold Covers decodeIds
  rw [flatMap_append, decode_append_of_complete hdone]

theorem CutAt.push (h : CutAt cfg ids sent state) (more : List ℤ) :
    CutAt cfg (ids ++ more) sent { state with pendingIds := state.pendingIds ++ more } := by
  obtain ⟨done, rfl, hdone, hsent⟩ := h
  exact ⟨done, append_assoc .., hdone, hsent⟩

variable (cfg) in
/-- What a call may do with what waits: nothing, or send all of it. -/
theorem emitPending_cases (state : BuilderState) (call : BuilderCall) :
    emitPending cfg state call = (state, []) ∨ ((emitPending cfg state call).1.pendingIds = [] ∧
        streamedText (emitPending cfg state call).2 = decodeIds cfg state.pendingIds ∧
        (EndsLossy (decodeIds cfg state.pendingIds) → call.terminal cfg = true)) := by
  dsimp only [emitPending]
  split_ifs with hnil hthrottled hlossy hemp
  · exact .inl rfl
  · exact .inl rfl
  · exact .inl rfl
  all_goals
    have hterminal (hends : EndsLossy (decodeIds cfg state.pendingIds)) :
        call.terminal cfg = true := by
      by_contra hnot
      exact hlossy ⟨hends, fun h => hnot h.1⟩
  · exact .inr ⟨rfl, hemp.symm, hterminal⟩
  · exact .inr ⟨rfl, flatMap_singleton .., hterminal⟩

theorem emitPending_covers (h : Covers cfg ids sent state) (call : BuilderCall) :
    Covers cfg ids (sent ++ streamedText (emitPending cfg state call).2)
      (emitPending cfg state call).1 := by
  rcases emitPending_cases cfg state call with hk | ⟨hnil, htext, -⟩
  · rw [hk]
    exact h.trans (by rw [streamedText, flatMap_nil, append_nil])
  · unfold Covers at h ⊢
    rw [hnil, htext, h]
    simp [decodeIds]

/-- Before the request has finished a delta ends on a character boundary. -/
theorem emitPending_cutAt (h : CutAt cfg ids sent state) {call : BuilderCall}
    (hcall : call.terminal cfg = false) :
    CutAt cfg ids (sent ++ streamedText (emitPending cfg state call).2)
      (emitPending cfg state call).1 := by
  rcases emitPending_cases cfg state call with hk | ⟨hnil, htext, hterminal⟩
  · rw [hk]
    simpa [streamedText] using h
  · obtain ⟨done, rfl, hdone, rfl⟩ := h
    have hcomplete : Complete (state.pendingIds.flatMap cfg.tokenBytes) := by
      refine complete_of_not_endsLossy fun hends => ?_
      rw [hterminal hends] at hcall
      cases hcall
    refine ⟨done ++ state.pendingIds, by rw [hnil, append_nil], ?_, ?_⟩
    · rw [flatMap_append]
      exact hdone.append hcomplete
    · rw [htext, decodeIds, decodeIds, decodeIds, flatMap_append, decode_append_of_complete hdone]

/-- A call that is not let through, or says nothing, leaves everything as it is. -/
theorem buildStreamOutput_cases (cfg : BuilderConfig) (state : BuilderState) (call : BuilderCall) :
    (buildStreamOutput cfg state call = (state, []) ∧ call.ids cfg = []) ∨
      buildStreamOutput cfg state call =
        emitPending cfg { state with pendingIds := state.pendingIds ++ call.ids cfg } call := by
  unfold buildStreamOutput
  split_ifs with hpasses hsilent
  · refine .inl ⟨rfl, ?_⟩
    rw [BuilderCall.ids, if_neg]
    rw [Bool.not_eq_true'] at hpasses
    simp [hpasses]
  · refine .inl ⟨rfl, ?_⟩
    rw [BuilderCall.ids, hsilent.1, toList_none, ite_self]
  · exact .inr rfl

theorem streamedText_nil (sent : List Char) : sent ++ streamedText [] = sent :=
  append_nil sent

/-- A call keeps what was sent and what waits together, with the id it adds. -/
theorem CutAt.build_covers (h : CutAt cfg ids sent state) (call : BuilderCall) :
    Covers cfg (ids ++ call.ids cfg) (sent ++ streamedText (buildStreamOutput cfg state call).2)
      (buildStreamOutput cfg state call).1 := by
  rcases buildStreamOutput_cases cfg state call with ⟨hk, hids⟩ | he
  · rw [hk, hids, append_nil, streamedText_nil]
    exact h.covers
  · rw [he]
    exact emitPending_covers (h.push _).covers call

theorem CutAt.build (h : CutAt cfg ids sent state) {call : BuilderCall}
    (hcall : call.terminal cfg = false) :
    CutAt cfg (ids ++ call.ids cfg) (sent ++ streamedText (buildStreamOutput cfg state call).2)
      (buildStreamOutput cfg state call).1 := by
  rcases buildStreamOutput_cases cfg state call with ⟨hk, hids⟩ | he
  · rw [hk, hids, append_nil, streamedText_nil]
    exact h
  · rw [he]
    exact emitPending_cutAt (h.push _) hcall

theorem Covers.build (h : Covers cfg ids sent state) {call : BuilderCall}
    (hcall : call.ids cfg = []) :
    Covers cfg ids (sent ++ streamedText (buildStreamOutput cfg state call).2)
      (buildStreamOutput cfg state call).1 := by
  rcases buildStreamOutput_cases cfg state call with ⟨hk, -⟩ | he
  · rw [hk, streamedText_nil]
    exact h
  · rw [he, hcall, append_nil]
    exact emitPending_covers h call

end Pending

/-! ## Runs -/

section Runs

variable {cfg : BuilderConfig} {state : BuilderState} {ids : List ℤ} {sent : List Char}

theorem runBuilder_append (state : BuilderState) (calls more : List BuilderCall) :
    runBuilder cfg state (calls ++ more) = ((runBuilder cfg (runBuilder cfg state calls).1 more).1,
        (runBuilder cfg state calls).2 ++
          (runBuilder cfg (runBuilder cfg state calls).1 more).2) := by
  induction calls generalizing state with
  | nil => rfl
  | cons call calls ih =>
    rw [cons_append]
    simp only [runBuilder, ih, append_assoc]

theorem streamedText_append (deltas more : List TextDelta) :
    streamedText (deltas ++ more) = streamedText deltas ++ streamedText more :=
  flatMap_append

theorem CutAt.run (h : CutAt cfg ids sent state) {calls : List BuilderCall}
    (hc : ∀ call ∈ calls, call.finished = false) :
    CutAt cfg (ids ++ calls.flatMap (BuilderCall.ids cfg))
      (sent ++ streamedText (runBuilder cfg state calls).2) (runBuilder cfg state calls).1 := by
  induction calls generalizing state ids sent with
  | nil => simpa [streamedText, runBuilder] using h
  | cons call calls ih =>
    have hcall : call.terminal cfg = false := by
      rw [BuilderCall.terminal, hc call mem_cons_self, Bool.and_false]
    have hr := ih (h.build hcall) fun other ho => hc other (mem_cons_of_mem _ ho)
    simp only [runBuilder]
    rw [flatMap_cons, streamedText_append, ← append_assoc, ← append_assoc]
    exact hr

theorem Covers.run (h : Covers cfg ids sent state) {calls : List BuilderCall}
    (hc : ∀ call ∈ calls, call.ids cfg = []) :
    Covers cfg ids (sent ++ streamedText (runBuilder cfg state calls).2)
      (runBuilder cfg state calls).1 := by
  induction calls generalizing state sent with
  | nil => exact h.trans (by rw [runBuilder, streamedText_nil])
  | cons call calls ih =>
    have hr := ih (h.build (hc call mem_cons_self))
      fun other ho => hc other (mem_cons_of_mem _ ho)
    simp only [runBuilder]
    rw [streamedText_append, ← append_assoc]
    exact hr

/-- A terminal flush that gives out unfinished characters leaves no id behind. -/
theorem build_empties (hflush : cfg.emitTrailingReplacementOnTerminal = true) (state : BuilderState)
    {call : BuilderCall} (hcall : call.terminal cfg = true) (hpasses : call.passes = true) :
    (buildStreamOutput cfg state call).1.pendingIds = [] := by
  have hthrottled (state : BuilderState) : throttled cfg state call = false := by
    simp [throttled, hcall]
  have hlossy (delta : List Char) : ¬(EndsLossy delta ∧
      ¬(call.terminal cfg = true ∧ cfg.emitTrailingReplacementOnTerminal = true)) :=
    fun h => h.2 ⟨hcall, hflush⟩
  unfold buildStreamOutput
  rw [if_neg (by simp [hpasses]), if_neg (by simp [hcall])]
  dsimp only [emitPending]
  rw [hthrottled, if_neg Bool.false_ne_true, if_neg (hlossy _)]
  split_ifs with hnil hemp
  · exact hnil
  · rfl
  · rfl

/-- Where no id waits and none is added, none waits later. -/
theorem build_stays_empty (hstt : state.pendingIds = []) {call : BuilderCall}
    (hcall : call.ids cfg = []) : (buildStreamOutput cfg state call).1.pendingIds = [] := by
  rcases buildStreamOutput_cases cfg state call with ⟨hk, -⟩ | he
  · rw [hk]
    exact hstt
  · rw [he, hcall, append_nil]
    rcases emitPending_cases cfg { state with pendingIds := state.pendingIds } call with
      hk | ⟨hnil, -⟩
    · rw [hk]
      exact hstt
    · exact hnil

theorem run_stays_empty (hstt : state.pendingIds = []) {calls : List BuilderCall}
    (hc : ∀ call ∈ calls, call.ids cfg = []) :
    (runBuilder cfg state calls).1.pendingIds = [] := by
  induction calls generalizing state with
  | nil => exact hstt
  | cons call calls ih =>
    exact ih (build_stays_empty hstt (hc call mem_cons_self))
      fun other ho => hc other (mem_cons_of_mem _ ho)

theorem run_empties (hflush : cfg.emitTrailingReplacementOnTerminal = true) (state : BuilderState)
    {calls : List BuilderCall} (hc : ∀ call ∈ calls, call.ids cfg = [])
    (hterminal : ∃ call ∈ calls, call.terminal cfg = true ∧ call.passes = true) :
    (runBuilder cfg state calls).1.pendingIds = [] := by
  induction calls generalizing state with
  | nil =>
    obtain ⟨call, hcall, -⟩ := hterminal
    exact absurd hcall not_mem_nil
  | cons first calls ih =>
    have hr : ∀ call ∈ calls, call.ids cfg = [] := fun other ho =>
      hc other (mem_cons_of_mem _ ho)
    obtain ⟨call, hcall, hf, hpasses⟩ := hterminal
    rcases mem_cons.mp hcall with rfl | hlater
    · exact run_stays_empty (build_empties hflush state hf hpasses) hr
    · exact ih (buildStreamOutput cfg state first).1 hr ⟨call, hlater, hf, hpasses⟩

/-- The calls from the one at which the request has finished on, of which only that one may add an
    id. -/
theorem CutAt.run_tail (h : CutAt cfg ids sent state) (call : BuilderCall)
    {calls : List BuilderCall} (hc : ∀ call ∈ calls, call.ids cfg = []) :
    Covers cfg (ids ++ (call :: calls).flatMap (BuilderCall.ids cfg))
      (sent ++ streamedText (runBuilder cfg state (call :: calls)).2)
      (runBuilder cfg state (call :: calls)).1 := by
  have hr := (h.build_covers call).run hc
  have hnil : calls.flatMap (BuilderCall.ids cfg) = [] := flatMap_eq_nil_iff.mpr hc
  simp only [runBuilder]
  rw [flatMap_cons, hnil, append_nil, streamedText_append, ← append_assoc]
  exact hr

theorem run_tail_empties (hflush : cfg.emitTrailingReplacementOnTerminal = true)
    (state : BuilderState) (call : BuilderCall) {calls : List BuilderCall}
    (hc : ∀ call ∈ calls, call.ids cfg = [])
    (hterminal : ∃ other ∈ call :: calls, other.terminal cfg = true ∧ other.passes = true) :
    (runBuilder cfg state (call :: calls)).1.pendingIds = [] := by
  obtain ⟨other, ho, hf, hpasses⟩ := hterminal
  rcases mem_cons.mp ho with rfl | hlater
  · exact run_stays_empty (build_empties hflush state hf hpasses) hc
  · exact run_empties hflush (buildStreamOutput cfg state call).1 hc
      ⟨other, hlater, hf, hpasses⟩

end Runs

section Requests

variable (cfg : BuilderConfig) (request : RequestCalls)

theorem unfinished_steps : ∀ call ∈ request.steps.map (·.call false), call.finished = false := by
  intro call hcall
  obtain ⟨step, -, rfl⟩ := mem_map.mp hcall
  rfl

theorem ids_flushes : ∀ call ∈ request.flushes.map flushCall, call.ids cfg = [] := by
  intro call hcall
  obtain ⟨flush, -, rfl⟩ := mem_map.mp hcall
  exact ite_self _

theorem request_covers :
    Covers cfg (request.ids cfg) (streamedText (runBuilder cfg {} request.calls).2)
      (runBuilder cfg {} request.calls).1 := by
  have hsrt : CutAt cfg [] [] {} := ⟨[], rfl, complete_nil, rfl⟩
  have hcut := hsrt.run (unfinished_steps request)
  have hf := ids_flushes cfg request
  rw [RequestCalls.ids, calls, runBuilder_append, flatMap_append, streamedText_append]
  cases request.finishing with
  | none =>
    have hr := hcut.covers.run hf
    have hnil := flatMap_eq_nil_iff.mpr hf
    rw [toList_none, map_nil, nil_append, hnil, append_nil]
    exact hr
  | some step => exact hcut.run_tail (step.call true) hf

theorem request_empties (hflush : cfg.emitTrailingReplacementOnTerminal = true)
    (hterminal : ∃ call ∈ request.calls, call.terminal cfg = true ∧ call.passes = true) :
    (runBuilder cfg {} request.calls).1.pendingIds = [] := by
  obtain ⟨call, hcall, hf, hpasses⟩ := hterminal
  have hids := ids_flushes cfg request
  rw [calls, runBuilder_append]
  rw [calls] at hcall
  rcases mem_append.mp hcall with hst | htail
  · -- a step is not terminal
    rw [BuilderCall.terminal, unfinished_steps request call hst, Bool.and_false] at hf
    cases hf
  · cases hfinishing : request.finishing with
    | none =>
      rw [hfinishing] at htail
      exact run_empties hflush _ hids ⟨call, htail, hf, hpasses⟩
    | some step =>
      rw [hfinishing] at htail
      exact run_tail_empties hflush _ (step.call true) hids ⟨call, htail, hf, hpasses⟩

/-- The deltas of a request and the ids that still wait decode to the text of all its ids. Where a
    terminal flush also gives out unfinished characters, and the request is done with its prompt at
    one, no id waits. -/
theorem token_text_adds_up :
    decodeIds cfg (request.ids cfg) =
        streamedText (runBuilder cfg {} request.calls).2 ++
          decodeIds cfg (runBuilder cfg {} request.calls).1.pendingIds ∧
      (cfg.allowTerminalFlush = true → cfg.emitTrailingReplacementOnTerminal = true →
        (∃ call ∈ request.calls, call.finished = true ∧ call.passes = true) →
        streamedText (runBuilder cfg {} request.calls).2 = decodeIds cfg (request.ids cfg)) := by
  have hcovers := request_covers cfg request
  refine ⟨hcovers, fun hallow hflush hterminal => ?_⟩
  obtain ⟨call, hcall, hfinished, hpasses⟩ := hterminal
  have hnil := request_empties cfg request hflush
    ⟨call, hcall, by rw [BuilderCall.terminal, hallow, hfinished]; rfl, hpasses⟩
  rw [Covers, hnil] at hcovers
  rw [hcovers]
  simp [decodeIds]

end Requests

/-- A character of two tokens, flushed when only the first of them was sampled. -/
theorem token_text_adds_up_flushed :
    streamedText (runBuilder
      ⟨fun id => if id = 1 then [0x41, 0xC3] else [0xA9], some 9, 0, true, true⟩ {}
      (RequestCalls.mk [⟨0, true, some 1, 5⟩] none [(0, true, 6)]).calls).2 =
      ['A', replacementChar] :=
  ((token_text_adds_up
    ⟨fun id => if id = 1 then [0x41, 0xC3] else [0xA9], some 9, 0, true, true⟩
    ⟨[⟨0, true, some 1, 5⟩], none, [(0, true, 6)]⟩).2 rfl rfl
      ⟨flushCall (0, true, 6), by simp [calls], rfl, rfl⟩).trans (by decide)

end TokenText

end OmniRealtime
