import OmniRealtime.Lib.System

/-!
# The streaming stages of Ming-Omni

What `MingStreamingSegmenterScheduler` and `MingStreamingTalkerScheduler` have in common: the
payload, the stream chunks and the done mark of a request come in any order, the first of them
makes its state, and once payload and done mark are there the request is finalized. They differ
in what they do with a chunk (`item`), on the timer (`tick`) and at the end (`finish`), in
whether a chunk that is no stream item makes a state, and in what an abort leaves. A handler and
an abort are taken one after the other.

1. `Stands.step`: where a request stands after a message, in the runs that keep to
   `StageLogic.Orderly`.
2. `reachable_stands`: so a request always stands in one of four ways, and the loop goes on.
3. `Stands.endsOnce`, `over_is_final`: how a request ends in them, and that it stays ended.
-/

namespace OmniRealtime

open List Option Function

/-- What a stage sends for a request. -/
inductive StageOut (ω ρ ε : Type)
  | part (part : ω)
  | result (result : ρ)
  | error (error : ε)
  deriving DecidableEq, Repr

def StageOut.isTerminal {ω ρ ε : Type} : StageOut ω ρ ε → Bool
  | .part _ => false
  | _ => true

/-- What one of the two stages does with its own data. An error raised over a chunk or at the end
    comes with what was sent before. -/
structure StageLogic (δ ι π ω ρ ε : Type) where
  fresh : δ
  /-- a state is made before the chunk is looked at -/
  createsFirst : Bool
  /-- an abort takes the state away, or only marks it -/
  abortDrops : Bool
  item : δ → ι → δ × List ω × Option ε
  tick : δ → Int → Except ε (δ × List ω)
  finish : δ → π → Bool → List ω × Except ε ρ

open StageLogic

/-- What a request's own data goes through between its first message and its last. -/
inductive StageEvent (ι : Type)
  | item (item : ι)
  | tick (nowMs : Int)
  deriving DecidableEq, Repr

/-- One event, on the data of a request and what was sent for it so far. -/
def StageLogic.heed {δ ι π ω ρ ε : Type} (logic : StageLogic δ ι π ω ρ ε) (s : δ × List ω) :
    StageEvent ι → δ × List ω
  | .item item => ((logic.item s.1 item).1, s.2 ++ (logic.item s.1 item).2.1)
  | .tick nowMs =>
    match logic.tick s.1 nowMs with
    | .ok (data, parts) => (data, s.2 ++ parts)
    | .error _ => s

/-- `_RequestState`; `payload_arrived` is set together with the payload. -/
structure StageEntry (δ π : Type) where
  data : δ
  payload : Option π := none
  streamDone : Bool := false
  finalized : Bool := false
  aborted : Bool := false
  deriving DecidableEq, Repr

inductive StageMsg (ι π : Type)
  | newRequest (requestId : String) (payload : π)
  | streamChunk (requestId : String) (item : Option ι)
  | streamDone (requestId : String)
  | tick (requestId : String) (nowMs : Int)
  | abort (requestId : String)
  deriving DecidableEq, Repr

def StageMsg.requestId {ι π : Type} : StageMsg ι π → String
  | .newRequest r _ | .streamChunk r _ | .streamDone r | .tick r _ | .abort r => r

structure StageState (δ π ω ρ ε : Type) where
  states : String → Option (StageEntry δ π) := fun _ => none
  outbox : List (String × StageOut ω ρ ε) := []
  /-- the loop was left by an error -/
  stopped : Bool := false

section Stage

variable {δ ι π ω ρ ε : Type} (logic : StageLogic δ ι π ω ρ ε)

namespace StageLogic

/-! ## Handlers

A handler reads and writes the state of its own request only: it is given what the dict has for
the request, and returns what it sends and what the dict has afterwards. -/

/-- The message loop where a handler raised: the error is sent and the state dropped. -/
def failed (parts : List ω) (error : ε) : List (StageOut ω ρ ε) × Option (StageEntry δ π) :=
  (parts.map .part ++ [.error error], none)

def finalize (e : StageEntry δ π) (payload : π) :
    List (StageOut ω ρ ε) × Option (StageEntry δ π) :=
  if e.finalized then ([], some e)
  else
    match logic.finish e.data payload e.aborted with
    | (parts, .ok result) => (parts.map .part ++ [.result result], none)
    | (parts, .error error) => failed parts error

def onNewRequest (state : Option (StageEntry δ π)) (payload : π) :
    List (StageOut ω ρ ε) × Option (StageEntry δ π) :=
  let e := { state.getD { data := logic.fresh } with payload := some payload }
  if e.streamDone && !e.finalized then logic.finalize e payload else ([], some e)

def onStreamChunk (state : Option (StageEntry δ π)) (item : Option ι) :
    List (StageOut ω ρ ε) × Option (StageEntry δ π) :=
  let e := state.getD { data := logic.fresh }
  match item with
  | none => ([], if logic.createsFirst then some e else state)
  | some item =>
    if e.aborted || e.finalized then ([], some e)
    else
      match logic.item e.data item with
      | (data, parts, none) => (parts.map .part, some { e with data := data })
      | (_, parts, some error) => failed parts error

def onStreamDone (state : Option (StageEntry δ π)) :
    List (StageOut ω ρ ε) × Option (StageEntry δ π) :=
  match state with
  | none => ([], none)
  | some e =>
    let e := { e with streamDone := true }
    match e.payload with
    | some payload => if e.finalized then ([], some e) else logic.finalize e payload
    | none => ([], some e)

/-- One request's turn in `_tick_first_segment_timeouts`. The loop does not guard it. -/
def onTick (state : Option (StageEntry δ π)) (nowMs : Int) :
    Except ε (List (StageOut ω ρ ε) × Option (StageEntry δ π)) :=
  match state with
  | none => .ok ([], none)
  | some e =>
    if e.aborted || e.finalized then .ok ([], some e)
    else
      match logic.tick e.data nowMs with
      | .ok (data, parts) => .ok (parts.map .part, some { e with data := data })
      | .error error => .error error

def abort (state : Option (StageEntry δ π)) : Option (StageEntry δ π) :=
  match state with
  | none => none
  | some e => if logic.abortDrops then none else some { e with aborted := true }

/-! ## The stage -/

def react (state : Option (StageEntry δ π)) :
    StageMsg ι π → Except ε (List (StageOut ω ρ ε) × Option (StageEntry δ π))
  | .newRequest _ payload => .ok (logic.onNewRequest state payload)
  | .streamChunk _ item => .ok (logic.onStreamChunk state item)
  | .streamDone _ => .ok (logic.onStreamDone state)
  | .tick _ nowMs => logic.onTick state nowMs
  | .abort _ => .ok ([], logic.abort state)

def handle (s : StageState δ π ω ρ ε) (msg : StageMsg ι π) : StageState δ π ω ρ ε :=
  if s.stopped then s
  else
    match logic.react (s.states msg.requestId) msg with
    | .ok (outs, e) =>
      { s with
        states := Function.update s.states msg.requestId e
        outbox := s.outbox ++ outs.map (msg.requestId, ·) }
    | .error _ => { s with stopped := true }

end StageLogic

/-- What was sent for a request, in order. -/
def StageState.sent (s : StageState δ π ω ρ ε) (r : String) : List (StageOut ω ρ ε) :=
  (s.outbox.filter (·.1 = r)).map Prod.snd

/-! ## Runs -/

/-- A stage with the messages it has seen. -/
structure StageRun (δ ι π ω ρ ε : Type) where
  stage : StageState δ π ω ρ ε := {}
  seen : List (StageMsg ι π) := []

def StageRun.after (t : StageRun δ ι π ω ρ ε) (msg : StageMsg ι π) : StageRun δ ι π ω ρ ε :=
  { stage := logic.handle t.stage msg
    seen := t.seen ++ [msg] }

def stageSystem : System (StageRun δ ι π ω ρ ε) (StageMsg ι π) :=
  System.ofFun (· = {}) fun t msg => some (t.after logic msg)

/-- The request has its terminal message, or was aborted. -/
def StageRun.Over (t : StageRun δ ι π ω ρ ε) (r : String) : Prop :=
  (∃ out ∈ t.stage.sent r, out.isTerminal = true) ∨ .abort r ∈ t.seen

/-- What the lanes guarantee: no chunk comes behind the done mark. -/
def StageRun.InLane (t : StageRun δ ι π ω ρ ε) : StageMsg ι π → Prop
  | .streamChunk r _ => .streamDone r ∉ t.seen
  | _ => True

/-- What keeps a stage tidy: nothing that would make a state comes to a request that is over, a
    payload finds the done mark that came before it, and an abort that does not take the state
    away finds none. -/
def StageLogic.Tidy (t : StageRun δ ι π ω ρ ε) : StageMsg ι π → Prop
  | .newRequest r _ => ¬t.Over r ∧ (.streamDone r ∈ t.seen → t.stage.states r ≠ none)
  | .streamChunk r item => ¬t.Over r ∨ item.isNone = true ∧ logic.createsFirst = false
  | .abort r => logic.abortDrops = true ∨ t.stage.states r = none
  | _ => True

structure StageLogic.Orderly (t : StageRun δ ι π ω ρ ε) (msg : StageMsg ι π) : Prop where
  inLane : t.InLane msg
  tidy : logic.Tidy t msg

/-- Data on which the timer raises no error. -/
structure StageLogic.Sound (valid : δ → Prop) : Prop where
  fresh : valid logic.fresh
  item : ∀ {d} item, valid d → (logic.item d item).2.2 = none → valid (logic.item d item).1
  tick : ∀ {d} nowMs, valid d → ∃ data parts, logic.tick d nowMs = .ok (data, parts) ∧ valid data

/-- Where a request stands. -/
inductive Stands (valid : δ → Prop) (t : StageRun δ ι π ω ρ ε) (r : String) : Prop
  | idle (state : t.stage.states r = none) (sent : t.stage.sent r = [])
      (noPayload : ∀ payload, .newRequest r payload ∉ t.seen) (notAborted : .abort r ∉ t.seen)
  | live (e : StageEntry δ π) (state : t.stage.states r = some e) (isValid : valid e.data)
      (parts : ∀ out ∈ t.stage.sent r, out.isTerminal = false)
      (flags : e.finalized = false ∧ e.aborted = false)
      (payload : ∀ payload, .newRequest r payload ∈ t.seen → e.payload ≠ none)
      (done : .streamDone r ∈ t.seen → e.streamDone = true)
      (waits : e.payload = none ∨ e.streamDone = false) (notAborted : .abort r ∉ t.seen)
  | ended (state : t.stage.states r = none) (parts : List (StageOut ω ρ ε))
      (last : StageOut ω ρ ε) (sent : t.stage.sent r = parts ++ [last])
      (noTerminal : ∀ out ∈ parts, out.isTerminal = false) (terminal : last.isTerminal = true)
  | dropped (state : t.stage.states r = none)
      (parts : ∀ out ∈ t.stage.sent r, out.isTerminal = false) (aborted : .abort r ∈ t.seen)

/-! ## One message -/

variable {logic}

theorem StageLogic.failed_spec (parts : List ω) (error : ε) :
    ∃ outs last, failed (δ := δ) (π := π) (ρ := ρ) parts error = (outs ++ [last], none) ∧
      (∀ out ∈ outs, out.isTerminal = false) ∧ last.isTerminal = true := by
  refine ⟨parts.map .part, .error error, rfl, ?_, rfl⟩
  intro out hout
  obtain ⟨part, -, rfl⟩ := mem_map.1 hout
  rfl

theorem StageLogic.finalize_spec (logic : StageLogic δ ι π ω ρ ε) {e : StageEntry δ π}
    (hfin : e.finalized = false) (payload : π) :
    ∃ outs last, logic.finalize e payload = (outs ++ [last], none) ∧
      (∀ out ∈ outs, out.isTerminal = false) ∧ last.isTerminal = true := by
  unfold finalize
  rw [if_neg (by simp [hfin])]
  split
  · next parts result _ =>
    refine ⟨parts.map .part, .result result, rfl, ?_, rfl⟩
    intro out hout
    obtain ⟨part, -, rfl⟩ := mem_map.1 hout
    rfl
  · exact failed_spec _ _

/-- What a message did to its own request. -/
structure StageRun.Took (t u : StageRun δ ι π ω ρ ε) (msg : StageMsg ι π)
    (res : List (StageOut ω ρ ε) × Option (StageEntry δ π)) : Prop where
  state : u.stage.states msg.requestId = res.2
  sent : u.stage.sent msg.requestId = t.stage.sent msg.requestId ++ res.1
  seen : u.seen = t.seen ++ [msg]

variable {msg : StageMsg ι π} {res : List (StageOut ω ρ ε) × Option (StageEntry δ π)}

/-- A message that raises nothing out of the loop reaches the state and the outbox of its own
    request, and of no other. -/
theorem StageRun.after_took {t : StageRun δ ι π ω ρ ε} (hrun : t.stage.stopped = false)
    (hreact : logic.react (t.stage.states msg.requestId) msg = .ok res) :
    (t.after logic msg).stage.stopped = false ∧ t.Took (t.after logic msg) msg res ∧
      ∀ r, r ≠ msg.requestId → (t.after logic msg).stage.states r = t.stage.states r ∧
        (t.after logic msg).stage.sent r = t.stage.sent r := by
  have hafter : (t.after logic msg).stage = { t.stage with
        states := update t.stage.states msg.requestId res.2
        outbox := t.stage.outbox ++ res.1.map (msg.requestId, ·) } := by
    unfold StageRun.after handle
    rw [hreact, if_neg (by simp [hrun])]
  refine ⟨?_, ⟨?_, ?_, rfl⟩, fun r hr => ?_⟩
  · rw [hafter]
    exact hrun
  · rw [hafter]
    exact update_self ..
  · rw [hafter]
    unfold StageState.sent
    rw [filter_append, map_append]
    congr 1
    rw [filter_eq_self.2 (by simp), List.map_map]
    exact map_id res.1
  · rw [hafter]
    refine ⟨update_of_ne hr .., ?_⟩
    unfold StageState.sent
    rw [filter_append, map_append]
    have hn : (res.1.map (msg.requestId, ·)).filter (·.1 = r) = [] := by
      rw [filter_eq_nil_iff]
      intro x hx
      obtain ⟨out, -, rfl⟩ := mem_map.1 hx
      simpa using fun h => hr h.symm
    rw [hn, map_nil, append_nil]

variable {valid : δ → Prop} {t : StageRun δ ι π ω ρ ε} {r : String}

theorem Stands.not_over_of_state (h : Stands valid t r) (hstt : t.stage.states r ≠ none) :
    ¬t.Over r := by
  cases h with
  | idle state | ended state | dropped state => exact absurd state hstt
  | live e state _ parts _ _ _ _ notAborted =>
    rintro (⟨out, hout, ht⟩ | ha)
    · rw [parts out hout] at ht
      cases ht
    · exact notAborted ha

theorem Stands.state_none_of_over (h : Stands valid t r) (hover : t.Over r) :
    t.stage.states r = none := by
  by_contra hstt
  exact h.not_over_of_state hstt hover

variable {u : StageRun δ ι π ω ρ ε}

theorem Stands.unchanged (h : Stands valid t r) (hstt : u.stage.states r = t.stage.states r)
    (hsent : u.stage.sent r = t.stage.sent r)
    (hnew : ∀ payload, .newRequest r payload ∈ u.seen → .newRequest r payload ∈ t.seen)
    (hd : t.stage.states r ≠ none → .streamDone r ∈ u.seen → .streamDone r ∈ t.seen)
    (ha : .abort r ∈ u.seen ↔ .abort r ∈ t.seen) : Stands valid u r := by
  cases h with
  | idle state sent noPayload notAborted =>
    exact .idle (hstt.trans state) (hsent.trans sent) (fun p h => noPayload p (hnew p h))
      (fun h => notAborted (ha.1 h))
  | live e state isValid parts flags payload done waits notAborted =>
    exact .live e (hstt.trans state) isValid (hsent ▸ parts) flags
      (fun p h => payload p (hnew p h)) (fun h => done (hd (by simp [state]) h)) waits
      (fun h => notAborted (ha.1 h))
  | ended state parts last sent noTerminal terminal =>
    exact .ended (hstt.trans state) parts last (hsent.trans sent) noTerminal terminal
  | dropped state parts aborted =>
    exact .dropped (hstt.trans state) (hsent ▸ parts) (ha.2 aborted)

theorem StageRun.Took.ended (took : t.Took u msg res)
    (hparts : ∀ out ∈ t.stage.sent msg.requestId, out.isTerminal = false)
    {outs : List (StageOut ω ρ ε)} {last : StageOut ω ρ ε} (hres : res = (outs ++ [last], none))
    (houts : ∀ out ∈ outs, out.isTerminal = false) (hlast : last.isTerminal = true) :
    Stands valid u msg.requestId := by
  subst hres
  refine .ended took.state (t.stage.sent msg.requestId ++ outs) last ?_ ?_ hlast
  · rw [took.sent, append_assoc]
  · intro out hout
    exact (mem_append.1 hout).elim (hparts out) (houts out)

theorem StageRun.Took.mem (took : t.Took u msg res) {m : StageMsg ι π} (hne : m ≠ msg)
    (h : m ∈ u.seen) : m ∈ t.seen := by
  rw [took.seen, mem_append, mem_singleton] at h
  exact h.resolve_right hne

theorem StageRun.Took.parts (took : t.Took u msg res)
    (hparts : ∀ out ∈ t.stage.sent msg.requestId, out.isTerminal = false)
    (hres : ∀ out ∈ res.1, out.isTerminal = false) :
    ∀ out ∈ u.stage.sent msg.requestId, out.isTerminal = false := by
  rw [took.sent]
  intro out hout
  exact (mem_append.1 hout).elim (hparts out) (hres out)

theorem Stands.skip (h : Stands valid t r) (took : t.Took u msg ([], t.stage.states msg.requestId))
    (hr : msg.requestId = r) (hnew : ∀ payload, msg ≠ .newRequest r payload)
    (ha : msg ≠ .abort r) (hd : msg = .streamDone r → t.stage.states r = none) :
    Stands valid u r := by
  subst hr
  have hsent := took.sent
  rw [append_nil] at hsent
  exact h.unchanged took.state hsent (fun p => took.mem (hnew p).symm)
    (fun hstt => took.mem fun hmk => hstt (hd hmk.symm))
    ⟨took.mem ha.symm, fun h => took.seen ▸ mem_append_left _ h⟩

theorem not_terminal_of_map (parts : List ω) :
    ∀ out ∈ (parts.map .part : List (StageOut ω ρ ε)), out.isTerminal = false := by
  intro out hout
  obtain ⟨part, -, rfl⟩ := mem_map.1 hout
  rfl

theorem not_terminal_nil : ∀ out ∈ ([] : List (StageOut ω ρ ε)), out.isTerminal = false :=
  nofun

section

variable (hsnd : logic.Sound valid)
include hsnd

theorem Stands.newRequest (h : Stands valid t r) {p : π}
    (ho : logic.Orderly t (.newRequest r p))
    (took : t.Took u (.newRequest r p) (logic.onNewRequest (t.stage.states r) p)) :
    Stands valid u r := by
  obtain ⟨hover, hd⟩ := ho.tidy
  cases h with
  | idle state sent _ notAborted =>
    rw [state] at took
    have hnotDone : .streamDone r ∉ t.seen := fun h => hd h state
    refine .live _ took.state hsnd.fresh (took.parts ?_ not_terminal_nil) ⟨rfl, rfl⟩
      (fun _ _ => some_ne_none p) (fun h => absurd (took.mem (by simp) h) hnotDone)
      (.inr rfl) (fun h => notAborted (took.mem (by simp) h))
    exact sent.symm ▸ not_terminal_nil
  | live e state isValid parts flags payload done waits notAborted =>
    rw [state] at took
    unfold onNewRequest at took
    dsimp only [getD_some] at took
    split at took
    · -- The done mark came first.
      obtain ⟨outs, last, hres, houts, hlast⟩ :=
        logic.finalize_spec (e := { e with payload := some p }) flags.1 p
      exact took.ended parts hres houts hlast
    · next hwait =>
      have hnotDone : e.streamDone = false := by simpa [flags.1] using hwait
      exact .live _ took.state isValid (took.parts parts not_terminal_nil) flags
        (fun _ _ => some_ne_none p) (fun h => done (took.mem (by simp) h))
        (.inr hnotDone) (fun h => notAborted (took.mem (by simp) h))
  | ended _ parts last sent _ terminal => exact absurd (.inl ⟨last, by simp [sent], terminal⟩) hover
  | dropped _ _ aborted => exact absurd (.inr aborted) hover

theorem Stands.chunk {item : Option ι} {e : StageEntry δ π}
    (took : t.Took u (.streamChunk r item) (logic.onStreamChunk (some e) item))
    (isValid : valid e.data) (parts : ∀ out ∈ t.stage.sent r, out.isTerminal = false)
    (flags : e.finalized = false ∧ e.aborted = false)
    (payload : ∀ payload, .newRequest r payload ∈ t.seen → e.payload ≠ none)
    (done : .streamDone r ∈ t.seen → e.streamDone = true)
    (waits : e.payload = none ∨ e.streamDone = false) (notAborted : .abort r ∉ t.seen) :
    Stands valid u r := by
  have live : ∀ (d : δ) (outs : List (StageOut ω ρ ε)),
      logic.onStreamChunk (some e) item = (outs, some { e with data := d }) →
      valid d → (∀ out ∈ outs, out.isTerminal = false) → Stands valid u r := by
    intro d outs hres hvalid houts
    rw [hres] at took
    exact .live _ took.state hvalid (took.parts parts houts) flags
      (fun p h => payload p (took.mem (by simp) h)) (fun h => done (took.mem (by simp) h)) waits
      (fun h => notAborted (took.mem (by simp) h))
  cases item with
  | none =>
    refine live e.data [] ?_ isValid not_terminal_nil
    cases hf : logic.createsFirst with
    | true | false => simp [onStreamChunk, hf]
  | some item =>
    have hchk : logic.onStreamChunk (some e) (some item) =
        match logic.item e.data item with
        | (data, parts, none) => (parts.map .part, some { e with data := data })
        | (_, parts, some error) => failed parts error := by
      simp [onStreamChunk, flags.1, flags.2]
    cases hitem : logic.item e.data item with
    | mk d rest =>
      obtain ⟨sent, error⟩ := rest
      rw [hitem] at hchk
      cases error with
      | none =>
        have hvalid := hsnd.item item isValid (by rw [hitem])
        rw [hitem] at hvalid
        exact live _ _ hchk hvalid (not_terminal_of_map sent)
      | some error =>
        obtain ⟨outs, last, hres, houts, hlast⟩ :=
          failed_spec (δ := δ) (π := π) (ρ := ρ) sent error
        exact took.ended parts (hchk.trans hres) houts hlast

theorem Stands.streamChunk (h : Stands valid t r) {item : Option ι}
    (ho : logic.Orderly t (.streamChunk r item))
    (took : t.Took u (.streamChunk r item) (logic.onStreamChunk (t.stage.states r) item)) :
    Stands valid u r := by
  have hnotDone : .streamDone r ∉ t.seen := ho.inLane
  have hover : ¬t.Over r ∨ item.isNone = true ∧ logic.createsFirst = false := ho.tidy
  rcases hover with hover | ⟨hn, hf⟩
  · cases h with
    | idle state sent noPayload notAborted =>
      rw [state] at took
      by_cases hskip : item = none ∧ logic.createsFirst = false
      · obtain ⟨rfl, hf⟩ := hskip
        have hres : logic.onStreamChunk (none : Option (StageEntry δ π)) none = ([], none) := by
          simp [onStreamChunk, hf]
        rw [hres] at took
        refine .idle took.state ?_ (fun p h => noPayload p (took.mem (by simp) h))
          (fun h => notAborted (took.mem (by simp) h))
        have hsent : u.stage.sent r = t.stage.sent r ++ [] := took.sent
        rw [hsent, sent, append_nil]
      · -- The chunk makes the state that it then finds.
        have hres : logic.onStreamChunk (none : Option (StageEntry δ π)) item =
            logic.onStreamChunk (some { data := logic.fresh }) item := by
          cases item with
          | none =>
            have hf : logic.createsFirst = true := by simpa using hskip
            simp [onStreamChunk, hf]
          | some item => rfl
        rw [hres] at took
        exact .chunk hsnd took hsnd.fresh (sent.symm ▸ not_terminal_nil) ⟨rfl, rfl⟩
          (fun p h => absurd h (noPayload p)) (fun h => absurd h hnotDone) (.inl rfl) notAborted
    | live e state isValid parts flags payload done waits notAborted =>
      rw [state] at took
      exact .chunk hsnd took isValid parts flags payload done waits notAborted
    | ended _ parts last sent _ terminal =>
      exact absurd (.inl ⟨last, by simp [sent], terminal⟩) hover
    | dropped _ _ aborted => exact absurd (.inr aborted) hover
  · -- What is no stream item is looked at first.
    obtain rfl : item = none := isNone_iff_eq_none.1 hn
    have hres : logic.onStreamChunk (t.stage.states r) (none : Option ι) =
        ([], t.stage.states r) := by simp [onStreamChunk, hf]
    rw [hres] at took
    exact h.skip took rfl (by simp) (by simp) (by simp)

end

theorem Stands.streamDone (h : Stands valid t r)
    (took : t.Took u (.streamDone r) (logic.onStreamDone (t.stage.states r))) :
    Stands valid u r := by
  cases hstt : t.stage.states r with
  | none =>
    have hres : logic.onStreamDone (t.stage.states r) = ([], t.stage.states r) := by
      rw [hstt]
      rfl
    rw [hres] at took
    exact h.skip took rfl (by simp) (by simp) (fun _ => hstt)
  | some e =>
    cases h with
    | idle state | ended state | dropped state =>
      exact absurd (hstt.symm.trans state) (some_ne_none e)
    | live e' state isValid parts flags payload done waits notAborted =>
      rw [state] at took
      have hfin : ({ e' with streamDone := true } : StageEntry δ π).finalized = false := flags.1
      cases hpay : e'.payload with
      | none =>
        have hres : logic.onStreamDone (some e') = ([], some { e' with streamDone := true }) := by
          simp [onStreamDone, hpay]
        rw [hres] at took
        exact .live _ took.state isValid (took.parts parts not_terminal_nil) flags
          (fun p h => payload p (took.mem (by simp) h)) (fun _ => rfl) (.inl hpay)
          (fun h => notAborted (took.mem (by simp) h))
      | some p =>
        have hres : logic.onStreamDone (some e') =
            logic.finalize { e' with streamDone := true } p := by
          simp [onStreamDone, hpay, flags.1]
        obtain ⟨outs, last, hfnl, houts, hlast⟩ := logic.finalize_spec hfin p
        exact took.ended parts (hres.trans hfnl) houts hlast

theorem Stands.abort (h : Stands valid t r) (ho : logic.Orderly t (.abort r))
    (took : t.Took u (.abort r) ([], logic.abort (t.stage.states r))) : Stands valid u r := by
  have hgone : u.stage.states r = none := by
    have hstt : u.stage.states r = logic.abort (t.stage.states r) := took.state
    rw [hstt]
    rcases ho.tidy with hdrops | hn
    · cases t.stage.states r with
      | none => rfl
      | some e => exact if_pos hdrops
    · rw [hn]
      rfl
  have habt : .abort r ∈ u.seen := took.seen ▸ mem_append_right _ mem_cons_self
  cases h with
  | idle _ sent =>
    exact .dropped hgone (took.parts (sent.symm ▸ not_terminal_nil) not_terminal_nil) habt
  | live e _ _ parts => exact .dropped hgone (took.parts parts not_terminal_nil) habt
  | ended _ parts last sent noTerminal terminal =>
    have hsent := took.sent
    rw [append_nil] at hsent
    exact .ended hgone parts last (hsent.trans sent) noTerminal terminal
  | dropped _ parts =>
    exact .dropped hgone (took.parts parts not_terminal_nil) habt

section

variable (hsnd : logic.Sound valid)
include hsnd

/-- The timer raises nothing over a request, and goes on with it. -/
theorem Stands.tick (h : Stands valid t r) (nowMs : Int) :
    ∃ res, logic.onTick (t.stage.states r) nowMs = .ok res ∧
      ∀ u : StageRun δ ι π ω ρ ε, t.Took u (.tick r nowMs) res → Stands valid u r := by
  cases hstt : t.stage.states r with
  | none =>
    refine ⟨_, rfl, fun u took => ?_⟩
    rw [← hstt] at took
    exact h.skip took rfl (by simp) (by simp) (by simp)
  | some e =>
    cases h with
    | idle state | ended state | dropped state =>
      exact absurd (hstt.symm.trans state) (some_ne_none e)
    | live e' state isValid parts flags payload done waits notAborted =>
      obtain rfl : e = e' := some.inj (hstt.symm.trans state)
      obtain ⟨data, outs, htick, hvalid⟩ := hsnd.tick nowMs isValid
      refine ⟨(outs.map .part, some { e with data := data }), ?_, fun u took => ?_⟩
      · simp [onTick, flags.1, flags.2, htick]
      · exact .live _ took.state hvalid (took.parts parts (not_terminal_of_map outs)) flags
          (fun p h => payload p (took.mem (by simp) h)) (fun h => done (took.mem (by simp) h)) waits
          (fun h => notAborted (took.mem (by simp) h))

theorem Stands.own (h : Stands valid t msg.requestId) (ho : logic.Orderly t msg) :
    ∃ res, logic.react (t.stage.states msg.requestId) msg = .ok res ∧
      ∀ u : StageRun δ ι π ω ρ ε, t.Took u msg res → Stands valid u msg.requestId := by
  cases msg with
  | newRequest r p => exact ⟨_, rfl, fun u took => h.newRequest hsnd ho took⟩
  | streamChunk r item => exact ⟨_, rfl, fun u took => h.streamChunk hsnd ho took⟩
  | streamDone r => exact ⟨_, rfl, fun u took => h.streamDone took⟩
  | tick r nowMs => exact h.tick hsnd nowMs
  | abort r => exact ⟨_, rfl, fun u took => h.abort ho took⟩

/-! ## Runs -/

/-- Every request stands somewhere, and the loop goes on. -/
structure StageInv (valid : δ → Prop) (t : StageRun δ ι π ω ρ ε) : Prop where
  running : t.stage.stopped = false
  stands : ∀ r, Stands valid t r

theorem StageInv.step (h : StageInv valid t) (ho : logic.Orderly t msg) : StageInv valid
    (t.after logic msg) := by
  obtain ⟨res, hreact, hown⟩ := (h.stands msg.requestId).own hsnd ho
  obtain ⟨hrunning, took, hothers⟩ := StageRun.after_took h.running hreact
  refine ⟨hrunning, fun r => ?_⟩
  by_cases hr : r = msg.requestId
  · subst hr
    exact hown _ took
  · obtain ⟨hstt, hsent⟩ := hothers r hr
    have hmem : ∀ m : StageMsg ι π, m.requestId = r → m ∈ (t.after logic msg).seen → m ∈ t.seen :=
      fun m hm => took.mem fun heq => hr (hm.symm.trans (congrArg StageMsg.requestId heq))
    exact (h.stands r).unchanged hstt hsent (fun p => hmem _ rfl) (fun _ => hmem _ rfl)
      ⟨hmem _ rfl, fun h => took.seen ▸ mem_append_left _ h⟩

end

theorem StageInv.initial : StageInv valid ({} : StageRun δ ι π ω ρ ε) where
  running := rfl
  stands _ := .idle rfl rfl (fun _ => not_mem_nil) not_mem_nil

theorem reachable_stands (hsnd : logic.Sound valid)
    (h : ((stageSystem logic).restrict logic.Orderly).Reachable t) : StageInv valid t := by
  refine h.invariant (P := StageInv valid) ?_ ?_
  · rintro s rfl
    exact .initial
  · rintro s msg u hs ⟨hst, ho⟩
    obtain rfl : s.after logic msg = u := some.inj hst
    exact hs.step hsnd ho

/-- How a request ends: with one terminal message behind everything else that is sent for it,
    once payload and done mark are there, unless it was aborted; and it leaves no state. -/
structure EndsOnce (t : StageRun δ ι π ω ρ ε) (r : String) : Prop where
  ends : (∃ payload, .newRequest r payload ∈ t.seen) → .streamDone r ∈ t.seen →
    .abort r ∉ t.seen → ∃ out ∈ t.stage.sent r, out.isTerminal = true
  once : ∀ parts out rest, t.stage.sent r = parts ++ out :: rest → out.isTerminal = true →
    rest = [] ∧ ∀ part ∈ parts, part.isTerminal = false
  leaves : t.Over r → t.stage.states r = none

theorem Stands.endsOnce (h : Stands valid t r) : EndsOnce t r where
  ends := by
    rintro ⟨p, hpay⟩ hd hnotAborted
    cases h with
    | idle _ _ noPayload => exact absurd hpay (noPayload p)
    | live e _ _ _ _ payload done waits =>
      rcases waits with hn | hwts
      · exact absurd hn (payload p hpay)
      · rw [done hd] at hwts
        cases hwts
    | ended _ parts last sent _ terminal => exact ⟨last, by simp [sent], terminal⟩
    | dropped _ _ aborted => exact absurd aborted hnotAborted
  once := by
    intro parts out rest hsent ht
    have hn : (∀ out ∈ t.stage.sent r, out.isTerminal = false) → False := by
      intro hparts
      rw [hparts out (by simp [hsent])] at ht
      cases ht
    cases h with
    | idle _ sent => exact (hn (sent.symm ▸ not_terminal_nil)).elim
    | live _ _ _ parts | dropped _ parts => exact (hn parts).elim
    | ended _ parts' last sent noTerminal _ =>
      rw [sent] at hsent
      rcases eq_nil_or_concat rest with rfl | ⟨rest', last', rfl⟩
      · obtain ⟨rfl, -⟩ := append_inj' hsent rfl
        exact ⟨rfl, noTerminal⟩
      · -- A terminal message before the last one would be a part.
        rw [concat_eq_append, ← cons_append, ← append_assoc] at hsent
        obtain ⟨rfl, -⟩ := append_inj' hsent rfl
        rw [noTerminal out (by simp)] at ht
        cases ht
  leaves := h.state_none_of_over

/-- A message of a request that is over does nothing. -/
theorem StageLogic.react_of_over (hstt : t.stage.states msg.requestId = none)
    (hover : t.Over msg.requestId) (ho : logic.Orderly t msg) :
    logic.react (t.stage.states msg.requestId) msg = .ok ([], none) := by
  rw [hstt]
  cases msg with
  | newRequest r p => exact absurd hover ho.tidy.1
  | streamChunk r item =>
    rcases ho.tidy with hnot | ⟨hn, hf⟩
    · exact absurd hover hnot
    · obtain rfl : item = none := isNone_iff_eq_none.1 hn
      simp [react, onStreamChunk, hf]
  | streamDone r => rfl
  | tick r nowMs => rfl
  | abort r => rfl

theorem StageInv.over_step (hsnd : logic.Sound valid) (h : StageInv valid t) (hover : t.Over r)
    (ho : logic.Orderly t msg) :
    (t.after logic msg).stage.sent r = t.stage.sent r ∧ (t.after logic msg).Over r := by
  have hsent : (t.after logic msg).stage.sent r = t.stage.sent r := by
    by_cases hr : r = msg.requestId
    · subst hr
      have hreact := react_of_over ((h.stands _).state_none_of_over hover) hover ho
      obtain ⟨-, took, -⟩ := StageRun.after_took h.running hreact
      exact took.sent.trans (append_nil _)
    · obtain ⟨res, hreact, -⟩ := (h.stands msg.requestId).own hsnd ho
      obtain ⟨-, -, hothers⟩ := StageRun.after_took h.running hreact
      exact (hothers r hr).2
  refine ⟨hsent, ?_⟩
  rcases hover with ht | ha
  · exact .inl (hsent.symm ▸ ht)
  · exact .inr (mem_append_left _ ha)

theorem over_is_final (hsnd : logic.Sound valid) (h : StageInv valid t) (hover : t.Over r)
    {msgs : List (StageMsg ι π)}
    (hrun : ((stageSystem logic).restrict logic.Orderly).Run t msgs u) :
    u.stage.sent r = t.stage.sent r ∧ u.stage.states r = none := by
  have hfnl : StageInv valid u ∧ u.stage.sent r = t.stage.sent r ∧ u.Over r := by
    refine hrun.invariant (P := fun u => StageInv valid u ∧ u.stage.sent r = t.stage.sent r ∧
      u.Over r) ?_ ⟨h, rfl, hover⟩
    rintro s msg s' ⟨hs, hsent, hover⟩ ⟨hst, ho⟩
    obtain rfl : s.after logic msg = s' := some.inj hst
    obtain ⟨hsame, hstill⟩ := hs.over_step hsnd hover ho
    exact ⟨hs.step hsnd ho, hsame.trans hsent, hstill⟩
  exact ⟨hfnl.2.1, (hfnl.1.stands r).state_none_of_over hfnl.2.2⟩

end Stage

end OmniRealtime
