import OmniRealtime.Pipeline.TerminalMerge

/-!
# Runs of a request with several terminal stages

1. `Consumes`: what the loop of `stream` has taken from its queue.
2. `Merging.step`: the coordinator, the queue and the consumer agree after every step.
3. `terminals_merge`: a request is resolved once, with what all of its terminal stages sent or
   with the first failure, and its stream ends with it.
-/

namespace OmniRealtime

open List Option Function MergeRun

universe u

open Gathering

/-! ## The consumer of the stream -/

section Consumer

variable {ρ : Type u} {expected : Finset String} {queue : List (CompleteMessage ρ)}
variable {c c' : StreamConsumer}

/-- What a consumer has taken from its queue so far. -/
structure Consumes (expected : Finset String) (queue : List (CompleteMessage ρ))
    (c : StreamConsumer) : Prop where
  stages : c.expected = expected
  taken : c.taken ≤ queue.length
  waits : c.phase = .returned ↔ Covers expected c.completed
  succeeded : c.phase ≠ .raised → (∀ msg ∈ queue.take c.taken, msg.success = true) ∧
    c.completed = (queue.take c.taken).map CompleteMessage.fromStage
  raised : c.phase = .raised → ∃ msg ∈ queue, msg.success = false

theorem Consumes.append (hc : Consumes expected queue c) (more : List (CompleteMessage ρ)) :
    Consumes expected (queue ++ more) c where
  stages := hc.stages
  taken := by
    rw [length_append]
    exact Nat.le_add_right_of_le hc.taken
  waits := hc.waits
  succeeded := by
    rw [take_append_of_le_length hc.taken]
    exact hc.succeeded
  raised := by
    intro hp
    obtain ⟨msg, hmsg, hfld⟩ := hc.raised hp
    exact ⟨msg, mem_append_left more hmsg, hfld⟩

theorem consumes_start (expected : Finset String) (queue : List (CompleteMessage ρ)) :
    Consumes expected queue { expected := expected } where
  stages := rfl
  taken := Nat.zero_le _
  waits := ⟨fun h => (by cases h), fun h => absurd h not_covers_nil⟩
  succeeded := fun _ => ⟨(by rintro _ ⟨⟩), rfl⟩
  raised := by rintro ⟨⟩

theorem covers_concat_iff (completed : List String) (stage : String) :
    Covers expected (completed ++ [stage]) ↔
      expected = ∅ ∨ expected ⊆ (completed ++ [stage]).toFinset := by
  constructor
  · exact fun h => .inr fun k hk => List.mem_toFinset.2 (h.2 k hk)
  · rintro (hn | hsub)
    · refine ⟨by simp, fun k hk => ?_⟩
      rw [hn] at hk
      exact absurd hk (Finset.notMem_empty k)
    · exact ⟨by simp, fun k hk => List.mem_toFinset.1 (hsub hk)⟩

theorem Consumes.get (hc : Consumes expected queue c) (hget : c.get queue = some c') :
    Consumes expected queue c' := by
  unfold StreamConsumer.get at hget
  split at hget
  case isFalse => cases hget
  next hreading =>
  split at hget
  · cases hget
  next msg hmsg =>
  have hlt := (List.getElem?_eq_some_iff.1 hmsg).1
  have hnot : ¬Covers expected c.completed := fun h => by
    rw [← hc.waits, hreading] at h
    cases h
  split at hget
  · next hfld =>
    cases hget
    exact ⟨hc.stages, hlt, ⟨fun h => (by cases h), fun h => absurd h hnot⟩,
      fun h => absurd rfl h, fun _ => ⟨msg, mem_of_getElem? hmsg, hfld⟩⟩
  · next hsuc =>
    cases hget
    obtain ⟨hbef, hcmp⟩ := hc.succeeded (by rw [hreading]; simp)
    have htake : queue.take (c.taken + 1) = queue.take c.taken ++ [msg] := by
      rw [take_add_one, hmsg]
      rfl
    refine ⟨hc.stages, hlt, ?_, fun _ => ?_, fun h => ?_⟩
    · dsimp only
      rw [covers_concat_iff, hc.stages]
      split
      · next hall => exact ⟨fun _ => hall, fun _ => rfl⟩
      · next hall => exact ⟨fun h => (by cases h), fun h => absurd h hall⟩
    · dsimp only
      rw [htake, map_append, hcmp]
      refine ⟨fun m hm => ?_, rfl⟩
      obtain hm | hm := mem_append.1 hm
      · exact hbef m hm
      · exact mem_singleton.1 hm ▸ Bool.of_not_eq_false hsuc
    · dsimp only at h
      split at h
      · cases h
      · cases h

end Consumer

/-! ## Runs -/

section Run

variable {ρ : Type u} (id : String) (h : Nat) (streaming : Bool) (expected : Finset String)

/-- What holds of a run: `mergeOf` says where it stands. -/
structure Merging (r : MergeRun ρ) : Prop where
  registered : Registered id h streaming expected r.coord
  agrees : Agrees id h streaming expected r.coord r.queue (mergeOf expected r.seen)
  consumer : ∀ c, r.consumer = some c → streaming = true ∧ Consumes expected r.queue c

variable {id h streaming expected} {r r' : MergeRun ρ}

open Coordinator

section

variable (hr : Merging id h streaming expected r)
include hr

theorem Merging.lt_length : h < r.coord.calls.length := by
  obtain ⟨c, hc, -⟩ := map_eq_some_iff.1 hr.registered.terminals
  exact (List.getElem?_eq_some_iff.1 hc).1

/-- A step that leaves the request, its completions and its queue. -/
theorem Merging.apart {t : Coordinator ρ} (hst : Apart id h r.coord t)
    {consumer : Option StreamConsumer}
    (hconsumer : ∀ c, consumer = some c → streaming = true ∧ Consumes expected r.queue c) :
    Merging id h streaming expected { r with coord := t, consumer := consumer } :=
  ⟨hr.registered.apart hst, hr.agrees.apart hst, hconsumer⟩

theorem Merging.append (more : List (CompleteMessage ρ)) :
    ∀ c, r.consumer = some c → streaming = true ∧ Consumes expected (r.queue ++ more) c :=
  fun c hc => ⟨(hr.consumer c hc).1, (hr.consumer c hc).2.append more⟩

theorem Merging.step {e : MergeEvent ρ} (he : Undisturbed id h streaming r e)
    (hstep : mergeStep id h streaming r e = some r') :
    Merging id h streaming expected r' := by
  have hapart : ∀ {e t}, coordStep r.coord e = some t → Elsewhere id h r.coord e →
      Apart id h r.coord t := fun ht he => apart_step hr.registered.sole hr.lt_length he ht
  cases e with
  | get =>
    unfold mergeStep at hstep
    obtain ⟨c', hget, rfl⟩ := map_eq_some_iff.1 hstep
    obtain ⟨c, hc, hget⟩ := bind_eq_some_iff.1 hget
    refine ⟨hr.registered, hr.agrees, fun c'' hc'' => ?_⟩
    cases hc''
    exact ⟨(hr.consumer c hc).1, (hr.consumer c hc).2.get hget⟩
  | coord e =>
    unfold mergeStep at hstep
    obtain ⟨t, ht, rfl⟩ := map_eq_some_iff.1 hstep
    cases e with
    | complete msg =>
      by_cases hid : msg.requestId = id
      · dsimp only [coordStep] at ht
        split at ht
        case isFalse => cases ht
        next hopen =>
        cases ht
        have hn := isNone_iff_eq_none.1 hopen.1
        obtain ⟨hregistered, ha⟩ :=
          hr.agrees.complete hr.registered hn hid (sound_mergeOf r.seen)
        refine ⟨hregistered, ?_, ?_⟩
        · show Agrees id h streaming expected _ _
            (mergeOf expected (if msg.requestId = id then r.seen ++ [msg] else r.seen))
          rw [if_pos hid, mergeOf_concat]
          exact ha
        · show ∀ c, r.consumer = some c → streaming = true ∧ Consumes expected
            (queueWith id h r.coord r.queue msg) c
          unfold queueWith
          split
          · exact hr.append [msg]
          · exact hr.consumer
      · have hkeep := hr.apart (hapart ht hid) hr.consumer
        dsimp only [seenAfter, queueAfter, consumerAfter]
        rw [if_neg hid, if_neg (fun h => hid h.1)]
        exact hkeep
    | failureBroadcast =>
      dsimp only [coordStep] at ht
      split at ht
      case h_1 => cases ht
      next f hf =>
      cases ht
      dsimp only [seenAfter, queueAfter, consumerAfter]
      rw [hf]
      dsimp only
      by_cases hid : f.msg.requestId = id
      · obtain ⟨hregistered, ha⟩ := hr.agrees.broadcast hr.registered hf hid
        refine ⟨hregistered, ha, ?_⟩
        dsimp only
        split
        · exact hr.append [f.msg]
        · exact hr.consumer
      · rw [if_neg (fun h => hid h.1)]
        exact hr.apart (apart_finishFailure hr.registered.sole hid hf) hr.consumer
    | submitted k =>
      refine hr.apart (hapart ht trivial) fun c hc => ?_
      dsimp only [consumerAfter] at hc
      split at hc
      · next hk =>
        cases hc
        have hexpected : r.coord.expectedTerminalStages id = expected := by
          unfold expectedTerminalStages
          have htracked := he hk.1 hk.2
          have ha := hr.agrees
          have hreq : r.coord.requests id = some h := by
            cases hm : mergeOf expected r.seen with
            | waiting arrivals =>
              rw [hm] at ha
              exact ha.1.request
            | failed arrivals msg =>
              rw [hm] at ha
              obtain ⟨hw, -⟩ | ⟨hresolved, -⟩ := ha
              · exact hw.request
              · exact absurd hresolved.request htracked
            | done arrivals last =>
              rw [hm] at ha
              exact absurd ha.1.request htracked
          rw [hreq]
          show (r.coord.terminalsOf h).getD _ = expected
          rw [hr.registered.terminals]
          rfl
        rw [hexpected]
        exact ⟨hk.2, consumes_start expected r.queue⟩
      · exact hr.consumer c hc
    | registerStage name endpoint dpRank capacity | submit id' streaming' dpRank answer
    | submitFailed k | submitCancelled k | waiterCancelled k | waiterResumed k | streamLeft k
    | streamClosed k | abort id' | abortBroadcast id' | abortFailed id' | abortTaskDone id'
    | failureDropped => exact hr.apart (hapart ht he) hr.consumer
    | failPending message => exact he.elim

end

end Run

/-! ## The merge -/

section Merge

variable {ρ : Type u} {arrivals : List (String × ρ)} {expected : Finset String}

/-- A success delivers the result itself for at most one stage, and else the dict of what each
    stage sent last: in any order, where the results of a stage agree. -/
def Delivers (expected : Finset String) (arrivals : List (String × ρ)) (last : ρ) :
    Outcome ρ → Prop
  | .result result => expected.card ≤ 1 ∧ result = last
  | .merged partials => 1 < expected.card ∧ partials.keys.Nodup ∧
      partials.keys.toFinset = expected ∧ (∀ k ∈ expected, partials.get k = lastFrom arrivals k) ∧
      ∀ value : String → ρ, (∀ a ∈ arrivals, a.2 = value a.1) →
        ∀ k ∈ expected, partials.get k = some (value k)
  | .exception _ | .cancelled => False

theorem delivers_successOutcome (hcovers : Covers expected (arrivals.map Prod.fst))
    (hin : expected ≠ ∅ → ∀ k ∈ arrivals.map Prod.fst, k ∈ expected) (last : ρ) :
    Delivers expected arrivals last (successOutcome expected arrivals last) := by
  unfold successOutcome
  split
  · next hcard => exact ⟨hcard, rfl⟩
  · next hcard =>
    have hsome : expected ≠ ∅ := by
      rintro rfl
      exact hcard (Nat.zero_le 1)
    refine ⟨Nat.lt_of_not_le hcard, nodup_gathered arrivals, ?_, fun k _ => get_gathered arrivals k,
      fun value hval k hk => get_gathered_of_agree hval (hcovers.2 k hk)⟩
    rw [toFinset_keys_gathered]
    ext k
    rw [List.mem_toFinset]
    exact ⟨hin hsome k, hcovers.2 k⟩

theorem mem_arrivalsOf {msgs : List (CompleteMessage ρ)} {k : String} (hsome : expected ≠ ∅)
    (hk : k ∈ (arrivalsOf expected msgs).map Prod.fst) : k ∈ expected := by
  unfold arrivalsOf at hk
  rw [List.map_map, List.mem_map] at hk
  obtain ⟨msg, hmsg, rfl⟩ := hk
  exact of_decide_eq_true (mem_filter.1 hmsg).2 hsome

/-- The loop of `stream` and the request it follows. -/
structure ConsumerFollows (id : String) (h : Nat) (streaming : Bool) (expected : Finset String)
    (r : MergeRun ρ) (c : StreamConsumer) : Prop where
  stages : c.expected = expected
  waits : c.phase = .returned ↔ Covers expected c.completed
  returned : c.phase = .returned → ∃ arrivals last, c.completed = arrivals.map Prod.fst ∧
    r.coord.outcomesOf h = some [successOutcome expected arrivals last]
  raised : c.phase = .raised → ∃ msg ∈ r.queue, msg.success = false ∧
    r.coord.outcomesOf h = some [failureOutcome streaming msg]
  /-- A loop that waits for more waits for a request that is not resolved. -/
  blocked : c.phase = .reading → c.taken = r.queue.length → r.coord.outcomesOf h = some []

/-- The request is resolved once: not before all stages have succeeded, with what they sent, or
    with the first failure. -/
structure Merges (id : String) (h : Nat) (streaming : Bool) (expected : Finset String)
    (r : MergeRun ρ) : Prop where
  once : ∃ outcomes, r.coord.outcomesOf h = some outcomes ∧ outcomes.length ≤ 1
  undecided : Undecided expected r.seen → r.coord.outcomesOf h = some []
  fails : ∀ before msg after, r.seen = before ++ msg :: after → Undecided expected before →
    msg.success = false →
      r.coord.outcomesOf h = some [] ∧ r.coord.failing = some ⟨h, msg⟩ ∨
        r.coord.outcomesOf h = some [failureOutcome streaming msg]
  completes : ∀ before msg after, r.seen = before ++ msg :: after → Undecided expected before →
    msg.success = true → Covers expected ((arrivalsOf expected (before ++ [msg])).map Prod.fst) →
      ∃ outcome, r.coord.outcomesOf h = some [outcome] ∧
        Delivers expected (arrivalsOf expected (before ++ [msg])) msg.result outcome
  consumer : ∀ c, r.consumer = some c → ConsumerFollows id h streaming expected r c

variable {id : String} {h : Nat} {streaming : Bool} {expected : Finset String} {r : MergeRun ρ}
  {failures : List (CompleteMessage ρ)}

section

variable (hr : Merging id h streaming expected r) {msg : CompleteMessage ρ}
include hr

theorem Merging.outcomes :
    ∃ outcomes, r.coord.outcomesOf h = some outcomes ∧ outcomes.length ≤ 1 := by
  have ha := hr.agrees
  cases hm : mergeOf expected r.seen with
  | waiting arrivals =>
    rw [hm] at ha
    exact ⟨_, ha.1.outcomes, Nat.zero_le 1⟩
  | failed arrivals msg =>
    rw [hm] at ha
    obtain ⟨hw, -⟩ | ⟨hresolved, -⟩ := ha
    · exact ⟨_, hw.outcomes, Nat.zero_le 1⟩
    · exact ⟨_, hresolved.outcomes, le_refl 1⟩
  | done arrivals last =>
    rw [hm] at ha
    exact ⟨_, ha.1.outcomes, le_refl 1⟩

theorem Merging.fails {before after : List (CompleteMessage ρ)}
    (hseen : r.seen = before ++ msg :: after) (hbef : Undecided expected before)
    (hmsg : msg.success = false) :
    r.coord.outcomesOf h = some [] ∧ r.coord.failing = some ⟨h, msg⟩ ∨
      r.coord.outcomesOf h = some [failureOutcome streaming msg] := by
  have hstep : (Merged.waiting (arrivalsOf expected before)).step expected msg =
      .failed (arrivalsOf expected before) msg := if_pos hmsg
  have ha := hr.agrees
  rw [hseen, mergeOf_split before msg after hbef (by rw [hstep]; simp), hstep] at ha
  obtain ⟨hw, hflg, -⟩ | ⟨hresolved, -⟩ := ha
  · exact .inl ⟨hw.outcomes, hflg⟩
  · exact .inr hresolved.outcomes

theorem Merging.completes {before after : List (CompleteMessage ρ)}
    (hseen : r.seen = before ++ msg :: after) (hbef : Undecided expected before)
    (hmsg : msg.success = true)
    (hcovers : Covers expected ((arrivalsOf expected (before ++ [msg])).map Prod.fst)) :
    ∃ outcome, r.coord.outcomesOf h = some [outcome] ∧
      Delivers expected (arrivalsOf expected (before ++ [msg])) msg.result outcome := by
  have hact : Active expected msg := by
    by_contra hinactive
    rw [arrivalsOf_concat, if_neg hinactive, append_nil] at hcovers
    exact hbef.missing hcovers
  have harrivals : arrivalsOf expected (before ++ [msg]) =
      arrivalsOf expected before ++ [(msg.fromStage, msg.result)] := by
    rw [arrivalsOf_concat, if_pos hact]
  have hstep : (Merged.waiting (arrivalsOf expected before)).step expected msg =
      .done (arrivalsOf expected (before ++ [msg])) msg.result := by
    rw [step_of_success hmsg, if_pos hact, ← harrivals, if_pos hcovers]
  have ha := hr.agrees
  rw [hseen, mergeOf_split before msg after hbef (by rw [hstep]; simp), hstep] at ha
  exact ⟨_, ha.1.outcomes,
    delivers_successOutcome hcovers (fun hsome _ hk => mem_arrivalsOf hsome hk) _⟩

end

theorem Consumes.completed_eq {queue : List (CompleteMessage ρ)} {c : StreamConsumer}
    (hc : Consumes expected queue c) (hp : c.phase ≠ .raised) (hstm : streaming = true)
    (hq : Queued streaming queue arrivals failures)
    (hfailures : ∀ msg ∈ failures, msg.success = false) :
    c.completed = (arrivals.map Prod.fst).take c.taken := by
  obtain ⟨results, rfl, -, rfl⟩ := hq hstm
  obtain ⟨hsuc, hcmp⟩ := hc.succeeded hp
  rw [take_append] at hsuc hcmp
  have hn : failures.take (c.taken - results.length) = [] := by
    cases htake : failures.take (c.taken - results.length) with
    | nil => rfl
    | cons msg rest =>
      have hmem : msg ∈ failures.take (c.taken - results.length) := htake ▸ mem_cons_self
      have htrue := hsuc msg (mem_append_right _ hmem)
      rw [hfailures msg (mem_of_mem_take hmem)] at htrue
      cases htrue
  rw [hcmp, hn, append_nil, List.map_map, map_take]
  rfl

theorem not_success_of_mem {queue : List (CompleteMessage ρ)} (hstm : streaming = true)
    (hq : Queued streaming queue arrivals failures) {msg : CompleteMessage ρ}
    (hmsg : msg ∈ queue) (hfld : msg.success = false) : msg ∈ failures := by
  obtain ⟨results, rfl, hsuc, -⟩ := hq hstm
  obtain hmem | hmem := mem_append.1 hmsg
  · rw [hsuc msg hmem] at hfld
    cases hfld
  · exact hmem

section

variable (hr : Merging id h streaming expected r) {c : StreamConsumer}
include hr

theorem Merging.returned (hc : r.consumer = some c) (hp : c.phase = .returned) :
    ∃ arrivals last, c.completed = arrivals.map Prod.fst ∧
      r.coord.outcomesOf h = some [successOutcome expected arrivals last] := by
  obtain ⟨hstm, hconsumes⟩ := hr.consumer c hc
  have hnot : c.phase ≠ .raised := by simp [hp]
  have hcovers := hconsumes.waits.1 hp
  have ha := hr.agrees
  have hsnd : (mergeOf expected r.seen).Sound expected := sound_mergeOf r.seen
  cases hm : mergeOf expected r.seen with
  | waiting arrivals =>
    rw [hm] at ha hsnd
    rw [hconsumes.completed_eq hnot hstm ha.2.2.2
      (by rintro _ ⟨⟩)] at hcovers
    exact absurd hcovers.of_take hsnd.1
  | failed arrivals msg =>
    rw [hm] at ha hsnd
    obtain ⟨-, -, -, hq⟩ | ⟨-, hq⟩ := ha
    · rw [hconsumes.completed_eq hnot hstm hq
        (by rintro _ ⟨⟩)] at hcovers
      exact absurd hcovers.of_take hsnd.1
    · rw [hconsumes.completed_eq hnot hstm hq
        fun _ h => mem_singleton.1 h ▸ hsnd.2] at hcovers
      exact absurd hcovers.of_take hsnd.1
  | done arrivals last =>
    rw [hm] at ha hsnd
    refine ⟨arrivals, last, ?_, ha.1.outcomes⟩
    have hcmp := hconsumes.completed_eq hnot hstm ha.2
      (by rintro _ ⟨⟩)
    obtain ⟨before, k, rfl, hmissing, -⟩ := hsnd
    -- the results before the last do not cover the stages
    have hall : (before ++ [(k, last)]).length ≤ c.taken := by
      refine Nat.le_of_not_lt fun hlt => hmissing ?_
      rw [length_append, length_singleton] at hlt
      rw [hcmp, map_append, take_append_of_le_length
        (by rw [length_map]; exact Nat.le_of_lt_succ hlt)] at hcovers
      exact hcovers.of_take
    rw [hcmp]
    exact take_of_length_le (by rw [length_map]; exact hall)

theorem Merging.raised (hc : r.consumer = some c) (hp : c.phase = .raised) :
    ∃ msg ∈ r.queue, msg.success = false ∧
      r.coord.outcomesOf h = some [failureOutcome streaming msg] := by
  obtain ⟨hstm, hconsumes⟩ := hr.consumer c hc
  obtain ⟨msg, hmsg, hfld⟩ := hconsumes.raised hp
  have ha := hr.agrees
  refine ⟨msg, hmsg, hfld, ?_⟩
  cases hm : mergeOf expected r.seen with
  | waiting arrivals =>
    rw [hm] at ha
    have hmem := not_success_of_mem hstm ha.2.2.2 hmsg hfld
    exact absurd hmem not_mem_nil
  | failed arrivals failure =>
    rw [hm] at ha
    obtain ⟨-, -, -, hq⟩ | ⟨hresolved, hq⟩ := ha
    · exact absurd (not_success_of_mem hstm hq hmsg hfld) not_mem_nil
    · rw [mem_singleton.1 (not_success_of_mem hstm hq hmsg hfld)]
      exact hresolved.outcomes
  | done arrivals last =>
    rw [hm] at ha
    exact absurd (not_success_of_mem hstm ha.2 hmsg hfld) not_mem_nil

theorem Merging.blocked (hc : r.consumer = some c) (hp : c.phase = .reading)
    (htaken : c.taken = r.queue.length) : r.coord.outcomesOf h = some [] := by
  obtain ⟨hstm, hconsumes⟩ := hr.consumer c hc
  have hnot : c.phase ≠ .raised := by simp [hp]
  have hmissing : ¬Covers expected c.completed := by
    rw [← hconsumes.waits, hp]
    simp
  have hsuc := (hconsumes.succeeded hnot).1
  rw [htaken, take_length] at hsuc
  have ha := hr.agrees
  have hsnd : (mergeOf expected r.seen).Sound expected := sound_mergeOf r.seen
  cases hm : mergeOf expected r.seen with
  | waiting arrivals =>
    rw [hm] at ha
    exact ha.1.outcomes
  | failed arrivals msg =>
    rw [hm] at ha hsnd
    obtain ⟨hw, -⟩ | ⟨-, hq⟩ := ha
    · exact hw.outcomes
    · obtain ⟨results, hresults, -⟩ := hq hstm
      have htrue := hsuc msg (by rw [hresults]; simp)
      rw [hsnd.2] at htrue
      cases htrue
  | done arrivals last =>
    rw [hm] at ha hsnd
    obtain ⟨-, -, -, -, hcovers⟩ := hsnd
    have hcmp := hconsumes.completed_eq hnot hstm ha.2
      (by rintro _ ⟨⟩)
    obtain ⟨results, hresults, -, harrivals⟩ := ha.2 hstm
    have hlen : arrivals.length ≤ c.taken := by
      rw [htaken, hresults, ← harrivals, length_map, append_nil]
    rw [take_of_length_le (by rw [length_map]; exact hlen)] at hcmp
    exact absurd (hcmp ▸ hcovers) hmissing

theorem Merging.merges :
    Merges id h streaming expected r where
  once := hr.outcomes
  undecided := by
    intro hundecided
    have ha := hr.agrees
    rw [mergeOf_of_undecided hundecided] at ha
    exact ha.1.outcomes
  fails := fun _ _ _ => hr.fails
  completes := fun _ _ _ => hr.completes
  consumer := fun c hc =>
    { stages := (hr.consumer c hc).2.stages
      waits := (hr.consumer c hc).2.waits
      returned := hr.returned hc
      raised := hr.raised hc
      blocked := hr.blocked hc }

end

open Coordinator

theorem merging_start {s : Coordinator ρ} (hs : s.Tables) {dpRank : Option Nat}
    {answer : ResolverAnswer} {admitted : ReplicaInfo × Nat}
    (hadmission : s.admission id dpRank = some admitted)
    (hresolve : s.resolveTerminalStages answer = some expected) (hquiet : NotFailing id s) :
    Merging id s.calls.length streaming expected
      { coord := s.submitRequest id streaming dpRank answer } := by
  obtain ⟨hreq, hfuture, hq, -⟩ := not_reserved_of_admission hadmission
  obtain ⟨replica, cursor⟩ := admitted
  rw [submitRequest_of_resolved hadmission hresolve]
  refine ⟨⟨fun id' hid => ?_, ?_, ?_⟩, ⟨⟨update_self .., update_self .., ?_⟩,
    hquiet, ?_, ?_⟩, (by rintro _ ⟨⟩)⟩
  · obtain ⟨heq, -⟩ | ⟨-, hold⟩ := update_eq_some hid
    · exact heq
    · exact absurd (hs.futures id' _ hold) (lt_irrefl _)
  · show ((s.calls ++ [_])[s.calls.length]?).map _ = _
    rw [getElem?_concat_length]
    rfl
  · dsimp only
    split
    · exact update_self ..
    · exact hq
  · show ((s.calls ++ [_])[s.calls.length]?).map _ = _
    rw [getElem?_concat_length]
    rfl
  · have hn : s.partialResults id = none := by
      by_contra hsome
      obtain ⟨k, -, hk, -⟩ := hs.partials id hsome
      rw [hreq] at hk
      cases hk
    show (s.partialResults id).getD [] = _
    rw [hn]
    rfl
  · exact fun _ => ⟨[], rfl, (by rintro _ ⟨⟩), rfl⟩

/-- In every run after a request is registered, whatever the order of the completions, it is
    resolved once with what all of its terminal stages sent, or with the first failure, and a
    stream whose submission returns while it is tracked waits for these stages. -/
theorem terminals_merge {ρ : Type u} {s : Coordinator ρ} (hs : (coordSystem ρ).Reachable s)
    {id : String} {streaming : Bool} {dpRank : Option Nat} {answer : ResolverAnswer}
    {admitted : ReplicaInfo × Nat} {expected : Finset String}
    (hadmission : s.admission id dpRank = some admitted)
    (hresolve : s.resolveTerminalStages answer = some expected) (hquiet : NotFailing id s)
    {r : MergeRun ρ} (hr : ((mergeSystem id s.calls.length streaming
      (s.submitRequest id streaming dpRank answer)).restrict
        (Undisturbed id s.calls.length streaming)).Reachable r) :
    Merges id s.calls.length streaming expected r := by
  have hmerging : Merging id s.calls.length streaming expected r := by
    refine hr.invariant (fun r hinit => ?_) fun r e r' hr hstep => hr.step hstep.2 hstep.1
    obtain rfl := hinit
    exact merging_start (tables_of_reachable hs) hadmission hresolve hquiet
  exact hmerging.merges

end Merge

/-! ## Two terminal stages -/

/-- A coordinator with one replica of its entry stage and two terminal stages. -/
def exTerminals : Coordinator Nat :=
  (System.exec coordStep { entryStage := "preprocess", terminalStages := {"decode", "talker"} }
    [.registerStage "preprocess" "inproc://preprocess" none none]).getD
      { entryStage := "preprocess", terminalStages := {"decode", "talker"} }

def exCompletion (stage : String) (success : Bool) (result : Nat) : CompleteMessage Nat where
  requestId := "r"
  fromStage := stage
  success := success
  result := result

theorem reachable_exTerminals : (coordSystem Nat).Reachable exTerminals := by
  have hrun : System.exec coordStep
      ({ entryStage := "preprocess", terminalStages := {"decode", "talker"} } : Coordinator Nat)
      [.registerStage "preprocess" "inproc://preprocess" none none] = some exTerminals := rfl
  exact .of_exec (.init ⟨_, _, rfl⟩) hrun

/-- A stage completes while the submission is suspended, and once more after it. -/
theorem terminals_merge_twice : ∃ r : MergeRun Nat,
    r.seen.map CompleteMessage.fromStage = ["decode", "decode", "talker"] ∧
      Merges "r" 0 true {"decode", "talker"} r ∧
      r.coord.outcomesOf 0 = some [.merged [("decode", 1), ("talker", 2)]] ∧
      r.consumer.map StreamConsumer.phase = some .returned := by
  have h₀ : ((mergeSystem "r" 0 true (exTerminals.submitRequest "r" true none .unset)).restrict
      (Undisturbed "r" 0 true)).Reachable _ := .init rfl
  have h₁ := h₀.step ⟨(rfl : mergeStep "r" 0 true _
    (.coord (.complete (exCompletion "decode" true 1))) = some _), trivial⟩
  have h₂ := h₁.step ⟨(rfl : mergeStep "r" 0 true _ (.coord (.submitted 0)) = some _),
    (by rintro _ _ ⟨⟩)⟩
  have h₃ := h₂.step ⟨(rfl : mergeStep "r" 0 true _
    (.coord (.complete (exCompletion "decode" true 1))) = some _), trivial⟩
  have h₄ := h₃.step ⟨(rfl : mergeStep "r" 0 true _ .get = some _), trivial⟩
  have h₅ := h₄.step ⟨(rfl : mergeStep "r" 0 true _
    (.coord (.complete (exCompletion "talker" true 2))) = some _), trivial⟩
  have h₆ := h₅.step ⟨(rfl : mergeStep "r" 0 true _ .get = some _), trivial⟩
  have h₇ := h₆.step ⟨(rfl : mergeStep "r" 0 true _ .get = some _), trivial⟩
  have hadmission : exTerminals.admission "r" none = some _ := rfl
  have hresolve : exTerminals.resolveTerminalStages .unset = some _ := rfl
  exact ⟨_, rfl, terminals_merge reachable_exTerminals hadmission hresolve
    (by rintro _ ⟨⟩) h₇, rfl, rfl⟩

/-- A stage that the request does not wait for fails it; and a stream whose only terminal stage
    completes while its submission is suspended goes on to wait for another stage. -/
theorem inactive_failure_and_late_stream :
    (∃ r, System.exec (mergeStep "r" 0 false)
      { coord := exTerminals.submitRequest "r" false none (.names ["decode"]) }
      [.coord (.submitted 0), .coord (.complete (exCompletion "talker" false 0)),
        .coord .failureBroadcast] = some r ∧
      r.coord.terminalsOf 0 = some {"decode"} ∧
      r.coord.outcomesOf 0 = some [.exception "Unknown error"]) ∧
    ∃ r c, System.exec (mergeStep "r" 0 true)
      { coord := exTerminals.submitRequest "r" true none (.names ["decode"]) }
      [.coord (.complete (exCompletion "decode" true 1)), .coord (.submitted 0), .get] = some r ∧
      r.coord.terminalsOf 0 = some {"decode"} ∧ r.coord.outcomesOf 0 = some [.result 1] ∧
      r.consumer = some c ∧ c.expected = {"decode", "talker"} ∧ c.phase = .reading ∧
      c.taken = r.queue.length := by
  refine ⟨⟨_, rfl, rfl, rfl⟩, _, _, rfl, rfl, rfl, rfl, rfl, rfl, rfl⟩

end OmniRealtime
