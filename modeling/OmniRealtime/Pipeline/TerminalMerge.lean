import OmniRealtime.Lib.Gather
import OmniRealtime.Pipeline.CoordinatorTables

/-!
# Merging the terminal stages of a request

What the completions of one request come to, in whatever order they arrive, while its submission
may still be suspended, and what a consumer of its stream sees.

1. `Merged.step`, `mergeOf`: the completions of a request, folded; `mergeOf_split`: the first that
   decides, decides.
2. `mergeStep`: the coordinator and the consumer of one stream.
3. `Agrees`: the coordinator stands where `mergeOf` says; `Agrees.complete`, `Agrees.broadcast`.
-/

namespace OmniRealtime

open List Option Function

universe u

open Gathering

/-! ## What the completions come to -/

/-- The completions of one request: results that still wait, results and a failure, or all that
    were awaited with the last result. -/
inductive Merged (ρ : Type u)
  | waiting (arrivals : List (String × ρ))
  | failed (arrivals : List (String × ρ)) (msg : CompleteMessage ρ)
  | done (arrivals : List (String × ρ)) (last : ρ)

section Spec

variable {ρ : Type u} (expected : Finset String) (msg : CompleteMessage ρ)
  (msgs : List (CompleteMessage ρ))

/-- A completion that counts: without terminal stages, every one does. -/
def Active (msg : CompleteMessage ρ) : Prop := expected ≠ ∅ → msg.fromStage ∈ expected

instance (msg : CompleteMessage ρ) : Decidable (Active expected msg) :=
  inferInstanceAs (Decidable (_ → _))

def Merged.step : Merged ρ → CompleteMessage ρ → Merged ρ
  | .waiting arrivals, msg =>
    if msg.success = false then .failed arrivals msg
    else if Active expected msg then
      let arrivals := arrivals ++ [(msg.fromStage, msg.result)]
      if Covers expected (arrivals.map Prod.fst) then .done arrivals msg.result
      else .waiting arrivals
    else .waiting arrivals
  | merged, _ => merged

def mergeOf (msgs : List (CompleteMessage ρ)) : Merged ρ :=
  msgs.foldl (Merged.step expected) (.waiting [])

/-- The results that count. -/
def arrivalsOf (msgs : List (CompleteMessage ρ)) : List (String × ρ) :=
  (msgs.filter fun msg => Active expected msg).map fun msg => (msg.fromStage, msg.result)

/-- No completion has failed, and the expected stages have not all completed. -/
structure Undecided (msgs : List (CompleteMessage ρ)) : Prop where
  succeeded : ∀ msg ∈ msgs, msg.success = true
  missing : ¬Covers expected ((arrivalsOf expected msgs).map Prod.fst)

theorem mergeOf_concat :
    mergeOf expected (msgs ++ [msg]) = (mergeOf expected msgs).step expected msg := by
  unfold mergeOf
  rw [foldl_append]
  rfl

theorem arrivalsOf_concat : arrivalsOf expected (msgs ++ [msg]) = arrivalsOf expected msgs ++
      if Active expected msg then [(msg.fromStage, msg.result)] else [] := by
  unfold arrivalsOf
  rw [filter_append, map_append, filter_singleton]
  by_cases h : Active expected msg
  · simp [h]
  · simp [h]

variable {expected}

theorem mergeOf_of_undecided {msgs : List (CompleteMessage ρ)} (h : Undecided expected msgs) :
    mergeOf expected msgs = .waiting (arrivalsOf expected msgs) := by
  induction msgs using List.reverseRecOn with
  | nil => rfl
  | append_singleton msgs msg ih =>
    have hbef : Undecided expected msgs := by
      refine ⟨fun m hm => h.succeeded m (mem_append_left _ hm), fun hcovers => h.missing ?_⟩
      rw [arrivalsOf_concat, map_append]
      exact hcovers.append _
    have hmissing := h.missing
    rw [arrivalsOf_concat] at hmissing
    rw [mergeOf_concat, ih hbef, arrivalsOf_concat]
    dsimp only [Merged.step]
    rw [if_neg (by simp [h.succeeded msg (by simp)])]
    by_cases hact : Active expected msg
    · rw [if_pos hact] at hmissing ⊢
      rw [if_pos hact, if_neg hmissing]
    · rw [if_neg hact, if_neg hact, append_nil]

theorem mergeOf_of_decided {m : Merged ρ} (hm : ∀ arrivals, m ≠ .waiting arrivals)
    (msgs : List (CompleteMessage ρ)) : msgs.foldl (Merged.step expected) m = m := by
  induction msgs with
  | nil => rfl
  | cons msg msgs ih =>
    have hstep : m.step expected msg = m := by
      cases m with
      | waiting arrivals => exact absurd rfl (hm arrivals)
      | failed arrivals msg => rfl
      | done arrivals last => rfl
    rw [foldl_cons, hstep]
    exact ih

theorem mergeOf_split (pre : List (CompleteMessage ρ)) (msg : CompleteMessage ρ)
    (post : List (CompleteMessage ρ)) (hpre : Undecided expected pre)
    (hdecides : ∀ arrivals, (Merged.waiting (arrivalsOf expected pre)).step expected msg ≠
      .waiting arrivals) :
    mergeOf expected (pre ++ msg :: post) =
      (Merged.waiting (arrivalsOf expected pre)).step expected msg := by
  have hfold : mergeOf expected (pre ++ msg :: post) =
      post.foldl (Merged.step expected) ((mergeOf expected pre).step expected msg) := by
    unfold mergeOf
    rw [foldl_append, foldl_cons]
  rw [hfold, mergeOf_of_undecided hpre]
  exact mergeOf_of_decided hdecides post

end Spec

/-! ## The run of one request -/

inductive ConsumerPhase
  | reading | returned | raised
  deriving DecidableEq, Repr

/-- The loop of `stream`, after its submission has returned. -/
structure StreamConsumer where
  expected : Finset String
  completed : List String := []
  /-- How many messages it has taken from its queue. -/
  taken : Nat := 0
  phase : ConsumerPhase := .reading

/-- One turn of the loop of `stream` on a completion; `none` while the queue is empty. -/
def StreamConsumer.get {ρ : Type u} (c : StreamConsumer) (queue : List (CompleteMessage ρ)) :
    Option StreamConsumer :=
  if c.phase = .reading then
    match queue[c.taken]? with
    | none => none
    | some msg =>
      if msg.success = false then some { c with taken := c.taken + 1, phase := .raised }
      else
        let completed := c.completed ++ [msg.fromStage]
        some { c with
          taken := c.taken + 1
          completed := completed
          phase :=
            if c.expected = ∅ ∨ c.expected ⊆ completed.toFinset then .returned else .reading }
  else none

/-- The coordinator, the completions of one request it has handled, and the queue and the consumer
    of its stream. Chunks are yielded without any effect on the consumer; they are left out. -/
structure MergeRun (ρ : Type u) where
  coord : Coordinator ρ
  seen : List (CompleteMessage ρ) := []
  /-- What was put in its stream queue, oldest first. -/
  queue : List (CompleteMessage ρ) := []
  consumer : Option StreamConsumer := none

inductive MergeEvent (ρ : Type u)
  | coord (e : CoordEvent ρ)
  | get

namespace Coordinator

variable {ρ : Type u}

def expectedTerminalStages (s : Coordinator ρ) (requestId : String) : Finset String :=
  ((s.requests requestId).bind s.terminalsOf).getD s.terminalStages

/-- `_handle_completion` puts a success in the stream queue. -/
def putsCompletion (s : Coordinator ρ) (msg : CompleteMessage ρ) : Bool :=
  match s.requests msg.requestId with
  | none => false
  | some h =>
    if !msg.success then false
    else
      match s.verdict h msg with
      | .inactive => false
      | .waits _ | .single _ | .merged _ => true

end Coordinator

section Run

variable {ρ : Type u} (id : String) (h : Nat) (streaming : Bool)

namespace MergeRun

variable (r : MergeRun ρ)

def seenAfter : CoordEvent ρ → List (CompleteMessage ρ)
  | .complete msg => if msg.requestId = id then r.seen ++ [msg] else r.seen
  | _ => r.seen

def queueAfter : CoordEvent ρ → List (CompleteMessage ρ)
  | .complete msg =>
    if msg.requestId = id ∧ r.coord.putsCompletion msg ∧ r.coord.streamQueues id = some h then
      r.queue ++ [msg]
    else r.queue
  | .failureBroadcast =>
    match r.coord.failing with
    | none => r.queue
    | some f =>
      -- the failure is put after the broadcast
      if f.msg.requestId = id ∧ r.coord.streamQueues id = some h then r.queue ++ [f.msg]
      else r.queue
  | _ => r.queue

def consumerAfter : CoordEvent ρ → Option StreamConsumer
  | .submitted k =>
    if k = h ∧ streaming = true then some { expected := r.coord.expectedTerminalStages id }
    else r.consumer
  | _ => r.consumer

end MergeRun

def mergeStep (r : MergeRun ρ) : MergeEvent ρ → Option (MergeRun ρ)
  | .coord e => (coordStep r.coord e).map fun t =>
    { coord := t
      seen := r.seenAfter id e
      queue := r.queueAfter id h e
      consumer := r.consumerAfter id h streaming e }
  | .get => (r.consumer.bind fun c => c.get r.queue).map fun c => { r with consumer := some c }

/-- The runs after a coordinator has registered the request. -/
def mergeSystem (s : Coordinator ρ) : System (MergeRun ρ) (MergeEvent ρ) :=
  .ofFun (fun r => r = { coord := s }) (mergeStep id h streaming)

/-- No step but completions resolves the request, and the submission of a stream returns while
    the request is tracked. -/
def Undisturbed (r : MergeRun ρ) : MergeEvent ρ → Prop
  | .coord (.complete _) | .coord .failureBroadcast | .get => True
  | .coord (.submitted k) => k = h → streaming = true → r.coord.requests id ≠ none
  | .coord e => Coordinator.Elsewhere id h r.coord e

end Run

/-! ## What holds in a run -/

section Spec

variable {ρ : Type u} (expected : Finset String)

/-- What is known of the completions so far: the results are not all, or they are since the last. -/
def Merged.Sound : Merged ρ → Prop
  | .waiting arrivals =>
    ¬Covers expected (arrivals.map Prod.fst) ∧
      (expected ≠ ∅ → ∀ k ∈ arrivals.map Prod.fst, k ∈ expected)
  | .failed arrivals msg =>
    ¬Covers expected (arrivals.map Prod.fst) ∧ msg.success = false
  | .done arrivals last => ∃ before k, arrivals = before ++ [(k, last)] ∧
    ¬Covers expected (before.map Prod.fst) ∧ Covers expected (arrivals.map Prod.fst)

variable {expected}

theorem not_covers_nil : ¬Covers expected ([] : List String) := fun h => h.1 rfl

theorem Merged.Sound.step {m : Merged ρ} (hm : m.Sound expected) (msg : CompleteMessage ρ) :
    (m.step expected msg).Sound expected := by
  cases m with
  | failed arrivals msg => exact hm
  | done arrivals last => exact hm
  | waiting arrivals =>
    dsimp only [Merged.step]
    split
    · next hfld => exact ⟨hm.1, hfld⟩
    split
    · next hact =>
      split
      · next hcovers => exact ⟨arrivals, msg.fromStage, rfl, hm.1, hcovers⟩
      · next hmissing =>
        refine ⟨hmissing, fun hsome k hk => ?_⟩
        rw [map_append, mem_append] at hk
        obtain hk | hk := hk
        · exact hm.2 hsome k hk
        · rw [map_singleton, mem_singleton] at hk
          exact hk ▸ hact hsome
    · exact hm

theorem sound_mergeOf (msgs : List (CompleteMessage ρ)) :
    (mergeOf expected msgs).Sound expected := by
  induction msgs using List.reverseRecOn with
  | nil => exact ⟨not_covers_nil, nofun⟩
  | append_singleton msgs msg ih =>
    rw [mergeOf_concat]
    exact ih.step msg

/-- With at most one terminal stage, every completion that counts is the last. -/
theorem covers_of_card_le_one (hcard : expected.card ≤ 1) {msg : CompleteMessage ρ}
    (hact : Active expected msg) (sources : List String) :
    Covers expected (sources ++ [msg.fromStage]) := by
  refine ⟨by simp, fun k hk => ?_⟩
  have hfrom := hact (Finset.ne_empty_of_mem hk)
  rw [Finset.card_le_one.1 hcard k hk _ hfrom]
  exact mem_append_right _ (mem_singleton.2 rfl)

end Spec

section Run

variable {ρ : Type u} (id : String) (h : Nat) (streaming : Bool) (expected : Finset String)

/-- What a failed request is resolved with. -/
def failureOutcome (msg : CompleteMessage ρ) : Outcome ρ :=
  if streaming then .cancelled else .exception (msg.error.getD "Unknown error")

/-- What a completed request is resolved with. -/
def successOutcome (arrivals : List (String × ρ)) (last : ρ) : Outcome ρ :=
  if expected.card ≤ 1 then .result last else .merged (gathered arrivals)

/-- The queue of the stream holds the results that count and what followed them. -/
def Queued (queue : List (CompleteMessage ρ)) (arrivals : List (String × ρ))
    (failures : List (CompleteMessage ρ)) : Prop :=
  streaming = true → ∃ results, queue = results ++ failures ∧
    (∀ msg ∈ results, msg.success = true) ∧
      results.map (fun msg => (msg.fromStage, msg.result)) = arrivals

/-- No failure of the id is being broadcast. -/
def NotFailing (s : Coordinator ρ) : Prop := ∀ f, s.failing = some f → f.msg.requestId ≠ id

/-- The request is tracked and its future open. -/
structure Waits (s : Coordinator ρ) : Prop where
  request : s.requests id = some h
  future : s.completionFutures id = some h
  outcomes : s.outcomesOf h = some []

structure Resolved (s : Coordinator ρ) (outcome : Outcome ρ) : Prop where
  request : s.requests id = none
  outcomes : s.outcomesOf h = some [outcome]
  notFailing : NotFailing id s

/-- The coordinator and the queue agree with what the completions have come to. -/
def Agrees (s : Coordinator ρ) (queue : List (CompleteMessage ρ)) : Merged ρ → Prop
  | .waiting arrivals =>
    Waits id h s ∧ NotFailing id s ∧ (s.partialResults id).getD [] = gathered arrivals ∧
      Queued streaming queue arrivals []
  | .failed arrivals msg =>
    Waits id h s ∧ s.failing = some ⟨h, msg⟩ ∧ msg.requestId = id ∧
        Queued streaming queue arrivals [] ∨
      Resolved id h s (failureOutcome streaming msg) ∧ Queued streaming queue arrivals [msg]
  | .done arrivals last =>
    Resolved id h s (successOutcome expected arrivals last) ∧ Queued streaming queue arrivals []

variable {id h streaming expected} {s t : Coordinator ρ} {queue : List (CompleteMessage ρ)}
  {arrivals : List (String × ρ)}

theorem NotFailing.apart (hs : NotFailing id s) (hst : Coordinator.Apart id h s t) :
    NotFailing id t := fun f hf hid => hs f ((hst.failing f hid).1 hf) hid

theorem Waits.apart (hs : Waits id h s) (hst : Coordinator.Apart id h s t) : Waits id h t :=
  ⟨hst.request.trans hs.request, hst.future.trans hs.future, hst.outcomes.trans hs.outcomes⟩

theorem Resolved.apart {outcome : Outcome ρ} (hs : Resolved id h s outcome)
    (hst : Coordinator.Apart id h s t) : Resolved id h t outcome :=
  ⟨hst.request.trans hs.request, hst.outcomes.trans hs.outcomes, hs.notFailing.apart hst⟩

theorem Agrees.apart {m : Merged ρ} (hs : Agrees id h streaming expected s queue m)
    (hst : Coordinator.Apart id h s t) : Agrees id h streaming expected t queue m := by
  cases m with
  | waiting arrivals =>
    obtain ⟨hw, hqt, hpartials, hqu⟩ := hs
    exact ⟨hw.apart hst, hqt.apart hst, by rw [hst.partials]; exact hpartials, hqu⟩
  | failed arrivals msg =>
    obtain ⟨hw, hflg, hid, hqu⟩ | ⟨hresolved, hqu⟩ := hs
    · exact .inl ⟨hw.apart hst, (hst.failing ⟨h, msg⟩ hid).2 hflg, hid, hqu⟩
    · exact .inr ⟨hresolved.apart hst, hqu⟩
  | done arrivals last => exact ⟨hs.1.apart hst, hs.2⟩

theorem Queued.snoc (hq : Queued streaming queue arrivals []) {msg : CompleteMessage ρ}
    (hmsg : msg.success = true) :
    Queued streaming (queue ++ [msg]) (arrivals ++ [(msg.fromStage, msg.result)]) [] := by
  intro hstm
  obtain ⟨results, hqu, hsuc, harrivals⟩ := hq hstm
  refine ⟨results ++ [msg], ?_, fun m hm => ?_, ?_⟩
  · rw [hqu, append_nil, append_nil]
  · obtain hm | hm := mem_append.1 hm
    · exact hsuc m hm
    · exact mem_singleton.1 hm ▸ hmsg
  · rw [map_append, harrivals, map_singleton]

theorem Queued.fail (hq : Queued streaming queue arrivals []) (msg : CompleteMessage ρ) :
    Queued streaming (queue ++ [msg]) arrivals [msg] := by
  intro hstm
  obtain ⟨results, hqu, hsuc, harrivals⟩ := hq hstm
  exact ⟨results, by rw [hqu, append_nil], hsuc, harrivals⟩

theorem Queued.unless {failures : List (CompleteMessage ρ)} {queue' : List (CompleteMessage ρ)}
    (h : streaming = true → Queued streaming queue' arrivals failures) :
    Queued streaming queue' arrivals failures := fun hstm => h hstm hstm

end Run

/-! ## Resolving a request -/

namespace Coordinator

variable {ρ : Type u} {s t : Coordinator ρ} {id : String} {h : Nat}

theorem outcomesOf_settle (hfuture : s.completionFutures id = some h)
    (ho : s.outcomesOf h = some []) (outcome : Outcome ρ) :
    (s.settle id outcome).outcomesOf h = some [outcome] := by
  unfold settle
  rw [hfuture]
  unfold outcomesOf at ho ⊢
  obtain ⟨c, hc, hnil⟩ := map_eq_some_iff.1 ho
  show ((s.calls.modify h _)[h]?).map _ = _
  rw [getElem?_modify, hc]
  simp [hnil]

/-- What `completeRequest` and `finishFailure` leave of a request. -/
structure Resolving (id : String) (h : Nat) (s t : Coordinator ρ) (outcome : Outcome ρ) : Prop where
  request : t.requests id = none
  outcomes : t.outcomesOf h = some [outcome]
  terminals : t.terminalsOf h = s.terminalsOf h
  queues : t.streamQueues = s.streamQueues
  futures : t.completionFutures = s.completionFutures

theorem resolving_settle (hqt : Quiet s t) (hfuture : s.completionFutures id = some h)
    (ho : t.outcomesOf h = some []) (outcome : Outcome ρ) :
    Resolving id h s (((t.settle id outcome).releaseReplica h).forget id) outcome := by
  have hboth := (hqt.trans (quiet_settle t id outcome)).trans (quiet_releaseReplica _ h)
  refine ⟨update_self .., ?_, hboth.terminals h, hboth.queues, hboth.futures⟩
  have hrelease : Apart id h (t.settle id outcome) ((t.settle id outcome).releaseReplica h) :=
    apart_releaseReplica _ h
  refine hrelease.outcomes.trans ?_
  exact outcomesOf_settle ((congrFun hqt.futures id).trans hfuture) ho outcome

theorem resolving_completeRequest (hfuture : s.completionFutures id = some h)
    (ho : s.outcomesOf h = some []) (outcome : Outcome ρ) :
    Resolving id h s (s.completeRequest h id outcome) outcome := by
  have hqt : Quiet s (s.modifyCall h fun c =>
      { c with info := { c.info with state := .completed, result := some outcome } }) :=
    quiet_modifyCall s h fun _ => rfl
  have hapart : Apart id h s (s.modifyCall h fun c =>
      { c with info := { c.info with state := .completed, result := some outcome } }) :=
    apart_modifyCall s (fun _ => rfl) fun _ _ => rfl
  exact resolving_settle hqt hfuture (hapart.outcomes.trans ho) outcome

theorem failing_completeRequest (s : Coordinator ρ) (h : Nat) (id : String) (outcome : Outcome ρ) :
    (s.completeRequest h id outcome).failing = s.failing := by
  have hqt : Quiet s (s.modifyCall h fun c =>
      { c with info := { c.info with state := .completed, result := some outcome } }) :=
    quiet_modifyCall s h fun _ => rfl
  exact ((hqt.trans (quiet_settle _ id outcome)).trans (quiet_releaseReplica _ h)).failing

theorem resolving_finishFailure {f : Failing ρ} (hid : f.msg.requestId = id)
    (hhandle : f.handle = h)
    (hfuture : s.completionFutures id = some h) (ho : s.outcomesOf h = some []) :
    Resolving id h s (s.finishFailure f) (failureOutcome (s.streamQueues id).isSome f.msg) := by
  subst hid hhandle
  have hfuture' : (s.dropPartials f.msg.requestId).completionFutures f.msg.requestId =
    some f.handle := hfuture
  obtain ⟨hr, hstl, htms, hqueues, hfutures⟩ :=
    resolving_settle (.refl (s.dropPartials f.msg.requestId)) hfuture' ho
      (failureOutcome (s.streamQueues f.msg.requestId).isSome f.msg)
  exact ⟨hr, hstl, htms, hqueues, hfutures⟩

end Coordinator

/-! ## Steps -/

section Run

variable {ρ : Type u} {id : String} {h : Nat} {streaming : Bool} {expected : Finset String}
variable {s t : Coordinator ρ} {queue : List (CompleteMessage ρ)}

open Coordinator

/-- A request with its stages, and its queue where it streams. -/
structure Registered (id : String) (h : Nat) (streaming : Bool) (expected : Finset String)
    (s : Coordinator ρ) : Prop where
  sole : Sole id h s
  terminals : s.terminalsOf h = some expected
  queue : s.streamQueues id = if streaming then some h else none

theorem Registered.apart (hs : Registered id h streaming expected s) (hst : Apart id h s t) :
    Registered id h streaming expected t :=
  ⟨hs.sole.apart hst, hst.terminals.trans hs.terminals, hst.queue.trans hs.queue⟩

theorem Registered.resolving (hs : Registered id h streaming expected s) {outcome : Outcome ρ}
    (hst : Resolving id h s t outcome) : Registered id h streaming expected t where
  sole := by
    intro id' hid
    rw [hst.futures] at hid
    exact hs.sole id' hid
  terminals := hst.terminals.trans hs.terminals
  queue := by rw [hst.queues]; exact hs.queue

variable {msg : CompleteMessage ρ}

section

variable (hr : s.requests msg.requestId = some h) (hmsg : msg.success = true)
include hr hmsg

theorem handleCompletion_of_success :
    s.handleCompletion msg = (match s.verdict h msg with
      | .inactive => s
      | .waits partials =>
        { s with partialResults := update s.partialResults msg.requestId (some partials) }
      | .single result => s.completeRequest h msg.requestId (.result result)
      | .merged partials =>
        (s.dropPartials msg.requestId).completeRequest h msg.requestId (.merged partials)) := by
  unfold handleCompletion
  rw [hr]
  dsimp only
  refine (if_neg (by simp [hmsg])).trans ?_
  cases s.verdict h msg <;> rfl

theorem putsCompletion_of_success :
    s.putsCompletion msg = (match s.verdict h msg with
      | .inactive => false
      | .waits _ | .single _ | .merged _ => true) := by
  unfold putsCompletion
  rw [hr]
  dsimp only
  rw [if_neg (by simp [hmsg])]

end

theorem step_of_success (hmsg : msg.success = true) (arrivals : List (String × ρ)) :
    (Merged.waiting arrivals).step expected msg =
      if Active expected msg then
        if Covers expected ((arrivals ++ [(msg.fromStage, msg.result)]).map Prod.fst) then
          .done (arrivals ++ [(msg.fromStage, msg.result)]) msg.result
        else .waiting (arrivals ++ [(msg.fromStage, msg.result)])
      else .waiting arrivals := by
  dsimp only [Merged.step]
  rw [if_neg (by simp [hmsg])]

/-- The queue after a completion. -/
def queueWith (id : String) (h : Nat) (s : Coordinator ρ) (queue : List (CompleteMessage ρ))
    (msg : CompleteMessage ρ) : List (CompleteMessage ρ) :=
  if msg.requestId = id ∧ s.putsCompletion msg ∧ s.streamQueues id = some h then queue ++ [msg]
  else queue

theorem queued_put (hs : Registered id h streaming expected s) (hid : msg.requestId = id)
    (hp : s.putsCompletion msg = true) (hmsg : msg.success = true) {arrivals : List (String × ρ)}
    (hqu : Queued streaming queue arrivals []) :
    Queued streaming (queueWith id h s queue msg)
      (arrivals ++ [(msg.fromStage, msg.result)]) [] := by
  refine .unless fun hstm => ?_
  unfold queueWith
  rw [if_pos ⟨hid, hp, by rw [hs.queue, if_pos hstm]⟩]
  exact hqu.snoc hmsg

theorem not_failing_completeRequest (hs : NotFailing id s) (outcome : Outcome ρ) :
    NotFailing id (s.completeRequest h id outcome) := by
  intro f hf
  rw [failing_completeRequest] at hf
  exact hs f hf

section

variable (hs : Registered id h streaming expected s) {arrivals : List (String × ρ)} {m : Merged ρ}
include hs

theorem Agrees.succeed (hid : msg.requestId = id) (hmsg : msg.success = true)
    (hsnd : (Merged.waiting arrivals).Sound expected)
    (ha : Agrees id h streaming expected s queue (.waiting arrivals)) :
    Registered id h streaming expected (s.handleCompletion msg) ∧
      Agrees id h streaming expected (s.handleCompletion msg) (queueWith id h s queue msg)
        ((Merged.waiting arrivals).step expected msg) := by
  subst hid
  obtain ⟨hw, hqt, hpartials, hqu⟩ := ha
  have hv := verdict_of_terminals hs.terminals msg
  rw [hpartials] at hv
  have hp := putsCompletion_of_success hw.request hmsg
  rw [step_of_success hmsg, handleCompletion_of_success hw.request hmsg]
  by_cases hact : Active expected msg
  · rw [if_neg (fun hin => hin.2 (hact hin.1))] at hv
    rw [if_pos hact]
    by_cases hcard : expected.card ≤ 1
    · rw [if_pos hcard] at hv
      have hcovers : Covers expected
          ((arrivals ++ [(msg.fromStage, msg.result)]).map Prod.fst) := by
        rw [map_append]
        exact covers_of_card_le_one hcard hact _
      rw [hv] at hp
      rw [if_pos hcovers, hv]
      have hstep := resolving_completeRequest hw.future hw.outcomes (.result msg.result)
      refine ⟨hs.resolving hstep, ⟨hstep.request, ?_, not_failing_completeRequest hqt _⟩,
        queued_put hs rfl hp hmsg hqu⟩
      unfold successOutcome
      rw [if_pos hcard]
      exact hstep.outcomes
    · rw [if_neg hcard, ← gathered_concat arrivals (msg.fromStage, msg.result),
        toFinset_keys_gathered] at hv
      have hkeys : (arrivals ++ [(msg.fromStage, msg.result)]).map Prod.fst ≠ [] := by simp
      have hin : expected ≠ ∅ → ∀ k ∈ (arrivals ++ [(msg.fromStage, msg.result)]).map Prod.fst,
          k ∈ expected := by
        intro hsome k hk
        rw [map_append, mem_append] at hk
        obtain hk | hk := hk
        · exact hsnd.2 hsome k hk
        · rw [map_singleton, mem_singleton] at hk
          exact hk ▸ hact hsome
      have hpart := ssubset_iff_not_covers hkeys hin
      by_cases hcovers :
          Covers expected ((arrivals ++ [(msg.fromStage, msg.result)]).map Prod.fst)
      · rw [if_neg (fun hsub => hpart.1 hsub hcovers)] at hv
        rw [hv] at hp
        rw [if_pos hcovers, hv]
        have hstep := resolving_completeRequest (s := s.dropPartials msg.requestId) hw.future
          hw.outcomes (.merged (gathered (arrivals ++ [(msg.fromStage, msg.result)])))
        have hdrop : Resolving msg.requestId h s _ _ :=
          ⟨hstep.request, hstep.outcomes, hstep.terminals, hstep.queues, hstep.futures⟩
        have hqt' : NotFailing msg.requestId (s.dropPartials msg.requestId) := hqt
        refine ⟨hs.resolving hdrop, ⟨hstep.request, ?_, not_failing_completeRequest hqt' _⟩,
          queued_put hs rfl hp hmsg hqu⟩
        unfold successOutcome
        rw [if_neg hcard]
        exact hstep.outcomes
      · rw [if_pos (hpart.2 hcovers)] at hv
        rw [hv] at hp
        rw [if_neg hcovers, hv]
        refine ⟨⟨hs.sole, hs.terminals, hs.queue⟩, ⟨hw.request, hw.future, hw.outcomes⟩,
          hqt, ?_, queued_put hs rfl hp hmsg hqu⟩
        dsimp only
        rw [update_self]
        rfl
  · have hinactive : expected ≠ ∅ ∧ msg.fromStage ∉ expected := by
      rw [← Classical.not_imp]
      exact hact
    rw [if_pos hinactive] at hv
    rw [hv] at hp
    rw [if_neg hact, hv]
    unfold queueWith
    rw [if_neg (fun h => absurd (hp.symm.trans h.2.1) (by simp))]
    exact ⟨hs, hw, hqt, hpartials, hqu⟩

theorem Agrees.fail (hid : msg.requestId = id) (hmsg : msg.success = false)
    (ha : Agrees id h streaming expected s queue (.waiting arrivals)) :
    Registered id h streaming expected (s.handleCompletion msg) ∧
      Agrees id h streaming expected (s.handleCompletion msg) (queueWith id h s queue msg)
        ((Merged.waiting arrivals).step expected msg) := by
  subst hid
  obtain ⟨hw, -, -, hqu⟩ := ha
  have hstep : (Merged.waiting arrivals).step expected msg = .failed arrivals msg := if_pos hmsg
  have hhandle : s.handleCompletion msg = { s.modifyCall h (fun c =>
      { c with info := { c.info with state := .failed, error := msg.error } }) with
        failing := some ⟨h, msg⟩ } := by
    unfold handleCompletion
    rw [hw.request]
    dsimp only
    rw [if_pos (by simp [hmsg])]
  have hp : s.putsCompletion msg = false := by
    unfold putsCompletion
    rw [hw.request]
    dsimp only
    rw [if_pos (by simp [hmsg])]
  have hapart : Apart msg.requestId h s (s.modifyCall h fun c =>
      { c with info := { c.info with state := .failed, error := msg.error } }) :=
    apart_modifyCall s (fun _ => rfl) fun _ _ => rfl
  have hw' := hw.apart hapart
  have hs' := hs.apart hapart
  rw [hstep, hhandle]
  unfold queueWith
  rw [if_neg (fun h => absurd (hp.symm.trans h.2.1) (by simp))]
  exact ⟨⟨hs'.sole, hs'.terminals, hs'.queue⟩,
    .inl ⟨⟨hw'.request, hw'.future, hw'.outcomes⟩, rfl, rfl, hqu⟩⟩

theorem Agrees.drop (hid : msg.requestId = id) (hr : s.requests id = none)
    (ha : Agrees id h streaming expected s queue m) :
    Registered id h streaming expected (s.handleCompletion msg) ∧
      Agrees id h streaming expected (s.handleCompletion msg) (queueWith id h s queue msg) m := by
  subst hid
  have hhandle : s.handleCompletion msg = s := by
    unfold handleCompletion
    rw [hr]
  have hp : s.putsCompletion msg = false := by
    unfold putsCompletion
    rw [hr]
  rw [hhandle]
  unfold queueWith
  rw [if_neg (fun h => absurd (hp.symm.trans h.2.1) (by simp))]
  exact ⟨hs, ha⟩

theorem Agrees.complete (hopen : s.failing = none) (hid : msg.requestId = id)
    (hsnd : m.Sound expected) (ha : Agrees id h streaming expected s queue m) :
    Registered id h streaming expected (s.handleCompletion msg) ∧
      Agrees id h streaming expected (s.handleCompletion msg) (queueWith id h s queue msg)
        (m.step expected msg) := by
  cases m with
  | waiting arrivals =>
    cases hmsg : msg.success with
    | true => exact Agrees.succeed hs hid hmsg hsnd ha
    | false => exact Agrees.fail hs hid hmsg ha
  | failed arrivals failure =>
    have hfld := ha
    obtain ⟨-, hflg, -⟩ | ⟨hresolved, -⟩ := hfld
    · rw [hopen] at hflg
      cases hflg
    · exact ha.drop hs hid hresolved.request
  | done arrivals last => exact ha.drop hs hid ha.1.request

theorem Agrees.broadcast {f : Failing ρ} (hflg : s.failing = some f)
    (hid : f.msg.requestId = id) (ha : Agrees id h streaming expected s queue m) :
    Registered id h streaming expected (s.finishFailure f) ∧
      Agrees id h streaming expected (s.finishFailure f)
        (if f.msg.requestId = id ∧ s.streamQueues id = some h then queue ++ [f.msg] else queue)
        m := by
  cases m with
  | waiting arrivals => exact absurd hid (ha.2.1 f hflg)
  | done arrivals last => exact absurd hid (ha.1.notFailing f hflg)
  | failed arrivals msg =>
    obtain ⟨hw, hf, -, hqu⟩ | ⟨hresolved, -⟩ := ha
    · obtain rfl := some.inj (hflg.symm.trans hf)
      have hstep := resolving_finishFailure hid rfl hw.future hw.outcomes
      have hsome : (s.streamQueues id).isSome = streaming := by
        rw [hs.queue]
        cases streaming with
        | true => rfl
        | false => rfl
      rw [hsome] at hstep
      refine ⟨hs.resolving hstep, .inr ⟨⟨hstep.request, hstep.outcomes, nofun⟩,
        .unless fun hstm => ?_⟩⟩
      rw [if_pos ⟨hid, by rw [hs.queue, if_pos hstm]⟩]
      exact hqu.fail msg
    · exact absurd hid (hresolved.notFailing f hflg)

end

end Run

end OmniRealtime
