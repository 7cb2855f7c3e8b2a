import OmniRealtime.Pipeline.FailedSubmission

/-!
# The tables of the coordinator

What its tables name in every reachable state: registered calls, and partial results only of
requests that wait for more than one terminal stage.

1. `Quiet`: an operation that leaves the tables alone.
2. `Tables`, `tables_of_reachable`.
3. `Apart`: an operation that leaves one request alone. `apart_step`: what others do.
-/

namespace OmniRealtime

open List Option Function

universe u

namespace Coordinator

variable {ρ : Type u} {s t v : Coordinator ρ}

/-- The terminal stages a call was registered with. -/
def terminalsOf (s : Coordinator ρ) (h : Nat) : Option (Finset String) :=
  (s.calls[h]?).map fun c => c.info.terminalStages

/-! ## Operations on calls -/

/-- Only calls and replicas have changed, and no call its terminal stages. -/
structure Quiet (s t : Coordinator ρ) : Prop where
  length : t.calls.length = s.calls.length
  terminals : ∀ h, t.terminalsOf h = s.terminalsOf h
  requests : t.requests = s.requests
  futures : t.completionFutures = s.completionFutures
  queues : t.streamQueues = s.streamQueues
  partials : t.partialResults = s.partialResults
  failing : t.failing = s.failing

theorem Quiet.refl (s : Coordinator ρ) : Quiet s s :=
  ⟨rfl, fun _ => rfl, rfl, rfl, rfl, rfl, rfl⟩

theorem Quiet.trans (h : Quiet s t) (h' : Quiet t v) : Quiet s v where
  length := h'.length.trans h.length
  terminals := fun k => (h'.terminals k).trans (h.terminals k)
  requests := h'.requests.trans h.requests
  futures := h'.futures.trans h.futures
  queues := h'.queues.trans h.queues
  partials := h'.partials.trans h.partials
  failing := h'.failing.trans h.failing

section

variable (s : Coordinator ρ)

theorem quiet_modifyCall (h : Nat) {f : Call ρ → Call ρ}
    (hf : ∀ c, (f c).info.terminalStages = c.info.terminalStages) : Quiet s (s.modifyCall h f) where
  length := length_modify ..
  terminals := by
    intro k
    show ((s.calls.modify h f)[k]?).map _ = _
    rw [getElem?_modify]
    unfold terminalsOf
    cases s.calls[k]? with
    | none => rfl
    | some c =>
      show some (if h = k then f c else c).info.terminalStages = some c.info.terminalStages
      split
      · rw [hf c]
      · rfl
  requests := rfl
  futures := rfl
  queues := rfl
  partials := rfl
  failing := rfl

theorem quiet_setState (h : Nat) (state : RequestState) :
    Quiet s (s.setState h state) := quiet_modifyCall s h fun _ => rfl

theorem quiet_setPhase (h : Nat) (phase : CallPhase) :
    Quiet s (s.setPhase h phase) := quiet_modifyCall s h fun _ => rfl

theorem quiet_releaseReplica (h : Nat) : Quiet s (s.releaseReplica h) := by
  unfold releaseReplica
  split
  · exact .refl s
  · split
    · exact .refl s
    · dsimp only
      split
      · exact quiet_modifyCall s h fun _ => rfl
      · have hcharge : ∀ (stages : String → StageReplicas) (clamps : Nat),
            Quiet s { s with stages := stages, clamps := clamps } :=
          fun _ _ => ⟨rfl, fun _ => rfl, rfl, rfl, rfl, rfl, rfl⟩
        exact (hcharge _ _).trans (quiet_modifyCall _ h fun _ => rfl)

theorem quiet_settle (requestId : String) (outcome : Outcome ρ) :
    Quiet s (s.settle requestId outcome) := by
  unfold settle
  split
  · exact .refl s
  · refine quiet_modifyCall s _ fun c => ?_
    split
    · rfl
    · rfl

theorem quiet_reject (requestId : String) (exc : Outcome ρ) :
    Quiet s (s.rejectCompletionFuture requestId exc) := quiet_settle s requestId _

end

theorem quiet_failOne (message : String) (s : Coordinator ρ) (h : Nat) :
    Quiet s (failOne message s h) := by
  unfold failOne
  split
  · exact .refl s
  · refine ((quiet_modifyCall s h ?_).trans (quiet_reject _ _ _)).trans (quiet_releaseReplica _ h)
    exact fun _ => rfl

theorem quiet_foldl_failOne (message : String) (handles : List Nat) :
    ∀ s : Coordinator ρ, Quiet s (handles.foldl (failOne message) s) := by
  induction handles with
  | nil => exact .refl
  | cons h handles ih => exact fun s => (quiet_failOne message s h).trans (ih _)

/-! ## Tables -/

/-- What the tables name is registered, and partial results belong to a request that waits for
    more than one terminal stage. -/
structure Tables (s : Coordinator ρ) : Prop where
  requests : ∀ id h, s.requests id = some h → h < s.calls.length
  futures : ∀ id h, s.completionFutures id = some h → h < s.calls.length
  failing : ∀ f, s.failing = some f → f.handle < s.calls.length
  partials : ∀ id, s.partialResults id ≠ none → ∃ h expected,
    s.requests id = some h ∧ s.terminalsOf h = some expected ∧ 1 < expected.card

theorem Tables.quiet (hs : s.Tables) (h : Quiet s t) : t.Tables where
  requests := by rw [h.requests, h.length]; exact hs.requests
  futures := by rw [h.futures, h.length]; exact hs.futures
  failing := by rw [h.failing, h.length]; exact hs.failing
  partials := by
    rw [h.partials, h.requests]
    intro id hid
    obtain ⟨k, expected, hk, htms, hcard⟩ := hs.partials id hid
    exact ⟨k, expected, hk, (h.terminals k).trans htms, hcard⟩

theorem Tables.futures_mono (hs : s.Tables) (hcls : t.calls = s.calls)
    (hrequests : t.requests = s.requests) (hpartials : t.partialResults = s.partialResults)
    (hflg : t.failing = s.failing)
    (hfutures : ∀ id h, t.completionFutures id = some h → s.completionFutures id = some h) :
    t.Tables where
  requests := by rw [hrequests, hcls]; exact hs.requests
  futures := fun id h hid => by rw [hcls]; exact hs.futures id h (hfutures id h hid)
  failing := by rw [hflg, hcls]; exact hs.failing
  partials := by
    rw [hpartials, hrequests]
    intro id hid
    obtain ⟨k, expected, hk, htms, hcard⟩ := hs.partials id hid
    refine ⟨k, expected, hk, ?_, hcard⟩
    rw [terminalsOf, hcls]
    exact htms

theorem update_none_eq_some {f : String → Option Nat} {id id' : String} {h : Nat}
    (h' : update f id none id' = some h) : id' ≠ id ∧ f id' = some h := by
  by_cases hid : id' = id
  · rw [hid, update_self] at h'
    cases h'
  · rw [update_of_ne hid] at h'
    exact ⟨hid, h'⟩

theorem Tables.forget (hs : s.Tables) (id : String) (hn : t.partialResults id = none)
    (hcls : t.calls = s.calls) (hrequests : t.requests = update s.requests id none)
    (hfutures : t.completionFutures = s.completionFutures)
    (hpartials : ∀ id', t.partialResults id' ≠ none → s.partialResults id' ≠ none)
    (hflg : ∀ f, t.failing = some f → s.failing = some f) : t.Tables where
  requests := by
    rw [hrequests, hcls]
    exact fun id' h hid => hs.requests id' h (update_none_eq_some hid).2
  futures := by rw [hfutures, hcls]; exact hs.futures
  failing := by rw [hcls]; exact fun f hf => hs.failing f (hflg f hf)
  partials := by
    intro id' hid'
    obtain ⟨k, expected, hk, htms, hcard⟩ := hs.partials id' (hpartials id' hid')
    have hne : id' ≠ id := fun h => hid' (h ▸ hn)
    refine ⟨k, expected, ?_, ?_, hcard⟩
    · rw [hrequests, update_of_ne hne]
      exact hk
    · rw [terminalsOf, hcls]
      exact htms

theorem Tables.submitRequest (hs : s.Tables) (id : String) (streaming : Bool)
    (dpRank : Option Nat) (answer : ResolverAnswer) :
    (s.submitRequest id streaming dpRank answer).Tables := by
  cases ha : s.admission id dpRank with
  | none =>
    unfold Coordinator.submitRequest
    rw [ha]
    exact hs
  | some admitted =>
    obtain ⟨r, cursor⟩ := admitted
    cases hresolve : s.resolveTerminalStages answer with
    | none =>
      rw [submitRequest_of_rejected ha hresolve]
      exact ⟨hs.requests, hs.futures, hs.failing, hs.partials⟩
    | some terminals =>
      rw [submitRequest_of_resolved ha hresolve]
      have hfree := (admission_eq_some ha).1
      have hnew : ∀ (table : String → Option Nat),
          (∀ id' h, table id' = some h → h < s.calls.length) → ∀ id' h,
          update table id (some s.calls.length) id' = some h → h < s.calls.length + 1 := by
        intro table htable id' h hid
        by_cases heq : id' = id
        · rw [heq, update_self] at hid
          rw [← some.inj hid]
          exact Nat.lt_succ_self _
        · rw [update_of_ne heq] at hid
          exact Nat.lt_succ_of_lt (htable id' h hid)
      have hlen : ∀ c : Call ρ, (s.calls ++ [c]).length = s.calls.length + 1 := fun c =>
        length_append
      refine ⟨fun id' h hid => ?_, fun id' h hid => ?_, fun f hf => ?_, fun id' hid' => ?_⟩
      · exact (hlen _).symm ▸ hnew _ hs.requests id' h hid
      · exact (hlen _).symm ▸ hnew _ hs.futures id' h hid
      · exact (hlen _).symm ▸ Nat.lt_succ_of_lt (hs.failing f hf)
      · obtain ⟨k, expected, hk, htms, hcard⟩ := hs.partials id' hid'
        have hne : id' ≠ id := by
          rintro rfl
          rw [hfree] at hk
          cases hk
        refine ⟨k, expected, (update_of_ne hne ..).trans hk, ?_, hcard⟩
        show ((s.calls ++ _)[k]?).map _ = _
        rw [getElem?_append_left (hs.requests id' k hk)]
        exact htms

theorem Tables.closeStream (hs : s.Tables) (h : Nat) (id : String) :
    (s.closeStream h id).Tables := by
  unfold Coordinator.closeStream
  split
  · exact (hs.quiet (quiet_setPhase s h .gone)).futures_mono rfl rfl rfl rfl
      fun id' k hid => (update_none_eq_some hid).2
  · exact hs.quiet (quiet_setPhase s h .gone)

theorem quiet_setTask (s : Coordinator ρ) (tasks : String → Option AbortTask) :
    Quiet s { s with abortTasks := tasks } := ⟨rfl, fun _ => rfl, rfl, rfl, rfl, rfl, rfl⟩

theorem quiet_startAbort (s : Coordinator ρ) (id : String) : Quiet s (s.startAbort id).1 := by
  unfold startAbort
  split
  · exact .refl s
  · split
    · exact .refl s
    · split
      · exact .refl s
      · exact quiet_setTask s _

section

variable (hs : s.Tables)
include hs

theorem Tables.leaveStream (h : Nat) (id : String) : (s.leaveStream h id).Tables := by
  unfold Coordinator.leaveStream
  split
  · dsimp only
    split
    · exact hs.quiet ((quiet_startAbort s id).trans (quiet_setPhase _ h .closing))
    · exact hs.closeStream h id
  · exact hs.closeStream h id

theorem Tables.leaveCall (h : Nat) (c : Call ρ) : (s.leaveCall h c).Tables := by
  unfold Coordinator.leaveCall
  split
  · exact hs.leaveStream h c.requestId
  · exact hs.quiet (quiet_setPhase s h .gone)

theorem Tables.runAbort (id : String) : (s.runAbort id).Tables := by
  unfold Coordinator.runAbort
  split
  · exact hs
  · next h hid =>
    have hq := ((quiet_setState s h .aborted).trans (quiet_reject _ id
      (.exception s!"Request {id} aborted"))).trans (quiet_releaseReplica _ h)
    refine (hs.quiet hq).forget id (update_self ..) rfl rfl rfl ?_ fun _ h => h
    intro id' hid'
    by_cases heq : id' = id
    · exact absurd (heq ▸ update_self ..) hid'
    · exact fun hn => hid' ((update_of_ne heq ..).trans hn)

theorem Tables.dropPartials (id : String) : (s.dropPartials id).Tables where
  requests := hs.requests
  futures := hs.futures
  failing := hs.failing
  partials := by
    intro id' hid'
    by_cases heq : id' = id
    · exact absurd (heq ▸ update_self ..) hid'
    · exact hs.partials id' fun hn => hid' ((update_of_ne heq ..).trans hn)

theorem Tables.finishFailure (f : Failing ρ) : (s.finishFailure f).Tables := by
  have hq := (quiet_reject (s.dropPartials f.msg.requestId) f.msg.requestId
    (.exception (f.msg.error.getD "Unknown error"))).trans (quiet_releaseReplica _ f.handle)
  refine ((hs.dropPartials f.msg.requestId).quiet hq).forget f.msg.requestId
    ?_ rfl rfl rfl (fun _ h => h) nofun
  exact (congrFun hq.partials _).trans (update_self ..)

theorem Tables.completeRequest {h : Nat} {id : String} (outcome : Outcome ρ)
    (hn : s.partialResults id = none) : (s.completeRequest h id outcome).Tables := by
  have hq := ((quiet_modifyCall s h (f := fun c =>
    { c with info := { c.info with state := .completed, result := some outcome } })
    fun _ => rfl).trans (quiet_settle _ id outcome)).trans (quiet_releaseReplica _ h)
  refine (hs.quiet hq).forget id ?_ rfl rfl rfl (fun _ h => h) fun _ h => h
  exact (congrFun hq.partials id).trans hn

end

theorem verdict_of_terminals {h : Nat} {expected : Finset String}
    (htms : s.terminalsOf h = some expected) (msg : CompleteMessage ρ) :
    s.verdict h msg =
      if expected ≠ ∅ ∧ msg.fromStage ∉ expected then .inactive
      else if expected.card ≤ 1 then .single msg.result
      else if (((s.partialResults msg.requestId).getD []).set msg.fromStage
          msg.result).keys.toFinset ⊂ expected then
        .waits (((s.partialResults msg.requestId).getD []).set msg.fromStage msg.result)
      else .merged (((s.partialResults msg.requestId).getD []).set msg.fromStage msg.result) := by
  unfold verdict
  unfold terminalsOf at htms
  rw [htms]
  rfl

theorem Tables.handleCompletion (hs : s.Tables) (msg : CompleteMessage ρ) :
    (s.handleCompletion msg).Tables := by
  unfold Coordinator.handleCompletion
  split
  · exact hs
  next h hid =>
  have hcall := hs.requests _ h hid
  have htms : s.terminalsOf h = some (s.calls[h].info.terminalStages) := by
    unfold terminalsOf
    rw [getElem?_eq_getElem hcall]
    rfl
  split
  · have ht := hs.quiet (quiet_modifyCall s h (f := fun c =>
      { c with info := { c.info with state := .failed, error := msg.error } }) fun _ => rfl)
    refine ⟨ht.requests, ht.futures, fun f hf => ?_, ht.partials⟩
    cases hf
    exact (length_modify ..).symm ▸ hcall
  · split
    · exact hs
    · next partials hv =>
      refine ⟨hs.requests, hs.futures, hs.failing, fun id' hid' => ?_⟩
      by_cases heq : id' = msg.requestId
      · refine ⟨h, _, heq ▸ hid, htms, Nat.lt_of_not_le fun hcard => ?_⟩
        rw [verdict_of_terminals htms, if_pos hcard] at hv
        split at hv
        · cases hv
        · cases hv
      · exact hs.partials id' fun hn => hid' ((update_of_ne heq ..).trans hn)
    · next result hv =>
      refine hs.completeRequest _ ?_
      cases hpartials : s.partialResults msg.requestId with
      | none => rfl
      | some partials =>
        obtain ⟨k, expected, hk, hexpected, hcard⟩ := hs.partials msg.requestId (by simp [hpartials])
        obtain rfl := some.inj (hid.symm.trans hk)
        rw [htms] at hexpected
        rw [verdict_of_terminals htms, some.inj hexpected,
          if_neg (Nat.not_le_of_lt hcard)] at hv
        split at hv
        · cases hv
        · split at hv
          · cases hv
          · cases hv
    · exact (hs.dropPartials _).completeRequest _ (update_self ..)

theorem Tables.step (hs : s.Tables) {e : CoordEvent ρ} (h : coordStep s e = some t) : t.Tables := by
  cases e with
  | registerStage name endpoint dpRank capacity =>
    dsimp only [coordStep, registerStage] at h
    split at h
    · cases h
      exact ⟨hs.requests, hs.futures, hs.failing, hs.partials⟩
    · cases h
  | submit id streaming dpRank answer =>
    cases h
    exact hs.submitRequest id streaming dpRank answer
  | submitted k =>
    dsimp only [coordStep] at h
    split at h
    · cases h
    · cases (of_guard h).2
      split
      · exact hs.quiet (quiet_setPhase s k .waiting)
      · exact hs.quiet ((quiet_setState s _ .running).trans (quiet_setPhase _ k .waiting))
  | submitFailed k =>
    dsimp only [coordStep] at h
    split at h
    · cases h
    · cases (of_guard h).2
      split
      · exact hs.leaveCall k _
      · exact (hs.quiet (quiet_releaseReplica s _)).leaveCall k _
  | submitCancelled k =>
    dsimp only [coordStep] at h
    split at h
    · cases h
    · cases (of_guard h).2
      exact hs.leaveCall k _
  | waiterCancelled k =>
    dsimp only [coordStep] at h
    split at h
    · cases h
    · cases (of_guard h).2
      refine hs.quiet (quiet_modifyCall s k fun c => ?_)
      split
      · rfl
      · rfl
  | waiterResumed k =>
    dsimp only [coordStep] at h
    split at h
    · cases h
    · cases (of_guard h).2
      exact (hs.quiet (quiet_setPhase s k .gone)).futures_mono rfl rfl rfl rfl
        fun id' _ hid => (update_none_eq_some hid).2
  | streamLeft k =>
    dsimp only [coordStep] at h
    split at h
    · cases h
    · cases (of_guard h).2
      exact hs.leaveStream k _
  | streamClosed k =>
    dsimp only [coordStep] at h
    split at h
    · cases h
    · cases (of_guard h).2
      exact hs.closeStream k _
  | abort id =>
    cases h
    exact hs.quiet (quiet_startAbort s id)
  | abortBroadcast id =>
    cases (of_guard h).2
    exact (hs.runAbort id).quiet (quiet_setTask _ _)
  | abortFailed id | abortTaskDone id =>
    cases (of_guard h).2
    exact hs.quiet (quiet_setTask s _)
  | complete msg =>
    cases (of_guard h).2
    exact hs.handleCompletion msg
  | failureBroadcast =>
    dsimp only [coordStep] at h
    split at h
    · cases h
    · next f hf =>
      cases h
      exact hs.finishFailure f
  | failureDropped =>
    dsimp only [coordStep] at h
    split at h
    · cases h
    · cases h
      exact ⟨hs.requests, hs.futures, fun f hf => (by cases hf), hs.partials⟩
  | failPending message =>
    cases h
    have ht := hs.quiet (⟨rfl, fun _ => rfl, rfl, rfl, rfl, rfl, rfl⟩ :
      Quiet s { s with fatalError := some message })
    have hu := ht.quiet (quiet_foldl_failOne message
      (tracked { s with fatalError := some message }) _)
    refine ⟨fun _ _ h => ?_, hu.futures, hu.failing, fun _ h => absurd rfl h⟩
    cases h

theorem tables_of_reachable (h : (coordSystem ρ).Reachable s) : s.Tables := by
  refine h.invariant (fun s h₀ => ?_) fun s e t hs hstep => hs.step hstep
  obtain ⟨entryStage, terminalStages, rfl⟩ := h₀
  exact ⟨fun _ _ h => (by cases h), fun _ _ h => (by cases h), fun _ h => (by cases h),
    fun _ h => absurd rfl h⟩

/-! ## Operations of other requests -/

/-- What the future of a call was resolved with. -/
def outcomesOf (s : Coordinator ρ) (h : Nat) : Option (List (Outcome ρ)) :=
  (s.calls[h]?).map Call.outcomes

/-- The call `h`, its entries under the id and a pending failure of the id are as they were, and
    it has no more futures. -/
structure Apart (id : String) (h : Nat) (s t : Coordinator ρ) : Prop where
  terminals : t.terminalsOf h = s.terminalsOf h
  outcomes : t.outcomesOf h = s.outcomesOf h
  request : t.requests id = s.requests id
  future : t.completionFutures id = s.completionFutures id
  queue : t.streamQueues id = s.streamQueues id
  partials : t.partialResults id = s.partialResults id
  futures : ∀ id', t.completionFutures id' = some h → s.completionFutures id' = some h
  failing : ∀ f, f.msg.requestId = id → (t.failing = some f ↔ s.failing = some f)

section Apart

variable {id : String} {h : Nat}

theorem Apart.refl (s : Coordinator ρ) : Apart id h s s :=
  ⟨rfl, rfl, rfl, rfl, rfl, rfl, fun _ h => h, fun _ _ => Iff.rfl⟩

theorem Apart.trans (hst : Apart id h s t) (htv : Apart id h t v) : Apart id h s v where
  terminals := htv.terminals.trans hst.terminals
  outcomes := htv.outcomes.trans hst.outcomes
  request := htv.request.trans hst.request
  future := htv.future.trans hst.future
  queue := htv.queue.trans hst.queue
  partials := htv.partials.trans hst.partials
  futures := fun id' hid => hst.futures id' (htv.futures id' hid)
  failing := fun f hf => (htv.failing f hf).trans (hst.failing f hf)

section

variable (s : Coordinator ρ)

theorem apart_modifyCall {k : Nat} {f : Call ρ → Call ρ}
    (hinfo : ∀ c, (f c).info.terminalStages = c.info.terminalStages)
    (hf : k = h → ∀ c, (f c).outcomes = c.outcomes) : Apart id h s (s.modifyCall k f) where
  terminals := (quiet_modifyCall s k hinfo).terminals h
  outcomes := by
    show ((s.calls.modify k f)[h]?).map _ = (s.calls[h]?).map _
    rw [getElem?_modify]
    cases s.calls[h]? with
    | none => rfl
    | some c =>
      show some (if k = h then f c else c).outcomes = some c.outcomes
      split
      · next hk => rw [hf hk c]
      · rfl
  request := rfl
  future := rfl
  queue := rfl
  partials := rfl
  futures := fun _ hid => hid
  failing := fun _ _ => Iff.rfl

theorem apart_setState (k : Nat) (state : RequestState) :
    Apart id h s (s.setState k state) := apart_modifyCall s (fun _ => rfl) fun _ _ => rfl

theorem apart_setPhase (k : Nat) (phase : CallPhase) :
    Apart id h s (s.setPhase k phase) := apart_modifyCall s (fun _ => rfl) fun _ _ => rfl

theorem apart_releaseReplica (k : Nat) : Apart id h s (s.releaseReplica k) := by
  unfold releaseReplica
  split
  · exact .refl s
  · split
    · exact .refl s
    · dsimp only
      split
      · exact apart_modifyCall s (fun _ => rfl) fun _ _ => rfl
      · have hcharge : ∀ (stages : String → StageReplicas) (clamps : Nat),
            Apart id h s { s with stages := stages, clamps := clamps } :=
          fun _ _ => ⟨rfl, rfl, rfl, rfl, rfl, rfl, fun _ hid => hid, fun _ _ => Iff.rfl⟩
        exact (hcharge _ _).trans (apart_modifyCall _ (fun _ => rfl) fun _ _ => rfl)

end

variable {id' : String}

/-- The call has no future but under its id. -/
def Sole (id : String) (h : Nat) (s : Coordinator ρ) : Prop :=
  ∀ id', s.completionFutures id' = some h → id' = id

theorem Sole.apart (hs : Sole id h s) (hst : Apart id h s t) : Sole id h t :=
  fun id' hid => hs id' (hst.futures id' hid)

theorem apart_settle (hs : Sole id h s) (hne : id' ≠ id) (outcome : Outcome ρ) :
    Apart id h s (s.settle id' outcome) := by
  unfold settle
  split
  · exact .refl s
  · next k hk =>
    refine apart_modifyCall s (fun c => ?_) fun heq => absurd (hs id' (heq ▸ hk)) hne
    split
    · rfl
    · rfl

theorem apart_reject (hs : Sole id h s) (hne : id' ≠ id) (exc : Outcome ρ) :
    Apart id h s (s.rejectCompletionFuture id' exc) := apart_settle hs hne _

section

variable (s : Coordinator ρ)

theorem apart_forget (hne : id' ≠ id) : Apart id h s (s.forget id') where
  terminals := rfl
  outcomes := rfl
  request := update_of_ne hne.symm ..
  future := rfl
  queue := rfl
  partials := rfl
  futures := fun _ hid => hid
  failing := fun _ _ => Iff.rfl

theorem apart_dropPartials (hne : id' ≠ id) :
    Apart id h s (s.dropPartials id') where
  terminals := rfl
  outcomes := rfl
  request := rfl
  future := rfl
  queue := rfl
  partials := update_of_ne hne.symm ..
  futures := fun _ hid => hid
  failing := fun _ _ => Iff.rfl

theorem apart_pop (hne : id' ≠ id) {queues : String → Option Nat}
    (hqueues : queues id = s.streamQueues id) : Apart id h s { s with
      streamQueues := queues
      completionFutures := update s.completionFutures id' none } where
  terminals := rfl
  outcomes := rfl
  request := rfl
  future := update_of_ne hne.symm ..
  queue := hqueues
  partials := rfl
  futures := fun _ hid => (update_none_eq_some hid).2
  failing := fun _ _ => Iff.rfl

theorem apart_closeStream (k : Nat) (hne : id' ≠ id) : Apart id h s (s.closeStream k id') := by
  unfold closeStream
  split
  · exact (apart_setPhase s k .gone).trans (apart_pop _ hne (update_of_ne hne.symm ..))
  · exact apart_setPhase s k .gone

theorem apart_setTask (tasks : String → Option AbortTask) :
    Apart id h s { s with abortTasks := tasks } :=
  ⟨rfl, rfl, rfl, rfl, rfl, rfl, fun _ hid => hid, fun _ _ => Iff.rfl⟩

theorem apart_startAbort (id' : String) : Apart id h s (s.startAbort id').1 := by
  unfold startAbort
  split
  · exact .refl s
  · split
    · exact .refl s
    · split
      · exact .refl s
      · exact apart_setTask s _

theorem apart_leaveStream (k : Nat) (hne : id' ≠ id) : Apart id h s (s.leaveStream k id') := by
  unfold leaveStream
  split
  · dsimp only
    split
    · exact (apart_startAbort s id').trans (apart_setPhase _ k .closing)
    · exact apart_closeStream s k hne
  · exact apart_closeStream s k hne

theorem apart_leaveCall (k : Nat) {c : Call ρ} (hne : c.requestId ≠ id) :
    Apart id h s (s.leaveCall k c) := by
  unfold leaveCall
  split
  · exact apart_leaveStream s k hne
  · exact apart_setPhase s k .gone

end

theorem apart_runAbort (hs : Sole id h s) (hne : id' ≠ id) : Apart id h s (s.runAbort id') := by
  unfold runAbort
  split
  · exact .refl s
  · next k _ =>
    have hstt : Apart id h s (s.setState k .aborted) := apart_setState s k _
    exact (((hstt.trans (apart_reject (hs.apart hstt) hne _)).trans
      (apart_releaseReplica _ k)).trans (apart_forget _ hne)).trans (apart_dropPartials _ hne)

theorem apart_completeRequest (hs : Sole id h s) (hne : id' ≠ id) (k : Nat) (outcome : Outcome ρ) :
    Apart id h s (s.completeRequest k id' outcome) := by
  have hstt : Apart id h s (s.modifyCall k fun c =>
      { c with info := { c.info with state := .completed, result := some outcome } }) :=
    apart_modifyCall s (fun _ => rfl) fun _ _ => rfl
  exact ((hstt.trans (apart_settle (hs.apart hstt) hne outcome)).trans
    (apart_releaseReplica _ k)).trans (apart_forget _ hne)

theorem apart_handleCompletion (hs : Sole id h s) {msg : CompleteMessage ρ}
    (hne : msg.requestId ≠ id) (hflg : s.failing = none) :
    Apart id h s (s.handleCompletion msg) := by
  unfold handleCompletion
  split
  · exact .refl s
  next k hk =>
  split
  · have hstt : Apart id h s (s.modifyCall k fun c =>
        { c with info := { c.info with state := .failed, error := msg.error } }) :=
      apart_modifyCall s (fun _ => rfl) fun _ _ => rfl
    refine { hstt with failing := fun f hf => ?_ }
    rw [hflg]
    refine ⟨fun heq => absurd ?_ hne, fun heq => (by cases heq)⟩
    rw [← hf, ← some.inj heq]
  · split
    · exact .refl s
    · next partials _ =>
      exact ⟨rfl, rfl, rfl, rfl, rfl, update_of_ne hne.symm .., fun _ hid => hid,
        fun _ _ => Iff.rfl⟩
    · exact apart_completeRequest hs hne k _
    · have hdrop : Apart id h s (s.dropPartials msg.requestId) := apart_dropPartials s hne
      exact hdrop.trans (apart_completeRequest (hs.apart hdrop) hne k _)

theorem apart_finishFailure (hs : Sole id h s) {f : Failing ρ} (hne : f.msg.requestId ≠ id)
    (hflg : s.failing = some f) : Apart id h s (s.finishFailure f) := by
  have hdrop : Apart id h s (s.dropPartials f.msg.requestId) := apart_dropPartials s hne
  have hforget := ((hdrop.trans (apart_reject (hs.apart hdrop) hne
    (.exception (f.msg.error.getD "Unknown error")))).trans
      (apart_releaseReplica _ f.handle)).trans (apart_forget _ hne)
  refine { hforget with failing := fun g hg => ?_ }
  rw [hflg]
  refine ⟨fun heq => (by cases heq), fun heq => absurd ?_ hne⟩
  rw [some.inj heq, hg]

theorem apart_submitRequest (hlt : h < s.calls.length) (hne : id' ≠ id) (streaming : Bool)
    (dpRank : Option Nat) (answer : ResolverAnswer) :
    Apart id h s (s.submitRequest id' streaming dpRank answer) := by
  cases ha : s.admission id' dpRank with
  | none =>
    unfold Coordinator.submitRequest
    rw [ha]
    exact .refl s
  | some admitted =>
    obtain ⟨r, cursor⟩ := admitted
    cases hresolve : s.resolveTerminalStages answer with
    | none =>
      rw [submitRequest_of_rejected ha hresolve]
      exact ⟨rfl, rfl, rfl, rfl, rfl, rfl, fun _ hid => hid, fun _ _ => Iff.rfl⟩
    | some terminals =>
      rw [submitRequest_of_resolved ha hresolve]
      have hcls : ∀ c : Call ρ, (s.calls ++ [c])[h]? = s.calls[h]? := fun c =>
        getElem?_append_left hlt
      refine ⟨congrArg (Option.map _) (hcls _), congrArg (Option.map _) (hcls _),
        update_of_ne hne.symm .., update_of_ne hne.symm .., ?_, rfl,
        fun id'' hid => ?_, fun _ _ => Iff.rfl⟩
      · dsimp only
        split
        · exact update_of_ne hne.symm ..
        · rfl
      · obtain ⟨-, hlen⟩ | ⟨-, hold⟩ := update_eq_some hid
        · exact absurd (some.inj hlen) (Nat.ne_of_gt hlt)
        · exact hold

/-- Another call, of another id. -/
def OtherCall (id : String) (h : Nat) (s : Coordinator ρ) (k : Nat) : Prop :=
  k ≠ h ∧ ∀ c, s.calls[k]? = some c → c.requestId ≠ id

/-- Steps of other requests, and those that leave a request as it is. -/
def Elsewhere (id : String) (h : Nat) (s : Coordinator ρ) : CoordEvent ρ → Prop
  | .registerStage .. => True
  | .submit id' .. => id' ≠ id
  | .submitted _ => True
  | .submitFailed k | .submitCancelled k | .waiterCancelled k | .waiterResumed k => OtherCall id h s k
  | .streamLeft k | .streamClosed k => OtherCall id h s k
  | .abort _ | .abortFailed _ | .abortTaskDone _ => True
  | .abortBroadcast id' => id' ≠ id
  | .complete msg => msg.requestId ≠ id
  | .failureBroadcast | .failureDropped => ∀ f, s.failing = some f → f.msg.requestId ≠ id
  | .failPending _ => False

theorem apart_step (hs : Sole id h s) (hlt : h < s.calls.length) {e : CoordEvent ρ}
    (he : Elsewhere id h s e) (hstep : coordStep s e = some t) : Apart id h s t := by
  cases e with
  | registerStage name endpoint dpRank capacity =>
    dsimp only [coordStep, registerStage] at hstep
    split at hstep
    · cases hstep
      exact ⟨rfl, rfl, rfl, rfl, rfl, rfl, fun _ hid => hid, fun _ _ => Iff.rfl⟩
    · cases hstep
  | submit id' streaming dpRank answer =>
    cases hstep
    exact apart_submitRequest hlt he streaming dpRank answer
  | submitted k =>
    dsimp only [coordStep] at hstep
    split at hstep
    · cases hstep
    · cases (of_guard hstep).2
      split
      · exact apart_setPhase s k .waiting
      · exact (apart_setState s _ .running).trans (apart_setPhase _ k .waiting)
  | submitFailed k =>
    dsimp only [coordStep] at hstep
    split at hstep
    · cases hstep
    · next c hc =>
      cases (of_guard hstep).2
      split
      · exact apart_leaveCall s k (he.2 c hc)
      · exact (apart_releaseReplica s _).trans (apart_leaveCall _ k (he.2 c hc))
  | submitCancelled k =>
    dsimp only [coordStep] at hstep
    split at hstep
    · cases hstep
    · next c hc =>
      cases (of_guard hstep).2
      exact apart_leaveCall s k (he.2 c hc)
  | waiterCancelled k =>
    dsimp only [coordStep] at hstep
    split at hstep
    · cases hstep
    · cases (of_guard hstep).2
      refine apart_modifyCall s (fun c => ?_) fun hk => absurd hk he.1
      split
      · rfl
      · rfl
  | waiterResumed k =>
    dsimp only [coordStep] at hstep
    split at hstep
    · cases hstep
    · next c hc =>
      cases (of_guard hstep).2
      exact (apart_setPhase s k .gone).trans (apart_pop _ (he.2 c hc) rfl)
  | streamLeft k =>
    dsimp only [coordStep] at hstep
    split at hstep
    · cases hstep
    · next c hc =>
      cases (of_guard hstep).2
      exact apart_leaveStream s k (he.2 c hc)
  | streamClosed k =>
    dsimp only [coordStep] at hstep
    split at hstep
    · cases hstep
    · next c hc =>
      cases (of_guard hstep).2
      exact apart_closeStream s k (he.2 c hc)
  | abort id' =>
    cases hstep
    exact apart_startAbort s id'
  | abortBroadcast id' =>
    cases (of_guard hstep).2
    exact (apart_runAbort hs he).trans (apart_setTask _ _)
  | abortFailed id' | abortTaskDone id' =>
    cases (of_guard hstep).2
    exact apart_setTask s _
  | complete msg =>
    obtain ⟨hopen, ⟨⟩⟩ := of_guard hstep
    exact apart_handleCompletion hs he (isNone_iff_eq_none.1 hopen.1)
  | failureBroadcast =>
    dsimp only [coordStep] at hstep
    split at hstep
    · cases hstep
    · next f hf =>
      cases hstep
      exact apart_finishFailure hs (he f hf) hf
  | failureDropped =>
    dsimp only [coordStep] at hstep
    split at hstep
    · cases hstep
    · next f hf =>
      cases hstep
      refine ⟨rfl, rfl, rfl, rfl, rfl, rfl, fun _ hid => hid, fun g hg => ?_⟩
      rw [hf]
      refine ⟨fun heq => (by cases heq), fun heq => absurd ?_ (he f hf)⟩
      rw [some.inj heq, hg]
  | failPending message => exact he.elim

end Apart

end Coordinator

end OmniRealtime
