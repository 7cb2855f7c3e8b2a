import OmniRealtime.Pipeline.RequestBook

/-!
# Futures and terminal states

`coordinator.py`: what the coordinator promises about one request over a whole run.

1. `Once.step`: a completion future is resolved at most once.
2. `Book.Tracked.step`: the entries of `_requests` are live, or a failure is under way.
3. `terminal_states_kept_iff`: the runs that keep the terminal states are those in which no
   suspended submission or abort resumes on a failed request.
-/

namespace OmniRealtime

open List Option Coordinator

universe u

/-! ## Futures -/

namespace Coordinator

variable {ρ : Type u} {s : Coordinator ρ}

/-- Every completion future was resolved at most once. -/
def Once (s : Coordinator ρ) : Prop := ∀ c ∈ s.calls, c.outcomes.length ≤ 1

theorem Once.modifyCall (hs : s.Once) (h : Nat) {f : Call ρ → Call ρ}
    (hf : ∀ c, c.outcomes.length ≤ 1 → (f c).outcomes.length ≤ 1) : (s.modifyCall h f).Once := by
  intro c hc
  obtain ⟨j, hj⟩ := mem_iff_getElem?.mp hc
  dsimp only [Coordinator.modifyCall] at hj
  rw [getElem?_modify] at hj
  obtain ⟨c', hc', heq⟩ := map_eq_some_iff.mp hj
  have hold := hs c' (mem_of_getElem? hc')
  split at heq
  · exact heq ▸ hf c' hold
  · exact heq ▸ hold

theorem Once.setPhase (hs : s.Once) (h : Nat) (phase : CallPhase) : (s.setPhase h phase).Once :=
  hs.modifyCall h fun _ hc => hc

theorem length_resolve_le {c : Call ρ} (hc : c.outcomes.length ≤ 1) (outcome : Outcome ρ) :
    (if c.outcomes = [] then { c with outcomes := c.outcomes ++ [outcome] } else c).outcomes.length
      ≤ 1 := by
  split
  · next hnil =>
    dsimp only
    rw [hnil]
    exact le_refl 1
  · exact hc

section

variable (hs : s.Once)
include hs

theorem Once.settle (requestId : String) (outcome : Outcome ρ) :
    (s.settle requestId outcome).Once := by
  unfold Coordinator.settle
  split
  · exact hs
  · exact hs.modifyCall _ fun c hc => length_resolve_le hc outcome

theorem Once.releaseReplica (h : Nat) : (s.releaseReplica h).Once := by
  unfold Coordinator.releaseReplica
  split
  · exact hs
  · split
    · exact hs
    · dsimp only
      refine Once.modifyCall ?_ h fun _ hc => hc
      split <;> exact hs

theorem Once.forget (requestId : String) : (s.forget requestId).Once := hs

theorem Once.startAbort (requestId : String) : (s.startAbort requestId).1.Once := by
  unfold Coordinator.startAbort
  split
  · exact hs
  · split
    · exact hs
    · split <;> exact hs

theorem Once.closeStream (h : Nat) (requestId : String) : (s.closeStream h requestId).Once := by
  unfold Coordinator.closeStream
  split <;> exact hs.setPhase h .gone

theorem Once.leaveStream (h : Nat) (requestId : String) : (s.leaveStream h requestId).Once := by
  unfold Coordinator.leaveStream
  split
  · dsimp only
    split
    · exact (hs.startAbort requestId).setPhase h .closing
    · exact hs.closeStream h requestId
  · exact hs.closeStream h requestId

theorem Once.leaveCall (h : Nat) (c : Call ρ) : (s.leaveCall h c).Once := by
  unfold Coordinator.leaveCall
  split
  · exact hs.leaveStream h c.requestId
  · exact hs.setPhase h .gone

theorem Once.completeRequest (h : Nat) (requestId : String) (outcome : Outcome ρ) :
    (s.completeRequest h requestId outcome).Once := by
  dsimp only [Coordinator.completeRequest]
  refine Once.forget (Once.releaseReplica (Once.settle ?_ requestId outcome) h) requestId
  exact hs.modifyCall h fun _ hc => hc

theorem Once.runAbort (requestId : String) : (s.runAbort requestId).Once := by
  unfold Coordinator.runAbort
  split
  · exact hs
  · next h _ =>
    have hstate : (s.setState h .aborted).Once := hs.modifyCall h fun _ hc => hc
    exact ((hstate.settle requestId _).releaseReplica h).forget requestId

theorem Once.handleCompletion (msg : CompleteMessage ρ) : (s.handleCompletion msg).Once := by
  unfold Coordinator.handleCompletion
  split
  · exact hs
  · next h _ =>
    split
    · exact hs.modifyCall h fun _ hc => hc
    · split
      · exact hs
      · exact hs
      · exact hs.completeRequest h msg.requestId _
      · exact Once.completeRequest (s := s.dropPartials msg.requestId) hs h msg.requestId _

theorem Once.failOne (message : String) (h : Nat) : (Coordinator.failOne message s h).Once := by
  unfold Coordinator.failOne
  split
  · exact hs
  · next c _ =>
    dsimp only
    refine Once.releaseReplica (Once.settle ?_ c.requestId _) h
    exact hs.modifyCall h fun _ hc => hc

end

theorem Once.foldl_failOne (message : String) (handles : List Nat) :
    ∀ {s : Coordinator ρ}, s.Once → (handles.foldl (Coordinator.failOne message) s).Once := by
  induction handles with
  | nil => exact fun hs => hs
  | cons h handles ih => exact fun hs => ih (hs.failOne message h)

theorem Once.submitRequest (hs : s.Once) (requestId : String) (streaming : Bool)
    (dpRank : Option Nat) (answer : ResolverAnswer) :
    (s.submitRequest requestId streaming dpRank answer).Once := by
  unfold Coordinator.submitRequest
  split
  · exact hs
  · dsimp only
    split
    · exact hs
    · intro c hc
      rcases mem_append.mp hc with hc | hc
      · exact hs c hc
      · obtain rfl := mem_singleton.mp hc
        exact Nat.zero_le 1

theorem Once.step {t : Coordinator ρ} {e : CoordEvent ρ} (hs : s.Once)
    (hstep : coordStep s e = some t) : t.Once := by
  cases e with
  | registerStage name endpoint dpRank capacity =>
    dsimp only [coordStep, registerStage] at hstep
    split at hstep
    · exact some.inj hstep ▸ hs
    · cases hstep
  | submit requestId streaming dpRank answer =>
    exact some.inj hstep ▸ hs.submitRequest requestId streaming dpRank answer
  | submitted h =>
    dsimp only [coordStep] at hstep
    split at hstep
    · cases hstep
    · cases (of_guard hstep).2
      refine Once.setPhase ?_ h .waiting
      split
      · exact hs
      · next h' _ => exact hs.modifyCall h' fun _ hc => hc
  | submitFailed h =>
    dsimp only [coordStep] at hstep
    split at hstep
    · cases hstep
    · next c _ =>
      cases (of_guard hstep).2
      refine Once.leaveCall ?_ h c
      split
      · exact hs
      · next h' _ => exact hs.releaseReplica h'
  | submitCancelled h =>
    dsimp only [coordStep] at hstep
    split at hstep
    · cases hstep
    · next c _ =>
      obtain ⟨-, rfl⟩ := of_guard hstep
      exact hs.leaveCall h c
  | waiterCancelled h =>
    dsimp only [coordStep] at hstep
    split at hstep
    · cases hstep
    · obtain ⟨-, rfl⟩ := of_guard hstep
      exact hs.modifyCall h fun c hc => length_resolve_le hc .cancelled
  | waiterResumed h =>
    dsimp only [coordStep] at hstep
    split at hstep
    · cases hstep
    · obtain ⟨-, rfl⟩ := of_guard hstep
      exact hs.setPhase h .gone
  | streamLeft h =>
    dsimp only [coordStep] at hstep
    split at hstep
    · cases hstep
    · next c _ =>
      obtain ⟨-, rfl⟩ := of_guard hstep
      exact hs.leaveStream h c.requestId
  | streamClosed h =>
    dsimp only [coordStep] at hstep
    split at hstep
    · cases hstep
    · next c _ =>
      obtain ⟨-, rfl⟩ := of_guard hstep
      exact hs.closeStream h c.requestId
  | abort requestId => exact some.inj hstep ▸ hs.startAbort requestId
  | abortBroadcast requestId =>
    obtain ⟨-, rfl⟩ := of_guard hstep
    exact hs.runAbort requestId
  | abortFailed requestId | abortTaskDone requestId =>
    obtain ⟨-, rfl⟩ := of_guard hstep
    exact hs
  | complete msg =>
    obtain ⟨-, rfl⟩ := of_guard hstep
    exact hs.handleCompletion msg
  | failureBroadcast =>
    dsimp only [coordStep] at hstep
    split at hstep
    · cases hstep
    · next f _ =>
      cases hstep
      have hdropped : (s.dropPartials f.msg.requestId).Once := hs
      exact (hdropped.settle f.msg.requestId _).releaseReplica f.handle
  | failureDropped =>
    dsimp only [coordStep] at hstep
    split at hstep
    · cases hstep
    · exact some.inj hstep ▸ hs
  | failPending message =>
    cases hstep
    exact Once.foldl_failOne message _ (s := { s with fatalError := some message }) hs

end Coordinator

/-! ## Terminal states -/

namespace Book

theorem stateOf_failOne (b : Book) (h h' : Nat) :
    (b.failOne h).stateOf h' = b.stateOf h' ∨ h' = h ∧ (b.failOne h).stateOf h' = some .failed := by
  unfold failOne
  rw [stateOf_release]
  by_cases heq : h = h'
  · subst heq
    cases hold : b.stateOf h with
    | none =>
      left
      unfold stateOf setState at *
      dsimp only
      rw [getElem?_modify_eq, map_eq_none_iff.mp hold]
      rfl
    | some old => exact .inr ⟨rfl, stateOf_setState_self hold .failed⟩
  · exact .inl (stateOf_setState_of_ne heq .failed)

theorem stateOf_foldl_failOne (handles : List Nat) (h' : Nat) :
    ∀ b : Book, (handles.foldl failOne b).stateOf h' = b.stateOf h' ∨
      h' ∈ handles ∧ (handles.foldl failOne b).stateOf h' = some .failed := by
  induction handles with
  | nil => exact fun _ => .inl rfl
  | cons h handles ih =>
    intro b
    rw [foldl_cons]
    rcases ih (b.failOne h) with heq | ⟨hmem, hfld⟩
    · rcases b.stateOf_failOne h h' with hold | ⟨rfl, hfld⟩
      · exact .inl (heq.trans hold)
      · exact .inr ⟨mem_cons_self, heq.trans hfld⟩
    · exact .inr ⟨mem_cons_of_mem h hmem, hfld⟩

/-- An entry of `_requests` that is in a terminal state has failed, and its failure is still
    under way or the loop has ended in it. -/
def Tracked (b : Book) : Prop :=
  ∀ requestId h, b.requests requestId = some h → b.idOf h = some requestId ∧
    ∀ state, b.stateOf h = some state → state.isTerminal = true →
      state = .failed ∧ (b.loopEnded = true ∨ b.failing = some (h, requestId))

/-- No terminal state of `b` is changed in `b'`. -/
def Keeps (b b' : Book) : Prop :=
  ∀ h state, b.stateOf h = some state → state.isTerminal = true → b'.stateOf h = some state

/-- A submission marks a failed request running, or an abort marks it aborted. -/
def Revives (b : Book) : BookEvent → Prop
  | .run h => b.stateOf h = some .failed
  | .abort h _ => b.stateOf h = some .failed
  | _ => False

variable {b : Book} {b' : Book}

section

variable (hb : b.Tracked) {h : Nat}
include hb

theorem Tracked.exists_state {requestId : String} (hid : b.requests requestId = some h) :
    ∃ state, b.stateOf h = some state := by
  obtain ⟨c, hc, -⟩ := map_eq_some_iff.mp (hb requestId h hid).1
  exact ⟨c.state, by rw [stateOf, hc]; rfl⟩

theorem Tracked.id_unique {requestId requestId' : String} (hid : b.requests requestId = some h)
    (hid' : b.requests requestId' = some h) : requestId = requestId' :=
  some.inj ((hb requestId h hid).1.symm.trans (hb requestId' h hid').1)

theorem Tracked.live {requestId : String} {h : Nat} (hid : b.requests requestId = some h)
    (hlive : b.stateOf h ≠ some .failed) {state : RequestState} (hstate : b.stateOf h = some state)
    : state.isTerminal = false := by
  cases htrm : state.isTerminal with
  | false => rfl
  | true =>
    obtain ⟨rfl, -⟩ := (hb requestId h hid).2 state hstate htrm
    exact absurd hstate hlive

theorem Tracked.not_failed {requestId : String} (hid : b.requests requestId = some h)
    (hidle : b.failing = none) (hl : b.loopEnded = false) : b.stateOf h ≠ some .failed := by
  intro hfld
  obtain ⟨-, hend | hflg⟩ := (hb requestId h hid).2 .failed hfld rfl
  · exact absurd (hl.symm.trans hend) Bool.false_ne_true
  · rw [hidle] at hflg
    cases hflg

theorem Tracked.keeps_setState {requestId : String} (hid : b.requests requestId = some h)
    (hlive : b.stateOf h ≠ some .failed) (state : RequestState) : b.Keeps (b.setState h state) := by
  intro h' old hold htrm
  by_cases heq : h = h'
  · subst heq
    rw [hb.live hid hlive hold] at htrm
    cases htrm
  · rw [stateOf_setState_of_ne heq]
    exact hold

theorem Tracked.finish {requestId : String} (hid : b.requests requestId = some h)
    (state : RequestState) : (((b.setState h state).release h).forget requestId).Tracked := by
  intro id' h' hid'
  unfold forget at hid'
  rcases update_eq_some hid' with ⟨-, hnone⟩ | ⟨hne, hold⟩
  · cases hnone
  · rw [release_requests] at hold
    have hneq : h ≠ h' := fun heq => hne (hb.id_unique (heq ▸ hold) hid)
    obtain ⟨hidOf, hstates⟩ := hb id' h' hold
    have hstate : (((b.setState h state).release h).forget requestId).stateOf h' = b.stateOf h' :=
      ((b.setState h state).stateOf_release h h').trans (stateOf_setState_of_ne hneq state)
    have hid'' : (((b.setState h state).release h).forget requestId).idOf h' = b.idOf h' :=
      ((b.setState h state).idOf_release h h').trans (b.idOf_setState h h' state)
    refine ⟨hid''.trans hidOf, fun st hst htrm => ?_⟩
    rw [hstate] at hst
    have hl : ((b.setState h state).release h).loopEnded = b.loopEnded :=
      (b.setState h state).release_loopEnded h
    have hflg : ((b.setState h state).release h).failing = b.failing :=
      (b.setState h state).release_failing h
    show st = .failed ∧ (((b.setState h state).release h).loopEnded = true ∨
      ((b.setState h state).release h).failing = some (h', id'))
    rw [hl, hflg]
    exact hstates st hst htrm

end

theorem keeps_of_stateOf (h : ∀ k, b'.stateOf k = b.stateOf k) : b.Keeps b' :=
  fun k _ hstate _ => (h k).trans hstate

theorem Keeps.release (h : b.Keeps b') (k : Nat) : b.Keeps (b'.release k) :=
  fun k' state hstate htrm => (b'.stateOf_release k k').trans (h k' state hstate htrm)

theorem stateOf_register {requestId stage : String} {dpRank k : Nat} {state : RequestState}
    (h : b.stateOf k = some state) :
    (b.register requestId stage dpRank).stateOf k = some state := by
  unfold stateOf register at *
  obtain ⟨c, hc, hstate⟩ := map_eq_some_iff.mp h
  dsimp only
  rw [getElem?_append_left (List.getElem?_eq_some_iff.mp hc).1, hc]
  exact congrArg some hstate

theorem Tracked.register (hb : b.Tracked) (requestId stage : String) (dpRank : Nat) :
    (b.register requestId stage dpRank).Tracked := by
  intro id h hid
  rcases update_eq_some hid with ⟨rfl, hnew⟩ | ⟨-, hold⟩
  · cases hnew
    have hlast : (b.register id stage dpRank).calls[b.calls.length]? =
        some ⟨id, .pending, some (stage, dpRank), 0⟩ := getElem?_concat_length
    constructor
    · rw [idOf, hlast]
      rfl
    · intro state hstate htrm
      rw [stateOf, hlast] at hstate
      cases hstate
      cases htrm
  · obtain ⟨hidOf, hstates⟩ := hb id h hold
    obtain ⟨c, hc, heq⟩ := map_eq_some_iff.mp hidOf
    have hcls : (b.register requestId stage dpRank).calls[h]? = b.calls[h]? :=
      getElem?_append_left (List.getElem?_eq_some_iff.mp hc).1
    constructor
    · rw [idOf, hcls]
      exact hidOf
    · intro state hstate htrm
      rw [stateOf, hcls] at hstate
      exact hstates state hstate htrm

/-- A step that revives no failed request keeps the terminal states. -/
theorem Tracked.step {e : BookEvent} (hb : b.Tracked) (hstep : BookStep b e b')
    (hclean : ¬b.Revives e) : b'.Tracked ∧ b.Keeps b' := by
  cases hstep with
  | quiet | addReplica | charge => exact ⟨hb, keeps_of_stateOf fun _ => rfl⟩
  | register requestId stage dpRank =>
    have hcharged : (b.charge stage dpRank).Tracked := hb
    exact ⟨hcharged.register requestId stage dpRank, fun h state hstate _ =>
      stateOf_register (b := b.charge stage dpRank) hstate⟩
  | run requestId h hid =>
    refine ⟨fun id' h' hid' => ?_, hb.keeps_setState hid hclean .running⟩
    obtain ⟨hidOf, hstates⟩ := hb id' h' hid'
    refine ⟨(b.idOf_setState h h' .running).trans hidOf, fun state hstate htrm => ?_⟩
    by_cases heq : h = h'
    · subst heq
      obtain ⟨old, hold⟩ := hb.exists_state hid
      rw [stateOf_setState_self hold] at hstate
      cases hstate
      cases htrm
    · rw [stateOf_setState_of_ne heq] at hstate
      exact hstates state hstate htrm
  | release requestId h hid =>
    refine ⟨fun id' h' hid' => ?_, keeps_of_stateOf (b.stateOf_release h)⟩
    rw [release_requests] at hid'
    rw [idOf_release, stateOf_release, release_loopEnded, release_failing]
    exact hb id' h' hid'
  | complete h requestId hid hidle hl =>
    refine ⟨hb.finish hid .completed, Keeps.release ?_ h⟩
    exact hb.keeps_setState hid (hb.not_failed hid hidle hl) .completed
  | abort h requestId hid =>
    exact ⟨hb.finish hid .aborted, (hb.keeps_setState hid hclean .aborted).release h⟩
  | fail h requestId hid hidle hl =>
    refine ⟨fun id' h' hid' => ?_, ?_⟩
    · obtain ⟨hidOf, hstates⟩ := hb id' h' hid'
      refine ⟨(b.idOf_setState h h' .failed).trans hidOf, fun state hstate htrm => ?_⟩
      by_cases heq : h = h'
      · subst heq
        obtain ⟨old, hold⟩ := hb.exists_state hid
        have hfld := stateOf_setState_self hold .failed
        refine ⟨some.inj (hstate.symm.trans hfld), .inr ?_⟩
        rw [hb.id_unique hid hid']
      · have hold : b.stateOf h' = some state := (stateOf_setState_of_ne heq .failed).symm.trans hstate
        rw [hb.live hid' (hb.not_failed hid' hidle hl) hold] at htrm
        cases htrm
    · exact hb.keeps_setState hid (hb.not_failed hid hidle hl) .failed
  | finishFailure h requestId hflg =>
    refine ⟨fun id' h' hid' => ?_, keeps_of_stateOf (b.stateOf_release h)⟩
    rcases update_eq_some hid' with ⟨-, hnone⟩ | ⟨hne, hold⟩
    · cases hnone
    · rw [release_requests] at hold
      obtain ⟨hidOf, hstates⟩ := hb id' h' hold
      refine ⟨(b.idOf_release h h').trans hidOf, fun state hstate htrm => ?_⟩
      have hstate' : b.stateOf h' = some state := (b.stateOf_release h h').symm.trans hstate
      obtain ⟨hfld, hend | hother⟩ := hstates state hstate' htrm
      · exact ⟨hfld, .inl ((b.release_loopEnded h).trans hend)⟩
      · -- the failure that ends is the one of another id
        rw [hflg] at hother
        exact absurd (congrArg Prod.snd (some.inj hother)).symm hne
  | dropFailure =>
    refine ⟨fun id' h' hid' => ?_, keeps_of_stateOf fun _ => rfl⟩
    obtain ⟨hidOf, hstates⟩ := hb id' h' hid'
    exact ⟨hidOf, fun state hstate htrm => ⟨(hstates state hstate htrm).1, .inl rfl⟩⟩
  | failAll =>
    refine ⟨fun id' h' hid' => (by cases hid'), fun h state hstate htrm => ?_⟩
    rcases stateOf_foldl_failOne b.tracked h b with hsame | ⟨hmem, hfld⟩
    · exact hsame.trans hstate
    · -- a tracked request in a terminal state has failed already
      obtain ⟨-, hent⟩ := mem_filter.mp hmem
      cases hc : b.calls[h]? with
      | none =>
        rw [hc] at hent
        cases hent
      | some c =>
        rw [hc] at hent
        have hid : b.requests c.requestId = some h := of_decide_eq_true hent
        obtain ⟨rfl, -⟩ := (hb c.requestId h hid).2 state hstate htrm
        exact hfld

/-- A step that revives a failed request changes its state. -/
theorem not_keeps_of_revives {e : BookEvent} (hstep : BookStep b e b') (hrevives : b.Revives e) :
    ¬b.Keeps b' := by
  intro hkeeps
  cases hstep with
  | run requestId h hid =>
    have hkept := hkeeps h .failed hrevives rfl
    rw [stateOf_setState_self hrevives] at hkept
    cases hkept
  | abort h requestId hid =>
    have hkept := hkeeps h .failed hrevives rfl
    have hnew : (((b.setState h .aborted).release h).forget requestId).stateOf h = some .aborted :=
      ((b.setState h .aborted).stateOf_release h h).trans (stateOf_setState_self hrevives .aborted)
    rw [hnew] at hkept
    cases hkept
  | _ => exact hrevives

end Book

/-! ## Runs -/

section Runs

variable {ρ : Type u}

/-- The continuation of a suspended submission or abort runs on a request that has failed: its
    entry is still in `_requests`, since the broadcast of its failure has not returned. -/
def ResumesOnFailed (s : Coordinator ρ) (e : CoordEvent ρ) : Prop := s.book.Revives (s.bookEvent e)

/-- No request that is completed, failed or aborted in `s` is in another state in `t`. -/
def KeepsStates (s t : Coordinator ρ) : Prop :=
  ∀ (h : Nat) (c : Call ρ), s.calls[h]? = some c → c.info.state.isTerminal = true →
    ∃ c' : Call ρ, t.calls[h]? = some c' ∧ c'.info.state = c.info.state

def KeepsTerminal (s : Coordinator ρ) (e : CoordEvent ρ) : Prop :=
  ∀ t, coordStep s e = some t → KeepsStates s t

theorem stateOf_book (s : Coordinator ρ) (h : Nat) :
    s.book.stateOf h = (s.calls[h]?).map fun c => c.info.state := by
  unfold Book.stateOf
  rw [getElem?_book, Option.map_map]
  rfl

theorem keeps_book_iff {s t : Coordinator ρ} : s.book.Keeps t.book ↔ KeepsStates s t := by
  constructor
  · intro hkeeps h c hc htrm
    have hstate : s.book.stateOf h = some c.info.state := by
      rw [stateOf_book, hc]
      rfl
    have hkept := hkeeps h _ hstate htrm
    rw [stateOf_book] at hkept
    exact map_eq_some_iff.mp hkept
  · intro hkeeps h state hstate htrm
    rw [stateOf_book] at hstate ⊢
    obtain ⟨c, hc, rfl⟩ := map_eq_some_iff.mp hstate
    exact map_eq_some_iff.mpr (hkeeps h c hc htrm)

theorem tracked_init {s : Coordinator ρ} (h : CoordInit s) : s.book.Tracked := by
  obtain ⟨entryStage, terminalStages, rfl⟩ := h
  exact nofun

/-- A future is resolved at most once. The runs in which every step keeps the terminal states are
    those in which no suspended submission or abort resumes on a failed request. -/
theorem terminal_states_kept_iff {s t : Coordinator ρ} {events : List (CoordEvent ρ)}
    (hinit : CoordInit s) :
    ((coordSystem ρ).Run s events t → ∀ c ∈ t.calls, c.outcomes.length ≤ 1) ∧
    (((coordSystem ρ).restrict KeepsTerminal).Run s events t ↔
      ((coordSystem ρ).restrict fun s e => ¬ResumesOnFailed s e).Run s events t) := by
  constructor
  · intro hrun
    refine hrun.invariant (P := Once) (fun _ _ _ hs hstep => hs.step hstep) ?_
    obtain ⟨entryStage, terminalStages, rfl⟩ := hinit
    intro c hc
    exact absurd hc not_mem_nil
  · refine (System.Run.restrict_iff (P := fun s : Coordinator ρ => s.book.Tracked)
      ?_ ?_ (tracked_init hinit)).symm
    · intro a e b ha hstep hclean
      exact (ha.step (book_step hstep) hclean).1
    · intro a e b ha hstep
      have hbook := book_step hstep
      constructor
      · intro hclean t' hstep'
        obtain rfl := some.inj (hstep.symm.trans hstep')
        exact keeps_book_iff.mp (ha.step hbook hclean).2
      · intro hkeeps hrevives
        exact Book.not_keeps_of_revives hbook hrevives (keeps_book_iff.mpr (hkeeps b hstep))

end Runs

/-! ## A failed request that runs on -/

def exCoordinator : Coordinator Nat := { entryStage := "preprocess", terminalStages := {"decode"} }

/-- A stage fails a request whose submission is still suspended. -/
def exFailing : Coordinator Nat :=
  (System.exec coordStep exCoordinator
    [.registerStage "preprocess" "inproc://preprocess" none none, .submit "r" false none .unset,
      .complete ⟨"r", "decode", false, 0, some "boom"⟩]).getD exCoordinator

theorem exFailing_reachable : (coordSystem Nat).Reachable exFailing := by
  have hrun : System.exec coordStep exCoordinator
      [.registerStage "preprocess" "inproc://preprocess" none none, .submit "r" false none .unset,
        .complete ⟨"r", "decode", false, 0, some "boom"⟩] = some exFailing := rfl
  exact System.Reachable.of_exec (.init ⟨_, _, rfl⟩) hrun

/-- The submission resumes and marks the failed request running. -/
theorem failed_request_runs : ∃ s t : Coordinator Nat, (coordSystem Nat).Reachable s ∧
    (coordSystem Nat).step s (.submitted 0) t ∧
    (s.calls[0]?).map (fun c => c.info.state) = some .failed ∧
    (t.calls[0]?).map (fun c => c.info.state) = some .running := by
  have hstep : (coordStep exFailing (.submitted 0)).map
      (fun t => (t.calls[0]?).map fun c => c.info.state) = some (some .running) := by decide
  obtain ⟨t, ht, hstate⟩ := map_eq_some_iff.mp hstep
  exact ⟨exFailing, t, exFailing_reachable, ht, rfl, hstate⟩

/-- A run that fails a request once its submission is over. -/
theorem terminal_states_kept_iff_failed : ∃ t : Coordinator Nat,
    ((coordSystem Nat).restrict KeepsTerminal).Run exCoordinator
      [.registerStage "preprocess" "inproc://preprocess" none none, .submit "r" false none .unset,
        .submitted 0, .complete ⟨"r", "decode", false, 0, some "boom"⟩, .failureBroadcast] t ∧
    (t.calls[0]?).map (fun c => c.info.state) = some .failed ∧
    (∀ c ∈ t.calls, c.outcomes.length ≤ 1) := by
  have hrun : ∃ t, ((coordSystem Nat).restrict fun s e => ¬ResumesOnFailed s e).Run exCoordinator
      ([] ++ [.registerStage "preprocess" "inproc://preprocess" none none] ++
        [.submit "r" false none .unset] ++ [.submitted 0] ++
        [.complete ⟨"r", "decode", false, 0, some "boom"⟩] ++ [.failureBroadcast]) t ∧
      (t.calls[0]?).map (fun c => c.info.state) = some .failed := by
    refine ⟨_, .snoc (.snoc (.snoc (.snoc (.snoc (.nil _) ⟨rfl, id⟩) ⟨rfl, id⟩) ⟨rfl, ?_⟩)
      ⟨rfl, id⟩) ⟨rfl, id⟩, rfl⟩
    exact nofun
  obtain ⟨t, hrun, hstate⟩ := hrun
  have hinit : CoordInit exCoordinator := ⟨_, _, rfl⟩
  obtain ⟨honce, hkept⟩ := terminal_states_kept_iff (t := t) hinit
  exact ⟨t, hkept.mpr hrun, hstate, honce hrun.of_restrict⟩

end OmniRealtime
