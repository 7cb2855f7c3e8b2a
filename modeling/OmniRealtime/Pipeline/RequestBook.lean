import OmniRealtime.Pipeline.Coordinator

/-!
# The books of the coordinator

An abstract view of the coordinator, without the callers, the futures and the tasks: the states
of its requests, the replicas they own, and the counters of the replicas.

1. `Coordinator.book_step`: every step of the coordinator is one step of the books.
-/

namespace OmniRealtime

open List Option

universe u

/-! ## Books -/

structure CallBook where
  requestId : String
  state : RequestState
  owner : Option (String × Nat)
  releases : Nat
  deriving DecidableEq, Repr

structure Book where
  calls : List CallBook
  requests : String → Option Nat
  stages : String → StageReplicas
  clamps : Nat
  /-- The handle and the request id of the failure branch that is suspended. -/
  failing : Option (Nat × String)
  loopEnded : Bool

namespace Book

def setState (b : Book) (h : Nat) (state : RequestState) : Book :=
  { b with calls := b.calls.modify h fun c => { c with state := state } }

/-- The counter of an owned replica goes down, and the request owns none. -/
def release (b : Book) (h : Nat) : Book :=
  match (b.calls[h]?).bind CallBook.owner with
  | none => b
  | some (stage, dpRank) =>
    let freed := b.calls.modify h fun c => { c with owner := none, releases := c.releases + 1 }
    match (b.stages stage).list.find? fun r => r.dpRank = dpRank with
    | none => { b with calls := freed }
    | some replica =>
      { b with
        calls := freed
        stages := Function.update b.stages stage ((b.stages stage).modify dpRank (· - 1))
        clamps := if replica.inflight = 0 then b.clamps + 1 else b.clamps }

def forget (b : Book) (requestId : String) : Book :=
  { b with requests := Function.update b.requests requestId none }

/-- One more on a counter. -/
def charge (b : Book) (stage : String) (dpRank : Nat) : Book :=
  { b with stages := Function.update b.stages stage ((b.stages stage).modify dpRank (· + 1)) }

def register (b : Book) (requestId stage : String) (dpRank : Nat) : Book :=
  { b with
    calls := b.calls ++ [⟨requestId, .pending, some (stage, dpRank), 0⟩]
    requests := Function.update b.requests requestId (some b.calls.length) }

end Book

def Call.book {ρ : Type u} (entryStage : String) (c : Call ρ) : CallBook where
  requestId := c.requestId
  state := c.info.state
  owner := c.info.ownerDpRank.map fun dpRank => (c.info.currentStage.getD entryStage, dpRank)
  releases := c.releases

namespace Coordinator

variable {ρ : Type u}

def book (s : Coordinator ρ) : Book where
  calls := s.calls.map (Call.book s.entryStage)
  requests := s.requests
  stages := s.stages
  clamps := s.clamps
  failing := s.failing.map fun f => (f.handle, f.msg.requestId)
  loopEnded := s.loopEnded

theorem map_modify_of_comm {α β : Type*} {f : α → α} {f' : β → β} {g : α → β}
    (hfg : ∀ a, g (f a) = f' (g a)) (l : List α) (i : Nat) :
    (l.modify i f).map g = (l.map g).modify i f' := by
  apply ext_getElem?
  intro j
  rw [getElem?_map, getElem?_modify, getElem?_modify, getElem?_map]
  cases l[j]? with
  | none => rfl
  | some a =>
    by_cases hij : i = j
    · simp [hij, hfg]
    · simp [hij]

theorem map_modify_of_eq {α β : Type*} {f : α → α} {g : α → β} (hfg : ∀ a, g (f a) = g a)
    (l : List α) (i : Nat) : (l.modify i f).map g = l.map g := by
  have hid : ∀ a, g (f a) = id (g a) := hfg
  rw [map_modify_of_comm hid, modify_id]

section

variable (s : Coordinator ρ) {f : Call ρ → Call ρ}

theorem book_modifyCall (h : Nat) (hf : ∀ c, (f c).book s.entryStage = c.book s.entryStage) :
    (s.modifyCall h f).book = s.book := by
  dsimp only [book, modifyCall]
  rw [map_modify_of_eq hf]

@[simp] theorem book_setPhase (h : Nat) (phase : CallPhase) :
    (s.setPhase h phase).book = s.book :=
  book_modifyCall s h fun _ => rfl

@[simp] theorem book_settle (requestId : String) (outcome : Outcome ρ) :
    (s.settle requestId outcome).book = s.book := by
  unfold settle
  split
  · rfl
  · refine book_modifyCall s _ fun c => ?_
    split <;> rfl

@[simp] theorem book_rejectCompletionFuture (requestId : String) (exc : Outcome ρ)
    : (s.rejectCompletionFuture requestId exc).book = s.book :=
  book_settle s requestId _

@[simp] theorem book_dropPartials (requestId : String) :
    (s.dropPartials requestId).book = s.book := rfl

@[simp] theorem book_forget (requestId : String) :
    (s.forget requestId).book = s.book.forget requestId := rfl

/-- A change of the state, whatever else of the record changes with it. -/
theorem book_modify_state (h : Nat) (state : RequestState)
    (hf : ∀ c, (f c).book s.entryStage = { c.book s.entryStage with state := state }) :
    (s.modifyCall h f).book = s.book.setState h state := by
  have hcls : (s.calls.modify h f).map (Call.book s.entryStage) =
      (s.calls.map (Call.book s.entryStage)).modify h fun c => { c with state := state } := by
    refine map_modify_of_comm ?_ s.calls h
    exact hf
  dsimp only [book, modifyCall, Book.setState]
  rw [hcls]

@[simp] theorem book_setState (h : Nat) (state : RequestState) :
    (s.setState h state).book = s.book.setState h state :=
  book_modify_state s h state fun _ => rfl

theorem getElem?_book (h : Nat) :
    s.book.calls[h]? = (s.calls[h]?).map (Call.book s.entryStage) :=
  getElem?_map ..

@[simp] theorem book_releaseReplica (h : Nat) : (s.releaseReplica h).book = s.book.release h := by
  unfold releaseReplica Book.release
  rw [getElem?_book]
  cases hc : s.calls[h]? with
  | none => rfl
  | some c =>
    dsimp only [map_some, bind_some, Call.book]
    cases hrank : c.info.ownerDpRank with
    | none => rfl
    | some dpRank =>
      have hcls : ∀ entry : String, (s.calls.modify h fun c =>
          { c with
            releases := c.releases + 1
            info := { c.info with ownerDpRank := none, ownerEndpoint := none } }).map
              (Call.book entry) = (s.calls.map (Call.book entry)).modify h fun c =>
                { c with owner := none, releases := c.releases + 1 } := by
        intro entry
        refine map_modify_of_comm ?_ s.calls h
        exact fun _ => rfl
      dsimp only [map_some]
      unfold replicaFor
      show _ = (match (s.stages (c.info.currentStage.getD s.entryStage)).list.find?
        fun r => r.dpRank = dpRank with | none => _ | some replica => _)
      cases (s.stages (c.info.currentStage.getD s.entryStage)).list.find?
          fun r => decide (r.dpRank = dpRank) with
      | none =>
        dsimp only [book, modifyCall]
        rw [hcls]
      | some replica =>
        dsimp only [book, modifyCall, modifyReplica]
        rw [hcls]

@[simp] theorem book_startAbort (requestId : String) :
    (s.startAbort requestId).1.book = s.book := by
  unfold startAbort
  split
  · rfl
  · split
    · rfl
    · split <;> rfl

@[simp] theorem book_closeStream (h : Nat) (requestId : String) :
    (s.closeStream h requestId).book = s.book := by
  unfold closeStream
  split
  · exact book_setPhase s h .gone
  · exact book_setPhase s h .gone

@[simp] theorem book_leaveStream (h : Nat) (requestId : String) :
    (s.leaveStream h requestId).book = s.book := by
  unfold leaveStream
  split
  · dsimp only
    split
    · rw [book_setPhase, book_startAbort]
    · exact book_closeStream s h requestId
  · exact book_closeStream s h requestId

@[simp] theorem book_leaveCall (h : Nat) (c : Call ρ) : (s.leaveCall h c).book = s.book := by
  unfold leaveCall
  split
  · exact book_leaveStream s h c.requestId
  · exact book_setPhase s h .gone

theorem book_completeRequest (h : Nat) (requestId : String) (outcome : Outcome ρ)
    : (s.completeRequest h requestId outcome).book =
      ((s.book.setState h .completed).release h).forget requestId := by
  dsimp only [completeRequest]
  rw [book_forget, book_releaseReplica, book_settle, book_modify_state s h .completed]
  exact fun _ => rfl

theorem book_runAbort (requestId : String) :
    (s.runAbort requestId).book =
      match s.requests requestId with
      | none => s.book
      | some h => ((s.book.setState h .aborted).release h).forget requestId := by
  unfold runAbort
  cases s.requests requestId with
  | none => rfl
  | some h =>
    rw [book_dropPartials, book_forget, book_releaseReplica, book_rejectCompletionFuture,
      book_setState]

theorem book_finishFailure (f : Failing ρ) :
    (s.finishFailure f).book =
      { (s.book.release f.handle).forget f.msg.requestId with failing := none } := by
  have hold : ((s.dropPartials f.msg.requestId).rejectCompletionFuture f.msg.requestId
      (.exception (f.msg.error.getD "Unknown error"))).book = s.book := by
    rw [book_rejectCompletionFuture, book_dropPartials]
  rw [← hold, ← book_releaseReplica, ← book_forget]
  rfl

end

end Coordinator

namespace Book

/-- The handles of the entries, oldest first. -/
def tracked (b : Book) : List Nat :=
  (List.range b.calls.length).filter fun h =>
    ((b.calls[h]?).map fun c => decide (b.requests c.requestId = some h)).getD false

def failOne (b : Book) (h : Nat) : Book := (b.setState h .failed).release h

def failAll (b : Book) : Book :=
  { b.tracked.foldl failOne b with requests := fun _ => none }

def stateOf (b : Book) (h : Nat) : Option RequestState := (b.calls[h]?).map CallBook.state

def idOf (b : Book) (h : Nat) : Option String := (b.calls[h]?).map CallBook.requestId

theorem idOf_modify {b : Book} {f : CallBook → CallBook} (hf : ∀ c, (f c).requestId = c.requestId)
    (h h' : Nat) :
    ((b.calls.modify h f)[h']?).map CallBook.requestId = b.idOf h' := by
  unfold idOf
  rw [getElem?_modify]
  cases b.calls[h']? with
  | none => rfl
  | some c =>
    by_cases heq : h = h'
    · simp [heq, hf]
    · simp [heq]

@[simp] theorem idOf_setState (b : Book) (h h' : Nat) (state : RequestState) :
    (b.setState h state).idOf h' = b.idOf h' :=
  idOf_modify (f := fun c => { c with state := state }) (fun _ => rfl) h h'

theorem stateOf_setState_self {b : Book} {h : Nat} {old : RequestState}
    (hold : b.stateOf h = some old) (state : RequestState) :
    (b.setState h state).stateOf h = some state := by
  unfold stateOf setState at *
  obtain ⟨c, hc, -⟩ := map_eq_some_iff.mp hold
  rw [getElem?_modify_eq, hc]
  rfl

theorem stateOf_setState_of_ne {b : Book} {h h' : Nat} (hne : h ≠ h') (state : RequestState) :
    (b.setState h state).stateOf h' = b.stateOf h' := by
  dsimp only [stateOf, setState]
  rw [getElem?_modify_ne _ _ hne]

theorem release_cases (b : Book) (h : Nat) : b.release h = b ∨ ∃ stages clamps,
    b.release h = { b with
      calls := b.calls.modify h fun c => { c with owner := none, releases := c.releases + 1 }
      stages := stages
      clamps := clamps } := by
  unfold release
  split
  · exact .inl rfl
  · dsimp only
    split
    · exact .inr ⟨_, _, rfl⟩
    · exact .inr ⟨_, _, rfl⟩

@[simp] theorem release_requests (b : Book) (h : Nat) : (b.release h).requests = b.requests := by
  rcases b.release_cases h with heq | ⟨stages, clamps, heq⟩ <;> rw [heq]

@[simp] theorem release_failing (b : Book) (h : Nat) : (b.release h).failing = b.failing := by
  rcases b.release_cases h with heq | ⟨stages, clamps, heq⟩ <;> rw [heq]

@[simp] theorem release_loopEnded (b : Book) (h : Nat) : (b.release h).loopEnded = b.loopEnded := by
  rcases b.release_cases h with heq | ⟨stages, clamps, heq⟩ <;> rw [heq]

@[simp] theorem idOf_release (b : Book) (h h' : Nat) : (b.release h).idOf h' = b.idOf h' := by
  rcases b.release_cases h with heq | ⟨stages, clamps, heq⟩
  · rw [heq]
  · rw [heq]
    exact idOf_modify (f := fun c => { c with owner := none, releases := c.releases + 1 })
      (fun _ => rfl) h h'

@[simp] theorem stateOf_release (b : Book) (h h' : Nat) :
    (b.release h).stateOf h' = b.stateOf h' := by
  rcases b.release_cases h with heq | ⟨stages, clamps, heq⟩
  · rw [heq]
  · rw [heq]
    dsimp only [stateOf]
    rw [getElem?_modify]
    cases b.calls[h']? with
    | none => rfl
    | some c =>
      by_cases heq : h = h'
      · simp [heq]
      · simp [heq]

end Book

/-! ## What a step does to the books -/

inductive BookEvent
  | quiet
  | addReplica (stage : String) (replica : ReplicaInfo)
  | charge (stage : String) (dpRank : Nat)
  | register (requestId stage : String) (dpRank : Nat)
  | run (h : Nat)
  | release (h : Nat)
  | complete (h : Nat) (requestId : String)
  | abort (h : Nat) (requestId : String)
  | fail (h : Nat) (requestId : String)
  | finishFailure (h : Nat) (requestId : String)
  | dropFailure
  | failAll

inductive BookStep (b : Book) : BookEvent → Book → Prop
  | quiet : BookStep b .quiet b
  | addReplica (stage : String) (replica : ReplicaInfo) (replicas : StageReplicas)
      (hlist : replicas.list = (b.stages stage).list ++ [replica])
      (hnew : replica.dpRank ∉ (b.stages stage).list.map ReplicaInfo.dpRank)
      (hzero : replica.inflight = 0) :
      BookStep b (.addReplica stage replica)
        { b with stages := Function.update b.stages stage replicas }
  | charge (stage : String) (dpRank : Nat)
      (hrank : dpRank ∈ (b.stages stage).list.map ReplicaInfo.dpRank) :
      BookStep b (.charge stage dpRank) (b.charge stage dpRank)
  | register (requestId stage : String) (dpRank : Nat) (hid : b.requests requestId = none)
      (hrank : dpRank ∈ (b.stages stage).list.map ReplicaInfo.dpRank) :
      BookStep b (.register requestId stage dpRank)
        ((b.charge stage dpRank).register requestId stage dpRank)
  | run (requestId : String) (h : Nat) (hid : b.requests requestId = some h) :
      BookStep b (.run h) (b.setState h .running)
  | release (requestId : String) (h : Nat) (hid : b.requests requestId = some h) :
      BookStep b (.release h) (b.release h)
  | complete (h : Nat) (requestId : String) (hid : b.requests requestId = some h)
      (hidle : b.failing = none) (hloop : b.loopEnded = false) :
      BookStep b (.complete h requestId)
        (((b.setState h .completed).release h).forget requestId)
  | abort (h : Nat) (requestId : String) (hid : b.requests requestId = some h) :
      BookStep b (.abort h requestId) (((b.setState h .aborted).release h).forget requestId)
  | fail (h : Nat) (requestId : String) (hid : b.requests requestId = some h)
      (hidle : b.failing = none) (hloop : b.loopEnded = false) :
      BookStep b (.fail h requestId) { b.setState h .failed with failing := some (h, requestId) }
  | finishFailure (h : Nat) (requestId : String) (hfailing : b.failing = some (h, requestId)) :
      BookStep b (.finishFailure h requestId)
        { (b.release h).forget requestId with failing := none }
  | dropFailure : BookStep b .dropFailure { b with failing := none, loopEnded := true }
  | failAll : BookStep b .failAll b.failAll

namespace Coordinator

variable {ρ : Type u} {s : Coordinator ρ}

/-- The entry of the request id of a call. -/
def entryOf (s : Coordinator ρ) (h : Nat) : Option Nat :=
  (s.calls[h]?).bind fun c => s.requests c.requestId

theorem entryOf_eq {h : Nat} {c : Call ρ} (hc : s.calls[h]? = some c) :
    s.entryOf h = s.requests c.requestId := by
  unfold entryOf
  rw [hc, bind_some]

def bookEvent (s : Coordinator ρ) : CoordEvent ρ → BookEvent
  | .registerStage name endpoint dpRank capacity =>
    .addReplica name ⟨dpRank.getD (s.stages name).list.length, endpoint, 0, capacity⟩
  | .submit requestId _ dpRank answer =>
    match s.admission requestId dpRank with
    | none => .quiet
    | some (replica, _) =>
      match s.resolveTerminalStages answer with
      | none => .charge s.entryStage replica.dpRank
      | some _ => .register requestId s.entryStage replica.dpRank
  | .submitted h =>
    match s.entryOf h with
    | none => .quiet
    | some h' => .run h'
  | .submitFailed h =>
    match s.entryOf h with
    | none => .quiet
    | some h' => .release h'
  | .abortBroadcast requestId =>
    match s.requests requestId with
    | none => .quiet
    | some h => .abort h requestId
  | .complete msg =>
    match s.requests msg.requestId with
    | none => .quiet
    | some h =>
      if !msg.success then .fail h msg.requestId
      else
        match s.verdict h msg with
        | .inactive => .quiet
        | .waits _ => .quiet
        | .single _ => .complete h msg.requestId
        | .merged _ => .complete h msg.requestId
  | .failureBroadcast =>
    match s.failing with
    | none => .quiet
    | some f => .finishFailure f.handle f.msg.requestId
  | .failureDropped => .dropFailure
  | .failPending _ => .failAll
  | .submitCancelled _ | .waiterCancelled _ | .waiterResumed _ | .streamLeft _ | .streamClosed _
  | .abort _ | .abortFailed _ | .abortTaskDone _ => .quiet

theorem tracked_book (s : Coordinator ρ) : s.book.tracked = s.tracked := by
  unfold Book.tracked tracked
  have hlen : s.book.calls.length = s.calls.length := length_map ..
  rw [hlen]
  refine filter_congr fun h _ => ?_
  rw [getElem?_book, Option.map_map]
  rfl

theorem book_failOne (message : String) (s : Coordinator ρ) (h : Nat) :
    (failOne message s h).book = s.book.failOne h := by
  unfold failOne Book.failOne
  cases hc : s.calls[h]? with
  | none =>
    have hnone : s.book.setState h .failed = s.book := by
      unfold Book.setState
      have hsame : s.book.calls.modify h (fun c => { c with state := .failed }) = s.book.calls := by
        apply ext_getElem?
        intro j
        rw [getElem?_modify]
        by_cases hj : h = j
        · subst hj
          rw [getElem?_book, hc]
          rfl
        · simp [hj]
      rw [hsame]
    rw [hnone]
    unfold Book.release
    rw [getElem?_book, hc]
    rfl
  | some c =>
    rw [book_releaseReplica, book_rejectCompletionFuture, book_modify_state s h .failed]
    exact fun _ => rfl

theorem book_foldl_failOne (message : String) (handles : List Nat) :
    ∀ s : Coordinator ρ, (handles.foldl (failOne message) s).book =
      handles.foldl Book.failOne s.book := by
  induction handles with
  | nil => exact fun _ => rfl
  | cons h handles ih =>
    intro s
    rw [foldl_cons, foldl_cons, ih, book_failOne]

theorem book_failPendingRequests (s : Coordinator ρ) (message : String) :
    (s.failPendingRequests message).book = s.book.failAll := by
  dsimp only [failPendingRequests, Book.failAll]
  have hsrt : ({ s with fatalError := some message } : Coordinator ρ).book = s.book := rfl
  have hfold := book_foldl_failOne message ({ s with fatalError := some message }).tracked
    { s with fatalError := some message }
  rw [hsrt, ← tracked_book, hsrt] at hfold
  rw [← tracked_book, hsrt, ← hfold]
  rfl

theorem book_submitRequest {requestId : String} {dpRank : Option Nat} {r : ReplicaInfo} {next : Nat}
    (hadmission : s.admission requestId dpRank = some (r, next)) (streaming : Bool)
    (answer : ResolverAnswer) : (s.submitRequest requestId streaming dpRank answer).book =
      match s.resolveTerminalStages answer with
      | none => s.book.charge s.entryStage r.dpRank
      | some _ =>
        (s.book.charge s.entryStage r.dpRank).register requestId s.entryStage r.dpRank := by
  unfold submitRequest
  rw [hadmission]
  have hanswer : resolveTerminalStages { s.modifyReplica s.entryStage r.dpRank (· + 1) with
      rrCursors := Function.update s.rrCursors s.entryStage next } answer =
        s.resolveTerminalStages answer := rfl
  show book (match resolveTerminalStages { s.modifyReplica s.entryStage r.dpRank (· + 1) with
      rrCursors := Function.update s.rrCursors s.entryStage next } answer with
    | none => _ | some _ => _) = _
  rw [hanswer]
  cases s.resolveTerminalStages answer with
  | none => rfl
  | some terminalStages =>
    have hlen : (s.book.charge s.entryStage r.dpRank).calls.length = s.calls.length :=
      length_map ..
    unfold Book.register
    rw [hlen]
    dsimp only [book]
    rw [map_append]
    rfl

theorem book_handleCompletion {msg : CompleteMessage ρ} {h : Nat}
    (hid : s.requests msg.requestId = some h) : (s.handleCompletion msg).book =
      if !msg.success then
        { s.book.setState h .failed with failing := some (h, msg.requestId) }
      else
        match s.verdict h msg with
        | .inactive => s.book
        | .waits _ => s.book
        | .single _ => ((s.book.setState h .completed).release h).forget msg.requestId
        | .merged _ => ((s.book.setState h .completed).release h).forget msg.requestId := by
  unfold handleCompletion
  rw [hid]
  dsimp only
  split
  · rw [← book_modify_state s h .failed (f := fun c =>
      { c with info := { c.info with state := .failed, error := msg.error } }) fun _ => rfl]
    rfl
  · cases s.verdict h msg with
    | inactive => rfl
    | waits partials => rfl
    | single result => exact book_completeRequest s h msg.requestId _
    | merged partials => exact book_completeRequest (s.dropPartials msg.requestId) h _ _

theorem book_step {s t : Coordinator ρ} {e : CoordEvent ρ} (hs : coordStep s e = some t) :
    BookStep s.book (s.bookEvent e) t.book := by
  cases e with
  | registerStage name endpoint dpRank capacity =>
    dsimp only [coordStep, registerStage] at hs
    split at hs
    · next hnew =>
      cases hs
      exact .addReplica name _ _ rfl hnew rfl
    · cases hs
  | submit requestId streaming dpRank answer =>
    cases hs
    dsimp only [bookEvent]
    cases hadmission : s.admission requestId dpRank with
    | none =>
      unfold submitRequest
      rw [hadmission]
      exact .quiet
    | some chosen =>
      obtain ⟨r, next⟩ := chosen
      obtain ⟨hid, hrank⟩ := admission_eq_some hadmission
      rw [book_submitRequest hadmission]
      cases s.resolveTerminalStages answer with
      | none => exact .charge _ _ hrank
      | some _ => exact .register _ _ _ hid hrank
  | submitted h =>
    dsimp only [coordStep] at hs
    unfold bookEvent
    cases hc : s.calls[h]? with
    | none =>
      rw [hc] at hs
      cases hs
    | some c =>
      rw [hc] at hs
      cases (of_guard hs).2
      dsimp only
      rw [book_setPhase, entryOf_eq hc]
      cases hid : s.requests c.requestId with
      | none => exact .quiet
      | some h' =>
        rw [book_setState]
        exact BookStep.run (b := s.book) c.requestId h' hid
  | submitFailed h =>
    dsimp only [coordStep] at hs
    unfold bookEvent
    cases hc : s.calls[h]? with
    | none =>
      rw [hc] at hs
      cases hs
    | some c =>
      rw [hc] at hs
      cases (of_guard hs).2
      dsimp only
      rw [book_leaveCall, entryOf_eq hc]
      cases hid : s.requests c.requestId with
      | none => exact .quiet
      | some h' =>
        rw [book_releaseReplica]
        exact BookStep.release (b := s.book) c.requestId h' hid
  | submitCancelled h =>
    dsimp only [coordStep] at hs
    split at hs
    · cases hs
    · cases (of_guard hs).2
      rw [book_leaveCall]
      exact .quiet
  | waiterCancelled h =>
    dsimp only [coordStep] at hs
    split at hs
    · cases hs
    · cases (of_guard hs).2
      rw [book_modifyCall]
      · exact .quiet
      · intro c
        split <;> rfl
  | waiterResumed h =>
    dsimp only [coordStep] at hs
    split at hs
    · cases hs
    · cases (of_guard hs).2
      have hbook := book_setPhase s h .gone
      exact hbook ▸ .quiet
  | streamLeft h =>
    dsimp only [coordStep] at hs
    split at hs
    · cases hs
    · cases (of_guard hs).2
      rw [book_leaveStream]
      exact .quiet
  | streamClosed h =>
    dsimp only [coordStep] at hs
    split at hs
    · cases hs
    · cases (of_guard hs).2
      rw [book_closeStream]
      exact .quiet
  | abort requestId =>
    cases hs
    rw [book_startAbort]
    exact .quiet
  | abortBroadcast requestId =>
    cases (of_guard hs).2
    have hbook := book_runAbort s requestId
    show BookStep s.book (s.bookEvent (.abortBroadcast requestId)) (s.runAbort requestId).book
    rw [hbook]
    dsimp only [bookEvent]
    cases hid : s.requests requestId with
    | none => exact .quiet
    | some h => exact .abort h requestId hid
  | abortFailed requestId | abortTaskDone requestId =>
    cases (of_guard hs).2
    exact .quiet
  | complete msg =>
    obtain ⟨hopen, ⟨⟩⟩ := of_guard hs
    have hidle : s.book.failing = none := by
      unfold book
      rw [isNone_iff_eq_none.mp hopen.1]
      rfl
    dsimp only [bookEvent]
    cases hid : s.requests msg.requestId with
    | none =>
      unfold handleCompletion
      rw [hid]
      exact .quiet
    | some h =>
      rw [book_handleCompletion hid]
      dsimp only
      split
      · exact .fail h msg.requestId hid hidle hopen.2
      · split
        · exact .quiet
        · exact .quiet
        · exact .complete h msg.requestId hid hidle hopen.2
        · exact .complete h msg.requestId hid hidle hopen.2
  | failureBroadcast =>
    dsimp only [coordStep] at hs
    unfold bookEvent
    cases hf : s.failing with
    | none =>
      rw [hf] at hs
      cases hs
    | some f =>
      rw [hf] at hs
      cases hs
      rw [book_finishFailure]
      refine .finishFailure f.handle f.msg.requestId ?_
      unfold book
      rw [hf]
      rfl
  | failureDropped =>
    dsimp only [coordStep] at hs
    split at hs
    · cases hs
    · cases hs
      exact .dropFailure
  | failPending message =>
    cases hs
    rw [book_failPendingRequests]
    exact .failAll

end Coordinator

end OmniRealtime
