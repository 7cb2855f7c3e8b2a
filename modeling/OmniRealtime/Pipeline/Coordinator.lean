import OmniRealtime.Lib.Dict
import OmniRealtime.Lib.System

/-!
# The coordinator

`coordinator.py`: requests are registered, bound to a replica of the entry stage, submitted,
and resolved by completions, failures, aborts, or all at once when the runtime fails. Every
method is a coroutine; one step here is one stretch of a coroutine between two awaits that can
suspend. A `put` on a stream queue never suspends: the queue is unbounded.

A registered request is named by a handle, its position in `calls`, since a request id may be
used again once nothing in the coordinator holds it.

1. `coordStep`: the stretches of the coroutines, in any order they may be resumed in.
2. `admission_eq_some`: a request that is admitted has a new id and a registered replica.
-/

namespace OmniRealtime

universe u

/-! ## Requests and replicas -/

inductive RequestState
  | pending | running | completed | failed | aborted
  deriving DecidableEq, Repr

/-- `COMPLETED`, `FAILED` and `ABORTED`, as `abort` lists them. -/
def RequestState.isTerminal : RequestState → Bool
  | .pending | .running => false
  | .completed | .failed | .aborted => true

structure ReplicaInfo where
  dpRank : Nat
  endpoint : String
  inflight : Nat := 0
  capacity : Option Nat := none
  deriving DecidableEq, Repr

namespace ReplicaInfo

def isFull (r : ReplicaInfo) : Bool := r.capacity.any fun capacity => decide (capacity ≤ r.inflight)

end ReplicaInfo

/-- The replicas of a stage; the runner registers a rank of a stage once. -/
structure StageReplicas where
  list : List ReplicaInfo := []
  nodup : (list.map ReplicaInfo.dpRank).Nodup := by exact List.nodup_nil

/-- Change the counter of one replica. -/
def StageReplicas.modify (replicas : StageReplicas) (dpRank : Nat) (f : Nat → Nat) :
    StageReplicas where
  list := replicas.list.map fun r =>
    if r.dpRank = dpRank then { r with inflight := f r.inflight } else r
  nodup := by
    have hranks : (replicas.list.map fun r =>
        if r.dpRank = dpRank then { r with inflight := f r.inflight } else r).map
          ReplicaInfo.dpRank = replicas.list.map ReplicaInfo.dpRank := by
      rw [List.map_map]
      refine List.map_congr_left fun r _ => ?_
      dsimp only [Function.comp]
      split <;> rfl
    rw [hranks]
    exact replicas.nodup

/-- What a completion future is resolved with. -/
inductive Outcome (ρ : Type u)
  | result (result : ρ)
  | merged (partials : Dict String ρ)
  | exception (message : String)
  | cancelled

structure CompleteMessage (ρ : Type u) where
  requestId : String
  fromStage : String
  success : Bool
  result : ρ
  error : Option String := none

structure RequestInfo (ρ : Type u) where
  state : RequestState := .pending
  currentStage : Option String := none
  terminalStages : Finset String
  result : Option (Outcome ρ) := none
  error : Option String := none
  ownerEndpoint : Option String := none
  ownerDpRank : Option Nat := none

/-- Where the caller of `submit` or `stream` is. -/
inductive CallPhase
  | submitting | waiting | closing | gone
  deriving DecidableEq, Repr

/-- A registered request with its completion future and its caller. -/
structure Call (ρ : Type u) where
  requestId : String
  streaming : Bool
  info : RequestInfo ρ
  /-- What the future was resolved with, in order. -/
  outcomes : List (Outcome ρ) := []
  phase : CallPhase := .submitting
  /-- How often the request's replica was given back. -/
  releases : Nat := 0

inductive AbortTask
  | broadcasting | finished
  deriving DecidableEq, Repr

/-- The failure branch of `_handle_completion`, suspended in `broadcast_abort`. -/
structure Failing (ρ : Type u) where
  handle : Nat
  msg : CompleteMessage ρ

structure Coordinator (ρ : Type u) where
  entryStage : String
  terminalStages : Finset String
  stages : String → StageReplicas := fun _ => {}
  rrCursors : String → Nat := fun _ => 0
  calls : List (Call ρ) := []
  requests : String → Option Nat := fun _ => none
  completionFutures : String → Option Nat := fun _ => none
  streamQueues : String → Option Nat := fun _ => none
  abortTasks : String → Option AbortTask := fun _ => none
  partialResults : String → Option (Dict String ρ) := fun _ => none
  fatalError : Option String := none
  failing : Option (Failing ρ) := none
  /-- The task of `run_completion_loop` has ended. -/
  loopEnded : Bool := false
  /-- How often a counter that is zero was to be decremented. -/
  clamps : Nat := 0

/-- What the configured `terminal_stages_resolver` answers. -/
inductive ResolverAnswer
  | unset
  | notASequence
  | notNames
  | names (stages : List String)
  | raises
  deriving DecidableEq, Repr

namespace Coordinator

variable {ρ : Type u} {r : ReplicaInfo} {s : Coordinator ρ}

/-! ## Replicas -/

def replicaFor (s : Coordinator ρ) (stage : String) (dpRank : Nat) : Option ReplicaInfo :=
  (s.stages stage).list.find? fun r => r.dpRank = dpRank

/-- `_select_replica` on the offsets that are left: the first replica that is not full. -/
def selectFrom (replicas : List ReplicaInfo) (cursor : Nat) : List Nat → Option (ReplicaInfo × Nat)
  | [] => none
  | offset :: offsets =>
    match replicas[(cursor + offset) % replicas.length]? with
    | none => none
    | some r =>
      if r.isFull then selectFrom replicas cursor offsets
      else some (r, (cursor + offset + 1) % replicas.length)

/-- `_select_replica`: the replica and the next cursor; round-robin when all are full. -/
def selectReplica (s : Coordinator ρ) (stage : String) : Option (ReplicaInfo × Nat) :=
  let replicas := (s.stages stage).list
  let cursor := s.rrCursors stage % replicas.length
  match selectFrom replicas cursor (List.range replicas.length) with
  | some chosen => some chosen
  | none => replicas[cursor]?.map fun r => (r, (cursor + 1) % replicas.length)

def modifyReplica (s : Coordinator ρ) (stage : String) (dpRank : Nat) (f : Nat → Nat) :
    Coordinator ρ :=
  { s with
    stages := Function.update s.stages stage ((s.stages stage).modify dpRank f) }

/-- `register_stage`; a rank that is already registered is not registered again. -/
def registerStage (s : Coordinator ρ) (name endpoint : String) (dpRank : Option Nat)
    (capacity : Option Nat) : Option (Coordinator ρ) :=
  let replicas := s.stages name
  let rank := dpRank.getD replicas.list.length
  if h : rank ∉ replicas.list.map ReplicaInfo.dpRank then
    some { s with
      stages := Function.update s.stages name
        { list := replicas.list ++ [⟨rank, endpoint, 0, capacity⟩]
          nodup := by
            rw [List.map_append, List.nodup_append]
            refine ⟨replicas.nodup, List.nodup_singleton _, fun a ha b hb hab => h ?_⟩
            have hrank : b = rank := List.mem_singleton.mp hb
            exact hrank ▸ hab ▸ ha } }
  else none

/-! ## Calls -/

def modifyCall (s : Coordinator ρ) (h : Nat) (f : Call ρ → Call ρ) : Coordinator ρ :=
  { s with calls := s.calls.modify h f }

def setState (s : Coordinator ρ) (h : Nat) (state : RequestState) : Coordinator ρ :=
  s.modifyCall h fun c => { c with info := { c.info with state := state } }

def setPhase (s : Coordinator ρ) (h : Nat) (phase : CallPhase) : Coordinator ρ :=
  s.modifyCall h fun c => { c with phase := phase }

def releaseReplica (s : Coordinator ρ) (h : Nat) : Coordinator ρ :=
  match s.calls[h]? with
  | none => s
  | some c =>
    match c.info.ownerDpRank with
    | none => s
    | some dpRank =>
      let stage := c.info.currentStage.getD s.entryStage
      let s := match s.replicaFor stage dpRank with
        | none => s
        | some replica =>
          -- `max(0, replica.inflight - 1)`
          { s.modifyReplica stage dpRank (· - 1) with
            clamps := if replica.inflight = 0 then s.clamps + 1 else s.clamps }
      s.modifyCall h fun c =>
        { c with
          releases := c.releases + 1
          info := { c.info with ownerDpRank := none, ownerEndpoint := none } }

/-- The future of the id is resolved, unless it is done. -/
def settle (s : Coordinator ρ) (requestId : String) (outcome : Outcome ρ) : Coordinator ρ :=
  match s.completionFutures requestId with
  | none => s
  | some h => s.modifyCall h fun c =>
    if c.outcomes = [] then { c with outcomes := c.outcomes ++ [outcome] } else c

/-- `_reject_completion_future`: a streaming caller never awaits the future. -/
def rejectCompletionFuture (s : Coordinator ρ) (requestId : String) (exc : Outcome ρ) :
    Coordinator ρ :=
  s.settle requestId (if (s.streamQueues requestId).isSome then .cancelled else exc)

/-- `_requests.pop(request_id, None)`. -/
def forget (s : Coordinator ρ) (requestId : String) : Coordinator ρ :=
  { s with requests := Function.update s.requests requestId none }

def dropPartials (s : Coordinator ρ) (requestId : String) : Coordinator ρ :=
  { s with partialResults := Function.update s.partialResults requestId none }

/-! ## Submitting -/

def requestIdIsReserved (s : Coordinator ρ) (requestId : String) : Bool :=
  (s.requests requestId).isSome || (s.completionFutures requestId).isSome ||
    (s.streamQueues requestId).isSome || (s.abortTasks requestId).isSome

/-- `_resolve_terminal_stages`; `none` where it raises. -/
def resolveTerminalStages (s : Coordinator ρ) (answer : ResolverAnswer) : Option (Finset String) :=
  match answer with
  | .unset => some s.terminalStages
  | .notASequence => none
  | .notNames => none
  | .raises => none
  | .names stages =>
    if stages = [] then none
    else if stages.toFinset ⊆ s.terminalStages then some stages.toFinset
    else none

/-- The replica `_submit_request` admits to and the next cursor; `none` where it raises
    before. -/
def admission (s : Coordinator ρ) (requestId : String) (dpRank : Option Nat) :
    Option (ReplicaInfo × Nat) :=
  if s.fatalError.isSome ∨ s.requestIdIsReserved requestId then none
  else
    match dpRank with
    | none => s.selectReplica s.entryStage
    | some dpRank =>
      (s.replicaFor s.entryStage dpRank).map fun r => (r, s.rrCursors s.entryStage)

/-- `_submit_request`, up to the await of `submit_to_stage`. -/
def submitRequest (s : Coordinator ρ) (requestId : String) (streaming : Bool)
    (dpRank : Option Nat) (answer : ResolverAnswer) : Coordinator ρ :=
  match s.admission requestId dpRank with
  | none => s
  | some (entryReplica, cursor) =>
    -- the counter goes up before the resolver is asked
    let s := s.modifyReplica s.entryStage entryReplica.dpRank (· + 1)
    let s := { s with rrCursors := Function.update s.rrCursors s.entryStage cursor }
    match s.resolveTerminalStages answer with
    | none => s
    | some terminalStages =>
      let handle := s.calls.length
      let info : RequestInfo ρ := {
        state := .pending
        currentStage := some s.entryStage
        terminalStages := terminalStages
        ownerEndpoint := some entryReplica.endpoint
        ownerDpRank := some entryReplica.dpRank }
      { s with
        calls := s.calls ++ [{ requestId := requestId, streaming := streaming, info := info }]
        requests := Function.update s.requests requestId (some handle)
        completionFutures := Function.update s.completionFutures requestId (some handle)
        streamQueues :=
          if streaming then Function.update s.streamQueues requestId (some handle)
          else s.streamQueues }

/-! ## Aborting -/

/-- `abort`, up to its await: the coordinator, and whether there is a task to wait for. -/
def startAbort (s : Coordinator ρ) (requestId : String) : Coordinator ρ × Bool :=
  if (s.abortTasks requestId).isSome then (s, true)
  else
    match (s.requests requestId).bind fun h => s.calls[h]? with
    | none => (s, false)
    | some c =>
      if c.info.state.isTerminal then (s, false)
      else ({ s with
        abortTasks := Function.update s.abortTasks requestId (some .broadcasting) }, true)

/-- `_run_abort`, after the broadcast. -/
def runAbort (s : Coordinator ρ) (requestId : String) : Coordinator ρ :=
  match s.requests requestId with
  | none => s
  | some h =>
    let s := s.setState h .aborted
    let s := s.rejectCompletionFuture requestId (.exception s!"Request {requestId} aborted")
    ((s.releaseReplica h).forget requestId).dropPartials requestId

/-! ## The callers -/

/-- The last two statements of `stream`. -/
def closeStream (s : Coordinator ρ) (h : Nat) (requestId : String) : Coordinator ρ :=
  if s.streamQueues requestId = some h then
    { s.setPhase h .gone with
      streamQueues := Function.update s.streamQueues requestId none
      completionFutures := Function.update s.completionFutures requestId none }
  else s.setPhase h .gone

/-- The `finally` of `stream`, up to the await of `abort`. -/
def leaveStream (s : Coordinator ρ) (h : Nat) (requestId : String) : Coordinator ρ :=
  if s.streamQueues requestId = some h ∧ (s.requests requestId).isSome then
    let started := s.startAbort requestId
    if started.2 then started.1.setPhase h .closing else s.closeStream h requestId
  else s.closeStream h requestId

/-- `_submit_request` raises: `submit` ends there, `stream` goes to its `finally`. -/
def leaveCall (s : Coordinator ρ) (h : Nat) (c : Call ρ) : Coordinator ρ :=
  if c.streaming then s.leaveStream h c.requestId else s.setPhase h .gone

/-! ## Completions -/

/-- The success branches of `_handle_completion`: `outcome` is what the request resolves to. -/
def completeRequest (s : Coordinator ρ) (h : Nat) (requestId : String) (outcome : Outcome ρ) :
    Coordinator ρ :=
  let s := s.modifyCall h fun c =>
    { c with info := { c.info with state := .completed, result := some outcome } }
  ((s.settle requestId outcome).releaseReplica h).forget requestId

/-- What a successful completion of a request means. -/
inductive Verdict (ρ : Type u)
  | inactive
  | waits (partials : Dict String ρ)
  | single (result : ρ)
  | merged (partials : Dict String ρ)

/-- The branches of `_handle_completion` for a success. -/
def verdict (s : Coordinator ρ) (h : Nat) (msg : CompleteMessage ρ) : Verdict ρ :=
  let expected := ((s.calls[h]?).map fun c => c.info.terminalStages).getD s.terminalStages
  if expected ≠ ∅ ∧ msg.fromStage ∉ expected then .inactive
  else if expected.card ≤ 1 then .single msg.result
  else
    let partials := ((s.partialResults msg.requestId).getD []).set msg.fromStage msg.result
    if partials.keys.toFinset ⊂ expected then .waits partials else .merged partials

/-- `_handle_completion`; a failure suspends it in `broadcast_abort`. -/
def handleCompletion (s : Coordinator ρ) (msg : CompleteMessage ρ) : Coordinator ρ :=
  match s.requests msg.requestId with
  | none => s
  | some h =>
    if !msg.success then
      { s.modifyCall h (fun c =>
          { c with info := { c.info with state := .failed, error := msg.error } }) with
        failing := some ⟨h, msg⟩ }
    else
      match s.verdict h msg with
      | .inactive => s
      | .waits partials =>
        { s with
          partialResults := Function.update s.partialResults msg.requestId (some partials) }
      | .single result => s.completeRequest h msg.requestId (.result result)
      | .merged partials =>
        (s.dropPartials msg.requestId).completeRequest h msg.requestId (.merged partials)

/-- The failure branch, after the broadcast. -/
def finishFailure (s : Coordinator ρ) (f : Failing ρ) : Coordinator ρ :=
  let s := s.dropPartials f.msg.requestId
  let s := s.rejectCompletionFuture f.msg.requestId
    (.exception (f.msg.error.getD "Unknown error"))
  { (s.releaseReplica f.handle).forget f.msg.requestId with failing := none }

/-- One turn of the loop of `fail_pending_requests`. -/
def failOne (message : String) (s : Coordinator ρ) (h : Nat) : Coordinator ρ :=
  match s.calls[h]? with
  | none => s
  | some c =>
    let s := s.modifyCall h fun c =>
      { c with info := { c.info with state := .failed, error := some message } }
    (s.rejectCompletionFuture c.requestId (.exception message)).releaseReplica h

/-- The handles of `_requests`, oldest first. -/
def tracked (s : Coordinator ρ) : List Nat :=
  (List.range s.calls.length).filter fun h =>
    ((s.calls[h]?).map fun c => decide (s.requests c.requestId = some h)).getD false

def failPendingRequests (s : Coordinator ρ) (message : String) : Coordinator ρ :=
  let s := { s with fatalError := some message }
  let s := s.tracked.foldl (failOne message) s
  { s with requests := fun _ => none, partialResults := fun _ => none }

/-! ## Admission -/

theorem dpRank_mem_of_replicaFor {stage : String} {dpRank : Nat}
    (h : s.replicaFor stage dpRank = some r) :
    r.dpRank ∈ (s.stages stage).list.map ReplicaInfo.dpRank :=
  List.mem_map_of_mem (List.mem_of_find?_eq_some h)

theorem mem_of_selectFrom {replicas : List ReplicaInfo} {cursor : Nat} {offsets : List Nat}
    {next : Nat} (h : selectFrom replicas cursor offsets = some (r, next)) : r ∈ replicas := by
  induction offsets with
  | nil => cases h
  | cons offset offsets ih =>
    unfold selectFrom at h
    split at h
    · cases h
    · next r' hr' =>
      split at h
      · exact ih h
      · obtain ⟨rfl, -⟩ := Prod.mk.inj (Option.some.inj h)
        exact List.mem_of_getElem? hr'

theorem mem_of_selectReplica {stage : String} {next : Nat}
    (h : s.selectReplica stage = some (r, next)) : r ∈ (s.stages stage).list := by
  dsimp only [selectReplica] at h
  split at h
  · next chosen hchosen =>
    cases h
    exact mem_of_selectFrom hchosen
  · obtain ⟨r', hr', heq⟩ := Option.map_eq_some_iff.mp h
    obtain ⟨rfl, -⟩ := Prod.mk.inj heq
    exact List.mem_of_getElem? hr'

theorem admission_eq_some {requestId : String} {dpRank : Option Nat} {next : Nat}
    (h : s.admission requestId dpRank = some (r, next)) : s.requests requestId = none ∧
      r.dpRank ∈ (s.stages s.entryStage).list.map ReplicaInfo.dpRank := by
  unfold admission at h
  split at h
  · cases h
  · next hopen =>
    rw [not_or] at hopen
    have hid : s.requests requestId = none := by
      cases hr : s.requests requestId with
      | none => rfl
      | some h' =>
        refine absurd ?_ hopen.2
        unfold requestIdIsReserved
        rw [hr]
        rfl
    refine ⟨hid, ?_⟩
    split at h
    · exact List.mem_map_of_mem (mem_of_selectReplica h)
    · obtain ⟨r', hr', heq⟩ := Option.map_eq_some_iff.mp h
      obtain ⟨rfl, -⟩ := Prod.mk.inj heq
      exact dpRank_mem_of_replicaFor hr'

end Coordinator

/-! ## Steps -/

inductive CoordEvent (ρ : Type u)
  | registerStage (name endpoint : String) (dpRank capacity : Option Nat)
  | submit (requestId : String) (streaming : Bool) (dpRank : Option Nat) (answer : ResolverAnswer)
  /-- `submit_to_stage` returns, raises, or its caller is cancelled. -/
  | submitted (h : Nat)
  | submitFailed (h : Nat)
  | submitCancelled (h : Nat)
  /-- The task of a non-streaming caller is cancelled. -/
  | waiterCancelled (h : Nat)
  | waiterResumed (h : Nat)
  | streamLeft (h : Nat)
  | streamClosed (h : Nat)
  | abort (requestId : String)
  /-- The broadcast of `_run_abort` returns, or it raises or is cancelled. -/
  | abortBroadcast (requestId : String)
  | abortFailed (requestId : String)
  | abortTaskDone (requestId : String)
  | complete (msg : CompleteMessage ρ)
  /-- The broadcast of the failure branch returns, or it raises or is cancelled. -/
  | failureBroadcast
  | failureDropped
  | failPending (message : String)

open Coordinator in
def coordStep {ρ : Type u} (s : Coordinator ρ) : CoordEvent ρ → Option (Coordinator ρ)
  | .registerStage name endpoint dpRank capacity => s.registerStage name endpoint dpRank capacity
  | .submit requestId streaming dpRank answer =>
    some (s.submitRequest requestId streaming dpRank answer)
  | .submitted h =>
    match s.calls[h]? with
    | none => none
    | some c =>
      if c.phase = .submitting then
        let t := match s.requests c.requestId with
          | none => s
          | some h' => s.setState h' .running
        some (t.setPhase h .waiting)
      else none
  | .submitFailed h =>
    match s.calls[h]? with
    | none => none
    | some c =>
      if c.phase = .submitting then
        let t := match s.requests c.requestId with
          | none => s
          | some h' => s.releaseReplica h'
        some (t.leaveCall h c)
      else none
  | .submitCancelled h =>
    match s.calls[h]? with
    | none => none
    | some c => if c.phase = .submitting then some (s.leaveCall h c) else none
  | .waiterCancelled h =>
    match s.calls[h]? with
    | none => none
    | some c =>
      if c.phase = .waiting ∧ c.streaming = false then
        some (s.modifyCall h fun c =>
          if c.outcomes = [] then { c with outcomes := c.outcomes ++ [.cancelled] } else c)
      else none
  | .waiterResumed h =>
    match s.calls[h]? with
    | none => none
    | some c =>
      if c.phase = .waiting ∧ c.streaming = false ∧ c.outcomes ≠ [] then
        some { s.setPhase h .gone with
          completionFutures := Function.update s.completionFutures c.requestId none }
      else none
  | .streamLeft h =>
    match s.calls[h]? with
    | none => none
    | some c =>
      if c.phase = .waiting ∧ c.streaming = true then some (s.leaveStream h c.requestId) else none
  | .streamClosed h =>
    match s.calls[h]? with
    | none => none
    | some c => if c.phase = .closing then some (s.closeStream h c.requestId) else none
  | .abort requestId => some (s.startAbort requestId).1
  | .abortBroadcast requestId =>
    if s.abortTasks requestId = some .broadcasting then
      let t := s.runAbort requestId
      some { t with abortTasks := Function.update t.abortTasks requestId (some .finished) }
    else none
  | .abortFailed requestId =>
    if s.abortTasks requestId = some .broadcasting then
      some { s with abortTasks := Function.update s.abortTasks requestId (some .finished) }
    else none
  | .abortTaskDone requestId =>
    if s.abortTasks requestId = some .finished then
      some { s with abortTasks := Function.update s.abortTasks requestId none }
    else none
  | .complete msg =>
    if s.failing.isNone ∧ s.loopEnded = false then some (s.handleCompletion msg) else none
  | .failureBroadcast =>
    match s.failing with
    | none => none
    | some f => some (s.finishFailure f)
  | .failureDropped =>
    match s.failing with
    | none => none
    | some _ => some { s with failing := none, loopEnded := true }
  | .failPending message => some (s.failPendingRequests message)

/-- A coordinator that was just constructed. -/
def CoordInit {ρ : Type u} (s : Coordinator ρ) : Prop :=
  ∃ entryStage terminalStages, s = { entryStage := entryStage, terminalStages := terminalStages }

def coordSystem (ρ : Type u) : System (Coordinator ρ) (CoordEvent ρ) := .ofFun CoordInit coordStep

end OmniRealtime
