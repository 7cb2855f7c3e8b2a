import OmniRealtime.Lib.RowPairing
import OmniRealtime.Lib.System

/-!
# The lookahead decode loop

`scheduling/omni_scheduler.py`: `_event_loop_async_decode`, `_resolve_and_process`,
`_drop_stale_overrun`, and `abort` in any thread. A launched step samples one token row for each
request of its `SchedulerOutput`, in order. What the upstream scheduler chooses (the next batch, who
is admitted or retracted, who finishes) is part of the event.

1. `asyncStep`: the statements of the scheduler thread and of a listener thread that aborts.
-/

namespace OmniRealtime

/-! ## The state -/

/-- What the scheduler reads of a request. `epoch` counts its retractions; `allocated` and
    `released` count what was done to its KV cache. -/
structure DecodeRequest where
  finished : Bool := false
  retracted : Bool := false
  toFinish : Bool := false
  claimed : Bool := false
  hasData : Bool := true
  aborted : Bool := false
  epoch : Nat := 0
  /-- The pool index is set. -/
  held : Bool := false
  allocated : Nat := 0
  released : Nat := 0
  deriving DecidableEq, Repr

/-- Finished or retracted. -/
def DecodeRequest.stale (r : DecodeRequest) : Bool := r.finished || r.retracted

/-- The release of a request without a pool index does nothing. -/
def DecodeRequest.release (r : DecodeRequest) : DecodeRequest :=
  if r.held then { r with held := false, released := r.released + 1 } else r

/-- A launched step: the requests that were sampled, in row order and with their epoch, and the
    `reqs` of the copied batch. -/
structure LaunchedStep (ι : Type) where
  number : Nat
  launched : List (ι × Nat)
  reqs : List ι
  deriving DecidableEq, Repr

def LaunchedStep.requests {ι : Type} (step : LaunchedStep ι) : List ι := step.launched.map Prod.fst

/-- What `_resolve_and_process` looked at first: `batch.reqs`, and who was finished or retracted. -/
structure Snapshot (ι : Type) where
  reqs : List ι
  stale : ι → Bool

def Snapshot.preFinished {ι : Type} (snapshot : Snapshot ι) : List Bool :=
  snapshot.reqs.map snapshot.stale

/-- A step that is resolved; `collected` says that its chunks were put in the outbox. -/
structure Resolution (ι : Type) where
  step : LaunchedStep ι
  snapshot : Option (Snapshot ι) := none
  collected : Bool := false

/-- A request that is handed on, with the row it is paired with, and what it was then. -/
structure HandedRow (ι : Type) where
  request : ι
  row : ι × Nat
  epoch : Nat
  stale : Bool
  deriving DecidableEq, Repr

/-- Where the loop goes on once a step is resolved. -/
inductive AfterResolve
  | endIteration
  /-- The top of the loop: the engine is paused, or a mixed batch is coming. -/
  | top
  | dropStale
  deriving DecidableEq, Repr

inductive LoopPhase
  | top
  | planned
  | resolving (next : AfterResolve)
  /-- In `process_batch_result` of these requests. -/
  | processing (next : AfterResolve)
  | dropStale
  | ready
  deriving DecidableEq, Repr

/-- The statements of `abort` after the lock that touch the batches. -/
inductive RemovalOp (ι : Type)
  | releaseResources (i : ι)
  | removeRunning (i : ι)
  | removeCur (i : ι)
  | removeLast (i : ι)
  /-- `self._async_pending_batch()` is evaluated. -/
  | readPending (i : ι)
  | removePending (i : ι) (number : Nat)
  deriving DecidableEq, Repr

structure AsyncDecode (ι : Type) where
  req : ι → DecodeRequest := fun _ => {}
  running : List ι := []
  cur : List ι := []
  last : List ι := []
  /-- `_async_pending`. -/
  pending : Option (LaunchedStep ι) := none
  resolution : Option (Resolution ι) := none
  /-- The requests in `process_batch_result`. -/
  processing : List ι := []
  phase : LoopPhase := .top
  launches : Nat := 0
  listener : List (RemovalOp ι) := []
  /-- What `process_batch_result` received from launched steps. -/
  processed : List (HandedRow ι) := []
  /-- What was put in the outbox from launched steps. -/
  streamed : List (HandedRow ι) := []
  /-- The requests of the forward passes, and whether they were stale. -/
  forwarded : List (ι × Bool) := []

namespace AsyncDecode

variable {ι : Type} [DecidableEq ι] (s : AsyncDecode ι)

def modify (i : ι) (f : DecodeRequest → DecodeRequest) : AsyncDecode ι :=
  { s with req := Function.update s.req i (f (s.req i)) }

/-! ## `abort` -/

/-- The requests of all batches. -/
def inBatches : List ι :=
  s.running ++ s.cur ++ s.last ++ (s.pending.map LaunchedStep.reqs).getD []

/-- What `_mark_running_request_aborted` answers. -/
def runningAbort (i : ι) : Bool :=
  decide (i ∈ s.inBatches) &&
    if (s.req i).claimed then (s.req i).hasData else !(s.req i).stale

/-- `_remove_from_batch` on the `reqs` of a batch. -/
def removeFrom (reqs : List ι) (i : ι) : List ι := reqs.filter (· ≠ i)

/-- `_remove_from_batch` on the batch of a launched step, which the loop may be resolving now. -/
def removePending (i : ι) (number : Nat) : AsyncDecode ι :=
  { s with
    pending := s.pending.map fun step =>
      if step.number = number then { step with reqs := removeFrom step.reqs i } else step
    resolution := s.resolution.map fun r =>
      if r.step.number = number then
        { r with step := { r.step with reqs := removeFrom r.step.reqs i } }
      else r }

def stepReqs (number : Nat) : List ι :=
  match s.pending.filter (·.number = number), s.resolution.map Resolution.step with
  | some step, _ => step.reqs
  | none, some step => if step.number = number then step.reqs else []
  | none, none => []

/-- The data of a request is detached where it is removed from a batch. -/
def detachIn (reqs : List ι) (i : ι) : AsyncDecode ι :=
  s.modify i fun r => if i ∈ reqs then { r with hasData := false } else r

def removalOp : RemovalOp ι → AsyncDecode ι
  | .releaseResources i =>
    if i ∈ s.inBatches then s.modify i DecodeRequest.release else s
  | .removeRunning i => { s.detachIn s.running i with running := removeFrom s.running i }
  | .removeCur i => { s.detachIn s.cur i with cur := removeFrom s.cur i }
  | .removeLast i => { s.detachIn s.last i with last := removeFrom s.last i }
  | .readPending _ => s
  | .removePending i number =>
    (s.detachIn (s.stepReqs number) i).removePending i number

/-- The locked part of `abort`: the request is recorded, and marked where it is left to the
    scheduler thread. -/
def recordAbort (i : ι) (deferRunningCleanup : Bool) : AsyncDecode ι :=
  s.modify i fun r =>
    { r with
      aborted := true
      toFinish := r.toFinish ||
        (deferRunningCleanup && decide (i ∈ s.inBatches) && !r.claimed && !r.stale) }

/-- `abort` up to the removal from the pending batch. -/
def removalOps (i : ι) : List (RemovalOp ι) :=
  [.releaseResources i, .removeRunning i, .removeCur i, .removeLast i, .readPending i]

/-- `abort` in the scheduler thread. -/
def abortNow (i : ι) (deferRunningCleanup : Bool) : AsyncDecode ι :=
  let recorded := s.recordAbort i deferRunningCleanup
  if deferRunningCleanup && s.runningAbort i then recorded
  else
    let removed := (removalOps i).foldl removalOp recorded
    match removed.pending with
    | none => removed
    | some step => removed.removalOp (.removePending i step.number)

/-- `_handle_batch_failure`. -/
def batchFailure (reqs : List ι) : AsyncDecode ι :=
  reqs.foldl (fun s i => s.abortNow i false) s

/-- `abort` in the listener thread: what it has still to do after the lock. -/
def beginAbort (i : ι) : AsyncDecode ι :=
  { s.recordAbort i true with listener := if s.runningAbort i then [] else removalOps i }

/-- The next statement of the listener thread. -/
def listenerStep : Option (AsyncDecode ι) :=
  match s.listener with
  | [] => none
  | .readPending i :: rest =>
    some { s with
      listener := (s.pending.map fun step => RemovalOp.removePending i step.number).toList ++ rest }
  | op :: rest => some { s.removalOp op with listener := rest }

/-! ## The loop -/

/-- `last_batch` is set at the end of an iteration. -/
def goOn : AfterResolve → AsyncDecode ι
  | .endIteration => { s with phase := .top, last := s.cur }
  | .top => { s with phase := .top }
  | .dropStale => { s with phase := .dropStale }

/-- The requests of a batch go through a forward pass. -/
def forward : AsyncDecode ι :=
  { s with forwarded := s.forwarded ++ s.cur.map fun i => (i, (s.req i).stale) }

/-- `_run_batch_launch` of `cur_batch`; the step that was pending is resolved next. -/
def launch : AsyncDecode ι :=
  { s.forward with
    launches := s.launches + 1
    pending := some
      { number := s.launches
        launched := s.cur.map fun i => (i, (s.req i).epoch)
        reqs := s.cur }
    resolution := s.pending.map fun step => { step := step }
    phase := if s.pending.isSome then .resolving .endIteration else .top
    last := if s.pending.isSome then s.last else s.cur }

/-- The pending step is taken to be resolved. -/
def drain (next : AfterResolve) : AsyncDecode ι :=
  { s with
    pending := none
    resolution := s.pending.map fun step => { step := step }
    phase := .resolving next }

/-- `_drop_stale_overrun` of `cur_batch`. -/
def dropStale : AsyncDecode ι :=
  { s with cur := s.cur.filter fun i => !(s.req i).stale, phase := .ready }

/-- What is handed on for the row of a launched request. -/
def handed (snapshot : Snapshot ι) (i : ι) (row : ι × Nat) : HandedRow ι :=
  { request := i, row := row, epoch := (s.req i).epoch, stale := snapshot.stale i }

/-- `_emit_stream_output` of a launched step: not for those in `skip_rids`, nor for aborted ones. -/
def emitStreamOutput (r : Resolution ι) (snapshot : Snapshot ι) : AsyncDecode ι :=
  let skip := snapshot.reqs.filter snapshot.stale
  let rows := r.step.launched.filter fun row =>
    decide (row.1 ∉ skip) && !(s.req row.1).aborted
  { s with
    streamed := s.streamed ++ rows.map fun row => s.handed snapshot row.1 row
    resolution := some { r with collected := true } }

/-- The requests and the token rows that are left go to `process_batch_result`; a position out of
    range fails the batch. -/
def process (r : Resolution ι) (snapshot : Snapshot ι) (next : AfterResolve) : AsyncDecode ι :=
  match RowPairing.pairKept snapshot.preFinished r.step.reqs r.step.launched with
  | none => ({ s with resolution := none }.batchFailure r.step.reqs).goOn next
  | some pairs =>
    { s with
      processed := s.processed ++ pairs.map fun pair => s.handed snapshot pair.1 pair.2
      processing := pairs.map Prod.fst
      resolution := none
      phase := .processing next }

end AsyncDecode

/-! ## Steps -/

inductive AsyncEvent (ι : Type)
  /-- A request is built, or admitted again. -/
  | allocate (i : ι)
  | retract (i : ι)
  /-- `get_next_batch_to_run`. -/
  | plan (running batch : List ι)
  /-- `_resolve_pending_async` at the top of the loop. -/
  | flush
  | launch
  | launchFails
  /-- `_resolve_pending_async` before a synchronous step. -/
  | drain
  | dropStale
  | runBatch
  | runBatchFails
  | snapshot
  /-- The collect of a runner finishes a request. -/
  | collectFinish (i : ι)
  | collect
  /-- The step has no result. -/
  | noResult
  | resolveFails
  | process
  /-- `process_batch_result` finishes a request and releases its KV cache. -/
  | finish (i : ι)
  | claim (i : ι)
  /-- `stream_output` closes or drops a request. -/
  | close (i : ι)
  | processReturns
  | processFails
  /-- An abort in the scheduler thread: from the inbox, an admin request or the upstream sender. -/
  | abortNow (i : ι) (deferRunningCleanup : Bool)
  | abort (i : ι)
  | listener
  deriving DecidableEq, Repr

variable {ι : Type} [DecidableEq ι]

def asyncStep (s : AsyncDecode ι) : AsyncEvent ι → Option (AsyncDecode ι)
  | .allocate i =>
    if s.phase = .top ∧ (s.req i).held = false ∧ (s.req i).finished = false then
      some (s.modify i fun r =>
        { r with retracted := false, held := true, allocated := r.allocated + 1 })
    else none
  | .retract i =>
    if s.phase = .top ∧ (s.req i).stale = false then
      some (s.modify i fun r => { r.release with retracted := true, epoch := r.epoch + 1 })
    else none
  | .plan running batch =>
    if s.phase = .top ∧ batch.Nodup ∧ ∀ i ∈ batch, (s.req i).stale = false then
      some { s with running := running, cur := batch, phase := .planned }
    else none
  | .flush =>
    if s.phase = .top ∧ s.pending.isSome = true then some (s.drain .top) else none
  | .launch => if s.phase = .planned ∧ s.cur ≠ [] then some s.launch else none
  | .launchFails =>
    if s.phase = .planned then some ((s.batchFailure s.cur).goOn .endIteration) else none
  | .drain =>
    if s.phase = .planned ∧ s.pending.isSome = true then some (s.drain .dropStale) else none
  | .dropStale => if s.phase = .dropStale then some s.dropStale else none
  | .runBatch =>
    if s.phase = .ready ∨ s.phase = .planned ∧ s.pending = none then
      some { s.forward with processing := s.cur, phase := .processing .endIteration }
    else none
  | .runBatchFails =>
    if s.phase = .ready ∨ s.phase = .planned ∧ s.pending = none then
      some ((s.batchFailure s.cur).goOn .endIteration)
    else none
  | .snapshot =>
    match s.phase, s.resolution with
    | .resolving _, some ⟨step, none, collected⟩ =>
      some { s with
        resolution := some ⟨step, some ⟨step.reqs, fun i => (s.req i).stale⟩, collected⟩ }
    | _, _ => none
  | .collectFinish i =>
    match s.phase, s.resolution with
    | .resolving _, some ⟨step, some _, false⟩ =>
      if i ∈ step.requests then some (s.modify i fun r => { r with finished := true }) else none
    | _, _ => none
  | .collect =>
    match s.phase, s.resolution with
    | .resolving _, some ⟨step, some snapshot, false⟩ =>
      some (s.emitStreamOutput ⟨step, some snapshot, false⟩ snapshot)
    | _, _ => none
  | .noResult =>
    match s.phase with
    | .resolving next => some ({ s with resolution := none }.goOn next)
    | _ => none
  | .resolveFails =>
    match s.phase, s.resolution with
    | .resolving next, some r =>
      some (({ s with resolution := none }.batchFailure r.step.reqs).goOn next)
    | _, _ => none
  | .process =>
    match s.phase, s.resolution with
    | .resolving next, some ⟨step, some snapshot, true⟩ =>
      some (s.process ⟨step, some snapshot, true⟩ snapshot next)
    | _, _ => none
  | .finish i =>
    match s.phase with
    | .processing _ =>
      if i ∈ s.processing then some (s.modify i fun r => { r.release with finished := true })
      else none
    | _ => none
  | .claim i =>
    match s.phase with
    | .processing _ =>
      if i ∈ s.processing ∧ (s.req i).finished = true ∧ (s.req i).aborted = false then
        some (s.modify i fun r => { r with claimed := true })
      else none
    | _ => none
  | .close i =>
    match s.phase with
    | .processing _ =>
      if i ∈ s.processing ∧ (s.req i).finished = true then
        some (s.modify i fun r => { r with hasData := false })
      else none
    | _ => none
  | .processReturns =>
    match s.phase with
    | .processing next => some ({ s with processing := [] }.goOn next)
    | _ => none
  | .processFails =>
    match s.phase with
    | .processing next => some (({ s with processing := [] }.batchFailure s.processing).goOn next)
    | _ => none
  | .abortNow i deferRunningCleanup =>
    if s.phase = .top then some (s.abortNow i deferRunningCleanup) else none
  | .abort i => if s.listener = [] then some (s.beginAbort i) else none
  | .listener => s.listenerStep

def asyncDecodeSystem (ι : Type) [DecidableEq ι] : System (AsyncDecode ι) (AsyncEvent ι) :=
  .ofFun (fun s => s = {}) asyncStep

end OmniRealtime
