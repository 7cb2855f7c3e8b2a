import OmniRealtime.Lib.LogOrder
import OmniRealtime.Lib.System

/-!
# The end of a request

`scheduling/omni_scheduler.py`: `stream_output` on the scheduler thread, `abort` on the stage
listener thread, and the chunks, marks and updates of the same request. The state is that of one
request; one step is what the admission lock makes atomic, or one statement outside the lock. Its
id stays in `_aborted_request_ids` and in `_completed_request_ids`, and is not used again.

1. `terminalStep`: the steps of the two threads.
-/

namespace OmniRealtime

/-! ## The two threads -/

/-- `req.finished_reason` is a `FINISH_ABORT`, or another reason. -/
inductive FinishedReason
  | abort | other
  deriving DecidableEq, Repr

/-- Where `_find_request_data` and `_mark_running_request_aborted` look for a request. -/
inductive BatchSlot
  | runningBatch | curBatch | lastBatch | asyncPending
  deriving DecidableEq, Repr

/-- A message of the inbox; `rechecks` is what `_should_recheck_deferred_request_on_stream_chunk`
    answers. -/
inductive IngressMessage
  | streamChunk (rechecks : Bool)
  | streamDone
  | requestUpdate
  deriving DecidableEq, Repr

/-- Where the scheduler thread is; `error` says that the terminal output failed, `cleanup` that
    `_close_completed_request` answered `True`. -/
inductive SchedulerPoint
  | idle
  /-- `recv_requests` has seen that the request is not aborted. -/
  | receive (message : IngressMessage)
  /-- `stream_output` is about to take the lock. -/
  | streamOutput
  | dropCallback
  | dropFirstEmit
  | dropPathEnd
  | dropDetach
  | adapt
  | finishedCallback (error : Bool)
  | pathEnd (error : Bool)
  | close (error : Bool)
  | closedFirstEmit (cleanup error : Bool)
  | closedPrefillStart (cleanup error : Bool)
  | closedPrefillEnd (cleanup error : Bool)
  | closedCallback (cleanup error : Bool)
  | emitFirstEmit (error : Bool)
  | emit (error : Bool)
  deriving DecidableEq, Repr

/-- The statements of `abort` outside the lock. -/
inductive AbortOp
  | runAbortCallback
  | popStreamIngress
  | popRequestUpdates
  | popDeferredPayload
  | discardDirty
  | discardFirstEmit
  | modelPathEnd
  | discardPrefillStart
  | discardPrefillEnd
  | releaseResources
  | removeFromBatch (slot : BatchSlot)
  | drainInbox
  deriving DecidableEq, Repr

/-- What happens to the request, in order. -/
inductive TerminalEvent
  /-- The abort is in `_aborted_request_ids`. -/
  | recorded
  | claimed
  | closed
  | dropped
  | abortCallback
  | result
  | error
  deriving DecidableEq, Repr

structure TerminalRequest where
  finished : Option FinishedReason := none
  toFinish : Bool := false
  /-- `_omni_terminal_claimed`. -/
  claimed : Bool := false
  /-- `_omni_data` is not `None`. -/
  hasData : Bool := true
  batches : List BatchSlot := [.runningBatch]
  aborted : Bool := false
  completed : Bool := false
  streamIngress : Bool := false
  requestUpdates : Bool := false
  deferredPayload : Bool := false
  dirty : Bool := false
  firstEmit : Bool := false
  prefillStart : Bool := false
  prefillEnd : Bool := false
  scheduler : SchedulerPoint := .idle
  /-- What `abort` has still to do. -/
  listener : List AbortOp := []
  log : List TerminalEvent := []
  deriving DecidableEq, Repr

namespace TerminalRequest

variable (s : TerminalRequest)

def record (event : TerminalEvent) : TerminalRequest := { s with log := s.log ++ [event] }

/-! ## The scheduler thread -/

def findRequestData : Bool := !s.batches.isEmpty && s.hasData

/-- `_on_stream_chunk`, `_on_stream_done` and `_on_request_update`. -/
def deliver (message : IngressMessage) : TerminalRequest :=
  if s.completed || s.findRequestData then s
  else
    match message with
    | .streamChunk rechecks =>
      { s with streamIngress := true, dirty := s.dirty || s.deferredPayload && rechecks }
    | .streamDone => { s with streamIngress := true, dirty := s.dirty || s.deferredPayload }
    | .requestUpdate => { s with requestUpdates := true }

/-- `_emit_model_path_end_once`. -/
def modelPathEnd : TerminalRequest := { s with prefillStart := false }

/-- The locked part of `_close_completed_request`. -/
def closeCompleted : TerminalRequest :=
  { s with
    hasData := false
    completed := true
    streamIngress := if s.completed then s.streamIngress else false
    requestUpdates := if s.completed then s.requestUpdates else false
    log := s.log ++ [.closed] }

/-- The part of `stream_output` under the lock. Without data the request is closed under the same
    lock. -/
def claimTerminal : TerminalRequest :=
  if s.finished = some .abort ∨ s.aborted = true then { s with scheduler := .dropCallback }
  else if s.claimed then { s with scheduler := .idle }
  else if s.hasData then
    { s.record .claimed with claimed := true, scheduler := .adapt }
  else
    { s.closeCompleted with
      firstEmit := false, prefillStart := false, prefillEnd := false, scheduler := .idle }

/-- The next statement of the scheduler thread. `raises` is how the adaptation or the finished
    callback ends, `flushed` whether `_flush_stream_output` puts a message. -/
def advance (raises flushed : Bool) : Option TerminalRequest :=
  match s.scheduler with
  | .idle => none
  | .receive message => some { s.deliver message with scheduler := .idle }
  | .streamOutput => some s.claimTerminal
  | .dropCallback => some { s.record .abortCallback with scheduler := .dropFirstEmit }
  | .dropFirstEmit => some { s with firstEmit := false, scheduler := .dropPathEnd }
  | .dropPathEnd => some { s.modelPathEnd with scheduler := .dropDetach }
  | .dropDetach => some { s.record .dropped with hasData := false, scheduler := .idle }
  | .adapt =>
    some { s with firstEmit := s.firstEmit || flushed, scheduler := .finishedCallback raises }
  | .finishedCallback error => some { s with scheduler := .pathEnd (error || raises) }
  | .pathEnd error => some { s.modelPathEnd with scheduler := .close error }
  | .close error => some { s.closeCompleted with scheduler := .closedFirstEmit s.aborted error }
  | .closedFirstEmit cleanup error =>
    some { s with firstEmit := false, scheduler := .closedPrefillStart cleanup error }
  | .closedPrefillStart cleanup error =>
    some { s with prefillStart := false, scheduler := .closedPrefillEnd cleanup error }
  | .closedPrefillEnd cleanup error =>
    some { s with prefillEnd := false, scheduler := .closedCallback cleanup error }
  | .closedCallback true error =>
    some { s.record .abortCallback with scheduler := .emitFirstEmit error }
  | .closedCallback false error => some { s with scheduler := .emitFirstEmit error }
  | .emitFirstEmit error => some { s with firstEmit := false, scheduler := .emit error }
  | .emit error =>
    some { s.record (if error then .error else .result) with scheduler := .idle }

/-! ## The listener thread -/

/-- What `_mark_running_request_aborted` answers. -/
def runningAbort : Bool :=
  !s.batches.isEmpty && if s.claimed then s.hasData else s.finished.isNone

/-- What `abort` does outside the lock. -/
def abortOps (runningAbort : Bool) : List AbortOp :=
  (if runningAbort then [] else [.runAbortCallback]) ++
  [.popStreamIngress, .popRequestUpdates, .popDeferredPayload, .discardDirty, .discardFirstEmit,
    .modelPathEnd, .discardPrefillStart, .discardPrefillEnd] ++
  (if runningAbort then []
    else [.releaseResources, .removeFromBatch .runningBatch, .removeFromBatch .curBatch,
      .removeFromBatch .lastBatch, .removeFromBatch .asyncPending]) ++
  [.drainInbox]

/-- The locked part of `abort`. -/
def beginAbort : TerminalRequest :=
  { s with
    aborted := true
    toFinish := s.toFinish || (!s.batches.isEmpty && !s.claimed && s.finished.isNone)
    listener := abortOps s.runningAbort
    log := s.log ++ [.recorded] }

/-- One statement of `abort`. The KV cache and the inbox are no part of the state. -/
def abortOp : AbortOp → TerminalRequest
  | .runAbortCallback => s.record .abortCallback
  | .popStreamIngress => { s with streamIngress := false }
  | .popRequestUpdates => { s with requestUpdates := false }
  | .popDeferredPayload => { s with deferredPayload := false }
  | .discardDirty => { s with dirty := false }
  | .discardFirstEmit => { s with firstEmit := false }
  | .modelPathEnd => s.modelPathEnd
  | .discardPrefillStart => { s with prefillStart := false }
  | .discardPrefillEnd => { s with prefillEnd := false }
  | .releaseResources => s
  | .removeFromBatch slot =>
    if slot ∈ s.batches then { s with hasData := false, batches := s.batches.erase slot } else s
  | .drainInbox => s

end TerminalRequest

/-! ## Steps -/

/-- A step of one of the threads, as far as it concerns the request. -/
inductive TerminalStep
  /-- The next statement of the scheduler thread. -/
  | advance (raises flushed : Bool)
  /-- `recv_requests` takes a message. -/
  | recv (message : IngressMessage)
  /-- The batches are rebuilt; only a finished request may be dropped. -/
  | rebatch (batches : List BatchSlot)
  | prefillStart
  /-- `skipped`: the two marker sets are of one size. -/
  | prefillEnd (skipped : Bool)
  /-- A forward step finishes the request, for a reason of its own unless it is marked. -/
  | finish (reason : FinishedReason)
  /-- `stream_output` is called with the request again. -/
  | streamOutput
  | abort
  /-- The next statement of `abort`. -/
  | listener
  deriving DecidableEq, Repr

/-- `prefillEnd` would add the marker. -/
def TerminalRequest.marksPrefillEnd (s : TerminalRequest) (skipped : Bool) : Bool :=
  !skipped && s.prefillStart && !s.prefillEnd

def terminalStep (s : TerminalRequest) : TerminalStep → Option TerminalRequest
  | .advance raises flushed => s.advance raises flushed
  | .recv message =>
    if s.scheduler = .idle then
      some (if s.aborted then s else { s with scheduler := .receive message })
    else none
  | .rebatch batches =>
    if s.scheduler = .idle ∧ (s.finished = none → batches ≠ []) ∧
        (s.batches = [] → batches = []) then
      some { s with batches := batches }
    else none
  | .prefillStart =>
    if s.scheduler = .idle ∧ s.finished = none then some { s with prefillStart := true } else none
  | .prefillEnd skipped =>
    if s.scheduler = .idle ∧ s.finished = none then
      some { s with prefillEnd := s.prefillEnd || s.marksPrefillEnd skipped }
    else none
  | .finish reason =>
    if s.scheduler = .idle ∧ s.finished = none then
      some { s with
        finished := some (if s.toFinish then .abort else reason), scheduler := .streamOutput }
    else none
  | .streamOutput =>
    if s.scheduler = .idle ∧ s.finished ≠ none then some { s with scheduler := .streamOutput }
    else none
  | .abort => if s.listener = [] then some s.beginAbort else none
  | .listener =>
    match s.listener with
    | [] => none
    | op :: rest => some { s.abortOp op with listener := rest }

/-- A request that the scheduler is running: built, in a batch, not finished and not aborted. What
    came for it earlier may have left an entry anywhere. -/
structure TerminalRequest.Running (s : TerminalRequest) : Prop where
  finished : s.finished = none
  toFinish : s.toFinish = false
  claimed : s.claimed = false
  hasData : s.hasData = true
  batches : s.batches ≠ []
  aborted : s.aborted = false
  completed : s.completed = false
  scheduler : s.scheduler = .idle
  listener : s.listener = []
  log : s.log = []

def terminalSystem : System TerminalRequest TerminalStep :=
  .ofFun TerminalRequest.Running terminalStep

end OmniRealtime
