import OmniRealtime.Lib.Settlement
import OmniRealtime.Lib.System
import OmniRealtime.Serve.UsageLedger

/-!
# V2 sessions

`vl_api_adapter/adapter/session.py`: a session that settles the usage of every response. The tasks
of a session are its response task, its binary timers, and those that handle the client. They
meet at the event lock, and in `_finish`, which the first caller starts and all others wait for.

One step is what a task does between two awaits. What a `_wire` does is a step of its own, and so is
how it ends.

1. `send`, `settleResponse`: what reaches the wire.
2. `callFinish`, `recordFinal`, `leaveFinish`: the end of a session.
3. `v2Step`, `v2System`: the steps of all tasks.
-/

namespace OmniRealtime

/-! ## Messages -/

inductive DoneReason
  | completed | aborted | error | contextExhausted
  deriving DecidableEq, Repr

/-- What is sent to the client; `other` are the messages that bear no response, no usage and no
    end. -/
inductive WireEvent
  | delta (responseId : Option String) (responseSeq : Option ℕ) (turnId : ℤ) (visible : Bool)
  | silence
  | interrupted (responseId : Option String)
  | responseDone (responseId : String) (responseSeq : ℕ) (turnId : ℤ)
      (finishReason boundary : String) (usage : Settlement)
  | error (code : String)
  /-- The error that says that there is no authoritative accounting. -/
  | accountingError
  | sessionDone (reason : DoneReason) (usage : Usage)
  | close (code : ℕ)
  | other

def WireEvent.isClose : WireEvent → Bool
  | .close _ => true
  | _ => false

/-- The argument of `send`, but for `session.done`. A delta is never empty; it is visible if it is
    not blank. -/
inductive Payload
  | text (turnId : ℤ) (visible : Bool)
  | silence
  | interrupted
  | responseDone (finishReason : String)
  | frameReady (seqNo : ℕ)
  | error (code : String)
  | other
  deriving DecidableEq, Repr

/-- How a `_wire` ends. One that fails may have delivered its message. -/
inductive WireResult
  | sent | lost | late
  deriving DecidableEq, Repr

def WireResult.delivered : WireResult → Bool
  | .sent | .late => true
  | .lost => false

structure AccountingData where
  contextLimit : Option ℤ
  usage : RawUsage
  watermark : Option ℤ

structure FinalSnapshot where
  usage : RawUsage
  watermark : Option ℤ
  failureCode : Option String := none

/-! ## Tasks -/

inductive V2Task
  | stream
  | timer (k : ℕ)
  /-- The receiver, the worker, `run`, or the server. -/
  | client
  deriving DecidableEq, Repr

/-- Where `response_task` is; `failed` is in the handler of its exception. -/
inductive StreamTask
  | absent | running | failed | finishing | over
  deriving DecidableEq, Repr

inductive TimerTask
  | sleeping | finishing | over
  deriving DecidableEq, Repr

/-- Who holds the event lock, and the message that is on the way to the wire. -/
inductive LockHolder
  | plain (task : V2Task) (event : WireEvent)
  /-- The response task, before it settles the response. -/
  | silence
  | settling (event : WireEvent)
  | finishError (reason : DoneReason) (event : WireEvent)
  | finishSettling (reason : DoneReason) (event : WireEvent)
  | finishDone (event : WireEvent)

def LockHolder.event : LockHolder → WireEvent
  | .silence => .silence
  | .plain _ event | .settling event | .finishError _ event | .finishSettling _ event
  | .finishDone event => event

/-- Whether the response task is in `send`. -/
def LockHolder.byStream : LockHolder → Bool
  | .plain task _ => task = .stream
  | .silence | .settling _ => true
  | _ => false

/-- Where `_finish_impl` is. -/
inductive FinishTask
  | absent
  | snapshotting (reason : DoneReason)
  /-- For the event lock. -/
  | acquiring (reason : DoneReason) (final : FinalSnapshot)
  | holding
  /-- The accounting error is on the way to the wire. -/
  | reporting
  | closing
  | joiningTimers (awaited : List V2Task)
  | joiningStream (awaited : List V2Task)
  | over

/-! ## The state -/

structure OpenResponse where
  id : String
  turnId : ℤ
  deriving DecidableEq, Repr

structure V2Session where
  contextLimit : ℤ
  ledger : UsageLedger := {}
  response : Option OpenResponse := none
  responseSeq : ℕ := 0
  /-- The ids that `uuid4` has given. -/
  responseIds : List String := []
  finishReason : String := "stop"
  fatalError : Option String := none
  requestStarted : Bool := false
  requestFinished : Bool := false
  closed : Bool := false
  terminalSent : Bool := false
  finalized : Bool := false
  stream : StreamTask := .absent
  timers : List TimerTask := []
  binaryTimer : Option ℕ := none
  eventLock : Option LockHolder := none
  finish : FinishTask := .absent
  /-- The frames of the request in the frame store, by their numbers. -/
  frames : Finset ℕ := ∅
  outstandingSeqNos : Finset ℕ := ∅
  pendingFrame : Option ℕ := none
  sent : List WireEvent := []
  /-- The counters of the final snapshot, once it is recorded. -/
  final : Option Usage := none
  billing : List (AccountEntry Usage) := []

namespace V2Session

variable (s : V2Session)

/-- `_finish_task` is there exactly if `_finalizing` is set. -/
def finalizing : Bool :=
  match s.finish with
  | .absent => false
  | _ => true

/-- `_finish_waiters`, without the tasks that handle the client. -/
def waits : V2Task → Bool
  | .stream => s.stream = .finishing
  | .timer k => s.timers[k]? = some .finishing
  | .client => false

def hold (holder : LockHolder) : V2Session := { s with eventLock := some holder }

/-- The ledger has taken a snapshot. -/
def withLedger (ledger : UsageLedger) : V2Session :=
  { s with
    ledger := ledger
    billing := s.billing ++ [.consumed (ledger.latest - s.ledger.latest)] }

/-! ## Accounting -/

/-- `record_accounting`, with the error that it raises. -/
def recordAccounting (data : AccountingData) : Option String × V2Session :=
  if s.finalized then (none, s)
  else if data.contextLimit ≠ some s.contextLimit then
    (some "backend accounting context limit changed", s)
  else
    match s.ledger.record data.usage data.watermark with
    | (some e, _) => (some e, s)
    | (none, ledger) => (none, s.withLedger ledger)

def doneEvent (response : OpenResponse) (reason : String) : WireEvent :=
  .responseDone response.id s.responseSeq response.turnId
    (if reason = "silence" then "stop" else reason)
    (if reason = "silence" then "silence" else "request_end") s.ledger.settle.1

/-- The session after the ledger has settled the open response. -/
def settled : V2Session :=
  { s with
    ledger := s.ledger.settle.2
    response := none
    billing := s.billing ++ [.settled s.ledger.settle.1.delta] }

/-- `_settle_response`, up to its `_wire`; `none` is that no response is open. -/
def settleResponse (reason : String) : Option (WireEvent × V2Session) :=
  s.response.map fun response => (s.doneEvent response reason, s.settled)

/-! ## Timers -/

/-- `_cancel_binary_timer`; a timer that is in `_finish` goes on waiting. -/
def cancelBinaryTimer : V2Session :=
  match s.binaryTimer with
  | none => s
  | some k =>
    { s with
      binaryTimer := none
      timers := if s.timers[k]? = some .sleeping then s.timers.set k .over else s.timers }

def startBinaryTimer : V2Session :=
  let s := s.cancelBinaryTimer
  { s with timers := s.timers ++ [.sleeping], binaryTimer := some s.timers.length }

/-! ## `send` -/

/-- A visible delta opens a response, if there is none. -/
def openResponse (uuid : String) (turnId : ℤ) (visible : Bool) : V2Session :=
  if s.response = none ∧ visible = true then
    { s with
      responseSeq := s.responseSeq + 1
      response := some { id := "response_" ++ uuid, turnId := turnId }
      responseIds := s.responseIds ++ ["response_" ++ uuid] }
  else s

def deltaEvent (turnId : ℤ) (visible : Bool) : WireEvent :=
  .delta (s.response.map OpenResponse.id) (s.response.map fun _ => s.responseSeq) turnId visible

/-- `send`, from the event lock up to the first `_wire`; `none` is a `RuntimeError`. -/
def send (task : V2Task) (uuid : String) (payload : Payload) : Option V2Session :=
  if s.finalizing || s.finalized then some s
  else
    match payload with
    | .text turnId visible =>
      if visible = true ∧ s.ledger.watermark < 0 then none
      else if (s.response.any fun response => response.turnId ≠ turnId) = true then none
      else
        let s := s.openResponse uuid turnId visible
        some (s.hold (.plain task (s.deltaEvent turnId visible)))
    | .silence => some (s.hold .silence)
    | .interrupted =>
      let event : WireEvent := .interrupted (s.response.map OpenResponse.id)
      some (({ s with response := none, billing := s.billing ++ [.mark] } : V2Session).hold
        (.plain task event))
    | .responseDone finishReason => some { s with finishReason := finishReason }
    | .frameReady _ => some (s.startBinaryTimer.hold (.plain task .other))
    | .error code =>
      if code = "invalid_request" then some (s.hold (.plain task (.error code)))
      else some { s with fatalError := s.fatalError.or (some code) }
    | .other => some (s.hold (.plain task .other))

/-! ## The end -/

/-- `_finish`, as far as it is not waiting. -/
def callFinish (reason : DoneReason) : V2Session :=
  if s.finalizing then s
  else ({ s with finish := .snapshotting reason, closed := true } : V2Session).cancelBinaryTimer

/-- The reason that all callers but the timer give. -/
def ownReason : DoneReason := if s.requestFinished then .completed else .aborted

/-- The code of the error that the client is told. -/
def errorCode (code : String) : String :=
  if code = "configuration_timeout" ∨ code = "session_timeout" then "session_timeout"
  else if code = "context_exhausted" then code
  else "response_failed"

def errorReason (code : String) : DoneReason :=
  if errorCode code = "context_exhausted" then .contextExhausted else .error

/-- The last message of `_finish_impl`. -/
def endSession (reason : DoneReason) : V2Session :=
  ({ s with terminalSent := true } : V2Session).hold
    (.finishDone (.sessionDone reason s.ledger.latest))

/-- `_finish_impl` after the final snapshot, up to the first `_wire`; `error` is the code of the
    error that there is to tell. -/
def conclude (reason : DoneReason) : Option String → V2Session
  | some code => s.hold (.finishError (errorReason code) (.error (errorCode code)))
  | none =>
    if reason = .completed then
      match s.settleResponse s.finishReason with
      | some (event, s) => s.hold (.finishSettling reason event)
      | none => s.endSession reason
    else s.endSession reason

/-- `_finish_impl` with the event lock. -/
def recordFinal (reason : DoneReason) (final : FinalSnapshot) : V2Session :=
  match s.ledger.record final.usage final.watermark with
  | (some _, _) => { s with finish := .reporting }
  | (none, ledger) =>
    ({ s.withLedger ledger with final := some ledger.latest, finish := .holding } :
      V2Session).conclude reason
      ((final.failureCode.filter fun code => code ≠ "").or s.fatalError)

/-- The beginning of the `finally` of `_finish_impl`: the timers that do not wait for it. -/
def leaveFinish : V2Session :=
  let awaited := (List.range s.timers.length).filter fun k => !s.waits (.timer k)
  { s with
    finalized := true
    timers := s.timers.map fun timer => if timer = .sleeping then .over else timer
    finish := .joiningTimers (awaited.map V2Task.timer) }

/-- The timers have ended; the response task is next, unless it waits for this. -/
def joinStream : V2Session :=
  if s.stream = .absent ∨ s.waits .stream = true then { s with finish := .joiningStream [] }
  else
    { s with
      stream := .over
      eventLock := if s.eventLock.any LockHolder.byStream = true then none else s.eventLock
      finish := .joiningStream [.stream] }

/-- `VideoRealtimeSession.close_websocket`. -/
def closeWebsocket : V2Session :=
  if s.sent.any WireEvent.isClose = true then s else { s with sent := s.sent ++ [.close 1000] }

/-- The end of `_finish_impl`. -/
def cleanUp : V2Session :=
  { s.closeWebsocket with
    frames := ∅
    outstandingSeqNos := ∅
    pendingFrame := none
    finish := .over }

/-! ## The wire -/

/-- The holder of the event lock, once its message is sent. -/
def wireSent : LockHolder → V2Session
  | .plain _ _ | .settling _ => { s with eventLock := none }
  | .silence =>
    match s.settleResponse "silence" with
    | some (event, s) => s.hold (.settling event)
    | none => { s with eventLock := none }
  | .finishError reason _ | .finishSettling reason _ => s.endSession reason
  | .finishDone _ => ({ s with eventLock := none } : V2Session).leaveFinish

/-- The holder of the event lock, once its `_wire` has raised. -/
def wireFailed (holder : LockHolder) : V2Session :=
  match holder with
  | .plain _ _ | .silence | .settling _ =>
    { s with
      eventLock := none
      stream := if holder.byStream then .failed else s.stream }
  | .finishError _ _ | .finishSettling _ _ | .finishDone _ =>
    { s with eventLock := none, finish := .reporting }

def deliver (event : WireEvent) (result : WireResult) : V2Session :=
  if result.delivered then { s with sent := s.sent ++ [event] } else s

def wireEnds (holder : LockHolder) (result : WireResult) : V2Session :=
  let s := s.deliver holder.event result
  if result = .sent then s.wireSent holder else s.wireFailed holder

/-- The accounting error is sent, and the socket is to be closed, or neither. -/
def reportEnds (result : WireResult) : V2Session :=
  let s := s.deliver .accountingError result
  if result = .sent then { s with finish := .closing } else s.leaveFinish

end V2Session

/-! ## Steps -/

inductive V2Event
  /-- `configure` creates the response task, which begins. -/
  | configure
  | snapshot (data : AccountingData)
  | streamSend (uuid : String) (payload : Payload)
  /-- A frame or a prompt has been processed. -/
  | processed (seqNo : ℕ)
  | streamFails
  /-- `send_error_safely`, and `_finish`. -/
  | streamReports
  | streamEnds
  | clientSend (payload : Payload)
  | clientFails (code : String)
  | clientCloses
  | cancelTimer
  | reserve (seqNo : ℕ) (frame : Bool)
  | storeFrame
  | release (seqNo : ℕ)
  | teardown
  | expire (k : ℕ)
  | wireEnds (result : WireResult)
  /-- `none` is that `_final_snapshot` raises. -/
  | finalSnapshot (result : Option FinalSnapshot)
  | recordFinal
  | reportEnds (result : WireResult)
  | closeEnds (delivered : Bool)
  | joined
  | finishReturns (task : V2Task)

/-- What the tasks that handle the client send. -/
def Payload.fromClient : Payload → Bool
  | .frameReady _ | .error _ | .other => true
  | _ => false

namespace V2Session

/-- The response task has control: it is running, and not in `send`. -/
def streaming (s : V2Session) : Bool :=
  s.stream = .running && !s.eventLock.any LockHolder.byStream

/-- `uuid4` has not given this id. -/
def freshId (s : V2Session) (uuid : String) : Bool := "response_" ++ uuid ∉ s.responseIds

end V2Session

def v2Step (s : V2Session) : V2Event → Option V2Session
  | .configure =>
    if s.stream = .absent then some { s with stream := .running, requestStarted := true } else none
  | .snapshot data =>
    if s.streaming = true then
      match s.recordAccounting data with
      | (none, s) => some s
      | (some _, s) => some { s with stream := .failed }
    else none
  | .streamSend uuid payload =>
    if s.streaming = true ∧ s.eventLock.isNone = true ∧ s.freshId uuid = true then
      some ((s.send .stream uuid payload).getD { s with stream := .failed })
    else none
  | .processed seqNo =>
    if s.streaming = true then
      some { s with
        frames := s.frames.erase seqNo
        outstandingSeqNos := s.outstandingSeqNos.erase seqNo }
    else none
  | .streamFails => if s.streaming = true then some { s with stream := .failed } else none
  | .streamReports =>
    if s.stream = .failed ∧ s.eventLock.isNone = true then
      let s := (s.send .stream "" (.error "response_failed")).getD s
      some (({ s with stream := .finishing, closed := true, outstandingSeqNos := ∅ } :
        V2Session).callFinish s.ownReason)
    else none
  | .streamEnds =>
    if s.streaming = true then
      some (({ s with stream := .finishing, requestFinished := true, frames := ∅ } :
        V2Session).callFinish .completed)
    else none
  | .clientSend payload =>
    if s.eventLock.isNone = true ∧ payload.fromClient = true then s.send .client "" payload
    else none
  | .clientFails code => some { s with fatalError := some code, closed := true }
  | .clientCloses => some { s with closed := true }
  | .cancelTimer => some s.cancelBinaryTimer
  | .reserve seqNo frame =>
    if s.closed = false ∧ seqNo ∉ s.outstandingSeqNos then
      some { s with
        outstandingSeqNos := insert seqNo s.outstandingSeqNos
        pendingFrame := if frame then some seqNo else s.pendingFrame }
    else none
  | .storeFrame =>
    match s.pendingFrame with
    | none => none
    | some seqNo =>
      if s.closed = false then
        some { s with pendingFrame := none, frames := insert seqNo s.frames }
      else none
  | .release seqNo =>
    some { s with
      outstandingSeqNos := s.outstandingSeqNos.erase seqNo
      frames := s.frames.erase seqNo
      pendingFrame := if s.pendingFrame = some seqNo then none else s.pendingFrame }
  | .teardown => some (s.callFinish s.ownReason)
  | .expire k =>
    if s.timers[k]? = some .sleeping then
      some (({ s with
        timers := s.timers.set k .finishing
        fatalError := some "session_timeout"
        closed := true } : V2Session).callFinish .error)
    else none
  | .wireEnds result => s.eventLock.map fun holder => s.wireEnds holder result
  | .finalSnapshot result =>
    match s.finish with
    | .snapshotting reason =>
      let result :=
        if s.requestStarted then result
        else some { usage := some fun _ => some 0, watermark := some 0 }
      match result with
      | some final => some { s with finish := .acquiring reason final }
      | none => some { s with finish := .reporting }
    | _ => none
  | .recordFinal =>
    match s.finish with
    | .acquiring reason final =>
      if s.eventLock.isNone = true then some (s.recordFinal reason final) else none
    | _ => none
  | .reportEnds result =>
    match s.finish with
    | .reporting => some (s.reportEnds result)
    | _ => none
  | .closeEnds delivered =>
    match s.finish with
    | .closing =>
      some (if delivered then { s with sent := s.sent ++ [.close 1011] } else s).leaveFinish
    | _ => none
  | .joined =>
    match s.finish with
    | .joiningTimers _ => some s.joinStream
    | .joiningStream _ => some s.cleanUp
    | _ => none
  | .finishReturns task =>
    match s.finish, task with
    | .over, .stream => if s.stream = .finishing then some { s with stream := .over } else none
    | .over, .timer k =>
      if s.timers[k]? = some .finishing then some { s with timers := s.timers.set k .over } else none
    | _, _ => none

def v2System (contextLimit : ℤ) : System V2Session V2Event :=
  .ofFun (fun s => s = { contextLimit := contextLimit }) v2Step

namespace V2Session

variable {s : V2Session}

theorem running_of_streaming (h : s.streaming = true) :
    s.stream = .running ∧ s.eventLock.any LockHolder.byStream = false := by
  simpa [streaming] using h

/-- The stream is at its end only where its task is. -/
theorem unfinished (h : s.requestFinished = true → s.stream = .finishing ∨ s.stream = .over)
    (hstr : s.stream = .absent ∨ s.stream = .running) : s.requestFinished = false := by
  refine Bool.eq_false_iff.mpr fun hfin => ?_
  rcases hstr with hstr | hstr <;> rcases h hfin with hph | hph <;>
    cases hstr.symm.trans hph

theorem finished_of_ownReason (h : s.ownReason = .completed) : s.requestFinished = true := by
  unfold ownReason at h
  split at h
  · assumption
  · cases h

/-- The error of a stream that has failed is not sent by a session that ends. -/
theorem getD_send_error : ∃ fatalError,
    (s.send .stream "" (.error "response_failed")).getD s = { s with fatalError := fatalError } := by
  unfold send
  split
  · exact ⟨s.fatalError, rfl⟩
  · exact ⟨_, rfl⟩

end V2Session

end OmniRealtime
