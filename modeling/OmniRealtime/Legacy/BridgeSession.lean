import OmniRealtime.Lib.System

/-!
# The bridge session

`vl_legacy_adapter/adapter/session.py`, with `upstream.py` and the handler of `server.py`: one round
of a legacy client over an upstream session.

Six tasks share the connection to the client: the receiver, which is the handler, and the tasks of
the setup, the frame pump, the silence finalizer, the upstream watcher and the upstream listener.
One step is what a task runs between two awaits. Every send waits for its turn at `_send_lock`, which
is fair: a message goes out when the lock is taken, and the lock is held until the send returns.

Times are left out: a timeout may come at any await that has one. The adapter's handler is not
cancelled.

1. `send`, `interrupt`: the send lock.
2. `receive`, `onClientMessage`: the receiver. `pumpItem`: the frame pump.
3. `onUpstreamEvent`, `completeRound`, `failRound`: how a round ends.
4. `bridgeStep`, `bridgeSystem`.
-/

namespace OmniRealtime

/-! ## Messages and events -/

/-- What is sent to the client. -/
inductive BridgeMessage
  | ready
  | frameAck
  /-- The text of a delta. -/
  | output (text : String)
  /-- The output `<|im_end|>`. -/
  | endMarker
  /-- The error of a round without visible output. -/
  | noOutput
  /-- The error of a failed round. -/
  | failure (message : String)
  /-- An error that the upstream has reported. -/
  | reported (message : String)
  /-- The answer to a message of the client that is not accepted. -/
  | complaint (message : String)
  /-- The same, for a frame; its metadata is dropped then. -/
  | frameRejected (message : String)
  deriving DecidableEq, Repr

inductive BridgeTask
  | receiver
  | start
  | pump
  | finalizer
  | watch
  | listener
  deriving DecidableEq, Repr

/-- What a task waits for. -/
inductive BridgeAwait
  /-- There is no such task yet. -/
  | off
  | done
  /-- In `_send`. -/
  | sending
  /-- In `_close_downstream`; `timedOut` when the setup timeout is raised behind it. -/
  | closing (timedOut : Bool)
  /-- For `abort` of the upstream. -/
  | aborting
  /-- The receiver; `timed` when the wait has a deadline. -/
  | receiving (timed : Bool)
  | releasing
  | joining (task : BridgeTask)
  | closingUpstream
  | closingDownstream
  | releasingAgain
  /-- The setup. -/
  | mapping
  | connecting
  | configuring
  /-- The pump: for a first frame, for a next one, for the upstream to accept one. -/
  | fetching
  | quiet
  | submitting
  | sleeping
  | watching
  | listening
  deriving DecidableEq, Repr

inductive FrameTimestamp
  | invalid
  /-- The text of the comparison. -/
  | backwards (comparison : String)
  | valid
  deriving DecidableEq, Repr

inductive BridgeInput
  | notJson
  | notObject
  | start
  | frame (timestamp : FrameTimestamp)
  | binary (tooBig : Bool)
  | stop
  | unsupported (type : String)
  /-- An exception while it is read. -/
  | raising
  deriving DecidableEq, Repr

inductive UpstreamEvent
  | delta (text : String)
  | silence
  | sessionDone (aborted : Bool)
  | error (message : String)
  | other
  deriving DecidableEq, Repr

inductive ListenerEnd
  | closed
  | lost (tryAgain : Bool) (text : String)
  | raised (text : String)
  deriving DecidableEq, Repr

inductive SetupError
  | busy
  | upstream (text : String)
  /-- None of the exceptions that `_initialize` lists. -/
  | unexpected
  deriving DecidableEq, Repr

def busyMessage : String := "realtime session is already active"

/-- `delta.strip()` is not empty. -/
def visible (text : String) : Bool := text.toList.any fun c => !c.isWhitespace

/-! ## The state -/

structure BridgeSession where
  /-- `config.MAX_INFLIGHT` is positive. -/
  capped : Bool
  frameBufferCap : ℕ
  /-- The connection to the client is open. -/
  isOpen : Bool := true
  /-- What went out to the client. -/
  sent : List BridgeMessage := []
  /-- The task that holds `_send_lock`, with its message. -/
  lock : Option (BridgeTask × BridgeMessage) := none
  /-- The waiters of `_send_lock`. -/
  waiting : List (BridgeTask × BridgeMessage) := []
  tasks : BridgeTask → BridgeAwait :=
    fun task => if task = .receiver then .receiving true else .off
  started : Bool := false
  readySent : Bool := false
  finalSent : Bool := false
  roundFinished : Bool := false
  visibleText : Bool := false
  /-- The length of `frames`. -/
  frames : ℕ := 0
  /-- `pending_meta` and its deadline are set. -/
  pendingMeta : Bool := false
  inputClosed : Bool := false
  stopRequested : Bool := false
  abortInitiated : Bool := false
  /-- `_last_delta_at` is set. -/
  lastDelta : Bool := false
  /-- `_silence_since` is set. -/
  silenceSince : Bool := false
  /-- `_start` is in the scope of its timeout. -/
  setupTimed : Bool := false
  /-- The variables `final` and `nxt` of the pump. -/
  pumpFinal : Bool := false
  pumpNext : Bool := false
  /-- There is an `OmniUpstream`; its `terminal_seen`, `_closed_event` and `last_error`. -/
  hasUpstream : Bool := false
  terminalSeen : Bool := false
  upstreamClosed : Bool := false
  lastError : Option String := none
  /-- The texts of the deltas that came from the upstream. -/
  deltas : List String := []
  /-- `released` of the handler, and how often it has freed the slot. -/
  released : Bool := false
  releases : ℕ := 0

namespace BridgeSession

variable (s : BridgeSession) (task : BridgeTask)

def await (now : BridgeAwait) : BridgeSession :=
  { s with tasks := Function.update s.tasks task now }

theorem await_self (now : BridgeAwait) : (s.await task now).tasks task = now :=
  Function.update_self _ _ _

theorem await_of_ne {other : BridgeTask} (hne : other ≠ task) (now : BridgeAwait) :
    (s.await task now).tasks other = s.tasks other := Function.update_of_ne hne _ _

/-! ## The send lock -/

/-- `downstream.send`; on a closed connection it raises, and `_send` ignores that. -/
def wire (message : BridgeMessage) : BridgeSession :=
  { s with sent := if s.isOpen then s.sent ++ [message] else s.sent }

/-- `_send`, up to its first await. -/
def send (message : BridgeMessage) : BridgeSession :=
  if s.lock = none ∧ s.waiting = [] then
    BridgeSession.await { s.wire message with lock := some (task, message) } task .sending
  else BridgeSession.await { s with waiting := s.waiting ++ [(task, message)] } task .sending

/-- The lock is passed to the first waiter. -/
def passLock : Option BridgeSession :=
  match s.lock, s.waiting with
  | none, (first, message) :: rest =>
    some { s.wire message with lock := some (first, message), waiting := rest }
  | _, _ => none

/-- The message that the task sends. -/
def saying : Option BridgeMessage :=
  ((s.lock.toList ++ s.waiting).find? fun sender => sender.1 = task).map Prod.snd

/-- An exception is raised inside `_send`. -/
def leaveLock : BridgeSession :=
  { s with
    lock := if s.lock.any fun holder => holder.1 = task then none else s.lock
    waiting := s.waiting.filter fun waiter => waiter.1 ≠ task }

def closeDownstream (timedOut : Bool) : BridgeSession :=
  BridgeSession.await { s with isOpen := false } task (.closing timedOut)

/-- The task is cancelled. -/
def interrupt : BridgeSession :=
  match s.tasks task with
  | .off | .done => s
  | .sending =>
    -- The `finally` of `_fail_round`; no other task closes the connection on its way out.
    match task, s.saying task with
    | .start, some (.failure _) => (s.leaveLock task).closeDownstream task false
    | _, _ => (s.leaveLock task).await task .done
  | _ => s.await task .done

/-! ## The end of a round -/

def finishRound : BridgeSession := { s with roundFinished := true }

/-- `_fail_round`, up to its first await. -/
def failRound (message : String) : BridgeSession :=
  ({ s with inputClosed := true, pendingMeta := false }.finishRound).send task (.failure message)

/-- Behind `_complete_round`. -/
def roundCompleted : BridgeSession :=
  match task with
  | .finalizer => BridgeSession.await { s with abortInitiated := true } task .aborting
  | _ => s.await task .listening

/-- `_complete_round`, up to its first await. -/
def completeRound : BridgeSession :=
  if s.roundFinished then s.roundCompleted task
  else s.send task (if s.visibleText then .endMarker else .noOutput)

/-! ## The receiver -/

/-- The head of the loop of `run`. -/
def receive : BridgeSession :=
  s.await .receiver
    (.receiving ((s.pendingMeta && !s.roundFinished) || !(s.started || s.roundFinished)))

/-- `_shutdown`, or its `release_slot`. -/
def shutdown : BridgeSession := s.await .receiver .releasing

def onFrameMeta (timestamp : FrameTimestamp) : BridgeSession :=
  if !s.readySent then
    s.send .receiver (.complaint "wait for ready before sending frames")
  else if s.inputClosed || s.roundFinished then
    s.send .receiver (.complaint "round already finalized; extra frame rejected")
  else if s.pendingMeta then
    s.send .receiver (.complaint "frame metadata must be followed by binary data")
  else match timestamp with
    | .invalid =>
      s.send .receiver (.complaint "frame timestamp must be a non-negative number")
    | .backwards comparison =>
      s.send .receiver (.complaint ("timestamp moved backwards: " ++ comparison))
    | .valid => { s with pendingMeta := true }.receive

def onBinary (tooBig : Bool) : BridgeSession :=
  if s.inputClosed || s.roundFinished then
    s.send .receiver (.complaint "round already finalized; extra frame rejected")
  else if !s.pendingMeta then
    s.send .receiver (.complaint "binary frame must follow frame metadata")
  else if tooBig then
    s.send .receiver (.frameRejected "frame payload exceeds 10 MiB limit")
  else if s.frameBufferCap ≤ s.frames then
    s.send .receiver
      (.frameRejected ("frame buffer full (" ++ toString s.frameBufferCap ++ " frames)"))
  else { s with frames := s.frames + 1, pendingMeta := false }.receive

/-- A message of the client; `saysStop` when its text has `"stop"` in it. -/
def onClientMessage (message : BridgeInput) (saysStop : Bool) : BridgeSession :=
  if s.roundFinished then
    if saysStop then s.shutdown else s.receive
  else match message with
    | .notJson => s.send .receiver (.complaint "message is not valid JSON")
    | .notObject => s.send .receiver (.complaint "message must be a JSON object")
    | .start =>
      if s.started then s.send .receiver (.complaint "session already started")
      else (({ s with started := true } : BridgeSession).await .start .mapping).receive
    | .frame timestamp => s.onFrameMeta timestamp
    | .binary tooBig => s.onBinary tooBig
    | .stop => { s with stopRequested := true }.shutdown
    | .unsupported type => s.send .receiver (.complaint ("unsupported message type: " ++ type))
    | .raising => s.shutdown

/-- The deadline of the receiver. -/
def receiveTimeout : BridgeSession :=
  if s.pendingMeta then s.failRound .receiver "timed out waiting for frame binary data"
  else s.closeDownstream .receiver false

/-! ## The setup -/

/-- `map_start_to_configure`, which may raise. -/
def startMapped : Option String → BridgeSession
  | some error =>
    ({ s with setupTimed := true } : BridgeSession).failRound .start
      ("invalid start parameters: " ++ error)
  | none => BridgeSession.await { s with setupTimed := true, hasUpstream := true } .start .connecting

def upstreamConnected : BridgeSession :=
  if s.stopRequested || s.roundFinished then (s.await .listener .listening).await .start .done
  else (s.await .listener .listening).await .start .configuring

def upstreamConfigured : BridgeSession :=
  if s.stopRequested || s.roundFinished then s.await .start .done
  else ({ s with readySent := true } : BridgeSession).send .start .ready

def setupFailed : SetupError → BridgeSession
  | .busy => s.failRound .start busyMessage
  | .upstream text => s.failRound .start ("upstream session setup failed: " ++ text)
  | .unexpected =>
    ({ s with setupTimed := false } : BridgeSession).failRound .start
      "upstream session setup failed: internal error"

/-- The `TimeoutError` has left the scope of the timeout. -/
def setupTimedOut : BridgeSession :=
  ({ s with setupTimed := false } : BridgeSession).failRound .start
    "upstream session setup timed out"

def setupTimeout : Option BridgeSession :=
  if s.setupTimed then
    match s.tasks .start with
    | .connecting | .configuring | .closing _ => some s.setupTimedOut
    | .sending =>
      match s.saying .start with
      | some (.failure _) => some ((s.leaveLock .start).closeDownstream .start true)
      | _ => some (s.leaveLock .start).setupTimedOut
    | _ => none
  else none

/-- Behind the `ready` message. -/
def startTasks : BridgeSession :=
  (((s.await .start .done).await .pump .fetching).await .finalizer .sleeping).await .watch .watching

/-! ## The pump -/

def submit (final next : Bool) : BridgeSession :=
  BridgeSession.await { s with pumpFinal := final, pumpNext := next } .pump .submitting

/-- The pump has a frame that it has not submitted. -/
def pumpItem : BridgeSession :=
  if s.frames = 0 then
    if s.roundFinished || s.stopRequested then s.await .pump .done else s.await .pump .quiet
  else s.submit false false

def pumpFetch : Option BridgeSession :=
  if s.frames = 0 then none else some { s with frames := s.frames - 1 }.pumpItem

/-- One turn of the loop of `_next_frame_or_none`. -/
def pumpWakes (expired : Bool) : BridgeSession :=
  if s.roundFinished || s.stopRequested then s.await .pump .done
  else if s.frames ≠ 0 then ({ s with frames := s.frames - 1 } : BridgeSession).submit false true
  else if !s.pendingMeta && expired then
    ({ s with inputClosed := true } : BridgeSession).submit true false
  else s

def frameAcked : BridgeSession :=
  if s.pumpFinal then BridgeSession.await { s with finalSent := true } .pump .done
  else if s.pumpNext then s.pumpItem
  else s.pumpFetch.getD (s.await .pump .fetching)

/-! ## The finalizer and the watcher -/

/-- The finalizer sees a final frame and a silence; `elapsed` when that has lasted long enough. -/
def silent (elapsed : Bool) : Bool :=
  s.finalSent && elapsed && (if s.visibleText then s.lastDelta else s.silenceSince)

def finalizerWakes (elapsed : Bool) : BridgeSession :=
  if s.silent elapsed then s.completeRound .finalizer
  else if s.roundFinished then s.await .finalizer .done
  else s

def watchWakes : BridgeSession :=
  if s.roundFinished then s.await .watch .done
  else
    s.send .watch (.failure (match s.lastError with
      | none | some "" => "upstream session ended unexpectedly"
      | some error => error))

/-! ## The listener -/

def onUpstreamEvent : UpstreamEvent → BridgeSession
  | .delta text =>
    let arrived := { s with deltas := s.deltas ++ [text] }
    if text = "" then arrived
    else
      ({ arrived with
        visibleText := s.visibleText || visible text
        lastDelta := true
        silenceSince := false } : BridgeSession).send .listener (.output text)
  | .silence => { s with silenceSince := s.silenceSince || s.finalSent }
  | .sessionDone aborted =>
    let seen := { s with terminalSeen := true }
    if aborted && !s.abortInitiated && !s.roundFinished then
      seen.send .listener (.failure "upstream session aborted unexpectedly")
    else seen.completeRound .listener
  | .error message =>
    ({ s with lastError := some message } : BridgeSession).send .listener (.reported message)
  | .other => s

def listenerEnds (how : ListenerEnd) : BridgeSession :=
  BridgeSession.await { s with
    upstreamClosed := true
    lastError := match how with
      | .closed => s.lastError
      | .lost tryAgain text =>
        if s.lastError = none ∧ !s.terminalSeen then
          some (if tryAgain then busyMessage else "upstream connection closed: " ++ text)
        else s.lastError
      | .raised text => some ("upstream listener error: " ++ text) } .listener .done

/-! ## After a send -/

/-- What a task does when its `_send` returns. -/
def afterSend : BridgeTask → BridgeMessage → BridgeSession
  | .receiver, .failure _ => s.closeDownstream .receiver false
  | .receiver, .frameRejected _ => { s with pendingMeta := false }.receive
  | .receiver, _ => s.receive
  | .start, .failure _ => s.closeDownstream .start false
  | .start, _ => s.startTasks
  | .pump, .failure _ => s.finishRound.closeDownstream .pump false
  | .pump, _ => s.frameAcked
  | .finalizer, _ => s.finishRound.roundCompleted .finalizer
  | .watch, _ => s.finishRound.closeDownstream .watch false
  | .listener, .failure _ => s.finishRound.closeDownstream .listener false
  | .listener, .endMarker => s.finishRound.roundCompleted .listener
  | .listener, .noOutput => s.finishRound.roundCompleted .listener
  | .listener, _ => s.await .listener .listening

def sendReturns : Option BridgeSession :=
  s.lock.map fun holder =>
    BridgeSession.afterSend { s with lock := none } holder.1 holder.2

/-! ## The shutdown -/

/-- `release_slot`, with the lock of the server. -/
def releaseSlot : BridgeSession :=
  if s.capped && !s.released then { s with released := true, releases := s.releases + 1 } else s

/-- Cancels the task and waits for it. -/
def join : BridgeSession := (s.interrupt task).await .receiver (.joining task)

/-- The tail of `_shutdown`, behind the tasks of the session. -/
def shutdownUpstream : BridgeSession :=
  if !s.hasUpstream then BridgeSession.await { s with isOpen := false } .receiver .closingDownstream
  else if !s.terminalSeen then
    BridgeSession.await { s with abortInitiated := true } .receiver .aborting
  else s.join .listener

/-- The task that is joined behind this one. -/
def joined : BridgeTask → BridgeSession
  | .start => s.join .pump
  | .pump => s.join .finalizer
  | .finalizer => s.join .watch
  | .watch => s.shutdownUpstream
  | .listener => BridgeSession.await { s with upstreamClosed := true } .receiver .closingUpstream
  | .receiver => s

def closeReturns (timedOut : Bool) : BridgeTask → BridgeSession
  | .receiver => s.shutdown
  | .start => if timedOut then s.setupTimedOut else s.await .start .done
  | .listener => s.await .listener .listening
  | other => s.await other .done

end BridgeSession

/-! ## Steps -/

inductive BridgeEvent
  | passLock
  | sendReturns
  | closeReturns (task : BridgeTask)
  | clientLost
  | client (message : BridgeInput) (saysStop : Bool)
  | receiveTimeout
  /-- `recv` raises `ConnectionClosed`. -/
  | receiveFails
  | startMapped (error : Option String)
  | upstreamConnected
  | upstreamConfigured
  | setupFailed (error : SetupError)
  | setupTimeout
  | pumpFetch
  | pumpWakes (expired : Bool)
  | frameAccepted
  /-- An `UpstreamError` or a timeout. -/
  | frameFailed (text : String)
  /-- Any other exception. -/
  | frameRaised
  | finalizerWakes (elapsed : Bool)
  | watchWakes
  | upstream (event : UpstreamEvent)
  | listenerEnds (how : ListenerEnd)
  | abortReturns (task : BridgeTask)
  | slotReleased
  | joined
  | upstreamClosed
  | downstreamClosed
  deriving DecidableEq, Repr

def bridgeStep (s : BridgeSession) : BridgeEvent → Option BridgeSession
  | .passLock => s.passLock
  | .sendReturns => s.sendReturns
  | .closeReturns task =>
    match s.tasks task with
    | .closing timedOut => some (s.closeReturns timedOut task)
    | _ => none
  | .clientLost => if s.isOpen then some { s with isOpen := false } else none
  | .client message saysStop =>
    match s.tasks .receiver with
    | .receiving _ => some (s.onClientMessage message saysStop)
    | _ => none
  | .receiveTimeout =>
    if s.tasks .receiver = .receiving true then some s.receiveTimeout else none
  | .receiveFails =>
    match s.tasks .receiver with
    | .receiving _ => if s.isOpen then none else some { s with stopRequested := true }.shutdown
    | _ => none
  | .startMapped error => if s.tasks .start = .mapping then some (s.startMapped error) else none
  | .upstreamConnected => if s.tasks .start = .connecting then some s.upstreamConnected else none
  | .upstreamConfigured =>
    if s.tasks .start = .configuring then some s.upstreamConfigured else none
  | .setupFailed error =>
    if s.tasks .start = .connecting ∨ s.tasks .start = .configuring then some (s.setupFailed error)
    else none
  | .setupTimeout => s.setupTimeout
  | .pumpFetch => if s.tasks .pump = .fetching then s.pumpFetch else none
  | .pumpWakes expired => if s.tasks .pump = .quiet then some (s.pumpWakes expired) else none
  | .frameAccepted => if s.tasks .pump = .submitting then some (s.send .pump .frameAck) else none
  | .frameFailed text =>
    if s.tasks .pump = .submitting then
      some (s.send .pump (.failure ("frame submission failed: " ++ text)))
    else none
  | .frameRaised => if s.tasks .pump = .submitting then some (s.await .pump .done) else none
  | .finalizerWakes elapsed =>
    if s.tasks .finalizer = .sleeping then some (s.finalizerWakes elapsed) else none
  | .watchWakes =>
    if s.tasks .watch = .watching ∧ s.upstreamClosed then some s.watchWakes else none
  | .upstream event =>
    if s.tasks .listener = .listening then some (s.onUpstreamEvent event) else none
  | .listenerEnds how => if s.tasks .listener = .listening then some (s.listenerEnds how) else none
  | .abortReturns task =>
    if s.tasks task = .aborting then
      some (if task = .receiver then s.join .listener else s.await task .done)
    else none
  | .slotReleased =>
    match s.tasks .receiver with
    | .releasing => some (s.releaseSlot.join .start)
    | .releasingAgain => some (s.releaseSlot.await .receiver .done)
    | _ => none
  | .joined =>
    match s.tasks .receiver with
    | .joining task =>
      if s.tasks task = .off ∨ s.tasks task = .done then some (s.joined task) else none
    | _ => none
  | .upstreamClosed =>
    if s.tasks .receiver = .closingUpstream then
      some (BridgeSession.await { s with isOpen := false } .receiver .closingDownstream)
    else none
  | .downstreamClosed =>
    if s.tasks .receiver = .closingDownstream then some (s.await .receiver .releasingAgain) else none

/-- A client has connected, and has been counted. -/
def bridgeSystem (capped : Bool) (frameBufferCap : ℕ) : System BridgeSession BridgeEvent :=
  .ofFun (fun s => s = { capped := capped, frameBufferCap := frameBufferCap }) bridgeStep

end OmniRealtime
