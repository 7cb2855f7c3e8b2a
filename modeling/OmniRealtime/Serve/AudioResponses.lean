import OmniRealtime.Lib.System

/-!
# Responses of a realtime session

`serve/realtime/session.py`: the queue of turns, the task of a response with the task that sends its
terminal events, and what a cancel, a barge-in and the teardown do to them.

A step is what a task does between two awaits; a `send` is an await. The sections under
`response_state_lock` await nothing, so that the lock is free whenever a task runs. The stream of
the client answers with a chunk, its end or an exception; a cancel is delivered to it, as to every
other await, when the task runs again. The bookkeeping of the assistant items for the history is
left out.

1. `Response`: the task of `run_response` and where it is suspended.
2. `Session`: the state of the turns, `cancelActiveResponse`.
3. `responseStep`, `turnStep`: what the tasks and the handlers do.
-/

namespace OmniRealtime

namespace AudioTurn

/-! ## Events -/

inductive Status
  | completed
  | cancelled
  | failed
  deriving DecidableEq, Repr

inductive Event
  | responseCreated (responseId : ℕ)
  | textDelta (responseId : ℕ) (delta : String)
  | audioDelta (responseId : ℕ) (delta : String)
  | textDone (responseId : ℕ) (text : String)
  | audioDone (responseId : ℕ)
  | error (kind code message : String)
  | responseDone (responseId : ℕ) (status : Status) (reason text : String) (includeAudio : Bool)
  deriving DecidableEq, Repr

/-- What is recorded of a session until it closes: its events, and where a response is claimed by a
    cancel and where it is finalized. -/
inductive Entry
  | sent (event : Event)
  | claimed (requestId : ℕ)
  | finalized (requestId : ℕ)
  deriving DecidableEq, Repr

inductive Modality
  | text
  | audio
  | other
  deriving DecidableEq, Repr

structure Chunk where
  text : Option String
  modality : Modality
  audioB64 : Option String
  finishReason : Option String

/-! ## The response task -/

/-- The arguments of `emit_terminals`. -/
structure Terminals where
  responseText : String
  includeAudio : Bool
  status : Status
  reason : String
  error : Option (String × String × String) := none

inductive TerminalPoint
  | start
  | textDone
  | audioDone
  | error
  | responseDone
  deriving DecidableEq, Repr

inductive Outcome
  | returned
  | cancelled
  | failed
  deriving DecidableEq, Repr

/-- Where the task is suspended; in `terminals` it waits for the task that sends them. -/
inductive Point
  | notStarted
  | created
  | stream
  | textDelta (chunk : Chunk)
  | audioDelta (chunk : Chunk)
  | textDone
  | audioDone
  | terminals (terminals : Terminals) (point : TerminalPoint) (inHandler : Bool) (after : Outcome)
  | leaving (after : Outcome)
  | finished (outcome : Outcome)

structure Response where
  /-- It stands for the request, the response and the item, which are drawn together. -/
  requestId : ℕ
  wantsAudio : Bool := false
  textAcc : List String := []
  finishReason : String := "stop"
  sawAudio : Bool := false
  textDone : Bool := false
  audioDone : Bool := false
  responseDone : Bool := false
  point : Point := .notStarted
  /-- `Task.cancel` was called, and the task has not run since. -/
  cancelRequested : Bool := false

namespace Response

def text (r : Response) : String := String.join r.textAcc

/-- The finish reason of the text is kept. -/
def noteFinish (r : Response) (modality : Modality) (reason : String) : Response :=
  { r with finishReason := if modality = .text then reason else r.finishReason }

def isFinished (r : Response) : Bool :=
  match r.point with
  | .finished _ => true
  | _ => false

end Response

/-! ## The session -/

inductive TurnPoint
  | idle
  /-- An utterance was taken from the queue. -/
  | taken
  | spawned
  | responding
  | transcribing
  | over
  deriving DecidableEq, Repr

structure Session where
  closed : Bool := false
  connected : Bool := true
  audioModality : Bool := false
  interruptResponse : Bool := true
  speechIdle : Bool := true
  /-- `speech_started` was sent, and its handler has not looked at the response yet. -/
  speechSent : Bool := false
  responseQueue : ℕ := 0
  turn : TurnPoint := .idle
  turnCancelRequested : Bool := false
  /-- The requests drawn so far. -/
  requests : ℕ := 0
  activeResponseTask : Option Response := none
  activeResponseRequestId : Option ℕ := none
  activeResponseHasAudio : Bool := false
  responseCancelReason : Option String := none
  cancelledResponseRequestId : Option ℕ := none
  cancelledResponseReason : Option String := none
  finalizedResponseRequestId : Option ℕ := none
  responseStartPending : Bool := false
  pendingResponseCancelReason : Option String := none
  log : List Entry := []

namespace Session

/-- Only while it is open does `send` send. -/
def isOpen (s : Session) : Bool := !s.closed && s.connected

def record (s : Session) (entry : Entry) : Session :=
  if s.isOpen then { s with log := s.log ++ [entry] } else s

def send (s : Session) (event : Event) : Session := s.record (.sent event)

/-- The task of the response is at another point. -/
def setTask (s : Session) (r : Response) : Session := { s with activeResponseTask := some r }

def cancelTask (s : Session) : Session :=
  match s.activeResponseTask with
  | none => s
  | some r => if r.isFinished then s else s.setTask { r with cancelRequested := true }

/-- `cancel_active_response`; the abort of the engine's request is left out. -/
def cancelActiveResponse (s : Session) (reason : String) : Session :=
  if s.responseStartPending then
    { s with pendingResponseCancelReason := s.pendingResponseCancelReason.or (some reason) }
  else
    match s.activeResponseRequestId with
    | none => s
    | some requestId =>
      if s.finalizedResponseRequestId = some requestId ∨
          s.cancelledResponseRequestId = some requestId then s
      else
        cancelTask <| record { s with
          cancelledResponseRequestId := some requestId
          cancelledResponseReason := some reason
          responseCancelReason := some reason } (.claimed requestId)

/-! ## Sending the terminal events -/

/-- `claim_terminal` of the request; the flag says whether a cancel was first. -/
def claimTerminal (s : Session) (requestId : ℕ) : Session × Bool :=
  (record { s with finalizedResponseRequestId := some requestId } (.finalized requestId),
    s.cancelledResponseRequestId = some requestId)

def cancelReason (s : Session) : String := s.cancelledResponseReason.getD "client_cancelled"

/-- The start of `emit_terminals_safely`; the new task has not run. -/
def emitTerminals (s : Session) (r : Response) (terminals : Terminals) (inHandler : Bool)
    (after : Outcome) : Session :=
  s.setTask { r with point := .terminals terminals .start inHandler after }

def sendResponseDone (s : Session) (r : Response) (t : Terminals) (inHandler : Bool)
    (after : Outcome) : Session :=
  (s.send (.responseDone r.requestId t.status t.reason t.responseText t.includeAudio)).setTask
    { r with point := .terminals t .responseDone inHandler after }

def afterAudioDone (s : Session) (r : Response) (t : Terminals) (inHandler : Bool)
    (after : Outcome) : Session :=
  match t.error with
  | some (kind, code, message) =>
    (s.send (.error kind code message)).setTask { r with point := .terminals t .error inHandler after }
  | none => s.sendResponseDone r t inHandler after

def afterTextDone (s : Session) (r : Response) (t : Terminals) (inHandler : Bool)
    (after : Outcome) : Session :=
  if t.includeAudio && r.sawAudio && !r.audioDone then
    (s.send (.audioDone r.requestId)).setTask
      { r with point := .terminals t .audioDone inHandler after }
  else s.afterAudioDone r t inHandler after

/-- The task of `emit_terminals` runs on from a point. -/
def terminalsRun (s : Session) (r : Response) (t : Terminals) (inHandler : Bool)
    (after : Outcome) : TerminalPoint → Session
  | .start =>
    if r.responseDone then s.setTask { r with point := .leaving after }
    else if r.textDone then s.afterTextDone r t inHandler after
    else
      (s.send (.textDone r.requestId t.responseText)).setTask
        { r with point := .terminals t .textDone inHandler after }
  | .textDone => s.afterTextDone { r with textDone := true } t inHandler after
  | .audioDone => s.afterAudioDone { r with audioDone := true } t inHandler after
  | .error => s.sendResponseDone r t inHandler after
  | .responseDone => s.setTask { r with responseDone := true, point := .leaving after }

/-! ## The response task -/

/-- The `finally` of `run_response`. -/
def leave (s : Session) (r : Response) (outcome : Outcome) : Session :=
  let s := if s.activeResponseRequestId = some r.requestId then
    { s with activeResponseRequestId := none, activeResponseHasAudio := false } else s
  let s := if s.cancelledResponseRequestId = some r.requestId then
    { s with cancelledResponseRequestId := none, cancelledResponseReason := none } else s
  let s := if s.finalizedResponseRequestId = some r.requestId then
    { s with finalizedResponseRequestId := none } else s
  s.setTask { r with point := .finished outcome }

/-- The part of `run_response` up to `response.created`. -/
def startResponse (s : Session) (r : Response) : Session :=
  let r := { r with wantsAudio := s.audioModality, point := .created }
  (send { s with
    activeResponseRequestId := some r.requestId
    activeResponseHasAudio := r.wantsAudio } (.responseCreated r.requestId)).setTask r

/-- After `response.created` the cancel that was kept for the response is taken. -/
def createdSent (s : Session) (r : Response) : Session :=
  match s.pendingResponseCancelReason with
  | some reason =>
    let s := record { s with
      responseStartPending := false
      pendingResponseCancelReason := none
      cancelledResponseRequestId := some r.requestId
      cancelledResponseReason := some reason } (.claimed r.requestId)
    (s.claimTerminal r.requestId).1.emitTerminals r ⟨"", false, .cancelled, reason, none⟩ false
      .returned
  | none =>
    { s with responseStartPending := false, pendingResponseCancelReason := none }.setTask
      { r with point := .stream }

/-- The last part of the loop's body, on the finish reason. -/
def chunkFinish (s : Session) (r : Response) (chunk : Chunk) : Session :=
  match chunk.finishReason with
  | none => s.setTask { r with point := .stream }
  | some reason =>
    let r := r.noteFinish chunk.modality reason
    if chunk.modality = .text ∧ r.textDone = false then
      (s.send (.textDone r.requestId r.text)).setTask { r with point := .textDone }
    else if r.wantsAudio = true ∧ chunk.modality = .audio ∧ r.sawAudio = true ∧
        r.audioDone = false then
      (s.send (.audioDone r.requestId)).setTask { r with point := .audioDone }
    else s.setTask { r with point := .stream }

/-- The part of the loop's body after the text delta. -/
def chunkAudio (s : Session) (r : Response) (chunk : Chunk) : Session :=
  match chunk.audioB64 with
  | some audio =>
    if r.wantsAudio = true ∧ chunk.modality = .audio ∧ audio ≠ "" then
      (s.send (.audioDelta r.requestId audio)).setTask
        { r with sawAudio := true, point := .audioDelta chunk }
    else s.chunkFinish r chunk
  | none => s.chunkFinish r chunk

/-- The body of the loop over the stream. -/
def takeChunk (s : Session) (r : Response) (chunk : Chunk) : Session :=
  if s.cancelledResponseRequestId = some r.requestId then s
  else
    match chunk.text with
    | some text =>
      if text ≠ "" ∧ (chunk.modality = .text ∨ r.textAcc = []) then
        (s.send (.textDelta r.requestId text)).setTask
          { r with textAcc := r.textAcc ++ [text], point := .textDelta chunk }
      else s.chunkAudio r chunk
    | none => s.chunkAudio r chunk

/-- What follows the loop. -/
def streamEnded (s : Session) (r : Response) : Session :=
  let (s, cancelled) := s.claimTerminal r.requestId
  if cancelled then
    s.emitTerminals r ⟨r.text, r.wantsAudio && r.sawAudio, .cancelled, s.cancelReason, none⟩ false
      .returned
  else if r.wantsAudio && !r.sawAudio then
    s.emitTerminals r ⟨r.text, false, .failed, "audio_output_missing",
      some ("server_error", "audio_output_missing",
        "The configured pipeline completed without audio output.")⟩ false .returned
  else
    s.emitTerminals r ⟨r.text, r.wantsAudio, .completed, r.finishReason, none⟩ false .returned

/-- `except asyncio.CancelledError` where no terminal event is sent yet. -/
def onCancelled (s : Session) (r : Response) : Session :=
  let s := (s.claimTerminal r.requestId).1
  s.emitTerminals r ⟨r.text, r.wantsAudio && r.sawAudio, .cancelled, s.cancelReason, none⟩ true
    .cancelled

/-- `except Exception`. -/
def onException (s : Session) (r : Response) : Session :=
  let (s, cancelled) := s.claimTerminal r.requestId
  if r.responseDone then s.setTask { r with point := .leaving .returned }
  else if cancelled then
    s.emitTerminals r ⟨r.text, r.wantsAudio && r.sawAudio, .cancelled, s.cancelReason, none⟩ true
      .returned
  else
    s.emitTerminals r ⟨r.text, r.wantsAudio && r.sawAudio, .failed, "error",
      some ("server_error", "response_generation_failed",
        "Realtime response generation failed.")⟩ true .returned

end Session

/-! ## Steps -/

/-- What makes the task of the response run. -/
inductive Wake
  /-- What it waits for is done. -/
  | resume
  | chunk (chunk : Chunk)
  | streamEnd
  | streamException
  /-- A `send` raises; its connection is lost. -/
  | sendException
  /-- `CancelledError` is thrown in. -/
  | cancelled

namespace Session

/-- The task of the response runs to its next await. -/
def responseStep (s : Session) (r : Response) : Wake → Option Session
  | .cancelled =>
    if r.cancelRequested then
      let r := { r with cancelRequested := false }
      match r.point with
      | .notStarted => some (s.setTask { r with point := .finished .cancelled })
      | .terminals t point inHandler _ =>
        some (s.setTask { r with point := .terminals t point inHandler .cancelled })
      | .leaving _ => some (s.setTask { r with point := .leaving .cancelled })
      | .finished _ => none
      | _ => some (s.onCancelled r)
    else none
  | .sendException =>
    let s := { s with connected := false }
    match r.point with
    | .terminals _ .start _ _ => none
    | .terminals _ _ false _ => some (s.onException r)
    | .terminals _ _ true _ => some (s.leave r .failed)
    | .created | .textDelta _ | .audioDelta _ | .textDone | .audioDone =>
      if r.cancelRequested then none else some (s.onException r)
    | _ => none
  | .resume =>
    match r.point with
    | .terminals t point inHandler after => some (s.terminalsRun r t inHandler after point)
    | .stream | .finished _ => none
    | point =>
      if r.cancelRequested then none
      else
        match point with
        | .notStarted => some (s.startResponse r)
        | .created => some (s.createdSent r)
        | .textDelta chunk => some (s.chunkAudio r chunk)
        | .audioDelta chunk => some (s.chunkFinish r chunk)
        | .textDone => some (s.setTask { r with textDone := true, point := .stream })
        | .audioDone => some (s.setTask { r with audioDone := true, point := .stream })
        | .leaving after => some (s.leave r after)
        | _ => none
  | .chunk chunk =>
    match r.point with
    | .stream => if r.cancelRequested then none else some (s.takeChunk r chunk)
    | _ => none
  | .streamEnd =>
    match r.point with
    | .stream => if r.cancelRequested then none else some (s.streamEnded r)
    | _ => none
  | .streamException =>
    match r.point with
    | .stream => if r.cancelRequested then none else some (s.onException r)
    | _ => none

/-- `run_turn` after its response task. -/
def responseEnded (s : Session) (outcome : Outcome) : Session :=
  let reason := s.responseCancelReason
  let s := { s with activeResponseTask := none, responseCancelReason := none }
  match outcome with
  | .returned => { s with turn := .transcribing }
  | .failed => { s with turn := .over }
  | .cancelled =>
    if reason = none ∨ s.turnCancelRequested = true then { s with turn := .over }
    else { s with turn := .transcribing }

/-- `teardown`; the cancel of the turn goes on to the response that it waits for. -/
def teardown (s : Session) : Session :=
  let s := { s with closed := true, turnCancelRequested := true }
  match s.turn with
  | .spawned => { s with turn := .over }
  | .responding => s.cancelTask
  | _ => s

end Session

inductive TurnLabel
  | sessionUpdate (audioModality interruptResponse : Bool)
  | responseCancel
  | speechStarted
  /-- What the handler of `speech_started` does after its `send`. -/
  | bargeIn
  | speechStopped (committed : Bool)
  | audioClear
  | takeUtterance
  | beginTurn
  | runTurn
  | response (wake : Wake)
  | responseEnded
  | transcriptionEnded
  | endTurn
  | disconnect
  | teardown

open Session in
def turnStep (s : Session) : TurnLabel → Option Session
  | .sessionUpdate audioModality interruptResponse =>
    if s.closed || s.speechSent then none
    else some { s with audioModality := audioModality, interruptResponse := interruptResponse }
  | .responseCancel =>
    if s.closed || s.speechSent then none else some (s.cancelActiveResponse "client_cancelled")
  | .speechStarted =>
    if s.closed || s.speechSent then none
    else some { s with speechIdle := false, speechSent := true }
  | .bargeIn =>
    if s.closed || !s.speechSent then none
    else
      let s := { s with speechSent := false }
      if (s.activeResponseHasAudio || (s.responseStartPending && s.audioModality)) &&
          s.interruptResponse then some (s.cancelActiveResponse "turn_detected")
      else some s
  | .speechStopped committed =>
    if s.closed || s.speechSent then none
    else some { s with
      speechIdle := true
      responseQueue := if committed then s.responseQueue + 1 else s.responseQueue }
  | .audioClear => if s.closed || s.speechSent then none else some { s with speechIdle := true }
  | .takeUtterance =>
    if s.turn = .idle ∧ s.closed = false ∧ 0 < s.responseQueue then
      some { s with turn := .taken, responseQueue := s.responseQueue - 1 }
    else none
  | .beginTurn =>
    if s.turn = .taken ∧ s.speechIdle = true ∧ s.closed = false then
      some { s with turn := .spawned, responseStartPending := true }
    else none
  | .runTurn =>
    if s.turn = .spawned then
      some { s with
        turn := .responding
        turnCancelRequested := false
        activeResponseTask := some { requestId := s.requests }
        requests := s.requests + 1 }
    else none
  | .response wake => s.activeResponseTask.bind fun r => s.responseStep r wake
  | .responseEnded =>
    match s.turn, s.activeResponseTask with
    | .responding, some { point := .finished outcome, .. } => some (s.responseEnded outcome)
    | _, _ => none
  | .transcriptionEnded => if s.turn = .transcribing then some { s with turn := .over } else none
  | .endTurn =>
    if s.turn = .over then
      some { s with
        turn := .idle
        responseStartPending := false
        pendingResponseCancelReason := none }
    else none
  | .disconnect => some { s with connected := false }
  | .teardown => if s.closed then none else some s.teardown

def turnSystem : System Session TurnLabel := .ofFun (fun s => s = {}) turnStep

end AudioTurn

end OmniRealtime
