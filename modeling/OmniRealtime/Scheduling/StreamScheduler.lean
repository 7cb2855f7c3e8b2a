import OmniRealtime.Lib.System
import OmniRealtime.Lib.Tombstones

/-!
# The streaming scheduler

`scheduling/streaming_simple_scheduler.py` with the hooks of `scheduling/streaming_vocoder.py`:
payloads, stream chunks, done marks and aborts of any requests, in any order.

The scheduler thread takes a message, checks that its request is not aborted, and handles it; an
abort comes from another thread, at any point that is not under `_state_lock`. One step is what
one lock makes atomic. What a model's hooks answer (a chunk is refused, a decode raises or emits)
is part of the event. Payloads and stream states are told apart by their request only.

1. `schedulerStep`: the steps of the two threads.
-/

namespace OmniRealtime

/-! ## Messages -/

/-- A message of the inbox; `is_streaming_payload` of a payload raises, or answers. -/
inductive SchedulerMessage
  | newRequest (requestId : String) (streaming : Option Bool)
  | streamChunk (requestId : String)
  | streamDone (requestId : String)
  /-- A type that `_handle_message` does not know. -/
  | unsupported (requestId : String)
  deriving DecidableEq, Repr

def SchedulerMessage.requestId : SchedulerMessage → String
  | .newRequest requestId _ => requestId
  | .streamChunk requestId => requestId
  | .streamDone requestId => requestId
  | .unsupported requestId => requestId

inductive OutgoingType
  | stream | result | error
  deriving DecidableEq, Repr

structure OutgoingMessage where
  requestId : String
  type : OutgoingType
  deriving DecidableEq, Repr

/-- What the hooks make of a chunk. -/
inductive ChunkOutcome
  /-- The data is no `StreamItem`. -/
  | invalid
  /-- A hook raises after the lookup of the stream state. -/
  | raises
  | decoded (emits : Bool)
  deriving DecidableEq, Repr

/-- What `on_stream_done` makes of a finished stream. -/
inductive DoneOutcome
  | raises
  | finishes (emits : Bool)
  deriving DecidableEq, Repr

/-- How the compute of a non-streaming payload ends. -/
inductive ComputeOutcome
  /-- `validate_non_streaming_payload` raises. -/
  | invalid
  | raises
  | result
  deriving DecidableEq, Repr

/-! ## The state -/

structure StreamScheduler where
  pendingDone : Finset String := ∅
  streamPayloads : Finset String := ∅
  streamStates : Finset String := ∅
  emittedStreamIds : Finset String := ∅
  aborted : List String := []
  completedNonStreaming : List String := []
  /-- `_completed_stream_request_ids`, oldest first. -/
  completedStream : List String := []
  outbox : List OutgoingMessage := []
  /-- The messages that were taken and not handled yet. -/
  taken : List SchedulerMessage := []
  /-- The streaming payloads past their last check, and past the removal of the tombstone. -/
  checked : List String := []
  revived : List String := []
  /-- The non-streaming payloads that are computed. -/
  computing : List String := []
  /-- The aborts that have recorded their request and have not cleared it yet. -/
  aborting : List String := []
  /-- The requests whose result or error was emitted or that were aborted, and that no streaming
      payload has begun again. -/
  ended : Finset String := ∅

namespace StreamScheduler

/-! ## Operations -/

/-- `_record_aborted_request_id`; `order` is how the set iterates. -/
def recordAborted (s : StreamScheduler) (order : List String) (requestId : String) :
    StreamScheduler :=
  { s with aborted := Tombstones.record 10000 5000 order s.aborted requestId }

/-- `_record_completed_non_streaming_request_id`. -/
def recordCompletedNonStreaming (s : StreamScheduler) (order : List String) (requestId : String) :
    StreamScheduler :=
  { s with
    completedNonStreaming := Tombstones.record 10000 5000 order s.completedNonStreaming requestId }

/-- `_record_completed_stream_request_id`: a dict, so the oldest ids are dropped. -/
def recordCompletedStream (s : StreamScheduler) (requestId : String) : StreamScheduler :=
  let completed :=
    if requestId ∈ s.completedStream then s.completedStream else s.completedStream ++ [requestId]
  { s with completedStream :=
      if completed.length ≤ 10000 then completed else completed.drop (completed.length - 5000) }

def clearStreamState (s : StreamScheduler) (requestId : String) : StreamScheduler :=
  { s with
    emittedStreamIds := s.emittedStreamIds.erase requestId
    streamStates := s.streamStates.erase requestId }

/-- `_clear_request_state` with `keep_aborted`. -/
def clearKeepAborted (s : StreamScheduler) (requestId : String) : StreamScheduler :=
  { s with
    streamPayloads := s.streamPayloads.erase requestId
    pendingDone := s.pendingDone.erase requestId }.clearStreamState requestId

def clearRequestState (s : StreamScheduler) (requestId : String) : StreamScheduler :=
  { s.clearKeepAborted requestId with aborted := s.aborted.filter (· ≠ requestId) }

def emit (s : StreamScheduler) (requestId : String) (type : OutgoingType) : StreamScheduler :=
  { s with outbox := s.outbox ++ [⟨requestId, type⟩] }

def markEnded (s : StreamScheduler) (requestId : String) : StreamScheduler :=
  { s with ended := insert requestId s.ended }

/-- `_emit_error` and `abort`, in the scheduler thread. -/
def fail (s : StreamScheduler) (order : List String) (requestId : String) : StreamScheduler :=
  (((s.emit requestId .error).recordAborted order requestId).clearKeepAborted requestId).markEnded
    requestId

/-- `_get_or_create_stream_state`; `none` where it answers `None`. -/
def getOrCreateStreamState (s : StreamScheduler) (requestId : String) : Option StreamScheduler :=
  if requestId ∈ s.streamStates then some s
  else if requestId ∈ s.aborted ∨ requestId ∈ s.completedStream then none
  else some { s with streamStates := insert requestId s.streamStates }

/-- `_mark_stream_emitted` and the stream message, which an aborted request does not get. -/
def emitStream (s : StreamScheduler) (requestId : String) (emits : Bool) : StreamScheduler :=
  if emits then
    let s := { s with emittedStreamIds := insert requestId s.emittedStreamIds }
    if requestId ∈ s.aborted then s else s.emit requestId .stream
  else s

/-- A stream chunk, under the lock. -/
def handleStreamChunk (s : StreamScheduler) (order : List String) (requestId : String)
    (outcome : ChunkOutcome) : StreamScheduler :=
  match outcome with
  | .invalid => s.fail order requestId
  | .raises =>
    match s.getOrCreateStreamState requestId with
    | none => s
    | some s => s.fail order requestId
  | .decoded emits =>
    match s.getOrCreateStreamState requestId with
    | none => s
    | some s => s.emitStream requestId emits

/-- `_handle_stream_done`, under the lock. -/
def handleStreamDone (s : StreamScheduler) (order : List String) (requestId : String)
    (outcome : DoneOutcome) : StreamScheduler :=
  if requestId ∉ s.streamPayloads then
    if requestId ∈ s.completedNonStreaming then s
    else { s with pendingDone := insert requestId s.pendingDone }
  else
    match s.getOrCreateStreamState requestId with
    | none => if requestId ∈ s.aborted then s else s.clearRequestState requestId
    | some s =>
      match outcome with
      | .raises => s.fail order requestId
      | .finishes emits =>
        let s := (s.emitStream requestId emits).recordCompletedStream requestId
        if requestId ∈ s.aborted then s
        else ((s.emit requestId .result).clearRequestState requestId).markEnded requestId

/-- A streaming payload is stored, and its completions are forgotten. -/
def acceptPayload (s : StreamScheduler) (requestId : String) : StreamScheduler :=
  { s with
    completedNonStreaming := s.completedNonStreaming.filter (· ≠ requestId)
    streamPayloads := insert requestId s.streamPayloads
    completedStream := s.completedStream.filter (· ≠ requestId) }

/-- `_handle_streaming_new_request`, under the lock; `latches` tells that the payload's contract
    does not raise. -/
def handleStreamingNewRequest (s : StreamScheduler) (order : List String) (requestId : String)
    (latches : Bool) (outcome : DoneOutcome) : StreamScheduler :=
  let s := s.acceptPayload requestId
  match s.getOrCreateStreamState requestId, latches with
  | some s, false => s.fail order requestId
  | some s, true => finishPending s
  | none, _ => finishPending s
where
  /-- A done mark that came first. -/
  finishPending (s : StreamScheduler) : StreamScheduler :=
    if requestId ∈ s.pendingDone then
      { s with pendingDone := s.pendingDone.erase requestId }.handleStreamDone order requestId
        outcome
    else s

/-- The end of a non-streaming payload. -/
def finishCompute (s : StreamScheduler) (order : List String) (requestId : String)
    (outcome : ComputeOutcome) : StreamScheduler :=
  match outcome with
  | .invalid =>
    ((s.emit requestId .error).recordCompletedNonStreaming order requestId).markEnded requestId
  | .raises =>
    if requestId ∈ s.aborted then s
    else ((s.emit requestId .error).recordCompletedNonStreaming order requestId).markEnded requestId
  | .result =>
    if requestId ∈ s.aborted then s
    else ((s.emit requestId .result).recordCompletedNonStreaming order requestId).markEnded requestId

end StreamScheduler

/-! ## Steps -/

inductive SchedulerEvent
  /-- A message is taken from the inbox, past the check of the loop. -/
  | take (msg : SchedulerMessage)
  /-- `is_streaming_payload` raises. -/
  | refuse (requestId : String)
  | checkStreaming (requestId : String)
  /-- The tombstone of a streaming payload's request is removed. -/
  | revive (requestId : String)
  | openStream (requestId : String) (latches : Bool) (outcome : DoneOutcome)
  | startCompute (requestId : String)
  | finishCompute (requestId : String) (outcome : ComputeOutcome)
  | chunk (requestId : String) (outcome : ChunkOutcome)
  | done (requestId : String) (outcome : DoneOutcome)
  | unsupported (requestId : String)
  /-- A coalesced decode step emits for a stream, or fails. -/
  | pumpEmit (requestId : String)
  | pumpFail (requestId : String)
  /-- The two halves of `abort`. -/
  | abortRecord (requestId : String)
  | abortClear (requestId : String)
  deriving DecidableEq, Repr

/-- An event, and how the sets iterate while it is handled. -/
structure SchedulerTurn where
  event : SchedulerEvent
  order : List String := []

open StreamScheduler in
def schedulerStep (s : StreamScheduler) (turn : SchedulerTurn) : Option StreamScheduler :=
  match turn.event with
  | .take msg =>
    if msg.requestId ∈ s.aborted then some s
    else some { s with
      taken := msg :: s.taken
      ended :=
        match msg with
        | .newRequest requestId (some true) => s.ended.erase requestId
        | _ => s.ended }
  | .refuse requestId =>
    if .newRequest requestId none ∈ s.taken then
      some ({ s with taken := s.taken.erase (.newRequest requestId none) }.fail turn.order requestId)
    else none
  | .checkStreaming requestId =>
    if .newRequest requestId (some true) ∈ s.taken then
      let t := { s with taken := s.taken.erase (.newRequest requestId (some true)) }
      if requestId ∈ s.aborted then some t else some { t with checked := requestId :: s.checked }
    else none
  | .revive requestId =>
    if requestId ∈ s.checked then
      some { s with
        checked := s.checked.erase requestId
        revived := requestId :: s.revived
        aborted := s.aborted.filter (· ≠ requestId) }
    else none
  | .openStream requestId latches outcome =>
    if requestId ∈ s.revived then
      some ({ s with revived := s.revived.erase requestId }.handleStreamingNewRequest
        turn.order requestId latches outcome)
    else none
  | .startCompute requestId =>
    if .newRequest requestId (some false) ∈ s.taken then
      let t := { s with taken := s.taken.erase (.newRequest requestId (some false)) }
      if requestId ∈ s.aborted then some t
      else some { t with
        pendingDone := s.pendingDone.erase requestId
        computing := requestId :: s.computing }
    else none
  | .finishCompute requestId outcome =>
    if requestId ∈ s.computing then
      some ({ s with computing := s.computing.erase requestId }.finishCompute turn.order requestId
        outcome)
    else none
  | .chunk requestId outcome =>
    if .streamChunk requestId ∈ s.taken then
      some ({ s with taken := s.taken.erase (.streamChunk requestId) }.handleStreamChunk turn.order
        requestId outcome)
    else none
  | .done requestId outcome =>
    if .streamDone requestId ∈ s.taken then
      some ({ s with taken := s.taken.erase (.streamDone requestId) }.handleStreamDone turn.order
        requestId outcome)
    else none
  | .unsupported requestId =>
    if .unsupported requestId ∈ s.taken then
      some ({ s with taken := s.taken.erase (.unsupported requestId) }.fail turn.order requestId)
    else none
  | .pumpEmit requestId =>
    if requestId ∈ s.streamStates ∧ requestId ∉ s.aborted then some (s.emitStream requestId true)
    else none
  | .pumpFail requestId =>
    if requestId ∈ s.streamStates then some (s.fail turn.order requestId) else none
  | .abortRecord requestId =>
    some { s.recordAborted turn.order requestId with aborting := requestId :: s.aborting }
  | .abortClear requestId =>
    if requestId ∈ s.aborting then
      some ({ s.clearKeepAborted requestId with
        aborting := s.aborting.erase requestId }.markEnded requestId)
    else none

def schedulerSystem : System StreamScheduler SchedulerTurn :=
  .ofFun (fun s => s = {}) schedulerStep

end OmniRealtime
