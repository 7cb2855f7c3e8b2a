import OmniRealtime.Lib.System

/-!
# Audio of a realtime session

`serve/realtime/vad.py`, `serve/realtime/audio_buffer.py` and the audio half of
`serve/realtime/session.py`: appends and clears, the voice activity detector, and the utterances
that are committed. The client's events are handled one after the other, so one handler is one
step.

What the detector's network answers is a parameter of each append. The turn that a commit starts,
and the cancel that speech may cause, are in other modules.

1. `StreamingVAD.process`: frames of 512 samples, speech and silence, the transitions.
2. `AudioSession.handleAudioAppend`, `handleAudioClear`: the buffer with its origins, the commits.
-/

namespace OmniRealtime

/-! ## Voice activity -/

def vadFrameSamples : ℕ := 512

def vadSampleRate : ℕ := 16000

structure VADConfig where
  threshold : ℚ := 1 / 2
  prefixPaddingMs : ℕ := 300
  silenceDurationMs : ℕ := 500

inductive VADEvent
  | speechStarted
  | speechStopped
  deriving DecidableEq, Repr

structure Emit where
  eventType : VADEvent
  sampleOffset : ℕ
  deriving DecidableEq, Repr

structure StreamingVAD where
  config : VADConfig := {}
  leftoverPcm : List UInt8 := []
  samplesConsumed : ℕ := 0
  isSpeech : Bool := false
  silenceRunSamples : ℕ := 0
  lastSpeechOffset : ℕ := 0

def VADConfig.pad (c : VADConfig) : ℕ := c.prefixPaddingMs * vadSampleRate / 1000

def VADConfig.silenceThreshold (c : VADConfig) : ℕ := c.silenceDurationMs * vadSampleRate / 1000

namespace StreamingVAD

/-- One frame of the loop of `process`, which the network gave the probability `prob`. -/
def takeFrame (v : StreamingVAD) (prob : ℚ) : StreamingVAD × List Emit :=
  let v := { v with
    leftoverPcm := v.leftoverPcm.drop (vadFrameSamples * 2)
    samplesConsumed := v.samplesConsumed + vadFrameSamples }
  if v.config.threshold ≤ prob then
    let startedAt := v.samplesConsumed - vadFrameSamples - v.config.pad
    ({ v with silenceRunSamples := 0, lastSpeechOffset := v.samplesConsumed, isSpeech := true },
      if v.isSpeech then [] else [⟨.speechStarted, startedAt⟩])
  else
    let v := { v with silenceRunSamples := v.silenceRunSamples + vadFrameSamples }
    if v.isSpeech = true ∧ v.config.silenceThreshold ≤ v.silenceRunSamples then
      ({ v with isSpeech := false }, [⟨.speechStopped, v.lastSpeechOffset⟩])
    else (v, [])

/-- The loop of `process`, with a bound on its rounds. -/
def processLoop (infer : ℕ → ℚ) : ℕ → StreamingVAD → StreamingVAD × List Emit
  | 0, v => (v, [])
  | rounds + 1, v =>
    if vadFrameSamples * 2 ≤ v.leftoverPcm.length then
      let taken := v.takeFrame (infer v.samplesConsumed)
      let rest := processLoop infer rounds taken.1
      (rest.1, taken.2 ++ rest.2)
    else (v, [])

/-- `process`; `infer` has the network's answer for the frame at each sample offset. -/
def process (v : StreamingVAD) (pcm : List UInt8) (infer : ℕ → ℚ) : StreamingVAD × List Emit :=
  if pcm = [] then (v, [])
  else
    let v := { v with leftoverPcm := v.leftoverPcm ++ pcm }
    processLoop infer (v.leftoverPcm.length / (vadFrameSamples * 2)) v

def reset (v : StreamingVAD) : StreamingVAD := { config := v.config }

end StreamingVAD

def offsetsToMs (samples : ℕ) : ℕ := samples * 1000 / vadSampleRate

/-! ## The session -/

/-- What the session tells the client about its audio. -/
inductive AudioEvent
  | speechStarted (audioStartMs itemId : ℕ)
  | speechStopped (audioEndMs itemId : ℕ)
  | committed (itemId : ℕ)
  | cleared
  deriving DecidableEq, Repr

def defaultMaxBufferBytes : ℕ := 60 * 16000 * 2

structure AudioSession where
  audioBuffer : List UInt8 := []
  vad : StreamingVAD := {}
  vadOriginSamples : ℕ := 0
  bufferOriginSamples : ℕ := 0
  utteranceStartByte : Option ℕ := none
  utteranceItemId : Option ℕ := none
  /-- The item ids drawn so far. -/
  itemIds : ℕ := 0
  sent : List AudioEvent := []
  /-- What was put into `response_queue`: the item and the frames of its WAV file. -/
  responseQueue : List (ℕ × List UInt8) := []
  closed : Bool := false

namespace AudioSession

def send (s : AudioSession) (event : AudioEvent) : AudioSession :=
  { s with sent := s.sent ++ [event] }

def absoluteSample (s : AudioSession) (sampleOffset : ℕ) : ℕ := s.vadOriginSamples + sampleOffset

/-- `sample_offset_to_buffer_byte`; a sample before the buffer is at byte zero. -/
def sampleOffsetToBufferByte (s : AudioSession) (sampleOffset : ℕ) : ℕ :=
  (s.absoluteSample sampleOffset - s.bufferOriginSamples) * 2

/-- `utterance_item_id or new_id("item")`. -/
def itemIdOrNew (s : AudioSession) : AudioSession × ℕ :=
  match s.utteranceItemId with
  | some itemId => (s, itemId)
  | none => ({ s with itemIds := s.itemIds + 1 }, s.itemIds)

/-- `to_sliced_wav_data_uri`: the frames of the file. -/
def sliced (s : AudioSession) (startByte endByte : ℕ) : List UInt8 :=
  (s.audioBuffer.take endByte).drop startByte

def consumeCommittedPrefix (s : AudioSession) (endByte : ℕ) : AudioSession :=
  { s with
    audioBuffer := s.audioBuffer.drop endByte
    bufferOriginSamples := s.bufferOriginSamples + endByte / 2
    utteranceStartByte := none
    utteranceItemId := none }

def autoCommitUtterance (s : AudioSession) (endSampleOffset : ℕ) : AudioSession :=
  if s.audioBuffer.length / 2 = 0 then s
  else
    let startByte := s.utteranceStartByte.getD 0
    let endByte := min (s.sampleOffsetToBufferByte endSampleOffset) s.audioBuffer.length
    if endByte ≤ startByte then s
    else
      let payload := s.sliced startByte endByte
      let (s, itemId) := s.itemIdOrNew
      let s := (s.consumeCommittedPrefix endByte).send (.committed itemId)
      { s with responseQueue := s.responseQueue ++ [(itemId, payload)] }

def handleVadEmit (s : AudioSession) (emit : Emit) : AudioSession :=
  let timestampMs := offsetsToMs (s.absoluteSample emit.sampleOffset)
  match emit.eventType with
  | .speechStarted =>
    let vadByte := s.sampleOffsetToBufferByte emit.sampleOffset
    let itemId := s.itemIds
    let s := { s with
      utteranceStartByte := some (min vadByte s.audioBuffer.length)
      utteranceItemId := some itemId
      itemIds := itemId + 1 }
    s.send (.speechStarted timestampMs itemId)
  | .speechStopped =>
    let (s, itemId) := s.itemIdOrNew
    (s.send (.speechStopped timestampMs itemId)).autoCommitUtterance emit.sampleOffset

/-- `handle_audio_append`; more bytes than the buffer may have end the session. -/
def handleAudioAppend (s : AudioSession) (pcm : List UInt8) (infer : ℕ → ℚ) : AudioSession :=
  if defaultMaxBufferBytes < s.audioBuffer.length + pcm.length then { s with closed := true }
  else
    let s := { s with audioBuffer := s.audioBuffer ++ pcm }
    let newBytes := s.audioBuffer.drop (s.audioBuffer.length - pcm.length)
    let processed := s.vad.process newBytes infer
    processed.2.foldl handleVadEmit { s with vad := processed.1 }

def dropBufferAndResetVad (s : AudioSession) : AudioSession :=
  let origin := s.bufferOriginSamples + s.audioBuffer.length / 2
  { s with
    bufferOriginSamples := origin
    vadOriginSamples := origin
    audioBuffer := []
    utteranceStartByte := none
    utteranceItemId := none
    vad := s.vad.reset }

def handleAudioClear (s : AudioSession) : AudioSession := s.dropBufferAndResetVad.send .cleared

end AudioSession

/-! ## Runs -/

inductive AudioInput
  | append (pcm : List UInt8) (infer : ℕ → ℚ)
  | clear

/-- A session with what the client has sent. -/
structure AudioTrace where
  session : AudioSession := {}
  /-- Every byte appended, less the half sample that a clear cuts off. -/
  heard : List UInt8 := []
  /-- The samples before the last clear. -/
  clearedAt : ℕ := 0
  /-- For each frame since the last clear, whether the network heard speech in it. -/
  speech : List Bool := []
  /-- The earlier clears, each with the frames up to the next one. -/
  past : List (ℕ × List Bool) := []

namespace AudioTrace

/-- The answers for the frames that an append completes. -/
def newSpeech (t : AudioTrace) (pcm : List UInt8) (infer : ℕ → ℚ) : List Bool :=
  let frames := ((t.heard.length + pcm.length) - 2 * t.clearedAt) / (vadFrameSamples * 2)
  (List.range' t.speech.length (frames - t.speech.length)).map fun k =>
    decide (t.session.vad.config.threshold ≤ infer (vadFrameSamples * k))

/-- The stretches between the clears. -/
def epochs (t : AudioTrace) : List (ℕ × List Bool) := t.past ++ [(t.clearedAt, t.speech)]

end AudioTrace

def audioStep (t : AudioTrace) : AudioInput → Option AudioTrace
  | .append pcm infer =>
    if t.session.closed then none
    else
      let session := t.session.handleAudioAppend pcm infer
      if session.closed then some { t with session := session }
      else
        some { t with
          session := session
          heard := t.heard ++ pcm
          speech := t.speech ++ t.newSpeech pcm infer }
  | .clear =>
    if t.session.closed then none
    else
      some {
        session := t.session.handleAudioClear
        heard := t.heard.take (2 * (t.heard.length / 2))
        clearedAt := t.heard.length / 2
        speech := []
        past := t.epochs }

def audioSystem : System AudioTrace AudioInput := .ofFun (fun t => t = {}) audioStep

end OmniRealtime
