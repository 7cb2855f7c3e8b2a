import OmniRealtime.Lib.CutAfter
import OmniRealtime.Lib.PyText
import OmniRealtime.Lib.System

/-!
# Sentences of a speech WebSocket

`serve/speech_ws.py`: `_message_loop` and what it calls. Text arrives in messages; each complete
segment is generated before the next message is read. While a sentence is generated a watcher
receives what comes and queues it.

Generation is a step of its own, which may fail. The audio of a sentence is left out, as are clients
that disconnect or send anything but text and the end of it.

1. `SpeechSession`, `speechStep`: the session, and what happens in it.
2. `popCompleteSegments_eq`: a buffer is cut after its boundaries.
3. `Numbered.step`: sentences and `audio.done` frames are numbered one after another.
4. `Spoken.step`: what was generated, what is due and what is still to be read make up the text.
5. `speech_segments_independent`: the sentences of a session, for every split of the text and every
   interleaving.
-/

namespace OmniRealtime

namespace SpeechWs

open CutAfter Prod

/-! ## The session -/

def maxTextMessageBytes : Nat := 128 * 1024

def maxBufferedTextChars : Nat := 256 * 1024

def maxBufferedReceiveMessages : Nat := 16

def maxBufferedReceiveBytes : Nat := maxBufferedReceiveMessages * maxTextMessageBytes

inductive SplitGranularity
  | sentence
  | clause
deriving DecidableEq, Repr

/-- `SENTENCE_BOUNDARIES` and `CLAUSE_BOUNDARIES`. -/
def SplitGranularity.boundary : SplitGranularity → Char → Bool
  | .sentence, c => ".!?。！？".toList.contains c
  | .clause, c => ".!?。！？,，;；".toList.contains c

/-- A text frame of the client: `input.text`, or `input.done` where it has no text. -/
structure ClientMessage where
  /-- The bytes of the frame. -/
  size : Nat
  text : Option (List Char)
deriving DecidableEq, Repr

/-- What the server sends, but for the audio. -/
inductive ServerFrame
  | error
  | audioDone (sentenceIndex : Nat) (failed : Bool)
  | sessionDone (totalSentences : Nat)
deriving DecidableEq, Repr

/-- What the session is at: it waits for a message, it generates a sentence while others of the same
    message are due, or it has ended. -/
inductive Activity
  | receiving
  | generating (sentenceIndex : Nat) (due : List (List Char)) (inputDone : Bool)
  | ended
deriving DecidableEq, Repr

/-- A session. `incoming` are the messages of the client it has not received, `generated` the
    sentences it began to generate, with their indices. -/
structure SpeechSession where
  incoming : List ClientMessage
  bufferedReceiveMessages : List ClientMessage := []
  bufferedReceiveMessageBytes : Nat := 0
  buffer : List Char := []
  sentenceIndex : Nat := 0
  closed : Bool := false
  activity : Activity := .receiving
  generated : List (Nat × List Char) := []
  sent : List ServerFrame := []
deriving DecidableEq, Repr

open SpeechSession

/-! ## Segments -/

section Segments

variable (granularity : SplitGranularity)

/-- The loop of `_pop_complete_segments`: the segments, and where the last one ends. -/
def popLoop (buffer : List Char) : Nat → Nat → List Char → List (List Char) × Nat
  | start, _, [] => ([], start)
  | start, index, char :: rest =>
    if granularity.boundary char then
      let segment := strip ((buffer.take (index + 1)).drop start)
      let (segments, last) := popLoop buffer (index + 1) (index + 1) rest
      (if segment ≠ [] then segment :: segments else segments, last)
    else popLoop buffer start (index + 1) rest

/-- `_pop_complete_segments`: the segments, and the buffer that is left. -/
def popCompleteSegments (buffer : List Char) : List (List Char) × List Char :=
  let (segments, last) := popLoop granularity buffer 0 0 buffer
  (segments, buffer.drop last)

end Segments

/-! ## Steps -/

/-- The sentences that are due, one after another; behind the last one `input.done` ends the
    session. -/
def SpeechSession.generate (s : SpeechSession) (due : List (List Char)) (inputDone : Bool) :
    SpeechSession :=
  match due with
  | sentence :: due =>
    { s with
      sentenceIndex := s.sentenceIndex + 1
      generated := s.generated ++ [(s.sentenceIndex, sentence)]
      activity := .generating s.sentenceIndex due inputDone }
  | [] =>
    if inputDone then
      { s with sent := s.sent ++ [.sessionDone s.sentenceIndex], activity := .ended }
    else { s with activity := .receiving }

/-- `_handle_input_text`, of a text. -/
def SpeechSession.handleInputText (granularity : SplitGranularity) (s : SpeechSession)
    (text : List Char) : SpeechSession :=
  if text = [] then s
  else if maxBufferedTextChars < s.buffer.length + text.length then
    { s with buffer := [], sent := s.sent ++ [.error], closed := true, activity := .ended }
  else
    let (segments, buffer) := popCompleteSegments granularity (s.buffer ++ text)
    { s with buffer }.generate segments false

def SpeechSession.handleInputDone (s : SpeechSession) : SpeechSession :=
  let remaining := strip s.buffer
  { s with buffer := [] }.generate (if remaining ≠ [] then [remaining] else []) true

/-- A message of the loop, once it is received. -/
def SpeechSession.handle (granularity : SplitGranularity) (s : SpeechSession)
    (message : ClientMessage) : SpeechSession :=
  if maxTextMessageBytes < message.size then { s with sent := s.sent ++ [.error] }
  else
    match message.text with
    | some text => s.handleInputText granularity text
    | none => s.handleInputDone

/-- The watcher may queue the message. -/
def SpeechSession.Fits (s : SpeechSession) (message : ClientMessage) : Prop :=
  s.bufferedReceiveMessages.length < maxBufferedReceiveMessages ∧
    message.size ≤ maxTextMessageBytes ∧
    s.bufferedReceiveMessageBytes + message.size ≤ maxBufferedReceiveBytes

instance (s : SpeechSession) (message : ClientMessage) : Decidable (s.Fits message) :=
  inferInstanceAs (Decidable (_ ∧ _))

inductive SpeechEvent
  /-- The loop receives a message. -/
  | receive
  /-- The watcher receives one. -/
  | watch
  /-- The generation of a sentence ends. -/
  | generated (failed : Bool)
  /-- No message came for `IDLE_TIMEOUT_S`. -/
  | idleTimeout
deriving DecidableEq, Repr

def speechStep (granularity : SplitGranularity) (s : SpeechSession) :
    SpeechEvent → Option SpeechSession
  | .receive =>
    if s.activity = .receiving then
      match s.bufferedReceiveMessages, s.incoming with
      | message :: queued, _ =>
        some ({ s with
          bufferedReceiveMessages := queued
          bufferedReceiveMessageBytes := s.bufferedReceiveMessageBytes - message.size }.handle
            granularity message)
      | [], message :: incoming => some ({ s with incoming }.handle granularity message)
      | [], [] => none
    else none
  | .watch =>
    match s.activity, s.incoming with
    | .generating .., message :: incoming =>
      if s.Fits message then
        some { s with
          incoming
          bufferedReceiveMessages := s.bufferedReceiveMessages ++ [message]
          bufferedReceiveMessageBytes := s.bufferedReceiveMessageBytes + message.size }
      else some { s with incoming, closed := true, activity := .ended }
    | _, _ => none
  | .generated failed =>
    match s.activity with
    | .generating sentenceIndex due inputDone =>
      let sent := s.sent ++ (if failed then [.error] else []) ++ [.audioDone sentenceIndex failed]
      some ({ s with sent }.generate due inputDone)
    | _ => none
  | .idleTimeout =>
    if s.activity = .receiving ∧ s.bufferedReceiveMessages = [] then
      some { s with sent := s.sent ++ [.error], activity := .ended }
    else none

/-- Every order of events of a session with these messages. -/
def speechSystem (granularity : SplitGranularity) (messages : List ClientMessage) :
    System SpeechSession SpeechEvent :=
  .ofFun (fun s => s = { incoming := messages }) (speechStep granularity)

/-- The watcher receives no more than it may queue, and the client is not idle for too long. -/
def WithinReceiveLimits (s : SpeechSession) : SpeechEvent → Prop
  | .watch => ∀ message ∈ s.incoming.head?, s.Fits message
  | .idleTimeout => False
  | _ => True

/-- The messages fit into a frame, and no segment outgrows the buffer. -/
def WithinTextLimits (granularity : SplitGranularity) : List Char → List ClientMessage → Prop
  | _, [] => True
  | buffer, message :: messages =>
    message.size ≤ maxTextMessageBytes ∧
      buffer.length + (message.text.getD []).length ≤ maxBufferedTextChars ∧
      WithinTextLimits granularity
        (cutFrom granularity.boundary [] (buffer ++ message.text.getD [])).2 messages

instance (granularity : SplitGranularity) : (buffer : List Char) →
    (messages : List ClientMessage) → Decidable (WithinTextLimits granularity buffer messages)
  | _, [] => inferInstanceAs (Decidable True)
  | buffer, message :: messages =>
    have := instDecidableWithinTextLimits granularity
      (cutFrom granularity.boundary [] (buffer ++ message.text.getD [])).2 messages
    inferInstanceAs (Decidable (_ ∧ _ ∧ _))

/-! ## What the sentences should be -/

/-- The messages of a text that is split into `texts`, with the bytes of their frames. -/
def inputOf (texts : List (Nat × List Char)) (doneSize : Nat) : List ClientMessage :=
  texts.map (fun text => ⟨text.1, some text.2⟩) ++ [⟨doneSize, none⟩]

def textOf (messages : List ClientMessage) : List Char :=
  messages.flatMap fun message => message.text.getD []

/-- The pieces that are not empty, stripped. -/
def spoken (pieces : List (List Char)) : List (List Char) :=
  (pieces.map strip).filter (· ≠ [])

section Sentences

variable (granularity : SplitGranularity)

/-- The sentences of a text: the pieces that end in a boundary, and what is left. -/
def sentencesOf (text : List Char) : List (List Char) :=
  spoken ((cutFrom granularity.boundary [] text).1 ++ [(cutFrom granularity.boundary [] text).2])

theorem spoken_cons (piece : List Char) (pieces : List (List Char)) :
    spoken (piece :: pieces) =
      if strip piece ≠ [] then strip piece :: spoken pieces else spoken pieces := by
  rw [spoken, List.map_cons, List.filter_cons]
  simp only [decide_eq_true_eq, spoken]

theorem spoken_append (pieces pieces' : List (List Char)) :
    spoken (pieces ++ pieces') = spoken pieces ++ spoken pieces' := by
  rw [spoken, List.map_append, List.filter_append]
  rfl

theorem sentencesOf_append (text more : List Char) :
    sentencesOf granularity (text ++ more) = spoken (cutFrom granularity.boundary [] text).1 ++
        sentencesOf granularity ((cutFrom granularity.boundary [] text).2 ++ more) := by
  have hrest : cutFrom granularity.boundary [] (cutFrom granularity.boundary [] text).2 =
      ([], (cutFrom granularity.boundary [] text).2) :=
    cutFrom_of_unmarked _ (rest_cutFrom _ nofun text) []
  rw [sentencesOf, sentencesOf, cutFrom_append, cutFrom_append, hrest, List.append_assoc,
    spoken_append]
  rfl

theorem sentencesOf_of_unmarked {text : List Char}
    (h : ∀ c ∈ text, granularity.boundary c = false) :
    sentencesOf granularity text = if strip text ≠ [] then [strip text] else [] := by
  rw [sentencesOf, cutFrom_of_unmarked _ h, List.nil_append, spoken_cons]
  rfl

theorem take_of_drop {buffer rest : List Char} {char : Char} {index : Nat}
    (h : buffer.drop index = char :: rest) :
    buffer.take (index + 1) = buffer.take index ++ [char] ∧ buffer.drop (index + 1) = rest ∧
      (buffer.take index).length = index := by
  have hlt : index < buffer.length := by
    rcases Nat.lt_or_ge index buffer.length with hlt | hge
    · exact hlt
    · rw [List.drop_eq_nil_of_le hge] at h
      cases h
  rw [List.drop_eq_getElem_cons hlt] at h
  obtain ⟨rfl, hrest⟩ := List.cons.inj h
  exact ⟨(List.take_append_getElem hlt).symm, hrest, List.length_take_of_le (Nat.le_of_lt hlt)⟩

theorem popLoop_eq {buffer : List Char} (rest : List Char) {start index : Nat}
    (hrest : buffer.drop index = rest) (hsrt : start ≤ index) :
    (popLoop granularity buffer start index rest).1 =
        spoken (cutFrom granularity.boundary ((buffer.take index).drop start) rest).1 ∧
      buffer.drop (popLoop granularity buffer start index rest).2 =
        (cutFrom granularity.boundary ((buffer.take index).drop start) rest).2 := by
  induction rest generalizing start index with
  | nil =>
    refine ⟨rfl, ?_⟩
    show buffer.drop start = (buffer.take index).drop start
    rw [List.take_of_length_le (List.drop_eq_nil_iff.mp hrest)]
  | cons char rest ih =>
    obtain ⟨htake, hnext, hlength⟩ := take_of_drop hrest
    -- the segment so far, with this character
    have hsegment : (buffer.take (index + 1)).drop start =
        (buffer.take index).drop start ++ [char] := by
      rw [htake, List.drop_append_of_le_length (Nat.le_trans hsrt (Nat.le_of_eq hlength.symm))]
    rw [popLoop, cutFrom]
    cases granularity.boundary char with
    | false =>
      have h := ih hnext (Nat.le_succ_of_le hsrt)
      rwa [hsegment] at h
    | true =>
      have h := ih hnext (Nat.le_refl (index + 1))
      rw [List.drop_eq_nil_of_le (List.length_take_le _ _)] at h
      refine ⟨?_, h.2⟩
      simp only [if_true, hsegment, spoken_cons, h.1]

theorem popCompleteSegments_eq (buffer : List Char) :
    popCompleteSegments granularity buffer = (spoken (cutFrom granularity.boundary [] buffer).1,
        (cutFrom granularity.boundary [] buffer).2) := by
  have h := popLoop_eq granularity buffer (List.drop_zero (l := buffer)) (Nat.le_refl 0)
  exact Prod.ext h.1 h.2

end Sentences

/-! ## Numbers -/

/-- The indices of the `audio.done` frames. -/
def audioDones (sent : List ServerFrame) : List Nat :=
  sent.filterMap fun
    | .audioDone sentenceIndex _ => some sentenceIndex
    | _ => none

/-- The sentence that is being generated. -/
def Activity.current : Activity → List Nat
  | .generating sentenceIndex _ _ => [sentenceIndex]
  | _ => []

/-- The sentences that were begun, and those with an `audio.done`, are numbered in order; a session
    that has ended said how many there were. -/
structure Numbered (s : SpeechSession) : Prop where
  indices : s.generated.map Prod.fst = List.range s.sentenceIndex
  dones : audioDones s.sent ++ s.activity.current = List.range s.sentenceIndex
  total : s.activity = .ended → s.sent.getLast? = some (.sessionDone s.sentenceIndex)

theorem audioDones_append (sent sent' : List ServerFrame) :
    audioDones (sent ++ sent') = audioDones sent ++ audioDones sent' :=
  List.filterMap_append

theorem Numbered.generate {s : SpeechSession}
    (hindices : s.generated.map fst = List.range s.sentenceIndex)
    (hdones : audioDones s.sent = List.range s.sentenceIndex) (due : List (List Char))
    (inputDone : Bool) : Numbered (s.generate due inputDone) := by
  cases due with
  | cons sentence due =>
    constructor
    · show (s.generated ++ [(s.sentenceIndex, sentence)]).map fst = _
      rw [List.map_append, hindices]
      exact List.range_succ.symm
    · show audioDones s.sent ++ [s.sentenceIndex] = _
      rw [hdones]
      exact List.range_succ.symm
    · intro h
      cases h
  | nil =>
    cases inputDone with
    | false =>
      refine ⟨hindices, ?_, nofun⟩
      exact (List.append_nil _).trans hdones
    | true =>
      refine ⟨hindices, ?_, fun _ => List.getLast?_concat⟩
      show audioDones (s.sent ++ [.sessionDone s.sentenceIndex]) ++ [] = _
      rw [List.append_nil, audioDones_append, hdones]
      exact List.append_nil _

/-! ## Sentences -/

/-- The messages the session has not handled. -/
def SpeechSession.queue (s : SpeechSession) : List ClientMessage :=
  s.bufferedReceiveMessages ++ s.incoming

/-- The sentences that are due after the one that is being generated. -/
def Activity.due : Activity → List (List Char)
  | .generating _ due _ => due
  | _ => []

/-- More of the text is awaited. -/
def Activity.awaits : Activity → Bool
  | .receiving => true
  | .generating _ _ inputDone => !inputDone
  | .ended => false

section Runs

variable (granularity : SplitGranularity) {s : SpeechSession} {size : Nat}

/-- What is buffered is the start of a segment; what is still to be handled is text within the
    limits, and the end of it. -/
structure Awaited (buffer : List Char) (messages : List ClientMessage) : Prop where
  input : ∃ texts doneSize, messages = inputOf texts doneSize
  limits : WithinTextLimits granularity buffer messages
  unmarked : ∀ c ∈ buffer, granularity.boundary c = false

/-- The sentences of `text` are those that were begun, those that are due, and those of what is
    still to be handled. -/
structure Spoken (text : List Char) (s : SpeechSession) : Prop where
  kept : s.closed = false
  sentences : s.generated.map Prod.snd ++ (s.activity.due ++
    if s.activity.awaits then sentencesOf granularity (s.buffer ++ textOf s.queue) else []) =
      sentencesOf granularity text
  awaited : s.activity.awaits = true → Awaited granularity s.buffer s.queue

theorem textOf_inputOf (texts : List (Nat × List Char)) (doneSize : Nat) :
    textOf (inputOf texts doneSize) = texts.flatMap snd := by
  rw [textOf, inputOf, List.flatMap_append, List.flatMap_map]
  exact List.append_nil _

theorem Awaited.text {buffer text : List Char} {messages : List ClientMessage}
    (h : Awaited granularity buffer (⟨size, some text⟩ :: messages)) :
    size ≤ maxTextMessageBytes ∧ buffer.length + text.length ≤ maxBufferedTextChars ∧
      Awaited granularity (cutFrom granularity.boundary [] (buffer ++ text)).2 messages := by
  obtain ⟨⟨texts, doneSize, hinput⟩, ⟨hsz, hlength, hlimits⟩, _⟩ := h
  refine ⟨hsz, hlength, ?_, hlimits, rest_cutFrom _ nofun _⟩
  cases texts with
  | nil => cases hinput
  | cons _ texts =>
    cases hinput
    exact ⟨texts, doneSize, rfl⟩

theorem Awaited.done {buffer : List Char} {messages : List ClientMessage}
    (h : Awaited granularity buffer (⟨size, none⟩ :: messages)) :
    size ≤ maxTextMessageBytes ∧ messages = [] := by
  obtain ⟨⟨texts, doneSize, hinput⟩, ⟨hsz, _⟩, _⟩ := h
  cases texts with
  | nil =>
    cases hinput
    exact ⟨hsz, rfl⟩
  | cons _ texts => cases hinput

theorem handle_text {text : List Char} (ha : s.activity = .receiving)
    (h : Awaited granularity s.buffer (⟨size, some text⟩ :: s.queue)) :
    s.handle granularity ⟨size, some text⟩ =
      { s with buffer := (cutFrom granularity.boundary [] (s.buffer ++ text)).2 }.generate
        (spoken (cutFrom granularity.boundary [] (s.buffer ++ text)).1) false := by
  obtain ⟨hsz, hlength, _⟩ := h.text
  refine (if_neg (Nat.not_lt.mpr hsz)).trans ?_
  show s.handleInputText granularity text = _
  rw [handleInputText, if_neg (Nat.not_lt.mpr hlength), popCompleteSegments_eq]
  cases text with
  | nil =>
    -- nothing is appended, and the buffer is one segment already
    rw [if_pos rfl, List.append_nil, cutFrom_of_unmarked _ h.unmarked]
    cases s
    cases ha
    rfl
  | cons char text => exact if_neg (List.cons_ne_nil char text)

theorem handle_done (h : Awaited granularity s.buffer (⟨size, none⟩ :: s.queue)) :
    s.handle granularity ⟨size, none⟩ =
      { s with buffer := [] }.generate (sentencesOf granularity s.buffer) true := by
  rw [sentencesOf_of_unmarked _ h.unmarked]
  exact if_neg (Nat.not_lt.mpr h.done.1)

theorem Spoken.generate {text : List Char} {due : List (List Char)}
    {inputDone : Bool} (hk : s.closed = false)
    (hsentences : s.generated.map snd ++ (due ++
      if inputDone then [] else sentencesOf granularity (s.buffer ++ textOf s.queue)) =
        sentencesOf granularity text)
    (hawaited : inputDone = false → Awaited granularity s.buffer s.queue) :
    Spoken granularity text (s.generate due inputDone) := by
  cases due with
  | cons sentence due =>
    refine ⟨hk, ?_, fun h => hawaited ((Bool.not_eq_true' inputDone).mp h)⟩
    refine Eq.trans ?_ hsentences
    show (s.generated ++ [(s.sentenceIndex, sentence)]).map snd ++ _ = _
    rw [List.map_append, List.append_assoc]
    cases inputDone <;> rfl
  | nil =>
    cases inputDone with
    | false => exact ⟨hk, hsentences, fun _ => hawaited rfl⟩
    | true => exact ⟨hk, hsentences, nofun⟩

theorem Spoken.handle {text : List Char} {message : ClientMessage}
    (ha : s.activity = .receiving) (hk : s.closed = false)
    (hsentences : s.generated.map snd ++
      sentencesOf granularity (s.buffer ++ textOf (message :: s.queue)) =
        sentencesOf granularity text)
    (h : Awaited granularity s.buffer (message :: s.queue)) :
    Spoken granularity text (s.handle granularity message) := by
  obtain ⟨size, _ | piece⟩ := message
  · rw [handle_done granularity h]
    refine .generate granularity hk ?_ nofun
    refine Eq.trans ?_ hsentences
    have hnone : textOf (⟨size, none⟩ :: s.queue) = [] := by
      rw [h.done.2]
      rfl
    rw [hnone, if_pos rfl, List.append_nil, List.append_nil]
  · rw [handle_text granularity ha h]
    refine .generate granularity hk ?_ fun _ => h.text.2.2
    refine Eq.trans ?_ hsentences
    have happend := sentencesOf_append granularity (s.buffer ++ piece) (textOf s.queue)
    rw [List.append_assoc s.buffer] at happend
    show _ = _ ++ sentencesOf granularity (s.buffer ++ (piece ++ textOf s.queue))
    rw [happend]
    rfl

theorem Numbered.handle {message : ClientMessage} (hs : Numbered s)
    (ha : s.activity = .receiving) (h : Awaited granularity s.buffer (message :: s.queue)) :
    Numbered (s.handle granularity message) := by
  have hdones : audioDones s.sent = List.range s.sentenceIndex := by
    have h := hs.dones
    rw [ha] at h
    exact (List.append_nil _).symm.trans h
  obtain ⟨size, _ | piece⟩ := message
  · rw [handle_done granularity h]
    refine Numbered.generate ?_ ?_ _ _
    · exact hs.indices
    · exact hdones
  · rw [handle_text granularity ha h]
    refine Numbered.generate ?_ ?_ _ _
    · exact hs.indices
    · exact hdones

theorem receive_eq {s t : SpeechSession} (h : speechStep granularity s .receive = some t) :
    s.activity = .receiving ∧ ∃ message queued bytes incoming,
      s.queue = message :: (queued ++ incoming) ∧
      t = { s with
        incoming
        bufferedReceiveMessages := queued
        bufferedReceiveMessageBytes := bytes }.handle granularity message := by
  rw [speechStep] at h
  split at h
  next ha =>
    refine ⟨ha, ?_⟩
    split at h
    next message queued hq =>
      refine ⟨message, queued, _, s.incoming, ?_, (Option.some.inj h).symm⟩
      rw [SpeechSession.queue, hq]
      rfl
    next message incoming hq hi =>
      refine ⟨message, [], s.bufferedReceiveMessageBytes, incoming, ?_, ?_⟩
      · rw [SpeechSession.queue, hq, hi]
        rfl
      · rw [← hq]
        exact (Option.some.inj h).symm
    next => cases h
  next => cases h

theorem watch_eq {s t : SpeechSession} (h : speechStep granularity s .watch = some t)
    (hlimits : WithinReceiveLimits s .watch) :
    ∃ queued bytes incoming, queued ++ incoming = s.queue ∧ t = { s with
        incoming
        bufferedReceiveMessages := queued
        bufferedReceiveMessageBytes := bytes } := by
  rw [speechStep] at h
  split at h
  next message incoming _ hi =>
    have hfits : s.Fits message := hlimits message (by rw [hi]; rfl)
    rw [if_pos hfits] at h
    refine ⟨_, _, incoming, ?_, (Option.some.inj h).symm⟩
    rw [queue, hi, List.append_assoc]
    rfl
  next => cases h

theorem generated_eq {s t : SpeechSession} {failed : Bool}
    (h : speechStep granularity s (.generated failed) = some t) :
    ∃ sentenceIndex due inputDone, s.activity = .generating sentenceIndex due inputDone ∧
      t = { s with
        sent := s.sent ++ (if failed then [ServerFrame.error] else []) ++
          [ServerFrame.audioDone sentenceIndex failed] }.generate due inputDone := by
  rw [speechStep] at h
  split at h
  next sentenceIndex due inputDone ha =>
    exact ⟨sentenceIndex, due, inputDone, ha, (Option.some.inj h).symm⟩
  next => cases h

theorem Spoken.step {text : List Char} {s t : SpeechSession} {e : SpeechEvent}
    (hs : Spoken granularity text s) (h : speechStep granularity s e = some t)
    (hlimits : WithinReceiveLimits s e) : Spoken granularity text t := by
  cases e with
  | receive =>
    obtain ⟨ha, message, queued, bytes, incoming, hq, rfl⟩ := receive_eq _ h
    have hsentences := hs.sentences
    have hawaited := hs.awaited
    rw [ha, hq] at hsentences
    rw [ha, hq] at hawaited
    exact .handle granularity ha hs.kept hsentences (hawaited rfl)
  | watch =>
    obtain ⟨queued, bytes, incoming, hq, rfl⟩ := watch_eq _ h hlimits
    obtain ⟨hk, hsentences, hawaited⟩ := hs
    rw [← hq] at hsentences hawaited
    exact ⟨hk, hsentences, hawaited⟩
  | generated failed =>
    obtain ⟨sentenceIndex, due, inputDone, ha, rfl⟩ := generated_eq _ h
    obtain ⟨hk, hsentences, hawaited⟩ := hs
    rw [ha] at hsentences hawaited
    refine .generate granularity hk ?_ fun h => hawaited ((Bool.not_eq_true' inputDone).mpr h)
    refine Eq.trans ?_ hsentences
    cases inputDone <;> rfl
  | idleTimeout => exact absurd hlimits id

theorem Numbered.step {text : List Char} {s t : SpeechSession} {e : SpeechEvent}
    (hs : Numbered s) (hspoken : Spoken granularity text s)
    (h : speechStep granularity s e = some t) (hlimits : WithinReceiveLimits s e) :
    Numbered t := by
  cases e with
  | receive =>
    obtain ⟨ha, message, queued, bytes, incoming, hq, rfl⟩ := receive_eq _ h
    have hawaited := hspoken.awaited
    rw [ha, hq] at hawaited
    have hread : Numbered { s with
        incoming
        bufferedReceiveMessages := queued
        bufferedReceiveMessageBytes := bytes } := ⟨hs.indices, hs.dones, hs.total⟩
    exact hread.handle granularity ha (hawaited rfl)
  | watch =>
    obtain ⟨queued, bytes, incoming, _, rfl⟩ := watch_eq _ h hlimits
    exact ⟨hs.indices, hs.dones, hs.total⟩
  | generated failed =>
    obtain ⟨sentenceIndex, due, inputDone, ha, rfl⟩ := generated_eq _ h
    refine Numbered.generate ?_ ?_ due inputDone
    · exact hs.indices
    have hdones := hs.dones
    rw [ha] at hdones
    refine Eq.trans ?_ hdones
    -- an error frame does not count
    rw [audioDones_append, audioDones_append]
    cases failed <;> simp [audioDones, Activity.current]
  | idleTimeout => exact absurd hlimits id

theorem reachable_spoken {texts : List (Nat × List Char)} {doneSize : Nat}
    (hlimits : WithinTextLimits granularity [] (inputOf texts doneSize))
    (h : ((speechSystem granularity (inputOf texts doneSize)).restrict
      WithinReceiveLimits).Reachable s) :
    Spoken granularity (texts.flatMap snd) s ∧ Numbered s := by
  refine h.invariant
    (P := fun s => Spoken granularity (texts.flatMap snd) s ∧ Numbered s) ?_ ?_
  · rintro s rfl
    refine ⟨⟨rfl, ?_, fun _ => ⟨⟨texts, doneSize, rfl⟩, hlimits, ?_⟩⟩, rfl, rfl,
      nofun⟩
    · exact congrArg (sentencesOf granularity) (textOf_inputOf texts doneSize)
    · exact nofun
  · rintro s e t ⟨hspoken, hnumbered⟩ hst
    exact ⟨hspoken.step _ hst.1 hst.2, hnumbered.step _ hspoken hst.1 hst.2⟩

theorem Spoken.enabled {text : List Char} (hs : Spoken granularity text s)
    (hact : s.activity ≠ .ended) :
    ∃ e t, speechStep granularity s e = some t ∧ WithinReceiveLimits s e := by
  cases ha : s.activity with
  | ended => exact absurd ha hact
  | generating sentenceIndex due inputDone =>
    exact ⟨.generated false, _, by rw [speechStep, ha], trivial⟩
  | receiving =>
    have hawaited := hs.awaited
    rw [ha] at hawaited
    obtain ⟨texts, doneSize, hq⟩ := (hawaited rfl).input
    -- the end of the text is still to be handled
    have hne : s.queue ≠ [] := by
      rw [hq]
      exact List.append_ne_nil_of_right_ne_nil _ (List.cons_ne_nil _ _)
    refine ⟨.receive, ?_⟩
    rw [speechStep, if_pos ha]
    cases hqueued : s.bufferedReceiveMessages with
    | cons message queued => exact ⟨_, rfl, trivial⟩
    | nil =>
      cases hi : s.incoming with
      | cons message incoming => exact ⟨_, rfl, trivial⟩
      | nil =>
        rw [queue, hqueued, hi] at hne
        exact absurd rfl hne

/-- The sentences of a session, for every split of a text within the limits and every
    interleaving. -/
theorem speech_segments_independent (texts : List (Nat × List Char)) (doneSize : Nat)
    (hlimits : WithinTextLimits granularity [] (inputOf texts doneSize)) {s : SpeechSession}
    (h : ((speechSystem granularity (inputOf texts doneSize)).restrict
      WithinReceiveLimits).Reachable s) :
    s.closed = false ∧
      s.generated.map Prod.fst = List.range s.generated.length ∧
      s.generated.map Prod.snd <+: sentencesOf granularity (texts.flatMap Prod.snd) ∧
      audioDones s.sent <+: List.range s.generated.length ∧
      (s.activity = .ended →
        s.generated.map Prod.snd = sentencesOf granularity (texts.flatMap Prod.snd) ∧
        audioDones s.sent = List.range s.generated.length ∧
        s.sent.getLast? = some (.sessionDone s.generated.length)) ∧
      (s.activity ≠ .ended →
        ∃ e t, speechStep granularity s e = some t ∧ WithinReceiveLimits s e) := by
  obtain ⟨hspoken, hnumbered⟩ := reachable_spoken granularity hlimits h
  have hlength : s.generated.length = s.sentenceIndex := by
    have hmap := congrArg List.length hnumbered.indices
    rwa [List.length_map, List.length_range] at hmap
  rw [hlength]
  refine ⟨hspoken.kept, hnumbered.indices, ⟨_, hspoken.sentences⟩, ⟨_, hnumbered.dones⟩, ?_,
    hspoken.enabled granularity⟩
  intro hended
  have hsentences := hspoken.sentences
  have hdones := hnumbered.dones
  rw [hended] at hsentences hdones
  exact ⟨(List.append_nil _).symm.trans hsentences, (List.append_nil _).symm.trans hdones,
    hnumbered.total hended⟩

end Runs

instance (s : SpeechSession) (e : SpeechEvent) : Decidable (WithinReceiveLimits s e) :=
  match e with
  | .receive | .generated _ => inferInstanceAs (Decidable True)
  | .watch => inferInstanceAs (Decidable (∀ message ∈ s.incoming.head?, s.Fits message))
  | .idleTimeout => inferInstanceAs (Decidable False)

/-- Two sentences and a rest. -/
def sampleTexts : List (Nat × List Char) := [(40, "Hi. Yo".toList), (41, "u! ok".toList)]

/-- The second message is received while the first sentence is generated. -/
theorem speech_segments_independent_sample :
    ∃ s : SpeechSession, s.activity = .ended ∧
      s.generated.map Prod.snd = sentencesOf .sentence (sampleTexts.flatMap Prod.snd) := by
  have hrun : (System.exec
      (fun s e => if WithinReceiveLimits s e then speechStep .sentence s e else none)
      { incoming := inputOf sampleTexts 21 }
      [.receive, .watch, .generated false, .receive, .generated true, .receive,
        .generated false]).map activity = some .ended := by decide
  obtain ⟨s, hs, hended⟩ := Option.map_eq_some_iff.mp hrun
  have hreach : ((speechSystem .sentence (inputOf sampleTexts 21)).restrict
      WithinReceiveLimits).Reachable s := .of_exec_guarded (.init rfl) hs
  obtain ⟨_, _, _, _, hsentences, _⟩ :=
    speech_segments_independent .sentence sampleTexts 21 (by decide) hreach
  exact ⟨s, hended, (hsentences hended).1⟩

section LongSegment

variable {granularity : SplitGranularity} {s : SpeechSession} {size : Nat} {text : List Char}
  {incoming : List ClientMessage}

section

variable (ha : s.activity = .receiving) (hq : s.bufferedReceiveMessages = [])
  (hi : s.incoming = ⟨size, some text⟩ :: incoming) (hsz : size ≤ maxTextMessageBytes)
include ha hq hi hsz

theorem receive_unmarked (hlength : s.buffer.length + text.length ≤ maxBufferedTextChars)
    (hne : text ≠ []) (hunmarked : ∀ c ∈ s.buffer ++ text, granularity.boundary c = false) :
    speechStep granularity s .receive = some { s with incoming, buffer := s.buffer ++ text } := by
  rw [speechStep, if_pos ha, hq, hi]
  refine congrArg some ((if_neg (Nat.not_lt.mpr hsz)).trans ?_)
  refine (if_neg hne).trans ((if_neg (Nat.not_lt.mpr hlength)).trans ?_)
  rw [popCompleteSegments_eq, cutFrom_of_unmarked _ hunmarked]
  cases s
  cases ha
  cases hq
  rfl

theorem receive_overflow (hlength : maxBufferedTextChars < s.buffer.length + text.length)
    (hne : text ≠ []) :
    speechStep granularity s .receive = some { s with
      incoming
      buffer := []
      sent := s.sent ++ [.error]
      closed := true
      activity := .ended } := by
  rw [speechStep, if_pos ha, hq, hi]
  refine congrArg some ((if_neg (Nat.not_lt.mpr hsz)).trans ?_)
  refine (if_neg hne).trans ((if_pos hlength).trans ?_)
  cases s
  cases hq
  rfl

end

end LongSegment

/-- A third of a segment that is too long. -/
def longPiece : List Char := List.replicate 102400 'a'

theorem longPiece_eq {c : Char} (h : c ∈ longPiece ++ (longPiece ++ (longPiece ++ []))) :
    c = 'a' := by
  simp only [List.append_nil, List.mem_append, or_self] at h
  exact List.eq_of_mem_replicate h

/-- A segment that outgrows the buffer is not generated: the session is closed. -/
theorem long_segment_not_generated :
    ∃ texts doneSize s,
      ((speechSystem .sentence (inputOf texts doneSize)).restrict
        WithinReceiveLimits).Reachable s ∧
      (∀ message ∈ inputOf texts doneSize, message.size ≤ maxTextMessageBytes) ∧
      s.activity = .ended ∧
      s.generated.map Prod.snd ≠ sentencesOf .sentence (texts.flatMap Prod.snd) := by
  have hlength : longPiece.length = 102400 := List.length_replicate
  have hne : longPiece ≠ [] := List.cons_ne_nil _ _
  have hunmarked : ∀ c ∈ longPiece ++ (longPiece ++ (longPiece ++ [])),
      SplitGranularity.sentence.boundary c = false := fun c hc => by rw [longPiece_eq hc]; decide
  let piece : Nat × List Char := (102440, longPiece)
  have hfirst : speechStep .sentence { incoming := inputOf [piece, piece, piece] 21 } .receive =
      some { incoming := inputOf [piece, piece] 21, buffer := longPiece } :=
    receive_unmarked rfl rfl rfl (by decide)
      (by show 0 + longPiece.length ≤ _; rw [hlength]; decide) hne fun c hc =>
        hunmarked c (List.mem_append_left _ hc)
  have hsecond : speechStep .sentence
      { incoming := inputOf [piece, piece] 21, buffer := longPiece } .receive =
      some { incoming := inputOf [piece] 21, buffer := longPiece ++ longPiece } :=
    receive_unmarked rfl rfl rfl (by decide) (by rw [hlength]; decide) hne fun c hc => by
      refine hunmarked c ?_
      rw [← List.append_assoc]
      exact List.mem_append_left _ hc
  have hthird : speechStep .sentence
      { incoming := inputOf [piece] 21, buffer := longPiece ++ longPiece } .receive =
      some { incoming := inputOf [] 21, sent := [.error], closed := true, activity := .ended } :=
    receive_overflow rfl rfl rfl (by decide) (by rw [List.length_append, hlength]; decide) hne
  have hrun : System.exec (speechStep .sentence) { incoming := inputOf [piece, piece, piece] 21 }
      [.receive, .receive, .receive] =
      some { incoming := inputOf [] 21, sent := [.error], closed := true, activity := .ended } := by
    rw [System.exec, hfirst, Option.bind_some, System.exec, hsecond, Option.bind_some, System.exec,
      hthird]
    rfl
  have hreceive : ∀ e ∈ [SpeechEvent.receive, .receive, .receive],
      ∀ s, WithinReceiveLimits s e := by
    intro e he s
    obtain rfl : e = .receive := by simpa using he
    trivial
  refine ⟨[piece, piece, piece], 21, _, .of_exec_restrict (.init rfl) hreceive hrun, by decide, rfl,
    ?_⟩
  -- the whole text is one sentence
  have hstrip : strip (longPiece ++ (longPiece ++ (longPiece ++ []))) =
      longPiece ++ (longPiece ++ (longPiece ++ [])) :=
    strip_eq_self fun c hc => by rw [longPiece_eq hc]; decide
  rw [List.flatMap_cons, List.flatMap_cons, List.flatMap_cons, List.flatMap_nil,
    sentencesOf_of_unmarked _ hunmarked, hstrip,
    if_pos (List.append_ne_nil_of_left_ne_nil hne _)]
  exact (List.cons_ne_nil _ _).symm

end SpeechWs

end OmniRealtime
