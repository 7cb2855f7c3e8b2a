import OmniRealtime.Lib.PyFloat
import OmniRealtime.Lib.System
import OmniRealtime.Lib.Utf8Lossy

/-!
# Text streamed from sampled tokens

`request_builders.py` (the stream output builder and the result adapter) and the text
handling of `video_realtime.stream_response`: sampled tokens become text deltas, the final
result carries the text of all of them, and the edge strips from the result what it has
sent already. The accounting and usage frames of the builder carry no text and are left
out. Tokens decode to bytes, special tokens to none, and bytes to text with replacement.

Results:
1. `inv_build`, `inv_flush`: the text given out covers the bytes up to a cut that later
   bytes do not continue.
2. `edge_sends_final`: an edge that was sent a prefix of the final text sends the final text.
3. `text_streamed_once`: both for every run whose cuts fall on character boundaries.
4. `interrupted_character_lost`: an interruption inside a character breaks the prefix.
-/

namespace OmniRealtime

open List Utf8Lossy

/-! ## The stream output builder -/

/-- What the builder is made from; a special token has no bytes. -/
structure TextStreamConfig where
  tokenBytes : Nat → List UInt8
  eosTokenId : Nat
  silenceTokenIds : List Nat
  stream : Bool
  silence_ne : silenceTokenIds ≠ []

/-- An event the model has processed, as the runner hands it to the builder. -/
structure ProcessedEvent where
  seqNo : Nat
  timestamp : PyFloat
  prompt : Option String
  frameRef : Option String
  final : Bool
  interruptedTurnId : Nat
  turnId : Nat
  deriving DecidableEq

inductive StreamMessage
  | ready (turnId : Nat)
  | interrupted (turnId nextTurnId seqNo : Nat)
  | processed (isFrame : Bool) (seqNo : Nat) (timestamp : PyFloat) (final : Bool)
      (turns : Option (Nat × Nat))
  | text (delta : List Char) (tokenId : Option Nat) (turnId : Nat)
  | silence (turnId : Nat) (seqNo : Option Nat) (timestamp : Option PyFloat) (silenceSeq : Nat)
      (tokenId : Nat)
  deriving DecidableEq

/-- The fields of `MossVLRealtimeRequestData` the builder reads and writes. -/
structure TextStreamData where
  generatedTokenIds : List Nat := []
  turnGeneratedTokenIds : List Nat := []
  emittedText : List Char := []
  turnEmittedText : List Char := []
  readyEmitted : Bool := false
  currentInputSeqNo : Option Nat := none
  currentInputTimestamp : Option PyFloat := none
  silenceOutputSeq : Nat := 0
  deriving DecidableEq

section Builder

variable (cfg : TextStreamConfig)

def tokensBytes (tokenIds : List Nat) : List UInt8 := tokenIds.flatMap cfg.tokenBytes

/-- `_decode`: the bytes of the tokens, decoded with replacement. -/
def decodeTokens (tokenIds : List Nat) : List Char := Utf8Lossy.decode (tokensBytes cfg tokenIds)

/-- The length of the common prefix `_text_delta` counts. -/
def commonLength : List Char → List Char → Nat
  | a :: as, b :: bs => if a = b then commonLength as bs + 1 else 0
  | _, _ => 0

def textDelta (previous current : List Char) : List Char :=
  if previous.isPrefixOf current then current.drop previous.length
  else current.drop (commonLength previous current)

def endsWithTokenIds (values suffix : List Nat) : Bool := suffix.isSuffixOf values

def emitText (d : TextStreamData) (turnId : Nat) (tokenId : Option Nat) (final : Bool) :
    TextStreamData × List StreamMessage :=
  let d := { d with emittedText := decodeTokens cfg d.generatedTokenIds }
  let turnText := decodeTokens cfg d.turnGeneratedTokenIds
  -- a text that ends in U+FFFD may end inside a character
  if !final ∧ Utf8Lossy.EndsLossy turnText then
    (d, [])
  else
    let delta := textDelta d.turnEmittedText turnText
    ({ d with turnEmittedText := turnText },
      if delta.isEmpty ∨ !cfg.stream then [] else [.text delta tokenId turnId])

/-- One processed event; a prompt interrupts the turn. -/
def processEvent (d : TextStreamData) (e : ProcessedEvent) :
    TextStreamData × List StreamMessage :=
  let d := { d with
    currentInputSeqNo := some e.seqNo
    currentInputTimestamp := some e.timestamp }
  let report := StreamMessage.processed e.frameRef.isSome e.seqNo e.timestamp e.final
    (if e.prompt.isSome then some (e.interruptedTurnId, e.turnId) else none)
  if e.prompt.isSome then
    ({ d with turnGeneratedTokenIds := [], turnEmittedText := [] },
      [.interrupted e.interruptedTurnId e.turnId e.seqNo, report])
  else
    (d, [report])

def processEvents (d : TextStreamData) : List ProcessedEvent →
    TextStreamData × List StreamMessage
  | [] => (d, [])
  | e :: es =>
    let (d, first) := processEvent d e
    let (d, rest) := processEvents d es
    (d, first ++ rest)

/-- The sampled token joins the turn, unless it ends it. -/
def appendToken (d : TextStreamData) (tokenId : Nat) : TextStreamData :=
  if tokenId ≠ cfg.eosTokenId then
    { d with
      generatedTokenIds := d.generatedTokenIds ++ [tokenId]
      turnGeneratedTokenIds := d.turnGeneratedTokenIds ++ [tokenId] }
  else d

/-- The part of `build` after the events: a sampled token. -/
def buildToken (d : TextStreamData) (turnId tokenId : Nat) :
    TextStreamData × List StreamMessage :=
  let ready := if d.readyEmitted then [] else [StreamMessage.ready turnId]
  let d := appendToken cfg { d with readyEmitted := true } tokenId
  let isSilence := endsWithTokenIds d.turnGeneratedTokenIds cfg.silenceTokenIds
  let (d, text) := emitText cfg d turnId (some tokenId) (tokenId == cfg.eosTokenId || isSilence)
  if isSilence then
    ({ d with silenceOutputSeq := d.silenceOutputSeq + 1 }, ready ++ text ++
      [.silence turnId d.currentInputSeqNo d.currentInputTimestamp d.silenceOutputSeq tokenId])
  else
    (d, ready ++ text)

/-- `build`: the events the model processed, then the token it sampled, if any. -/
def build (d : TextStreamData) (turnId : Nat) (events : List ProcessedEvent)
    (token : Option Nat) : TextStreamData × List StreamMessage :=
  let (d, first) := processEvents d events
  match token with
  | none => (d, first)
  | some tokenId =>
    let (d, rest) := buildToken cfg d turnId tokenId
    (d, first ++ rest)

/-- `flush`, at the terminal event. -/
def flush (d : TextStreamData) (turnId : Nat) : TextStreamData × List StreamMessage :=
  emitText cfg d turnId none true

def resultText (d : TextStreamData) : List Char := decodeTokens cfg d.generatedTokenIds

end Builder

def StreamMessage.delta : StreamMessage → List Char
  | .text delta _ _ => delta
  | _ => []

/-- The text deltas of the messages, joined. -/
def streamedText (ms : List StreamMessage) : List Char := ms.flatMap StreamMessage.delta

/-! ## The text handling of the edge -/

/-- `streamed_text`, and the text sent on the WebSocket. -/
structure EdgeText where
  streamed : List Char := []
  sent : List Char := []

/-- One text chunk of `stream_response`. -/
def EdgeText.chunk (s : EdgeText) (text : List Char) (finished : Bool) : EdgeText :=
  if text ≠ [] ∧ !finished then
    { streamed := s.streamed ++ text, sent := s.sent ++ text }
  else if text ≠ [] ∧ s.streamed ≠ [] ∧ s.streamed.isPrefixOf text then
    { s with sent := s.sent ++ text.drop s.streamed.length }
  else
    { s with sent := s.sent ++ text }

/-- The edge after the chunks of the messages and the terminal chunk. -/
def edgeSent (ms : List StreamMessage) (final : List Char) : List Char :=
  let s := ms.foldl (fun s m => s.chunk m.delta false) ({} : EdgeText)
  (s.chunk final true).sent

/-! ## Runs -/

structure TextStreamState where
  data : TextStreamData := {}
  messages : List StreamMessage := []
  ended : Bool := false
  deriving DecidableEq

/-- The builder is called after every step of the model, and flushed once at the end. -/
inductive TextStreamLabel
  | build (turnId : Nat) (events : List ProcessedEvent) (token : Option Nat)
  | flush (turnId : Nat)

def textStep (cfg : TextStreamConfig) (s : TextStreamState) :
    TextStreamLabel → Option TextStreamState
  | .build turnId events token =>
    if s.ended then none
    else
      let r := build cfg s.data turnId events token
      some { s with data := r.1, messages := s.messages ++ r.2 }
  | .flush turnId =>
    if s.ended then none
    else
      let r := flush cfg s.data turnId
      some { data := r.1, messages := s.messages ++ r.2, ended := true }

abbrev textSystem (cfg : TextStreamConfig) : System TextStreamState TextStreamLabel :=
  .ofFun (fun s => s = {}) (textStep cfg)

/-- Some text of the turn was not given out yet. -/
def HoldsBack (cfg : TextStreamConfig) (d : TextStreamData) : Prop :=
  d.turnEmittedText ≠ decodeTokens cfg d.turnGeneratedTokenIds

/-- Nothing is held back when a prompt interrupts the turn, and a token that follows text
    given out to its last byte does not continue a character of that text. -/
def OnBoundary (cfg : TextStreamConfig) (s : TextStreamState) : TextStreamLabel → Prop
  | .build _ events token =>
    cfg.stream = true →
      ((∃ e ∈ events, e.prompt.isSome = true) → ¬ HoldsBack cfg s.data) ∧
      ∀ t, token = some t → t ≠ cfg.eosTokenId →
        ¬ HoldsBack cfg (processEvents s.data events).1 →
        ¬ Utf8Lossy.Continues (tokensBytes cfg s.data.generatedTokenIds) (cfg.tokenBytes t)
  | .flush _ => True

/-! ## Deltas -/

theorem textDelta_of_prefix {previous rest : List Char} :
    textDelta previous (previous ++ rest) = rest := by
  have hpre : previous.isPrefixOf (previous ++ rest) = true :=
    isPrefixOf_iff_prefix.mpr (prefix_append _ _)
  rw [textDelta, if_pos hpre, drop_left]

@[simp] theorem streamedText_append (ms ns : List StreamMessage) :
    streamedText (ms ++ ns) = streamedText ms ++ streamedText ns := flatMap_append

/-- The text deltas of `emitText` are the delta it computes, or nothing. -/
theorem emitText_cases (cfg : TextStreamConfig) (hs : cfg.stream = true)
    (d : TextStreamData) (turnId : Nat) (tokenId : Option Nat) (final : Bool) :
    let r := emitText cfg d turnId tokenId final
    r.1.generatedTokenIds = d.generatedTokenIds ∧
    r.1.turnGeneratedTokenIds = d.turnGeneratedTokenIds ∧
    ((r.1.turnEmittedText = d.turnEmittedText ∧ streamedText r.2 = []) ∨
      (r.1.turnEmittedText = decodeTokens cfg d.turnGeneratedTokenIds ∧ streamedText r.2 =
          textDelta d.turnEmittedText (decodeTokens cfg d.turnGeneratedTokenIds))) := by
  dsimp only [emitText]
  split
  next => exact ⟨rfl, rfl, .inl ⟨rfl, rfl⟩⟩
  next =>
    refine ⟨rfl, rfl, .inr ⟨rfl, ?_⟩⟩
    split
    next hemp =>
      have hnil : textDelta d.turnEmittedText (decodeTokens cfg d.turnGeneratedTokenIds) = [] := by
        simpa [hs] using hemp
      rw [hnil]
      rfl
    next => exact append_nil _

/-- The text of the messages is given out, up to a cut of the turn's bytes that the bytes
    after it do not continue. -/
structure TextInv (cfg : TextStreamConfig) (d : TextStreamData) (streamed : List Char) : Prop where
  cut : ∃ earlier given heldBack : List UInt8,
    tokensBytes cfg d.generatedTokenIds = earlier ++ tokensBytes cfg d.turnGeneratedTokenIds ∧
    tokensBytes cfg d.turnGeneratedTokenIds = given ++ heldBack ∧
    ¬ Utf8Lossy.Continues earlier (tokensBytes cfg d.turnGeneratedTokenIds) ∧
    ¬ Utf8Lossy.Continues given heldBack ∧
    d.turnEmittedText = Utf8Lossy.decode given ∧
    streamed = Utf8Lossy.decode earlier ++ d.turnEmittedText

variable {cfg : TextStreamConfig} {d : TextStreamData} {streamed : List Char}

/-- What was given out is a prefix of the text of all tokens. -/
theorem TextInv.isPrefix (h : TextInv cfg d streamed) : streamed <+: resultText cfg d := by
  obtain ⟨earlier, given, heldBack, hgen, hturn, hearlier, hg, he, hstreamed⟩ := h.cut
  unfold resultText decodeTokens
  rw [hstreamed, he, hgen, decode_append_of_not_continues hearlier, hturn,
    decode_append_of_not_continues hg, ← append_assoc]
  exact prefix_append _ _

theorem textInv_initial (cfg : TextStreamConfig) : TextInv cfg {} [] :=
  ⟨[], [], [], rfl, rfl, not_continues_nil _, not_continues_nil _, rfl, rfl⟩

/-- Giving text out moves the cut to the end of the turn. -/
theorem TextInv.emit (h : TextInv cfg d streamed) (hs : cfg.stream = true) (turnId : Nat)
    (tokenId : Option Nat) (final : Bool) :
    let r := emitText cfg d turnId tokenId final
    TextInv cfg r.1 (streamed ++ streamedText r.2) := by
  obtain ⟨earlier, given, heldBack, hgen, hturn, hearlier, hg, he, hstreamed⟩ := h.cut
  obtain ⟨hgen', hturn', hcase⟩ := emitText_cases cfg hs d turnId tokenId final
  refine ⟨?_⟩
  rw [hgen', hturn']
  rcases hcase with ⟨hsame, hn⟩ | ⟨hall, hdelta⟩
  · refine ⟨earlier, given, heldBack, hgen, hturn, hearlier, hg, hsame ▸ he, ?_⟩
    rw [hn, append_nil, hsame, hstreamed]
  · refine ⟨earlier, tokensBytes cfg d.turnGeneratedTokenIds, [], hgen, (append_nil _).symm,
      hearlier, not_continues_nil _, hall, ?_⟩
    have hdecode : decodeTokens cfg d.turnGeneratedTokenIds =
        d.turnEmittedText ++ decode heldBack := by
      rw [decodeTokens, hturn, decode_append_of_not_continues hg, he]
    rw [hdelta, hall, hdecode, textDelta_of_prefix, hstreamed, append_assoc]

theorem tokensBytes_append (cfg : TextStreamConfig) (ts us : List Nat) :
    tokensBytes cfg (ts ++ us) = tokensBytes cfg ts ++ tokensBytes cfg us := flatMap_append

section

variable (h : TextInv cfg d streamed)
include h

/-- A token that does not continue a character given out joins the turn behind the cut. -/
theorem TextInv.token {t : Nat}
    (hcut : t ≠ cfg.eosTokenId → ¬ HoldsBack cfg d →
      ¬ Utf8Lossy.Continues (tokensBytes cfg d.generatedTokenIds) (cfg.tokenBytes t)) :
    TextInv cfg (appendToken cfg d t) streamed := by
  by_cases heos : t = cfg.eosTokenId
  · have hsame : appendToken cfg d t = d := if_neg (not_not.mpr heos)
    rw [hsame]
    exact h
  have happend : appendToken cfg d t = { d with
      generatedTokenIds := d.generatedTokenIds ++ [t]
      turnGeneratedTokenIds := d.turnGeneratedTokenIds ++ [t] } := if_pos heos
  have hbytes : tokensBytes cfg [t] = cfg.tokenBytes t := flatMap_singleton _ _
  obtain ⟨earlier, given, heldBack, hgen, hturn, hearlier, hg, he, hstreamed⟩ := h.cut
  -- with nothing behind the cut, all of the turn is given out
  have hf : heldBack = [] →
      ¬ Continues (earlier ++ tokensBytes cfg d.turnGeneratedTokenIds)
        (cfg.tokenBytes t) := by
    intro hnil
    rw [← hgen]
    refine hcut heos (not_not.mpr ?_)
    rw [he, decodeTokens, hturn, hnil, append_nil]
  rw [happend]
  refine ⟨earlier, given, heldBack ++ cfg.tokenBytes t, ?_, ?_, ?_, ?_, he, hstreamed⟩
  · rw [tokensBytes_append, tokensBytes_append, hgen, append_assoc]
  · rw [tokensBytes_append, hbytes, hturn, append_assoc]
  · rw [tokensBytes_append, hbytes]
    by_cases hne : tokensBytes cfg d.turnGeneratedTokenIds = []
    · have hnil : heldBack = [] := (append_eq_nil_iff.mp (hturn.symm.trans hne)).2
      have hf' := hf hnil
      rw [hne, append_nil] at hf'
      rw [hne, nil_append]
      exact hf'
    · rw [Continues.append hne]
      exact hearlier
  · by_cases hnil : heldBack = []
    · have hf' := hf hnil
      rw [hnil, nil_append]
      rw [hnil, append_nil] at hturn
      rw [← hturn]
      by_cases hne : tokensBytes cfg d.turnGeneratedTokenIds = []
      · rw [hne]
        exact not_continues_of_complete complete_nil _
      · rwa [continues_append_left hne hearlier] at hf'
    · rw [Continues.append hnil]
      exact hg

/-- An interruption with nothing held back moves the cut to the end of all bytes. -/
theorem TextInv.interrupt (hall : ¬ HoldsBack cfg d) :
    TextInv cfg { d with turnGeneratedTokenIds := [], turnEmittedText := [] } streamed := by
  obtain ⟨earlier, given, heldBack, hgen, hturn, hearlier, hg, he, hstreamed⟩ := h.cut
  refine ⟨tokensBytes cfg d.generatedTokenIds, [], [], (append_nil _).symm, rfl,
    not_continues_nil _, not_continues_nil _, rfl, ?_⟩
  rw [hstreamed, not_not.mp hall, append_nil, hgen,
    decode_append_of_not_continues hearlier]
  rfl

theorem TextInv.congr {d' : TextStreamData} (hgen : d'.generatedTokenIds = d.generatedTokenIds)
    (hturn : d'.turnGeneratedTokenIds = d.turnGeneratedTokenIds)
    (he : d'.turnEmittedText = d.turnEmittedText) : TextInv cfg d' streamed := by
  refine ⟨?_⟩
  rw [hgen, hturn, he]
  exact h.cut

end

/-! ## One call of the builder -/

theorem processEvents_keeps (d : TextStreamData) (es : List ProcessedEvent) :
    (processEvents d es).1.generatedTokenIds = d.generatedTokenIds ∧
    streamedText (processEvents d es).2 = [] := by
  induction es generalizing d with
  | nil => exact ⟨rfl, rfl⟩
  | cons e es ih =>
    have hstep : (processEvent d e).1.generatedTokenIds = d.generatedTokenIds ∧
        streamedText (processEvent d e).2 = [] := by
      dsimp only [processEvent]
      split <;> exact ⟨rfl, rfl⟩
    obtain ⟨hgen, hn⟩ := ih (processEvent d e).1
    constructor
    · show (processEvents (processEvent d e).1 es).1.generatedTokenIds = d.generatedTokenIds
      rw [hgen, hstep.1]
    · show streamedText ((processEvent d e).2 ++ (processEvents (processEvent d e).1 es).2) = []
      rw [streamedText_append, hstep.2, hn]
      rfl

theorem TextInv.events (h : TextInv cfg d streamed) {es : List ProcessedEvent}
    (hall : (∃ e ∈ es, e.prompt.isSome = true) → ¬ HoldsBack cfg d) :
    TextInv cfg (processEvents d es).1 streamed := by
  induction es generalizing d with
  | nil => exact h
  | cons e es ih =>
    show TextInv cfg (processEvents (processEvent d e).1 es).1 streamed
    cases hprompt : e.prompt.isSome with
    | true =>
      have hnow : ¬ HoldsBack cfg d := hall ⟨e, mem_cons_self, hprompt⟩
      have hstep : TextInv cfg (processEvent d e).1 streamed := by
        refine (h.interrupt hnow).congr ?_ ?_ ?_ <;> simp [processEvent, hprompt]
      -- the new turn is empty, so later prompts of the batch find nothing held back
      refine ih hstep fun _ => not_not.mpr ?_
      simp [processEvent, hprompt, decodeTokens, tokensBytes]
    | false =>
      have hstep : TextInv cfg (processEvent d e).1 streamed := by
        refine h.congr ?_ ?_ ?_ <;> simp [processEvent, hprompt]
      refine ih hstep ?_
      rintro ⟨e', he', hsome⟩
      have hnow := hall ⟨e', mem_cons_of_mem _ he', hsome⟩
      unfold HoldsBack at hnow ⊢
      simpa [processEvent, hprompt] using hnow

theorem buildToken_streamed (cfg : TextStreamConfig) (d : TextStreamData) (turnId t : Nat) :
    let d' := appendToken cfg { d with readyEmitted := true } t
    let final := t == cfg.eosTokenId || endsWithTokenIds d'.turnGeneratedTokenIds cfg.silenceTokenIds
    let r := emitText cfg d' turnId (some t) final
    let b := buildToken cfg d turnId t
    b.1.generatedTokenIds = r.1.generatedTokenIds ∧
    b.1.turnGeneratedTokenIds = r.1.turnGeneratedTokenIds ∧
    b.1.turnEmittedText = r.1.turnEmittedText ∧ streamedText b.2 = streamedText r.2 := by
  intro d' final r b
  have hrdy : streamedText (if d.readyEmitted then [] else [StreamMessage.ready turnId]) = [] := by
    split <;> rfl
  have hb : b = buildToken cfg d turnId t := rfl
  dsimp only [buildToken] at hb
  split at hb
  next =>
    rw [hb]
    refine ⟨rfl, rfl, rfl, ?_⟩
    rw [streamedText_append, streamedText_append, hrdy]
    exact append_nil _
  next =>
    rw [hb]
    refine ⟨rfl, rfl, rfl, ?_⟩
    rw [streamedText_append, hrdy]
    rfl

theorem TextInv.buildToken (h : TextInv cfg d streamed) (hs : cfg.stream = true)
    (turnId : Nat) {t : Nat}
    (hcut : t ≠ cfg.eosTokenId → ¬ HoldsBack cfg d →
      ¬ Continues (tokensBytes cfg d.generatedTokenIds) (cfg.tokenBytes t)) :
    TextInv cfg (buildToken cfg d turnId t).1
      (streamed ++ streamedText (buildToken cfg d turnId t).2) := by
  obtain ⟨hgen, hturn, he, htext⟩ := buildToken_streamed cfg d turnId t
  have hrdy : TextInv cfg { d with readyEmitted := true } streamed := h.congr rfl rfl rfl
  have htoken := hrdy.token hcut
  rw [htext]
  exact (htoken.emit hs turnId (some t) _).congr hgen hturn he

theorem inv_build (h : TextInv cfg d streamed) (hs : cfg.stream = true) {turnId : Nat}
    {es : List ProcessedEvent} {token : Option Nat}
    (hall : (∃ e ∈ es, e.prompt.isSome = true) → ¬ HoldsBack cfg d)
    (hcut : ∀ t, token = some t → t ≠ cfg.eosTokenId → ¬ HoldsBack cfg (processEvents d es).1 →
      ¬ Continues (tokensBytes cfg d.generatedTokenIds) (cfg.tokenBytes t)) :
    TextInv cfg (build cfg d turnId es token).1
      (streamed ++ streamedText (build cfg d turnId es token).2) := by
  obtain ⟨hgen, hn⟩ := processEvents_keeps d es
  have hevents := h.events hall
  cases token with
  | none =>
    show TextInv cfg (processEvents d es).1 (streamed ++ streamedText (processEvents d es).2)
    rw [hn, append_nil]
    exact hevents
  | some t =>
    show TextInv cfg (buildToken cfg (processEvents d es).1 turnId t).1 (streamed ++
      streamedText ((processEvents d es).2 ++ (buildToken cfg (processEvents d es).1 turnId t).2))
    rw [streamedText_append, hn, nil_append]
    refine hevents.buildToken hs turnId fun heos hback => ?_
    rw [hgen]
    exact hcut t rfl heos hback

/-- Without streaming no text is given out before the result. -/
theorem emitText_streamless (hs : cfg.stream = false) (d : TextStreamData) (turnId : Nat)
    (tokenId : Option Nat) (final : Bool) :
    streamedText (emitText cfg d turnId tokenId final).2 = [] := by
  dsimp only [emitText]
  split
  · rfl
  · rw [if_pos (.inr (by rw [hs]; rfl))]
    rfl

theorem build_streamless (hs : cfg.stream = false) (d : TextStreamData) (turnId : Nat)
    (es : List ProcessedEvent) (token : Option Nat) :
    streamedText (build cfg d turnId es token).2 = [] := by
  obtain ⟨-, hn⟩ := processEvents_keeps d es
  cases token with
  | none => exact hn
  | some t =>
    show streamedText ((processEvents d es).2 ++
      (buildToken cfg (processEvents d es).1 turnId t).2) = []
    rw [streamedText_append, hn, (buildToken_streamed cfg _ turnId t).2.2.2,
      emitText_streamless hs]
    rfl

/-! ## Runs -/

/-- What holds of every state: the invariant, or silence where nothing is streamed. -/
def TextOk (cfg : TextStreamConfig) (s : TextStreamState) : Prop :=
  if cfg.stream then TextInv cfg s.data (streamedText s.messages) else streamedText s.messages = []

theorem textOk_step {s t : TextStreamState} {l : TextStreamLabel} (hok : TextOk cfg s)
    (hst : textStep cfg s l = some t) (hcond : OnBoundary cfg s l) : TextOk cfg t := by
  unfold TextOk at hok ⊢
  unfold textStep at hst
  split at hst
  next turnId es token =>
    split at hst <;> cases hst
    rw [streamedText_append]
    cases hs : cfg.stream with
    | true =>
      rw [hs] at hok
      obtain ⟨hall, hcut⟩ := hcond hs
      exact inv_build hok hs hall hcut
    | false =>
      rw [hs] at hok
      show streamedText s.messages ++ streamedText (build cfg s.data turnId es token).2 = []
      rw [build_streamless hs, append_nil]
      exact hok
  next turnId =>
    split at hst <;> cases hst
    rw [streamedText_append]
    cases hs : cfg.stream with
    | true =>
      rw [hs] at hok
      exact TextInv.emit hok hs turnId none true
    | false =>
      rw [hs] at hok
      show streamedText s.messages ++ streamedText (flush cfg s.data turnId).2 = []
      rw [flush, emitText_streamless hs, append_nil]
      exact hok

theorem streamed_prefix {s : TextStreamState}
    (h : ((textSystem cfg).restrict (OnBoundary cfg)).Reachable s) :
    streamedText s.messages <+: resultText cfg s.data := by
  have hok : TextOk cfg s := by
    refine h.invariant (P := TextOk cfg) ?_ ?_
    · rintro s rfl
      unfold TextOk
      split
      · exact textInv_initial cfg
      · rfl
    · rintro s l t hok ⟨hst, hcond⟩
      exact textOk_step hok hst hcond
  unfold TextOk at hok
  split at hok
  · exact hok.isPrefix
  · rw [hok]
    exact nil_prefix

/-! ## The edge -/

theorem foldl_chunk (ms : List StreamMessage) (s : EdgeText) :
    ms.foldl (fun s m => s.chunk m.delta false) s =
      ⟨s.streamed ++ streamedText ms, s.sent ++ streamedText ms⟩ := by
  induction ms generalizing s with
  | nil =>
    show s = ⟨s.streamed ++ [], s.sent ++ []⟩
    rw [append_nil, append_nil]
  | cons m ms ih =>
    have hchk : s.chunk m.delta false = ⟨s.streamed ++ m.delta, s.sent ++ m.delta⟩ := by
      unfold EdgeText.chunk
      by_cases hnil : m.delta = []
      · simp [hnil]
      · rw [if_pos ⟨hnil, rfl⟩]
    have htext : streamedText (m :: ms) = m.delta ++ streamedText ms := flatMap_cons
    rw [foldl_cons, ih, hchk, htext, append_assoc, append_assoc]

/-- An edge that was sent a prefix of the final text sends the final text, once. -/
theorem edge_sends_final {ms : List StreamMessage} {final : List Char}
    (h : streamedText ms <+: final) : edgeSent ms final = final := by
  obtain ⟨rest, hrest⟩ := h
  have hfold := foldl_chunk ms {}
  dsimp only [edgeSent]
  rw [hfold]
  dsimp only [EdgeText.chunk]
  rw [if_neg (fun hnot => by cases hnot.2)]
  rw [nil_append]
  split
  next =>
    rw [← hrest, drop_left]
  next hemp =>
    -- nothing was streamed, or the final text is empty
    by_cases hnil : streamedText ms = []
    · rw [hnil, nil_append]
    · have hfnl : final = [] := by
        by_contra hne
        refine hemp ⟨hne, hnil, ?_⟩
        exact isPrefixOf_iff_prefix.mpr ⟨rest, hrest⟩
      rw [hfnl] at hrest ⊢
      rw [append_nil]
      exact (append_eq_nil_iff.mp hrest).1

/-- **Text is streamed once**: where every cut falls on a character boundary the deltas are a
    prefix of the final text, and the edge sends the final text. -/
theorem text_streamed_once (cfg : TextStreamConfig) {s : TextStreamState}
    (h : ((textSystem cfg).restrict (OnBoundary cfg)).Reachable s) :
    streamedText s.messages <+: resultText cfg s.data ∧
      edgeSent s.messages (resultText cfg s.data) = resultText cfg s.data := by
  have hpre := streamed_prefix h
  exact ⟨hpre, edge_sends_final hpre⟩

/-- Token 1 is the first byte of a character, token 3 the silence marker and token 4 the
    letter `a`. -/
def exTextConfig : TextStreamConfig where
  tokenBytes t := if t = 1 then [0xE4] else if t = 4 then [0x61] else []
  eosTokenId := 2
  silenceTokenIds := [3]
  stream := true
  silence_ne := by decide

def exPrompt : ProcessedEvent := ⟨0, .zero, some "p", none, false, 0, 1⟩

theorem text_streamed_once_silence : ∃ s,
    ((textSystem exTextConfig).restrict (OnBoundary exTextConfig)).Reachable s ∧
      streamedText s.messages = ['a'] ∧
      edgeSent s.messages (resultText exTextConfig s.data) = ['a'] := by
  have hinit : ((textSystem exTextConfig).restrict (OnBoundary exTextConfig)).Reachable {} :=
    .init rfl
  have hletter : OnBoundary exTextConfig {} (.build 0 [] (some 4)) := by
    refine fun _ => ⟨by simp, fun t ht _ _ => ?_⟩
    exact not_continues_of_complete complete_nil _
  have hst : textStep exTextConfig {} (.build 0 [] (some 4)) = some _ := rfl
  have hreach := hinit.step ⟨hst, hletter⟩
  exact ⟨_, hreach, rfl, (text_streamed_once exTextConfig hreach).2⟩

/-- A prompt interrupts the turn inside a character: the deltas are `a`, and the final text
    begins with U+FFFD. -/
theorem interrupted_character_lost : ¬ ∀ (cfg : TextStreamConfig) (s : TextStreamState),
    (textSystem cfg).Reachable s → streamedText s.messages <+: resultText cfg s.data := by
  intro h
  have hinit : (textSystem exTextConfig).Reachable {} := .init rfl
  have hrun : System.exec (textStep exTextConfig) {}
      [.build 0 [] (some 1), .build 1 [exPrompt] (some 4)] = some _ := rfl
  have hpre := h exTextConfig _ (hinit.of_exec hrun)
  exact absurd hpre (by decide)

end OmniRealtime
