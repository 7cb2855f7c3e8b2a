import OmniRealtime.Speech.MingSegmenter

/-!
# What Ming-Omni speaks

The text deltas of the thinker (`make_thinker_stream_output_builder` in `bootstrap.py`), and the
segments that the segmenter makes of them: the text between the model that writes and the model
that speaks. The tokenizer decodes lossily; a delta is held back while the text so far has a
U+FFFD in it.

1. `told_run`: the deltas are the last text without U+FFFD.
2. `spoken_heed`, `heed_fits`, `heed_fused`: what one event does to the segments and the buffer.
3. `ming_speaks_exactly_iff`: the segments are the written text, unless it has a U+FFFD or white
   space at the end of the buffer was lost when words were cut off its front.
-/

namespace OmniRealtime

open List Function Glyphs SegmenterData SegmenterState StageLogic Utf8Lossy

/-! ## The thinker -/

structure MingTokenizer where
  tokenBytes : Int → List UInt8
  isSpecial : Int → Bool

def MingTokenizer.bytes (tok : MingTokenizer) (tokenIds : List Int) : List UInt8 :=
  tokenIds.flatMap fun t => if tok.isSpecial t then [] else tok.tokenBytes t

/-- `tokenizer.decode(token_ids, skip_special_tokens=True)`. -/
def MingTokenizer.decode (tok : MingTokenizer) (tokenIds : List Int) : List Char :=
  Utf8Lossy.decode (tok.bytes tokenIds)

/-- What a model step gives the builder; no data, or none that is a token, is none. -/
structure ThinkerOutput where
  data : Option Int
  inflightMiddleChunks : Nat := 0
  deriving DecidableEq, Repr

/-- What the builder keeps on the request. -/
structure ThinkerStream where
  tokenIds : List Int := []
  emittedText : List Char := []
  deriving DecidableEq, Repr

structure DeltaMessage where
  data : List UInt8
  tokenId : Int
  step : Nat
  textLen : Nat
  isEos : Bool
  deriving DecidableEq, Repr

section Thinker

variable (tok : MingTokenizer) (eosTokenId : Option Int)

/-- `_build_stream_output`, from where the token was added. -/
def ThinkerStream.emitDelta (s : ThinkerStream) (tokenId : Int) :
    ThinkerStream × List DeltaMessage :=
  if s.tokenIds = [] then (s, [])
  else
    let decoded := tok.decode s.tokenIds
    if replacementChar ∈ decoded then (s, [])
    else
      let delta :=
        if s.emittedText.isPrefixOf decoded then decoded.drop s.emittedText.length else decoded
      if delta = [] then (s, [])
      else
        ({ s with emittedText := decoded },
          [{ data := textToUint8Tensor delta
             tokenId := tokenId
             step := s.tokenIds.length
             textLen := (textToUint8Tensor delta).length
             isEos := eosTokenId = some tokenId }])

/-- `_build_stream_output`. -/
def ThinkerStream.build (s : ThinkerStream) (out : ThinkerOutput) :
    ThinkerStream × List DeltaMessage :=
  if 0 < out.inflightMiddleChunks then (s, [])
  else
    match out.data with
    | none => (s, [])
    | some tokenId =>
      let s := if eosTokenId = some tokenId then s
        else { s with tokenIds := s.tokenIds ++ [tokenId] }
      s.emitDelta tok eosTokenId tokenId

def ThinkerStream.run : ThinkerStream → List ThinkerOutput → ThinkerStream × List DeltaMessage
  | s, [] => (s, [])
  | s, out :: outs =>
    (((s.build tok eosTokenId out).1.run outs).1,
      (s.build tok eosTokenId out).2 ++ ((s.build tok eosTokenId out).1.run outs).2)

/-- The tokens of a step that the text is made of. -/
def ThinkerOutput.tokens (out : ThinkerOutput) : List Int :=
  if 0 < out.inflightMiddleChunks then []
  else out.data.toList.filter fun t => eosTokenId ≠ some t

/-- The final text of `decode_events`. -/
def finalText (outputs : List ThinkerOutput) : List Char :=
  tok.decode (outputs.flatMap fun out => out.tokens eosTokenId)

end Thinker

/-! ## The deltas -/

/-- The emitted text is what was decoded last without a U+FFFD. -/
structure ThinkerStream.Told (tok : MingTokenizer) (s : ThinkerStream) : Prop where
  whole : ∃ first rest, s.tokenIds = first ++ rest ∧ s.emittedText = tok.decode first
  clean : replacementChar ∉ s.emittedText
  upToDate : replacementChar ∉ tok.decode s.tokenIds → s.emittedText = tok.decode s.tokenIds

theorem MingTokenizer.decode_prefix (tok : MingTokenizer) {first : List Int} (rest : List Int)
    (hclean : replacementChar ∉ tok.decode first) :
    tok.decode first <+: tok.decode (first ++ rest) := by
  have hcomplete : Complete (tok.bytes first) :=
    complete_of_not_endsLossy fun h => hclean (mem_of_getLast? h)
  unfold decode bytes
  rw [flatMap_append]
  exact decode_prefix_of_complete hcomplete _

section Deltas

variable {tok : MingTokenizer} (eosTokenId : Option Int) {s : ThinkerStream}

theorem told_emitDelta {first rest : List Int} (hids : s.tokenIds = first ++ rest)
    (ht : s.emittedText = tok.decode first) (hclean : replacementChar ∉ s.emittedText)
    (tokenId : Int) :
    ∃ deltas : List (List Char), (s.emitDelta tok eosTokenId tokenId).1.Told tok ∧
      (s.emitDelta tok eosTokenId tokenId).2.map DeltaMessage.data = deltas.map textToUint8Tensor ∧
      (s.emitDelta tok eosTokenId tokenId).1.emittedText = s.emittedText ++ deltas.flatten ∧
      (s.emitDelta tok eosTokenId tokenId).1.tokenIds = s.tokenIds := by
  obtain ⟨delta, hdelta⟩ : s.emittedText <+: tok.decode s.tokenIds := by
    rw [hids, ht]
    exact tok.decode_prefix rest (ht ▸ hclean)
  unfold ThinkerStream.emitDelta
  split
  · next hnil =>
    refine ⟨[], ⟨⟨first, rest, hids, ht⟩, hclean, fun _ => ?_⟩, rfl, by simp, rfl⟩
    obtain ⟨rfl, rfl⟩ := append_eq_nil_iff.1 (hids.symm.trans hnil)
    rw [ht, hids]
    rfl
  · dsimp only
    split
    · next hlossy =>
      exact ⟨[], ⟨⟨first, rest, hids, ht⟩, hclean, fun h => absurd hlossy h⟩, rfl, by simp, rfl⟩
    · next hgood =>
      have hprefix : s.emittedText.isPrefixOf (tok.decode s.tokenIds) = true := by
        rw [List.isPrefixOf_iff_prefix]
        exact ⟨delta, hdelta⟩
      have hdrop : (tok.decode s.tokenIds).drop s.emittedText.length = delta := by
        rw [← hdelta, drop_left]
      rw [if_pos hprefix, hdrop]
      split
      · next hemp =>
        subst hemp
        rw [append_nil] at hdelta
        exact ⟨[], ⟨⟨first, rest, hids, ht⟩, hclean, fun _ => hdelta⟩, rfl, by simp, rfl⟩
      · refine ⟨[delta], ⟨⟨s.tokenIds, [], (append_nil _).symm, rfl⟩, hgood, fun _ => rfl⟩,
          rfl, ?_, rfl⟩
        simpa using hdelta.symm

theorem told_build (h : s.Told tok) (out : ThinkerOutput) :
    ∃ deltas : List (List Char), (s.build tok eosTokenId out).1.Told tok ∧
      (s.build tok eosTokenId out).2.map DeltaMessage.data = deltas.map textToUint8Tensor ∧
      (s.build tok eosTokenId out).1.emittedText = s.emittedText ++ deltas.flatten ∧
      (s.build tok eosTokenId out).1.tokenIds = s.tokenIds ++ out.tokens eosTokenId := by
  obtain ⟨first, rest, hids, ht⟩ := h.whole
  unfold ThinkerStream.build ThinkerOutput.tokens
  split
  · exact ⟨[], h, rfl, by simp, by simp⟩
  · cases out.data with
    | none => exact ⟨[], h, rfl, by simp, by simp⟩
    | some tokenId =>
      dsimp only
      by_cases heos : eosTokenId = some tokenId
      · rw [if_pos heos]
        obtain ⟨deltas, htold, hd, he, hsame⟩ :=
          told_emitDelta eosTokenId hids ht h.clean tokenId
        refine ⟨deltas, htold, hd, he, ?_⟩
        rw [hsame]
        simp [heos]
      · rw [if_neg heos]
        have hids' : s.tokenIds ++ [tokenId] = first ++ (rest ++ [tokenId]) := by
          rw [hids, append_assoc]
        obtain ⟨deltas, htold, hd, he, hsame⟩ :=
          told_emitDelta eosTokenId (s := { s with tokenIds := s.tokenIds ++ [tokenId] }) hids'
            ht h.clean tokenId
        refine ⟨deltas, htold, hd, he, ?_⟩
        rw [hsame]
        simp [heos]

theorem told_run (h : s.Told tok) (outs : List ThinkerOutput) :
    ∃ deltas : List (List Char), (s.run tok eosTokenId outs).1.Told tok ∧
      (s.run tok eosTokenId outs).2.map DeltaMessage.data = deltas.map textToUint8Tensor ∧
      (s.run tok eosTokenId outs).1.emittedText = s.emittedText ++ deltas.flatten ∧
      (s.run tok eosTokenId outs).1.tokenIds =
        s.tokenIds ++ outs.flatMap fun out => out.tokens eosTokenId := by
  induction outs generalizing s with
  | nil => exact ⟨[], h, rfl, by simp [ThinkerStream.run], by simp [ThinkerStream.run]⟩
  | cons out outs ih =>
    obtain ⟨deltas, htold, hd, he, hids⟩ := told_build eosTokenId h out
    obtain ⟨deltas', htold', hd', he', hids'⟩ := ih htold
    refine ⟨deltas ++ deltas', htold', ?_, ?_, ?_⟩
    · simp only [ThinkerStream.run, map_append, hd, hd']
    · simp only [ThinkerStream.run, he', he, flatten_append, append_assoc]
    · simp only [ThinkerStream.run, hids', hids, flatMap_cons, append_assoc]

theorem told_initial (tok : MingTokenizer) : ({} : ThinkerStream).Told tok where
  whole := ⟨[], [], rfl, rfl⟩
  clean := not_mem_nil
  upToDate _ := rfl

end Deltas

/-! ## The segments of a request -/

def StreamTensor.text : StreamTensor → List Char
  | .uint8 values => Utf8Lossy.decodeIgnoring values
  | .other => []

def StageEvent.tensor : StageEvent (StreamTensor × Int) → Option StreamTensor
  | .item chunk => some chunk.1
  | .tick _ => none

def StageEvent.text : StageEvent (StreamTensor × Int) → List Char
  | .item chunk => chunk.1.text
  | .tick _ => []

section Segments

variable (config : SegmenterConfig) (count : List Char → Int)

/-- The segmenter, with a count that raises nothing. -/
def plainSegmenter : StageLogic SegmenterData (StreamTensor × Int) Unit SegmentMessage
    (SegmenterResult Unit) (MingError Empty) :=
  segmenterStage config fun text => .ok (count text)

/-- A request's data and segments after its chunks and timer ticks. -/
def segmentsAfter (events : List (StageEvent (StreamTensor × Int))) :
    SegmenterData × List SegmentMessage :=
  events.foldl (plainSegmenter config count).heed ({}, [])

/-- All segments of a request. -/
def spokenSegments (events : List (StageEvent (StreamTensor × Int))) : List SegmentMessage :=
  (segmentsAfter config count events).2 ++
    ((plainSegmenter config count).finish (segmentsAfter config count events).1 () false).1

/-- The text that came with the chunks. -/
def heardText (events : List (StageEvent (StreamTensor × Int))) : List Char :=
  events.flatMap StageEvent.text

/-- The text of a segment, as the talker reads it. -/
def SegmentMessage.text (m : SegmentMessage) : List Char := Utf8Lossy.decodeIgnoring m.data

def pieces (segments : List SegmentMessage) : List (Option Bool × Char) :=
  segments.flatMap fun m => Glyphs.piece pyIsSpace m.text

/-- Segments that speak a text as it is written. -/
structure SpeaksExactly (segments : List SegmentMessage) (text : List Char) : Prop where
  fits : List.Forall₂ Glyphs.Fits (pieces segments) (Glyphs.glyphs pyIsSpace true text)
  ids : segments.map SegmentMessage.segmentId = List.range segments.length
  final : ∃ front last, segments = front ++ [last] ∧ last.isFinalSegment = true ∧
    ∀ m ∈ front, m.isFinalSegment = false

/-- A delta begins with a word behind white space that is not in the buffer any more. -/
def LosesSpace (events : List (StageEvent (StreamTensor × Int))) : Prop :=
  ∃ before event after, events = before ++ event :: after ∧
    Glyphs.Fuses pyIsSpace (heardText before) (segmentsAfter config count before).1.segmenter.buffer
      event.text

end Segments

/-! ## One event -/

@[simp] theorem text_emitSegment (segment : TextSegment) : (emitSegment segment).text =
    segment.text :=
  decodeIgnoring_encode segment.text

theorem pieces_append (ms ns : List SegmentMessage) : pieces (ms ++ ns) = pieces ms ++ pieces ns :=
  flatMap_append

section Event

variable {config : SegmenterConfig} {count : List Char → Int}

section

variable (config : SegmenterConfig) (count : List Char → Int)
  (s : SegmenterData × List SegmentMessage) (event : StageEvent (StreamTensor × Int))

/-- What comes with a chunk or a tick: nothing happens, or the text is pushed. -/
theorem heed_cases :
    (plainSegmenter config count).heed s event = s ∧ event.text = [] ∨
      ∃ nowMs s' segments firstTextMs,
        s.1.segmenter.push config (fun text => (.ok (count text) : Except Empty Int)) event.text nowMs =
          .ok (s', segments) ∧
        (plainSegmenter config count).heed s event =
          ({ s.1 with firstTextMs := firstTextMs }.emitted s' segments,
            s.2 ++ segments.map emitSegment) := by
  have hp : ∀ text nowMs, ∃ s' segments,
      s.1.segmenter.push config (fun text => (.ok (count text) : Except Empty Int)) text nowMs =
        .ok (s', segments) := fun text nowMs => push_ok config nowMs (.inr ⟨_, rfl⟩)
  cases event with
  | item chunk =>
    obtain ⟨tensor, nowMs⟩ := chunk
    cases tensor with
    | other => exact .inl ⟨Prod.ext rfl (append_nil _), rfl⟩
    | uint8 values =>
      by_cases ht : decodeIgnoring values = []
      · refine .inl ⟨?_, ht⟩
        simp [heed, plainSegmenter, segmenterStage, uint8TensorToText,
          onText, ht]
      · obtain ⟨s', segments, hp⟩ := hp (decodeIgnoring values) nowMs
        refine .inr ⟨nowMs, s', segments, s.1.firstTextMs <|> some nowMs, hp, ?_⟩
        simp [heed, plainSegmenter, segmenterStage, uint8TensorToText,
          onText, ht, hp]
  | tick nowMs =>
    obtain ⟨s', segments, hp⟩ := hp [] nowMs
    have htimer : s.1.onTimer config (fun text => (.ok (count text) : Except Empty Int)) nowMs =
          .ok (s.1, []) ∨
        s.1.onTimer config (fun text => (.ok (count text) : Except Empty Int)) nowMs =
          .ok (s.1.emitted s' segments, segments) := by
      obtain ⟨tokens, htokens⟩ : ∃ tokens, s.1.segmenter.bufferTokenCount
          (fun text => (.ok (count text) : Except Empty Int)) = .ok tokens := by
        unfold bufferTokenCount
        split
        · exact ⟨_, rfl⟩
        · exact ⟨_, rfl⟩
      unfold onTimer
      rw [hp, htokens]
      cases s.1.firstTextMs with
      | none => exact .inl rfl
      | some firstMs =>
        dsimp only
        split
        · exact .inl rfl
        · split
          · exact .inl rfl
          · exact .inr rfl
    rcases htimer with hqt | hsent
    · refine .inl ⟨?_, rfl⟩
      simp [heed, plainSegmenter, segmenterStage, hqt]
    · refine .inr ⟨nowMs, s', segments, s.1.firstTextMs, hp, ?_⟩
      simp [heed, plainSegmenter, segmenterStage, hsent]

/-- Every event is a push. -/
theorem heed_spec :
    ∃ segments, s.1.segmenter.Pushed (s.1.segmenter.buffer ++ event.text)
        ((plainSegmenter config count).heed s event).1.segmenter segments ∧
      ((plainSegmenter config count).heed s event).1.segmentCount =
        s.1.segmentCount + segments.length ∧
      ((plainSegmenter config count).heed s event).2 = s.2 ++ segments.map emitSegment := by
  rcases heed_cases config count s event with
    ⟨hsame, ht⟩ | ⟨nowMs, s', segments, firstTextMs, hp, hheed⟩
  · rw [hsame, ht, append_nil]
    exact ⟨[], .kept _ rfl rfl, rfl, (append_nil _).symm⟩
  · rw [hheed]
    exact ⟨segments, (push_spec hp).1, rfl, rfl⟩

end

structure Spoken (text : List Char) (s : SegmenterData × List SegmentMessage) : Prop where
  counted : s.1.segmentCount = s.2.length
  nextId : s.1.segmenter.segmentId = s.2.length
  ids : s.2.map SegmentMessage.segmentId = List.range s.2.length
  notFinal : ∀ m ∈ s.2, m.isFinalSegment = false
  chars : (pieces s.2 ++ Glyphs.piece pyIsSpace s.1.segmenter.buffer).map Prod.snd =
    (Glyphs.glyphs pyIsSpace true text).map Prod.snd
  tail : Glyphs.glyphs pyIsSpace true s.1.segmenter.buffer ≠ [] →
    Glyphs.sepAfter pyIsSpace true s.1.segmenter.buffer = true →
    Glyphs.sepAfter pyIsSpace true text = true

theorem Spoken.tail_append {text : List Char} {s : SegmenterData × List SegmentMessage}
    (h : Spoken text s) (next : List Char)
    (hne : glyphs pyIsSpace true (s.1.segmenter.buffer ++ next) ≠ [])
    (hsep : sepAfter pyIsSpace true (s.1.segmenter.buffer ++ next) = true) :
    sepAfter pyIsSpace true (text ++ next) = true := by
  rw [sepAfter_append] at hsep ⊢
  cases next with
  | nil =>
    rw [append_nil] at hne
    exact h.tail hne hsep
  | cons c next => exact hsep

/-- A cut keeps the characters, and may only lose the white space at its place. -/
theorem cut_spec {buffer text rest : List Char} (h : Cut buffer text rest) :
    List.Forall₂ Loosens (Glyphs.piece pyIsSpace buffer)
        (Glyphs.piece pyIsSpace text ++ Glyphs.piece pyIsSpace rest) ∧
      (glyphs pyIsSpace true rest ≠ [] → sepAfter pyIsSpace true rest = false) := by
  cases h with
  | whole =>
    have hnil : piece pyIsSpace [] = [] := rfl
    rw [hnil, append_nil]
    exact ⟨loosens_refl _, fun h => absurd rfl h⟩
  | words n =>
    refine ⟨cut_loosens (by decide) buffer n, fun hne => ?_⟩
    have hwords : ∀ w ∈ (Glyphs.words pyIsSpace buffer).drop n,
        w ≠ [] ∧ ∀ c ∈ w, pyIsSpace c = false := fun w hw => mem_words (mem_of_mem_drop hw)
    refine (glyphs_join (by decide) hwords).2 fun hnil => hne ?_
    rw [hnil]
    rfl

/-- The segments and the buffer after an event, as a loosening of what was there before with the
    text at its end. -/
theorem heed_loosens (config : SegmenterConfig) (count : List Char → Int)
    (s : SegmenterData × List SegmentMessage) (event : StageEvent (StreamTensor × Int)) :
    List.Forall₂ Loosens
      (pieces s.2 ++ Glyphs.piece pyIsSpace (s.1.segmenter.buffer ++ event.text))
      (pieces ((plainSegmenter config count).heed s event).2 ++
        Glyphs.piece pyIsSpace ((plainSegmenter config count).heed s event).1.segmenter.buffer) := by
  obtain ⟨segments, hpushed, -, hsent⟩ := heed_spec config count s event
  rw [hsent]
  cases hpushed with
  | kept hbuffer =>
    rw [hbuffer, map_nil, append_nil]
    exact loosens_refl _
  | sent segment cut =>
    have hpiece : pieces (s.2 ++ [segment].map emitSegment) =
        pieces s.2 ++ piece pyIsSpace segment.text := by
      rw [pieces_append]
      simp [pieces]
    rw [hpiece, append_assoc]
    exact rel_append (loosens_refl _) (cut_spec cut).1

theorem spoken_heed {text : List Char} {s : SegmenterData × List SegmentMessage}
    (h : Spoken text s) (event : StageEvent (StreamTensor × Int)) :
    Spoken (text ++ event.text) ((plainSegmenter config count).heed s event) := by
  have hloosens := heed_loosens config count s event
  obtain ⟨segments, hpushed, hcnt, hsent⟩ := heed_spec config count s event
  have hchars := (map_of_loosens hloosens).trans (push_chars h.chars event.text)
  generalize (plainSegmenter config count).heed s event = s' at hpushed hcnt hsent hchars ⊢
  obtain ⟨d', sent'⟩ := s'
  dsimp only at hpushed hcnt hsent hchars
  subst hsent
  cases hpushed with
  | kept hbuffer hid =>
    rw [map_nil, append_nil] at hchars ⊢
    refine ⟨hcnt.trans h.counted, hid.trans h.nextId, h.ids, h.notFinal, hchars, ?_⟩
    intro hne hsep
    rw [hbuffer] at hne hsep
    exact h.tail_append event.text hne hsep
  | sent segment cut hid hfinal hnext =>
    refine ⟨?_, ?_, ?_, ?_, hchars, ?_⟩
    · simp [hcnt, h.counted]
    · simp [hnext, h.nextId]
    · simp [h.ids, range_succ, emitSegment, hid, h.nextId]
    · intro m hm
      rcases mem_append.1 hm with hm | hm
      · exact h.notFinal m hm
      · obtain rfl : m = emitSegment segment := by simpa using hm
        exact hfinal
    · intro hne hsep
      rw [(cut_spec cut).2 hne] at hsep
      cases hsep

end Event

/-! ## All events -/

section Events

variable (config : SegmenterConfig) (count : List Char → Int)

section

variable (events : List (StageEvent (StreamTensor × Int)))

theorem segmentsAfter_snoc (event : StageEvent (StreamTensor × Int)) :
    segmentsAfter config count (events ++ [event]) =
      (plainSegmenter config count).heed (segmentsAfter config count events) event := by
  rw [segmentsAfter, foldl_append]
  rfl

theorem heardText_snoc (event : StageEvent (StreamTensor × Int)) :
    heardText (events ++ [event]) = heardText events ++ event.text := by
  simp [heardText]

theorem spoken_after : Spoken (heardText events) (segmentsAfter config count events) := by
  induction events using List.reverseRecOn with
  | nil => exact ⟨rfl, rfl, rfl, nofun, rfl, fun h => absurd rfl h⟩
  | append_singleton events event ih =>
    rw [segmentsAfter_snoc, heardText_snoc]
    exact spoken_heed ih event

theorem losesSpace_snoc (event : StageEvent (StreamTensor × Int)) :
    LosesSpace config count (events ++ [event]) ↔ LosesSpace config count events ∨
      Fuses pyIsSpace (heardText events) (segmentsAfter config count events).1.segmenter.buffer
        event.text := by
  constructor
  · rintro ⟨before, lost, after, heq, hfuses⟩
    rcases eq_nil_or_concat after with rfl | ⟨after, last, rfl⟩
    · obtain ⟨rfl, hlost⟩ := append_inj' heq rfl
      obtain rfl : event = lost := by simpa using hlost
      exact .inr hfuses
    · rw [concat_eq_append, ← cons_append, ← append_assoc] at heq
      obtain ⟨rfl, -⟩ := append_inj' heq rfl
      exact .inl ⟨before, lost, after, rfl, hfuses⟩
  · rintro (⟨before, lost, after, rfl, hfuses⟩ | hfuses)
    · exact ⟨before, lost, after ++ [event], by simp, hfuses⟩
    · exact ⟨events, event, [], rfl, hfuses⟩

theorem fits_or_fused :
    (¬LosesSpace config count events → List.Forall₂ Fits
      (pieces (segmentsAfter config count events).2 ++
        piece pyIsSpace (segmentsAfter config count events).1.segmenter.buffer)
      (glyphs pyIsSpace true (heardText events))) ∧
    (LosesSpace config count events → Fused
      (pieces (segmentsAfter config count events).2 ++
        piece pyIsSpace (segmentsAfter config count events).1.segmenter.buffer)
      (glyphs pyIsSpace true (heardText events))) := by
  induction events using List.reverseRecOn with
  | nil =>
    refine ⟨fun _ => .nil, ?_⟩
    rintro ⟨before, lost, after, heq, -⟩
    simp at heq
  | append_singleton events event ih =>
    have hs := spoken_after config count events
    have hloosens := heed_loosens config count (segmentsAfter config count events) event
    rw [losesSpace_snoc, segmentsAfter_snoc, heardText_snoc]
    constructor
    · intro hkept
      push Not at hkept
      exact fits_of_loosens hloosens (push_fits (ih.1 hkept.1) hs.tail hkept.2)
    · rintro (hlost | hfuses)
      · exact fused_of_loosens hloosens (push_fused_of_fused (ih.2 hlost) event.text)
      · exact fused_of_loosens hloosens (push_fused hs.chars hfuses)

/-- What is in the buffer at the end is the last segment. -/
theorem spokenSegments_eq :
    spokenSegments config count events = (segmentsAfter config count events).2 ++ [emitSegment
        { segmentId := (segmentsAfter config count events).2.length
          text := (segmentsAfter config count events).1.segmenter.buffer
          isFinalSegment := true }] := by
  have hs := spoken_after config count events
  have hfinish : ((plainSegmenter config count).finish (segmentsAfter config count events).1 ()
      false).1 = (segmentsAfter config count events).1.finalSegments.map emitSegment := rfl
  rw [spokenSegments, hfinish]
  unfold finalSegments SegmenterState.flush
  split_ifs with hemp
  · simp [hemp, hs.counted]
  · simp [emit, SegmenterState.emitText, hs.nextId]

theorem pieces_spokenSegments :
    pieces (spokenSegments config count events) = pieces (segmentsAfter config count events).2 ++
      piece pyIsSpace (segmentsAfter config count events).1.segmenter.buffer := by
  rw [spokenSegments_eq, pieces_append]
  simp [pieces]

/-- Ids without gaps, and the last segment alone is final. -/
theorem spokenSegments_order :
    (spokenSegments config count events).map SegmentMessage.segmentId =
        List.range (spokenSegments config count events).length ∧
      ∃ front last, spokenSegments config count events = front ++ [last] ∧
        last.isFinalSegment = true ∧ ∀ m ∈ front, m.isFinalSegment = false := by
  have hs := spoken_after config count events
  rw [spokenSegments_eq]
  refine ⟨?_, _, _, rfl, rfl, hs.notFinal⟩
  simp [hs.ids, range_succ, emitSegment]

end

end Events

/-! ## The text that is spoken -/

theorem mem_glyphs_map {c : Char} {text : List Char} (sep : Bool)
    (h : c ∈ (Glyphs.glyphs pyIsSpace sep text).map Prod.snd) : c ∈ text := by
  induction text generalizing sep with
  | nil => exact h
  | cons d text ih =>
    unfold glyphs at h
    split at h
    · exact mem_cons_of_mem d (ih true h)
    · rcases mem_cons.1 h with rfl | h
      · exact mem_cons_self
      · exact mem_cons_of_mem d (ih false h)

theorem mem_map_glyphs {c : Char} {text : List Char} (sep : Bool) (hspace : pyIsSpace c = false)
    (h : c ∈ text) : c ∈ (Glyphs.glyphs pyIsSpace sep text).map Prod.snd := by
  induction text generalizing sep with
  | nil => exact absurd h not_mem_nil
  | cons d text ih =>
    unfold glyphs
    rcases mem_cons.1 h with rfl | h
    · rw [if_neg (by simp [hspace])]
      exact mem_cons_self
    · split
      · exact ih true h
      · exact mem_cons_of_mem _ (ih false h)

theorem map_snd_of_fits {spoken : List (Option Bool × Char)} {written : List (Bool × Char)}
    (h : List.Forall₂ Fits spoken written) : spoken.map Prod.snd = written.map Prod.snd := by
  induction h with
  | nil => rfl
  | cons hfit _ ih => rw [map_cons, map_cons, hfit.char, ih]

section Speech

variable (tok : MingTokenizer) (eosTokenId : Option Int)

/-- The messages of a request's model steps. -/
def thinkerStream (outputs : List ThinkerOutput) : List DeltaMessage :=
  (({} : ThinkerStream).run tok eosTokenId outputs).2

theorem heardText_eq (events : List (StageEvent (StreamTensor × Int))) :
    heardText events = (events.filterMap StageEvent.tensor).flatMap StreamTensor.text := by
  induction events with
  | nil => rfl
  | cons event events ih =>
    cases event with
    | item chunk =>
      rw [heardText, flatMap_cons, ← heardText, ih]
      rfl
    | tick nowMs => exact ih

/-- What the segmenter hears of the thinker. -/
theorem heardText_of_lane {outputs : List ThinkerOutput}
    {events : List (StageEvent (StreamTensor × Int))}
    (hlane : events.filterMap StageEvent.tensor =
      (thinkerStream tok eosTokenId outputs).map fun m => .uint8 m.data) :
    replacementChar ∉ heardText events ∧ (replacementChar ∉ finalText tok eosTokenId outputs →
        heardText events = finalText tok eosTokenId outputs) := by
  obtain ⟨deltas, htold, hd, he, hids⟩ := told_run eosTokenId (told_initial tok) outputs
  have hheard : heardText events = deltas.flatten := by
    have hstr : (thinkerStream tok eosTokenId outputs).map (fun m => StreamTensor.uint8 m.data) =
        deltas.map fun delta => .uint8 (textToUint8Tensor delta) := by
      have h := congrArg (List.map StreamTensor.uint8) hd
      simpa [thinkerStream, map_map, comp_def] using h
    rw [heardText_eq, hlane, hstr, flatMap_map]
    have ht : (fun delta => (StreamTensor.uint8 (textToUint8Tensor delta)).text) = id :=
      funext fun delta => decodeIgnoring_encode delta
    rw [ht]
    exact flatMap_id
  have hsame : (({} : ThinkerStream).run tok eosTokenId outputs).1.emittedText = heardText events :=
    he.trans hheard.symm
  refine ⟨hsame ▸ htold.clean, fun hclean => ?_⟩
  rw [← hsame]
  have hfinal : tok.decode (({} : ThinkerStream).run tok eosTokenId outputs).1.tokenIds =
      finalText tok eosTokenId outputs := by
    rw [hids]
    rfl
  rw [← hfinal] at hclean ⊢
  exact htold.upToDate hclean

/-- The segments speak the final text exactly, if and only if it has no U+FFFD and no delta
    begins with a word behind white space that was lost from the buffer. -/
theorem ming_speaks_exactly_iff (config : SegmenterConfig) (count : List Char → Int)
    (outputs : List ThinkerOutput) (events : List (StageEvent (StreamTensor × Int)))
    (hlane : events.filterMap StageEvent.tensor =
      (thinkerStream tok eosTokenId outputs).map fun m => .uint8 m.data) :
    SpeaksExactly (spokenSegments config count events) (finalText tok eosTokenId outputs) ↔
      replacementChar ∉ finalText tok eosTokenId outputs ∧ ¬LosesSpace config count events := by
  obtain ⟨hclean, hheard⟩ := heardText_of_lane tok eosTokenId hlane
  have hpieces := pieces_spokenSegments config count events
  obtain ⟨hids, hfinal⟩ := spokenSegments_order config count events
  constructor
  · rintro ⟨hfits, -, -⟩
    rw [hpieces] at hfits
    have hgood : replacementChar ∉ finalText tok eosTokenId outputs := by
      intro hlossy
      have hmem := mem_map_glyphs true (by decide) hlossy
      rw [← map_snd_of_fits hfits, (spoken_after config count events).chars] at hmem
      exact hclean (mem_glyphs_map true hmem)
    rw [← hheard hgood] at hfits
    exact ⟨hgood, fun hloses =>
      not_fused_of_fits hfits ((fits_or_fused config count events).2 hloses)⟩
  · rintro ⟨hgood, hkept⟩
    refine ⟨?_, hids, hfinal⟩
    rw [hpieces, ← hheard hgood]
    exact (fits_or_fused config count events).1 hkept

end Speech

/-- A tokenizer with three tokens. -/
def abTokenizer : MingTokenizer where
  tokenBytes t := if t = 0 then [0x61, 0x20, 0x62, 0x20] else if t = 1 then [0x63] else [0xFF]
  isSpecial _ := false

def defaultTokenCount (text : List Char) : Int :=
  if Glyphs.words pyIsSpace text = [] then text.length else (Glyphs.words pyIsSpace text).length

/-- `"a b "` and `"c"`, with the timer between them, are spoken as they are written. -/
theorem ming_speaks_abc :
    SpeaksExactly (spokenSegments {} defaultTokenCount
        [.item (.uint8 [0x61, 0x20, 0x62, 0x20], 0), .tick 10, .item (.uint8 [0x63], 20)])
      (finalText abTokenizer (some 2) [⟨some 0, 0⟩, ⟨none, 1⟩, ⟨some 1, 0⟩, ⟨some 2, 0⟩]) := by
  have hkept : ¬LosesSpace {} defaultTokenCount ([] ++ [.item (.uint8 [0x61, 0x20, 0x62, 0x20], 0)] ++
      [.tick 10] ++ [.item (.uint8 [0x63], 20)]) := by
    rw [losesSpace_snoc, losesSpace_snoc, losesSpace_snoc]
    rintro (((⟨before, lost, after, heq, -⟩ | hfuses) | hfuses) | hfuses)
    · simp at heq
    · exact hfuses.1 rfl
    · obtain ⟨c, rest, hnext, -⟩ := hfuses.2.2.2
      cases hnext
    · exact absurd hfuses.2.1 (by decide)
  exact (ming_speaks_exactly_iff abTokenizer (some 2) {} defaultTokenCount
    [⟨some 0, 0⟩, ⟨none, 1⟩, ⟨some 1, 0⟩, ⟨some 2, 0⟩] _ (by decide)).2 ⟨by decide, hkept⟩

def oneTokenConfig : SegmenterConfig where
  segmentMinTokens := 1
  segmentMaxTokens := 1
  firstSegmentMinTokens := 1

/-- An ill-formed byte silences the rest of the text, and a word behind cut-off words is fused to
    the last of them: `"a b "` and `"c"` become `"a"` and `"bc"`. -/
theorem ming_not_speaks_exactly :
    ¬SpeaksExactly (spokenSegments {} defaultTokenCount [])
        (finalText abTokenizer none [⟨some 2, 0⟩, ⟨some 1, 0⟩]) ∧
      thinkerStream abTokenizer none [⟨some 2, 0⟩, ⟨some 1, 0⟩] = [] ∧
    ¬SpeaksExactly (spokenSegments oneTokenConfig defaultTokenCount
        [.item (.uint8 [0x61, 0x20, 0x62, 0x20], 0), .item (.uint8 [0x63], 1)])
        (finalText abTokenizer none [⟨some 0, 0⟩, ⟨some 1, 0⟩]) ∧
      (thinkerStream abTokenizer none [⟨some 0, 0⟩, ⟨some 1, 0⟩]).map DeltaMessage.data =
        [[0x61, 0x20, 0x62, 0x20], [0x63]] := by
  refine ⟨fun h => ?_, by decide, fun h => ?_, by decide⟩
  · exact absurd (map_snd_of_fits h.fits) (by decide)
  · exact not_fused_of_fits h.fits ⟨2, 'c', 'c', by decide, by decide⟩

end OmniRealtime
