import OmniRealtime.Lib.WindowCuts
import OmniRealtime.Speech.MossAgreement

/-!
# What the MOSS-TTS streaming vocoder emits

`models/moss_tts/streaming_vocoder.py`: `decode_delta` and `_decode_segment_delta`, over the rows,
frames and segments of `MossStreamState`. The codec is a parameter.

1. `decodeSegmentDelta`, `decodeDelta`, `streamEvents`: a segment, a call, the calls of a stream.
2. `Emission`: the deltas of a segment, up to its tail.
3. `Emission.call`, `decodeSegments_emission`: what a call adds to it.
4. `MossStreamState.Grows`: rows that arrive change no closed segment.
5. `moss_streaming_computes_split`: segments, frames and tails of a whole stream.
-/

namespace OmniRealtime

open List Option Function

namespace Moss

open WindowCuts

/-! ## The vocoder -/

/-- What the constructor accepts. -/
structure VocoderConfig where
  streamStride : ℕ
  streamFollowupStride : ℕ
  streamOverlapTokens : ℕ
  streamHoldbackTokens : ℕ
  defaultInitialChunkFrames : ℕ
  streamStride_pos : 0 < streamStride
  streamFollowupStride_pos : 0 < streamFollowupStride
  streamOverlapTokens_pos : 0 < streamOverlapTokens

/-- The audio tokenizer, with the samples per frame that its configuration gives, if any. -/
structure MossCodec (n : ℕ) (S : Type) extends Decoder (Codes n) S where
  samplesPerFrame : Option ℕ
  samplesPerFrame_eq : ∀ k ∈ samplesPerFrame, k = hop

inductive VocoderError
  /-- "MOSS-TTS streaming segment cursor moved backwards" -/
  | cursorMovedBackwards
  /-- `torch.stack` of no frames. -/
  | emptyWindow
deriving DecidableEq, Repr

/-- The fields of `_MossSegmentState` that `decode_delta` keeps. -/
structure SegmentCursor where
  emittedFrames : ℕ := 0
  tailEmitted : Bool := false

/-- What a segment's window gives: the samples behind the overlap, and whether they are its tail. -/
structure SegmentDelta (S : Type) where
  segment : ℕ
  samples : List S
  tail : Bool

/-- The cursors of all segments, and `samples_per_frame`. -/
structure Cursors where
  cursor : ℕ → SegmentCursor := fun _ => {}
  samplesPerFrame : Option ℕ

/-- `_MossStreamState`. -/
structure VocoderState (n : ℕ) where
  base : MossStreamState n := {}
  cursors : Cursors
  nextDecodeRows : ℕ := 0
  initialCodecChunkFrames : ℕ := 0

section Vocoder

variable (config : VocoderConfig) {n : ℕ} {S : Type} (codec : MossCodec n S)

/-- `_decode_segment_delta` of the `i`-th segment. -/
def decodeSegmentDelta (segment : MossSegmentState n) (i : ℕ) (state : Cursors) (flushTail : Bool) :
    Except VocoderError (Cursors × Option (SegmentDelta S)) :=
  let totalFrames := segment.frames.length
  let emittedFrames := (state.cursor i).emittedFrames
  if totalFrames < emittedFrames then .error .cursorMovedBackwards
  else if totalFrames = emittedFrames ∧ (flushTail = false ∨ (state.cursor i).tailEmitted) then
    .ok (state, none)
  else
    let windowStart := emittedFrames - config.streamOverlapTokens
    let window := segment.frames.drop windowStart
    if window = [] then .error .emptyWindow
    else
      let audio := codec.decode window
      let samplesPerFrame := state.samplesPerFrame.getD
        (max (audio.length / max (totalFrames - windowStart) 1) 1)
      let trimSamples := min ((emittedFrames - windowStart) * samplesPerFrame) audio.length
      let delta :=
        if flushTail then audio.drop trimSamples
        else (audio.drop trimSamples).take ((totalFrames - emittedFrames) * samplesPerFrame)
      let cursor := ⟨totalFrames, flushTail || (state.cursor i).tailEmitted⟩
      .ok (⟨Function.update state.cursor i cursor, some samplesPerFrame⟩,
        some ⟨i, delta, flushTail⟩)

def decodeSegments (isFinal : Bool) :
    List (MossSegmentState n) → ℕ → Cursors → Except VocoderError (Cursors × List (SegmentDelta S))
  | [], _, state => .ok (state, [])
  | segment :: rest, i, state => do
    let (next, delta) ←
      decodeSegmentDelta config codec segment i state (segment.closed || isFinal)
    let (last, later) ← decodeSegments isFinal rest (i + 1) next
    return (last, delta.toList ++ later)

def firstDecodeRows (state : VocoderState n) : ℕ :=
  if 0 < state.initialCodecChunkFrames then
    n - 1 + state.initialCodecChunkFrames + config.streamHoldbackTokens
  else max n config.streamStride

/-- The frames that wait are taken into segments, but for those that are held back. -/
def takeFrames (audioPadCode : ℕ) (base : MossStreamState n) (isFinal : Bool) : MossStreamState n :=
  if isFinal then base.finish audioPadCode
  else base.process audioPadCode (base.pendingRawFrames.length - config.streamHoldbackTokens)

/-- `next_decode_rows` behind a call that decoded. -/
def rowsAfter (base : MossStreamState n) (emitted isFinal : Bool) (nextDecodeRows : ℕ) : ℕ :=
  if emitted then base.delayedCount + config.streamFollowupStride
  else if isFinal then nextDecodeRows
  else if base.pendingRawFrames.length ≤ config.streamHoldbackTokens then
    max (base.delayedCount + 1) (n + config.streamHoldbackTokens)
  else base.delayedCount + config.streamFollowupStride

/-- `decode_delta`. Of the deltas those with samples are sent, as one waveform. -/
def decodeDelta (audioPadCode : ℕ) (state : VocoderState n) (isFinal : Bool) :
    Except VocoderError (VocoderState n × List (SegmentDelta S)) :=
  let nextDecodeRows :=
    if state.nextDecodeRows ≠ 0 then state.nextDecodeRows else firstDecodeRows config state
  if isFinal = false ∧ state.base.delayedCount < nextDecodeRows then
    .ok ({ state with nextDecodeRows := nextDecodeRows }, [])
  else do
    let base := takeFrames config audioPadCode state.base isFinal
    let (cursors, deltas) ← decodeSegments config codec isFinal base.segments 0 state.cursors
    let emitted := deltas.any fun delta => !delta.samples.isEmpty
    return ({ state with
      base := base
      cursors := cursors
      nextDecodeRows := rowsAfter config base emitted isFinal state.nextDecodeRows }, deltas)

/-- What reaches a stream before it is done. -/
inductive VocoderEvent (n : ℕ)
  /-- The payload or a chunk's metadata sets the frames of the initial chunk. -/
  | latch (value : Option ℕ)
  | chunk (rows : List (Codes n))

def VocoderEvent.rows : VocoderEvent n → List (Codes n)
  | .latch _ => []
  | .chunk rows => rows

def vocoderEvent (audioPadCode : ℕ) (state : VocoderState n) :
    VocoderEvent n → Except VocoderError (VocoderState n × List (SegmentDelta S))
  | .latch value =>
    let frames := min (value.getD config.defaultInitialChunkFrames) config.streamFollowupStride
    .ok ({ state with initialCodecChunkFrames := frames }, [])
  | .chunk rows =>
    decodeDelta config codec audioPadCode { state with base := state.base.ingest rows } false

/-- The events of a stream, with the deltas of its segments. -/
def vocoderEvents (audioPadCode : ℕ) (state : VocoderState n) :
    List (VocoderEvent n) → Except VocoderError (VocoderState n × List (SegmentDelta S))
  | [] => .ok (state, [])
  | event :: events => do
    let (next, sent) ← vocoderEvent config codec audioPadCode state event
    let (last, later) ← vocoderEvents audioPadCode next events
    return (last, sent ++ later)

end Vocoder

/-! ## The deltas of a segment -/

section Emission

variable {config : VocoderConfig} {n : ℕ} {S : Type} {codec : MossCodec n S}
  {frames : List (Codes n)} {segment : MossSegmentState n} {out log : List (SegmentDelta S)}
  {state : Cursors} {i j : ℕ} {tail isFinal : Bool}

/-- The deltas of a segment: cuts of consecutive new frames, up to its `j`-th frame, the last one
its tail if the tail is out. -/
inductive Emission (codec : MossCodec n S) (frames : List (Codes n)) (i : ℕ) :
    List (SegmentDelta S) → ℕ → Bool → Prop
  | nil : Emission codec frames i [] 0 false
  | snoc {out : List (SegmentDelta S)} {w j k : ℕ} :
      Emission codec frames i out j false → w ≤ j → j < k → k ≤ frames.length →
      Emission codec frames i (out ++ [⟨i, codec.cut frames w j k, false⟩]) k false
  | tail {out : List (SegmentDelta S)} {w j : ℕ} :
      Emission codec frames i out j false → w ≤ j → j ≤ frames.length →
      Emission codec frames i (out ++ [⟨i, codec.cut frames w j frames.length, true⟩])
        frames.length true

namespace Emission

theorem le (h : Emission codec frames i out j tail) : j ≤ frames.length := by
  cases h with
  | nil => exact Nat.zero_le _
  | snoc _ _ _ hk => exact hk
  | tail => exact le_rfl

theorem eq_length (h : Emission codec frames i out j true) : j = frames.length := by
  cases h with
  | tail => rfl

theorem append (h : Emission codec frames i out j false) (more : List (Codes n)) :
    Emission codec (frames ++ more) i out j false := by
  generalize ho : false = tail at h
  induction h with
  | nil => exact .nil
  | snoc _ hw hj hk ih =>
    rw [← cut_append hk]
    exact (ih rfl).snoc hw hj (le_trans hk (by simp))
  | tail => cases ho

end Emission

def deltasOf (i : ℕ) (log : List (SegmentDelta S)) : List (SegmentDelta S) :=
  log.filter fun delta => delta.segment == i

theorem deltasOf_append (i : ℕ) (log more : List (SegmentDelta S)) :
    deltasOf i (log ++ more) = deltasOf i log ++ deltasOf i more := filter_append _ _

/-- The samples per frame that the vocoder uses, once it has them. -/
def Cursors.Paced (state : Cursors) (codec : MossCodec n S) : Prop :=
  ∀ k ∈ state.samplesPerFrame, k = codec.hop

/-- What one call does with a segment: nothing when all is emitted, and else the cut of its new
frames, with everything behind it when the tail is flushed. -/
theorem Emission.call (config : VocoderConfig) (hp : state.Paced codec) (flushTail : Bool)
    (hne : segment.frames ≠ [])
    (h : Emission codec segment.frames i out (state.cursor i).emittedFrames
      (state.cursor i).tailEmitted) :
    ∃ next delta, decodeSegmentDelta config codec segment i state flushTail = .ok (next, delta) ∧
      next.Paced codec ∧ (∀ k, k ≠ i → next.cursor k = state.cursor k) ∧
      (∀ d ∈ delta, d.segment = i) ∧
      Emission codec segment.frames i (out ++ delta.toList) (next.cursor i).emittedFrames
        (next.cursor i).tailEmitted ∧
      (next.cursor i).tailEmitted = (flushTail || (state.cursor i).tailEmitted) := by
  have hle := h.le
  dsimp only [decodeSegmentDelta]
  rw [if_neg (not_lt.mpr hle)]
  by_cases hdone : segment.frames.length = (state.cursor i).emittedFrames ∧
      (flushTail = false ∨ (state.cursor i).tailEmitted = true)
  · rw [if_pos hdone]
    refine ⟨state, none, rfl, hp, fun _ _ => rfl, nofun, ?_, ?_⟩
    · rw [toList_none, append_nil]
      exact h
    · rcases hdone.2 with ho | htail
      · rw [ho, Bool.false_or]
      · rw [htail, Bool.or_true]
  · rw [if_neg hdone]
    generalize hj : (state.cursor i).emittedFrames = j at *
    have ho : (state.cursor i).tailEmitted = false := by
      refine Bool.eq_false_iff.mpr fun htail => hdone ?_
      rw [htail] at h
      exact ⟨h.eq_length.symm, .inr htail⟩
    have hwin : j - config.streamOverlapTokens < segment.frames.length := by
      have hpos := config.streamOverlapTokens_pos
      have hfms := length_pos_iff.mpr hne
      omega
    have hw : j - config.streamOverlapTokens ≤ j := Nat.sub_le _ _
    generalize j - config.streamOverlapTokens = w at hwin hw ⊢
    rw [if_neg (by rwa [drop_eq_nil_iff, not_le])]
    have haudio : (codec.decode (segment.frames.drop w)).length =
        (segment.frames.length - w) * codec.hop := by
      rw [codec.length_decode, length_drop]
    -- the samples of one frame, from the configuration or from the window
    have hhop : state.samplesPerFrame.getD (max ((segment.frames.length - w) * codec.hop /
        max (segment.frames.length - w) 1) 1) = codec.hop := by
      cases hsamples : state.samplesPerFrame with
      | some k => exact hp k hsamples
      | none =>
        have hpos := Nat.sub_pos_of_lt hwin
        rw [getD_none, Nat.max_eq_left hpos, Nat.mul_div_cancel_left _ hpos,
          Nat.max_eq_left codec.hop_pos]
    have htrim : min ((j - w) * codec.hop) ((segment.frames.length - w) * codec.hop) =
        (j - w) * codec.hop :=
      Nat.min_eq_left (Nat.mul_le_mul_right _ (Nat.sub_le_sub_right hle _))
    have hcut : (codec.decode (segment.frames.drop w)).drop ((j - w) * codec.hop) =
        codec.cut segment.frames w j segment.frames.length := by
      rw [Decoder.cut, take_length]
    rw [haudio, hhop, htrim, hcut]
    rw [ho] at h
    refine ⟨_, _, rfl, fun k hk => (some.inj hk).symm, fun k hk => ?_, ?_, ?_, ?_⟩
    · exact update_of_ne hk _ _
    · rintro d ⟨⟩
      rfl
    · simp only [update_self, toList_some, ho, Bool.or_false]
      cases flushTail with
      | true => exact h.tail hw hle
      | false =>
        have hlt : j < segment.frames.length :=
          Nat.lt_of_le_of_ne hle fun heq => hdone ⟨heq.symm, .inl rfl⟩
        rw [if_neg Bool.false_ne_true,
          take_of_length_le (le_of_eq (length_cut hw le_rfl))]
        exact h.snoc hw hlt le_rfl
    · simp only [update_self, ho]

/-- What one call does with all segments: `log` are the deltas of the calls before it. -/
theorem decodeSegments_emission (i : ℕ) (log : List (SegmentDelta S)) (config : VocoderConfig)
    (isFinal : Bool)
    {segments : List (MossSegmentState n)} (hp : state.Paced codec)
    (hne : ∀ segment ∈ segments, segment.frames ≠ [])
    (h : ∀ k segment, segments[k]? = some segment →
      Emission codec segment.frames (i + k) (deltasOf (i + k) log)
        (state.cursor (i + k)).emittedFrames (state.cursor (i + k)).tailEmitted) :
    ∃ next sent, decodeSegments config codec isFinal segments i state = .ok (next, sent) ∧
      next.Paced codec ∧
      (∀ k, k < i ∨ i + segments.length ≤ k → next.cursor k = state.cursor k) ∧
      (∀ d ∈ sent, i ≤ d.segment ∧ d.segment < i + segments.length) ∧
      ∀ k segment, segments[k]? = some segment →
        Emission codec segment.frames (i + k) (deltasOf (i + k) (log ++ sent))
          (next.cursor (i + k)).emittedFrames (next.cursor (i + k)).tailEmitted ∧
        (next.cursor (i + k)).tailEmitted =
          (segment.closed || isFinal || (state.cursor (i + k)).tailEmitted) := by
  induction segments generalizing i state log with
  | nil => exact ⟨state, [], rfl, hp, fun _ _ => rfl, nofun, nofun⟩
  | cons segment rest ih =>
    have hfst := h 0 segment rfl
    rw [add_zero] at hfst
    obtain ⟨next, delta, hcall, hnext, hother, hown, hemission, htail⟩ :=
      hfst.call config hp (segment.closed || isFinal) (hne segment mem_cons_self)
    have hmine : deltasOf i delta.toList = delta.toList := filter_eq_self.mpr fun d hd =>
      beq_iff_eq.mpr (hown d (mem_toList.mp hd))
    have hnone : ∀ k, k ≠ i → deltasOf k delta.toList = [] := by
      intro k hk
      refine filter_eq_nil_iff.mpr fun d hd => ?_
      rw [hown d (mem_toList.mp hd), beq_iff_eq]
      exact fun heq => hk heq.symm
    obtain ⟨last, later, hcls, hlast, hothers, howns, hemissions⟩ :=
      ih (i + 1) (log ++ delta.toList) hnext
        (fun segment hmem => hne segment (mem_cons_of_mem _ hmem)) fun k segment hk => by
          have hprev := h (k + 1) segment hk
          rw [← add_assoc, add_right_comm] at hprev
          rwa [deltasOf_append, hnone _ (by omega), append_nil, hother _ (by omega)]
    refine ⟨last, delta.toList ++ later, ?_, hlast, fun k hk => ?_, fun d hd => ?_, ?_⟩
    · simp only [decodeSegments, hcall, Bind.bind, Except.bind, hcls]
      rfl
    · rw [length_cons] at hk
      rw [hothers k (by omega), hother k (by omega)]
    · rw [length_cons]
      rcases mem_append.mp hd with hd | hd
      · have heq := hown d (mem_toList.mp hd)
        omega
      · have hrange := howns d hd
        omega
    · rintro (_ | k) s hs
      · cases hs
        have hlater : deltasOf i later = [] := filter_eq_nil_iff.mpr fun d hd => by
          have hrange := howns d hd
          rw [beq_iff_eq]
          omega
        rw [add_zero, hothers i (.inl (Nat.lt_succ_self i)), ← append_assoc,
          deltasOf_append, hlater, append_nil, deltasOf_append, hmine]
        exact ⟨hemission, htail⟩
      · have hrest := hemissions k s hs
        rw [hother _ (by omega), append_assoc] at hrest
        rwa [← add_assoc, add_right_comm]

end Emission

/-! ## Segments grow -/

section Grows

variable {n : ℕ} (pad : ℕ) {base next last : MossStreamState n}

namespace MossStreamState

/-- The open segment is not closed, and no segment is empty. -/
structure Sane (base : MossStreamState n) : Prop where
  active : ∀ k, base.activeSegment = some k →
    ∃ segment, base.segments[k]? = some segment ∧ segment.closed = false
  nonempty : ∀ segment ∈ base.segments, segment.frames ≠ []

/-- Segments keep their places and their frames; a closed one stays as it is. -/
structure Grows (base next : MossStreamState n) : Prop where
  sane : next.Sane
  kept : ∀ (k : ℕ) (segment : MossSegmentState n), base.segments[k]? = some segment →
    ∃ grown : MossSegmentState n, next.segments[k]? = some grown ∧ segment.frames <+: grown.frames ∧
      (segment.closed = true → grown = segment)

theorem Grows.refl (h : base.Sane) : base.Grows base :=
  ⟨h, fun _ segment hk => ⟨segment, hk, prefix_rfl, fun _ => rfl⟩⟩

theorem Grows.trans (h : base.Grows next) (h' : next.Grows last) : base.Grows last := by
  refine ⟨h'.sane, fun k segment hk => ?_⟩
  obtain ⟨grown, hgrown, hprefix, hc⟩ := h.kept k segment hk
  obtain ⟨later, hlater, hprefix', hc'⟩ := h'.kept k grown hgrown
  refine ⟨later, hlater, hprefix.trans hprefix', fun hshut => ?_⟩
  obtain rfl := hc hshut
  exact hc' hshut

section

variable (h : base.Sane)
include h

theorem Grows.modify {i : ℕ} (ha : base.activeSegment = some i)
    {f : MossSegmentState n → MossSegmentState n}
    (hf : ∀ segment, segment.frames <+: (f segment).frames) {active : Option ℕ}
    (ho : active = none ∨
      active = some i ∧ ∀ segment, segment.closed = false → (f segment).closed = false) :
    base.Grows { base with segments := base.segments.modify i f, activeSegment := active } := by
  obtain ⟨segment, hsegment, hunclosed⟩ := h.active i ha
  refine ⟨⟨fun k hk => ?_, fun s hs => ?_⟩, fun k s hs => ?_⟩
  · rcases ho with rfl | ⟨rfl, ho⟩
    · cases hk
    · cases hk
      exact ⟨f segment, by rw [getElem?_modify_eq, hsegment]; rfl, ho _ hunclosed⟩
  · obtain ⟨k, hk⟩ := mem_iff_getElem?.mp hs
    rw [getElem?_modify] at hk
    obtain ⟨old, hold, rfl⟩ := map_eq_some_iff.mp hk
    have hne := h.nonempty old (mem_of_getElem? hold)
    split
    · exact fun hnil => hne (prefix_nil.mp (hnil ▸ hf old))
    · exact hne
  · show ∃ grown, (base.segments.modify i f)[k]? = some grown ∧ _
    by_cases hk : i = k
    · subst hk
      obtain rfl := some.inj (hs.symm.trans hsegment)
      refine ⟨f s, by rw [getElem?_modify_eq, hs]; rfl, hf s, fun hc => ?_⟩
      rw [hunclosed] at hc
      cases hc
    · exact ⟨s, by rw [getElem?_modify_ne _ _ hk, hs], prefix_rfl, fun _ => rfl⟩

theorem Sane.closeActiveSegment : base.Grows base.closeActiveSegment := by
  rw [MossStreamState.closeActiveSegment]
  cases ha : base.activeSegment with
  | none => exact .refl h
  | some i =>
    exact Grows.modify h ha
      (f := fun segment => { segment with closed := true }) (fun _ => prefix_rfl) (.inl rfl)

theorem Sane.ingestRawFrame (frame : Codes n) : base.Grows (base.ingestRawFrame pad frame) := by
  rw [MossStreamState.ingestRawFrame]
  split
  · exact h.closeActiveSegment
  · cases ha : base.activeSegment with
    | some i =>
      exact Grows.modify h ha
        (f := fun segment => { segment with frames := segment.frames ++ [frame] })
        (fun _ => prefix_append _ _) (.inr ⟨rfl, fun _ ho => ho⟩)
    | none =>
      refine ⟨⟨fun k hk => ?_, fun s hs => ?_⟩, fun k s hs => ?_⟩
      · cases hk
        exact ⟨_, getElem?_concat_length, rfl⟩
      · rcases mem_append.mp hs with hs | hs
        · exact h.nonempty s hs
        · rw [mem_singleton.mp hs]
          exact cons_ne_nil _ _
      · exact ⟨s, by rw [getElem?_append_left (List.getElem?_eq_some_iff.mp hs).1]; exact hs,
          prefix_rfl, fun _ => rfl⟩

theorem Sane.drain (queue : List (Codes n)) :
    base.Grows (queue.foldl (MossStreamState.ingestRawFrame pad) base) := by
  induction queue generalizing base with
  | nil => exact .refl h
  | cons frame queue ih =>
    have hst := h.ingestRawFrame pad frame
    exact hst.trans (ih hst.sane)

theorem Sane.process (count : ℕ) : base.Grows (base.process pad count) := by
  have hqu : Sane { base with pendingRawFrames := base.pendingRawFrames.drop count } :=
    ⟨h.active, h.nonempty⟩
  obtain ⟨hsane, hkept⟩ := hqu.drain pad (base.pendingRawFrames.take count)
  exact ⟨hsane, hkept⟩

end

/-- A call takes its frames, and keeps the segments. -/
theorem Sane.takeFrames (config : VocoderConfig) (h : base.Sane) (isFinal : Bool) :
    base.Grows (Moss.takeFrames config pad base isFinal) := by
  cases isFinal with
  | true => exact (h.process pad _).trans (h.process pad _).sane.closeActiveSegment
  | false => exact h.process pad _

/-- Rows that arrive touch no segment. -/
theorem ingest_segments (base : MossStreamState n) (rows : List (Codes n)) :
    (base.ingest rows).segments = base.segments ∧
      (base.ingest rows).activeSegment = base.activeSegment := by
  induction rows generalizing base with
  | nil => exact ⟨rfl, rfl⟩
  | cons row rows ih =>
    have hrow : (base.ingestRow row).segments = base.segments ∧
        (base.ingestRow row).activeSegment = base.activeSegment := by
      rw [MossStreamState.ingestRow]
      split <;> exact ⟨rfl, rfl⟩
    obtain ⟨hsegments, ha⟩ := ih (base.ingestRow row)
    exact ⟨hsegments.trans hrow.1, ha.trans hrow.2⟩

end MossStreamState

end Grows

/-! ## Runs -/

section Runs

variable {config : VocoderConfig} {n pad : ℕ} {S : Type} {codec : MossCodec n S}
  {rows : List (Codes n)} {state : VocoderState n} {log : List (SegmentDelta S)}

/-- What the stream has emitted: the deltas of each segment, and none of one that is to come. -/
structure Vocoded (codec : MossCodec n S) (pad : ℕ) (rows : List (Codes n)) (state : VocoderState n)
    (log : List (SegmentDelta S)) : Prop where
  collected : ∃ taken done cur, Collected pad rows state.base [] taken done cur
  sane : state.base.Sane
  paced : state.cursors.Paced codec
  emission : ∀ (k : ℕ) (segment : MossSegmentState n), state.base.segments[k]? = some segment →
    Emission codec segment.frames k (deltasOf k log) (state.cursors.cursor k).emittedFrames
      (state.cursors.cursor k).tailEmitted ∧
    ((state.cursors.cursor k).tailEmitted = true → segment.closed = true)
  fresh : ∀ k, state.base.segments.length ≤ k →
    state.cursors.cursor k = {} ∧ deltasOf k log = []

namespace Vocoded

theorem init (codec : MossCodec n S) (pad : ℕ) (hn : 0 < n) :
    Vocoded codec pad [] { cursors := { samplesPerFrame := codec.samplesPerFrame } } [] where
  collected := ⟨_, _, _, Collected.init hn⟩
  sane := ⟨nofun, nofun⟩
  paced := codec.samplesPerFrame_eq
  emission := nofun
  fresh _ _ := ⟨rfl, rfl⟩

theorem ingest (h : Vocoded codec pad rows state log) (more : List (Codes n)) :
    Vocoded codec pad (rows ++ more) { state with base := state.base.ingest more } log := by
  obtain ⟨taken, done, cur, hcollected⟩ := h.collected
  obtain ⟨hsegments, ha⟩ := state.base.ingest_segments more
  refine ⟨⟨taken, done, cur, hcollected.ingest more⟩, ⟨?_, ?_⟩, h.paced, ?_, ?_⟩
  · simp only [hsegments, ha]
    exact h.sane.active
  · simp only [hsegments]
    exact h.sane.nonempty
  · simp only [hsegments]
    exact h.emission
  · simp only [hsegments]
    exact h.fresh

section

variable (config : VocoderConfig) (h : Vocoded codec pad rows state log)
include h

theorem decode (isFinal : Bool) :
    ∃ cursors sent, decodeSegments config codec isFinal
        (takeFrames config pad state.base isFinal).segments 0 state.cursors = .ok (cursors, sent) ∧
      cursors.Paced codec ∧
      (∀ k (segment : MossSegmentState n),
        (takeFrames config pad state.base isFinal).segments[k]? = some segment →
        Emission codec segment.frames k (deltasOf k (log ++ sent))
          (cursors.cursor k).emittedFrames (cursors.cursor k).tailEmitted ∧
        ((cursors.cursor k).tailEmitted = true → segment.closed = true ∨ isFinal = true) ∧
        (isFinal = true → (cursors.cursor k).tailEmitted = true)) ∧
      ∀ k, (takeFrames config pad state.base isFinal).segments.length ≤ k →
        cursors.cursor k = {} ∧ deltasOf k (log ++ sent) = [] := by
  have hgrows := h.sane.takeFrames pad config isFinal
  generalize takeFrames config pad state.base isFinal = base at hgrows ⊢
  -- what the segments had emitted before the call, and whether their tails are out
  have hprev : ∀ (k : ℕ) (segment : MossSegmentState n), base.segments[k]? = some segment →
      Emission codec segment.frames k (deltasOf k log) (state.cursors.cursor k).emittedFrames
        (state.cursors.cursor k).tailEmitted ∧
      ((state.cursors.cursor k).tailEmitted = true → segment.closed = true) := by
    intro k segment hsegment
    cases hold : state.base.segments[k]? with
    | none =>
      obtain ⟨hcursor, hlog⟩ := h.fresh k (List.getElem?_eq_none_iff.mp hold)
      rw [hcursor, hlog]
      exact ⟨.nil, nofun⟩
    | some old =>
      obtain ⟨grown, hgrown, ⟨more, hmore⟩, hc⟩ := hgrows.kept k old hold
      obtain rfl := some.inj (hgrown.symm.trans hsegment)
      obtain ⟨hemission, htail⟩ := h.emission k old hold
      cases hout : (state.cursors.cursor k).tailEmitted with
      | true =>
        rw [hc (htail hout)]
        rw [hout] at hemission
        exact ⟨hemission, fun _ => htail hout⟩
      | false =>
        rw [hout] at hemission
        rw [← hmore]
        exact ⟨hemission.append more, nofun⟩
  have hlen : state.base.segments.length ≤ base.segments.length := by
    refine Nat.le_of_not_lt fun hlt => ?_
    obtain ⟨grown, hgrown, -⟩ := hgrows.kept _ _ (getElem?_eq_getElem hlt)
    rw [List.getElem?_eq_none_iff.mpr le_rfl] at hgrown
    cases hgrown
  obtain ⟨cursors, sent, hcall, hp, hother, hrange, hemission⟩ :=
    decodeSegments_emission 0 log config isFinal h.paced hgrows.sane.nonempty
      fun k segment hsegment => by
        rw [zero_add]
        exact (hprev k segment hsegment).1
  simp only [zero_add] at hother hrange hemission
  refine ⟨cursors, sent, hcall, hp, fun k segment hsegment => ?_, fun k hk => ?_⟩
  · obtain ⟨hout, htail⟩ := hemission k segment hsegment
    refine ⟨hout, fun htrue => ?_, fun hfinal => by rw [htail, hfinal, Bool.or_true, Bool.true_or]⟩
    rw [htail, Bool.or_eq_true, Bool.or_eq_true] at htrue
    rcases htrue with hflush | hout
    · exact hflush
    · exact .inl ((hprev k segment hsegment).2 hout)
  · obtain ⟨hcursor, hlog⟩ := h.fresh k (le_trans hlen hk)
    have hsent : deltasOf k sent = [] := filter_eq_nil_iff.mpr fun d hd => by
      have hlt := (hrange d hd).2
      rw [beq_iff_eq]
      omega
    rw [hother k (.inr hk), deltasOf_append, hlog, hsent]
    exact ⟨hcursor, rfl⟩

theorem event (event : VocoderEvent n) :
    ∃ next sent, vocoderEvent config codec pad state event = .ok (next, sent) ∧
      Vocoded codec pad (rows ++ event.rows) next (log ++ sent) := by
  cases event with
  | latch value =>
    refine ⟨_, [], rfl, ?_⟩
    rw [VocoderEvent.rows, append_nil, append_nil]
    exact ⟨h.collected, h.sane, h.paced, h.emission, h.fresh⟩
  | chunk more =>
    have hr := h.ingest more
    obtain ⟨cursors, sent, hcall, hp, hemission, hfrs⟩ := hr.decode config false
    dsimp only [vocoderEvent, decodeDelta]
    generalize (if state.nextDecodeRows ≠ 0 then state.nextDecodeRows else _) = needed
    by_cases hwait : (state.base.ingest more).delayedCount < needed
    · rw [if_pos ⟨rfl, hwait⟩]
      refine ⟨_, [], rfl, ?_⟩
      rw [append_nil]
      exact ⟨hr.collected, hr.sane, hr.paced, hr.emission, hr.fresh⟩
    · rw [if_neg fun h => hwait h.2, hcall]
      refine ⟨_, sent, rfl, ⟨?_, (hr.sane.takeFrames pad config false).sane, hp, ?_, ?_⟩⟩
      rotate_right
      · exact hfrs
      · obtain ⟨taken, done, cur, hcollected⟩ := hr.collected
        obtain ⟨taken', done', cur', htaken, -⟩ := hcollected.process
          ((state.base.ingest more).pendingRawFrames.length - config.streamHoldbackTokens)
        exact ⟨taken', done', cur', htaken⟩
      · intro k segment hsegment
        obtain ⟨hout, htail, -⟩ := hemission k segment hsegment
        exact ⟨hout, fun htrue => (htail htrue).resolve_right Bool.false_ne_true⟩

theorem events (events : List (VocoderEvent n)) :
    ∃ last sent, vocoderEvents config codec pad state events = .ok (last, sent) ∧
      Vocoded codec pad (rows ++ events.flatMap VocoderEvent.rows) last (log ++ sent) := by
  induction events generalizing rows state log with
  | nil =>
    refine ⟨state, [], rfl, ?_⟩
    rw [flatMap_nil, append_nil, append_nil]
    exact h
  | cons event events ih =>
    obtain ⟨next, sent, hevt, hnext⟩ := h.event config event
    obtain ⟨last, later, hevents, hlast⟩ := ih hnext
    refine ⟨last, sent ++ later, ?_, ?_⟩
    · simp only [vocoderEvents, hevt, hevents, Bind.bind, Except.bind]
      rfl
    · rw [flatMap_cons, ← append_assoc, ← append_assoc]
      exact hlast

end

end Vocoded

end Runs

end Moss

end OmniRealtime
