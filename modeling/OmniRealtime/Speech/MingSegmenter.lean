import OmniRealtime.Lib.Glyphs
import OmniRealtime.Lib.PyText
import OmniRealtime.Lib.Utf8Lossy
import OmniRealtime.Speech.MingStage

/-!
# The text segmenter of Ming-Omni

`streaming_text.py` and what `MingStreamingSegmenterScheduler` does with it: the text deltas of
the thinker come as UTF-8 bytes, are collected in a buffer and leave it as segments, cut at
punctuation, at the token maximum, by the timer for the first segment, and at the end. How many
tokens a text has is told by a function that may raise.

1. `SegmenterConfig.create_eq_ok`: the configurations that the constructor accepts.
2. `SegmenterState.push_spec`: what a push may send, and what it leaves in the buffer.
3. `segmenterStage_sound`: the timer counts tokens only where they were counted before.
-/

namespace OmniRealtime

/-! ## Text as tensors -/

/-- The tensor of a stream item: uint8 values, or something else. -/
inductive StreamTensor
  | uint8 (values : List UInt8)
  | other
  deriving DecidableEq, Repr

inductive MingError (ε : Type)
  | typeError (message : String)
  | runtimeError (message : String)
  | raised (error : ε)
  deriving DecidableEq, Repr

def textToUint8Tensor (text : List Char) : List UInt8 := text.flatMap String.utf8EncodeChar

def uint8TensorToText {ε : Type} : StreamTensor → Except (MingError ε) (List Char)
  | .uint8 values => .ok (Utf8Lossy.decodeIgnoring values)
  | .other => .error (.typeError "uint8_tensor_to_text expects a torch.uint8 tensor")

/-- `maxTokens` is positive. -/
def splitWhitespaceTokens (text : List Char) (maxTokens : Int) : List Char × List Char :=
  let parts := Glyphs.words pyIsSpace text
  if (parts.length : Int) ≤ maxTokens then (text, [])
  else ([' '].intercalate (parts.take maxTokens.toNat), [' '].intercalate (parts.drop maxTokens.toNat))

/-! ## Configuration -/

structure SegmenterConfig where
  segmentMinTokens : Int := 8
  segmentMaxTokens : Int := 40
  firstSegmentMinTokens : Int := 4
  firstSegmentMaxWaitMs : Int := 450
  min_pos : 0 < segmentMinTokens := by decide
  max_pos : 0 < segmentMaxTokens := by decide
  first_pos : 0 < firstSegmentMinTokens := by decide
  min_le : segmentMinTokens ≤ segmentMaxTokens := by decide
  first_le : firstSegmentMinTokens ≤ segmentMaxTokens := by decide
  wait_nonneg : 0 ≤ firstSegmentMaxWaitMs := by decide

/-- `SegmenterConfig.__post_init__`, which raises `ValueError`. -/
def SegmenterConfig.create (segmentMinTokens segmentMaxTokens firstSegmentMinTokens
    firstSegmentMaxWaitMs : Int) : Except String SegmenterConfig :=
  if hmin : segmentMinTokens ≤ 0 then .error "segment_min_tokens must be positive"
  else if hmax : segmentMaxTokens ≤ 0 then .error "segment_max_tokens must be positive"
  else if hfirst : firstSegmentMinTokens ≤ 0 then .error "first_segment_min_tokens must be positive"
  else if hle : segmentMaxTokens < segmentMinTokens then
    .error "segment_min_tokens must be <= segment_max_tokens"
  else if hfirstle : segmentMaxTokens < firstSegmentMinTokens then
    .error "first_segment_min_tokens must be <= segment_max_tokens"
  else if hwait : firstSegmentMaxWaitMs < 0 then
    .error "first_segment_max_wait_ms must be non-negative"
  else .ok
    { segmentMinTokens, segmentMaxTokens, firstSegmentMinTokens, firstSegmentMaxWaitMs
      min_pos := Int.not_le.1 hmin
      max_pos := Int.not_le.1 hmax
      first_pos := Int.not_le.1 hfirst
      min_le := Int.not_lt.1 hle
      first_le := Int.not_lt.1 hfirstle
      wait_nonneg := Int.not_lt.1 hwait }

/-! ## The segmenter -/

structure TextSegment where
  segmentId : Nat
  text : List Char
  isFinalSegment : Bool := false
  deriving DecidableEq, Repr

def segmentEndPunctuation : List Char := ['.', '!', '?', '。', '！', '？', '；', ';']

structure SegmenterState where
  buffer : List Char := []
  segmentId : Nat := 0
  firstTextMs : Option Int := none
  deriving DecidableEq, Repr

namespace SegmenterState

variable {ε : Type} (config : SegmenterConfig) (count : List Char → Except ε Int)

def emitText (s : SegmenterState) (text remainder : List Char) (isFinalSegment : Bool)
    (remainderStartMs : Option Int) : SegmenterState × TextSegment :=
  ({ buffer := remainder, segmentId := s.segmentId + 1, firstTextMs := remainderStartMs },
    { segmentId := s.segmentId, text := text, isFinalSegment := isFinalSegment })

def emit (s : SegmenterState) (isFinalSegment : Bool) : SegmenterState × TextSegment :=
  s.emitText s.buffer [] isFinalSegment none

def emitMaxWindow (s : SegmenterState) (nowMs : Int) : SegmenterState × TextSegment :=
  let (text, remainder) := splitWhitespaceTokens s.buffer config.segmentMaxTokens
  s.emitText text remainder false (if remainder = [] then none else some nowMs)

def hasSegmentEndPunctuation (s : SegmenterState) : Bool :=
  match s.buffer.reverse.dropWhile pyIsSpace with
  | [] => false
  | c :: _ => c ∈ segmentEndPunctuation

def firstTimeoutReady (s : SegmenterState) (tokens nowMs : Int) : Bool :=
  match s.firstTextMs with
  | none => false
  | some firstMs => s.segmentId = 0 ∧ config.firstSegmentMinTokens ≤ tokens ∧
      config.firstSegmentMaxWaitMs ≤ nowMs - firstMs

/-- The first lines of `push`. -/
def collect (s : SegmenterState) (text : List Char) (nowMs : Int) : SegmenterState where
  buffer := s.buffer ++ text
  segmentId := s.segmentId
  firstTextMs := if text ≠ [] ∧ s.firstTextMs = none then some nowMs else s.firstTextMs

def push (s : SegmenterState) (text : List Char) (nowMs : Int) :
    Except ε (SegmenterState × List TextSegment) :=
  let s := s.collect text nowMs
  if s.buffer = [] then .ok (s, [])
  else
    match count s.buffer with
    | .error error => .error error
    | .ok tokens =>
      if config.segmentMaxTokens ≤ tokens then
        .ok ((s.emitMaxWindow config nowMs).1, [(s.emitMaxWindow config nowMs).2])
      else if config.segmentMinTokens ≤ tokens ∧ s.hasSegmentEndPunctuation ∨
          s.firstTimeoutReady config tokens nowMs then
        .ok ((s.emit false).1, [(s.emit false).2])
      else .ok (s, [])

def bufferTokenCount (s : SegmenterState) : Except ε Int :=
  if s.buffer = [] then .ok 0 else count s.buffer

def flush (s : SegmenterState) : List TextSegment :=
  if s.buffer = [] then [] else [(s.emit true).2]

/-! ## What a push does -/

/-- A cut of the buffer: all of it, or between two of its words. -/
inductive Cut (buffer : List Char) : List Char → List Char → Prop
  | whole : Cut buffer buffer []
  | words (n : Nat) : Cut buffer ([' '].intercalate ((Glyphs.words pyIsSpace buffer).take n))
      ([' '].intercalate ((Glyphs.words pyIsSpace buffer).drop n))

/-- What a push sends and leaves of the text collected in `buffer`. -/
inductive Pushed (s : SegmenterState) (buffer : List Char) :
    SegmenterState → List TextSegment → Prop
  | kept (s' : SegmenterState) (buffer_eq : s'.buffer = buffer)
      (id_eq : s'.segmentId = s.segmentId) : Pushed s buffer s' []
  | sent (s' : SegmenterState) (segment : TextSegment) (cut : Cut buffer segment.text s'.buffer)
      (id_eq : segment.segmentId = s.segmentId) (notFinal : segment.isFinalSegment = false)
      (next_eq : s'.segmentId = s.segmentId + 1) : Pushed s buffer s' [segment]

theorem cut_splitWhitespaceTokens (buffer : List Char) (maxTokens : Int) :
    Cut buffer (splitWhitespaceTokens buffer maxTokens).1
      (splitWhitespaceTokens buffer maxTokens).2 := by
  dsimp only [splitWhitespaceTokens]
  split
  · exact .whole
  · exact .words _

variable {config count}

theorem push_spec {s s' : SegmenterState} {text : List Char} {nowMs : Int}
    {segments : List TextSegment} (h : s.push config count text nowMs = .ok (s', segments)) :
    s.Pushed (s.buffer ++ text) s' segments ∧
      (segments = [] → s'.buffer = [] ∨ ∃ tokens, count s'.buffer = .ok tokens) := by
  have hb : (s.collect text nowMs).buffer = s.buffer ++ text := rfl
  have hid : (s.collect text nowMs).segmentId = s.segmentId := rfl
  dsimp only [push] at h
  generalize s.collect text nowMs = c at h hb hid
  rw [← hb]
  split at h
  · next hemp =>
    cases h
    exact ⟨.kept _ rfl hid, fun _ => .inl hemp⟩
  · split at h
    · cases h
    · next tokens hcnt =>
      split at h
      · cases h
        exact ⟨.sent _ _ (cut_splitWhitespaceTokens _ _) hid rfl (congrArg (· + 1) hid),
          nofun⟩
      · split at h
        · cases h
          exact ⟨.sent _ _ .whole hid rfl (congrArg (· + 1) hid), nofun⟩
        · cases h
          exact ⟨.kept _ rfl hid, fun _ => .inr ⟨tokens, hcnt⟩⟩

/-- Only counting raises. -/
theorem push_ok (config : SegmenterConfig) {s : SegmenterState} {text : List Char} (nowMs : Int)
    (hcnt : s.buffer ++ text = [] ∨ ∃ tokens, count (s.buffer ++ text) = .ok tokens) :
    ∃ s' segments, s.push config count text nowMs = .ok (s', segments) := by
  have hb : (s.collect text nowMs).buffer = s.buffer ++ text := rfl
  dsimp only [push]
  generalize s.collect text nowMs = c at hb ⊢
  rw [← hb] at hcnt
  split
  · exact ⟨_, _, rfl⟩
  · next hne =>
    obtain ⟨tokens, htokens⟩ := hcnt.resolve_left hne
    rw [htokens]
    dsimp only
    split
    · exact ⟨_, _, rfl⟩
    · split
      · exact ⟨_, _, rfl⟩
      · exact ⟨_, _, rfl⟩

end SegmenterState

/-! ## The stage -/

/-- What `_RequestState` has beside the marks of a `StageEntry`. -/
structure SegmenterData where
  segmenter : SegmenterState := {}
  segmentCount : Nat := 0
  firstTextMs : Option Int := none
  deriving DecidableEq, Repr

open SegmenterData

/-- A segment on its way to the talker. -/
structure SegmentMessage where
  data : List UInt8
  segmentId : Nat
  isFinalSegment : Bool
  textLen : Nat
  deriving DecidableEq, Repr

structure SegmenterResult (π : Type) where
  payload : π
  segmentCount : Nat
  aborted : Bool
  deriving DecidableEq, Repr

def emitSegment (segment : TextSegment) : SegmentMessage where
  data := textToUint8Tensor segment.text
  segmentId := segment.segmentId
  isFinalSegment := segment.isFinalSegment
  textLen := (textToUint8Tensor segment.text).length

namespace SegmenterData

variable {ε : Type} (config : SegmenterConfig) (count : List Char → Except ε Int)

/-- The segments of a push are emitted and counted. -/
def emitted (d : SegmenterData) (s : SegmenterState) (segments : List TextSegment) :
    SegmenterData where
  segmenter := s
  segmentCount := d.segmentCount + segments.length
  firstTextMs := if segments = [] then d.firstTextMs else none

/-- `_on_stream_chunk`, from the text on. -/
def onText (d : SegmenterData) (text : List Char) (nowMs : Int) :
    Except ε (SegmenterData × List TextSegment) :=
  if text = [] then .ok (d, [])
  else
    let d := { d with firstTextMs := d.firstTextMs <|> some nowMs }
    match d.segmenter.push config count text nowMs with
    | .ok (s, segments) => .ok (d.emitted s segments, segments)
    | .error error => .error error

/-- `_tick_first_segment_timeouts`. -/
def onTimer (d : SegmenterData) (nowMs : Int) : Except ε (SegmenterData × List TextSegment) :=
  match d.firstTextMs with
  | none => .ok (d, [])
  | some firstMs =>
    if d.segmentCount ≠ 0 ∨ nowMs - firstMs < config.firstSegmentMaxWaitMs then .ok (d, [])
    else
      match d.segmenter.bufferTokenCount count with
      | .error error => .error error
      | .ok tokens =>
        if tokens < config.firstSegmentMinTokens then .ok (d, [])
        else
          match d.segmenter.push config count [] nowMs with
          | .ok (s, segments) => .ok (d.emitted s segments, segments)
          | .error error => .error error

/-- The segments of `_finalize`. -/
def finalSegments (d : SegmenterData) : List TextSegment :=
  match d.segmenter.flush with
  | [] => [{ segmentId := d.segmentCount, text := [], isFinalSegment := true }]
  | segments => segments

end SegmenterData

/-- `MingStreamingSegmenterScheduler`. A stream item comes with the time it is handled at. -/
def segmenterStage {ε π : Type} (config : SegmenterConfig) (count : List Char → Except ε Int) :
    StageLogic SegmenterData (StreamTensor × Int) π SegmentMessage (SegmenterResult π)
      (MingError ε) where
  fresh := {}
  createsFirst := true
  abortDrops := true
  item d item :=
    match uint8TensorToText item.1 with
    | .error error => (d, [], some error)
    | .ok text =>
      match d.onText config count text item.2 with
      | .ok (d, segments) => (d, segments.map emitSegment, none)
      | .error error => (d, [], some (.raised error))
  tick d nowMs :=
    match d.onTimer config count nowMs with
    | .ok (d, segments) => .ok (d, segments.map emitSegment)
    | .error error => .error (.raised error)
  finish d payload _ :=
    (d.finalSegments.map emitSegment,
      .ok { payload := payload
            segmentCount := d.segmentCount + d.finalSegments.length
            aborted := false })

/-! ## The timer -/

/-- The tokens of the buffer were counted, where the timer may count them. -/
def SegmenterData.Counted {ε : Type} (count : List Char → Except ε Int) (d : SegmenterData) :
    Prop :=
  d.segmentCount = 0 → d.segmenter.buffer = [] ∨ ∃ tokens, count d.segmenter.buffer = .ok tokens

variable {ε π : Type} {config : SegmenterConfig} {count : List Char → Except ε Int}

theorem SegmenterData.counted_emitted {d : SegmenterData} {s' : SegmenterState}
    {segments : List TextSegment} {text : List Char} {nowMs : Int}
    (h : d.segmenter.push config count text nowMs = .ok (s', segments)) (firstTextMs : Option Int) :
    ({ d with firstTextMs := firstTextMs }.emitted s' segments : SegmenterData).Counted count := by
  intro hn
  have hlen : d.segmentCount + segments.length = 0 := hn
  have hsegments : segments = [] := List.length_eq_zero_iff.1 (Nat.eq_zero_of_add_eq_zero_left hlen)
  exact (SegmenterState.push_spec h).2 hsegments

theorem segmenterStage_sound :
    (segmenterStage (π := π) config count).Sound (Counted count) where
  fresh _ := .inl rfl
  item := by
    rintro d ⟨tensor, nowMs⟩ hc hn
    unfold segmenterStage at hn ⊢
    dsimp only at hn ⊢
    split at hn
    · cases hn
    · next text htext =>
      unfold onText at hn ⊢
      by_cases hemp : text = []
      · rw [if_pos hemp]
        exact hc
      · rw [if_neg hemp] at hn ⊢
        dsimp only at hn ⊢
        cases hpush : d.segmenter.push config count text nowMs with
        | error error => simp [hpush] at hn
        | ok res => exact counted_emitted hpush _
  tick := by
    intro d nowMs hc
    have hok : ∃ d' segments, d.onTimer config count nowMs = .ok (d', segments) ∧
        d'.Counted count := by
      unfold onTimer
      cases hfirst : d.firstTextMs with
      | none => exact ⟨d, [], rfl, hc⟩
      | some firstMs =>
        dsimp only
        split
        · exact ⟨d, [], rfl, hc⟩
        · next hdue =>
          have hzero : d.segmentCount = 0 := by
            by_contra hne
            exact hdue (.inl hne)
          have htokens : ∃ tokens, d.segmenter.bufferTokenCount count = .ok tokens := by
            unfold SegmenterState.bufferTokenCount
            split
            · exact ⟨0, rfl⟩
            · next hne => exact (hc hzero).resolve_left hne
          obtain ⟨tokens, htokens⟩ := htokens
          rw [htokens]
          dsimp only
          split
          · exact ⟨d, [], rfl, hc⟩
          · have hb := hc hzero
            rw [← List.append_nil d.segmenter.buffer] at hb
            obtain ⟨s', segments, hpush⟩ := SegmenterState.push_ok config nowMs hb
            rw [hpush]
            exact ⟨_, _, rfl, counted_emitted hpush d.firstTextMs⟩
    obtain ⟨d', segments, htimer, hvalid⟩ := hok
    refine ⟨d', segments.map emitSegment, ?_, hvalid⟩
    dsimp only [segmenterStage]
    rw [htimer]

end OmniRealtime
