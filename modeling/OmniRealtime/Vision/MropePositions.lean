import OmniRealtime.Vision.BatchAdapter

/-!
# Positions of appended segments

`compute_realtime_mrope_for_segment` of `model_step.py`, `visibility.py`, the part of the
segment builder that continues positions and counts, and `_next_mrope_position` of the batch
adapter. The three rows of a text position are equal, so one number stands for a column.
Tensors of the wrong rank and negative numbers are left out.

1. `mropeLoop_append`: positions of a sequence, from those of its parts.
2. `chainMrope_eq`, `chainVisibleCounts_eq`: segments computed one after the other.
3. `runTurns_spec`: a session of built segments and decoded tokens.
-/

namespace OmniRealtime

open List Option

/-! ## One segment -/

inductive MropeError
  | mergeSize
  | noGrid
  | notOneFrame
  | notDivisible
  | unusedGrids (frameCount frameIndex : Nat)
  | decoderShorter
  | nextInconsistent
  deriving DecidableEq, Repr

def MropeError.message : MropeError → String
  | .mergeSize => "merge_size must be positive"
  | .noGrid => "image token has no aligned frame grid"
  | .notOneFrame => "realtime frame events must contain exactly one frame"
  | .notDivisible => "frame grid must be divisible by merge_size"
  | .unusedGrids frameCount frameIndex =>
    s!"received {frameCount} frame grids but found {frameIndex} image tokens"
  | .decoderShorter => "committed_decoder_length cannot be shorter than MRoPE history"
  | .nextInconsistent => "next_mrope_position is inconsistent with decoder length"

/-- Time, height and width, of a frame grid or of a vision position. -/
abbrev Thw := Nat × Nat × Nat

/-- A frame from `position` on: the place of its separator, and its vision positions. -/
def framePositions (mergeSize position : Nat) : Thw → Except MropeError (Nat × List Thw)
  | (temporal, gridHeight, gridWidth) =>
    if temporal ≠ 1 then .error .notOneFrame
    else if gridHeight % mergeSize ≠ 0 ∨ gridWidth % mergeSize ≠ 0 then .error .notDivisible
    else
      let mergedHeight := gridHeight / mergeSize
      let mergedWidth := gridWidth / mergeSize
      let separator := position + max mergedHeight mergedWidth
      let grid := (List.range mergedHeight).flatMap fun y =>
        (List.range mergedWidth).map fun x => (position, position + y, position + x)
      .ok (separator, grid ++ [(separator, separator, separator)])

/-- The loop's results, with the grids it has not used. -/
structure MropeRun where
  text : List Nat
  vision : List (List Thw)
  next : Nat
  left : List Thw
  deriving DecidableEq, Repr

def mropeLoop (imageTokenId : Int) (mergeSize : Nat) :
    List Int → List Thw → Nat → Except MropeError MropeRun
  | [], grids, position => .ok ⟨[], [], position, grids⟩
  | id :: ids, grids, position =>
    if id ≠ imageTokenId then do
      let r ← mropeLoop imageTokenId mergeSize ids grids (position + 1)
      .ok { r with text := position :: r.text }
    else
      match grids with
      | [] => .error .noGrid
      | grid :: grids => do
        let (separator, frame) ← framePositions mergeSize position grid
        let r ← mropeLoop imageTokenId mergeSize ids grids (separator + 1)
        .ok { r with text := separator :: r.text, vision := frame :: r.vision }

structure MropeOutcome where
  textPositions : List Nat
  visionPositions : Option (List Thw)
  nextPosition : Nat
  deriving DecidableEq, Repr

/-- `vision_positions` is None where no frame was. -/
def MropeRun.outcome (r : MropeRun) : MropeOutcome where
  textPositions := r.text
  visionPositions := if r.vision = [] then none else some r.vision.flatten
  nextPosition := r.next

def computeRealtimeMropeForSegment (imageTokenId : Int) (mergeSize : Nat) (ids : List Int)
    (gridThw : Option (List Thw)) (start : Nat) : Except MropeError MropeOutcome :=
  let grids := gridThw.getD []
  if mergeSize = 0 then .error .mergeSize
  else do
    let r ← mropeLoop imageTokenId mergeSize ids grids start
    if r.left ≠ [] then .error (.unusedGrids grids.length (grids.length - r.left.length))
    else .ok r.outcome

/-- `compute_visible_frame_counts`: the running count of image tokens. -/
def computeVisibleFrameCounts (imageTokenId : Int) : Nat → List Int → List Nat
  | _, [] => []
  | seen, id :: ids =>
    let seen := seen + if id = imageTokenId then 1 else 0
    seen :: computeVisibleFrameCounts imageTokenId seen ids

def appendVisibleFrameCounts (imageTokenId : Int) (previous : Option (List Nat))
    (ids : List Int) : List Nat :=
  let initial := (previous.bind List.getLast?).getD 0
  previous.getD [] ++ computeVisibleFrameCounts imageTokenId initial ids

/-! ## The loop, in parts -/

section Loop

variable {imageTokenId : Int} {mergeSize : Nat} {position : Nat} {r : MropeRun}

theorem le_framePositions {grid : Thw} {frame : Nat × List Thw}
    (h : framePositions mergeSize position grid = .ok frame) : position ≤ frame.1 := by
  obtain ⟨temporal, gridHeight, gridWidth⟩ := grid
  simp only [framePositions] at h
  split at h
  · cases h
  · split at h
    · cases h
    · cases h
      exact Nat.le_add_right _ _

theorem mropeLoop_text {id : Int} (h : id ≠ imageTokenId) (ids : List Int) (grids : List Thw)
    (position : Nat) :
    mropeLoop imageTokenId mergeSize (id :: ids) grids position =
      (mropeLoop imageTokenId mergeSize ids grids (position + 1)).map fun r =>
        { r with text := position :: r.text } := by
  refine (if_pos h).trans ?_
  cases mropeLoop imageTokenId mergeSize ids grids (position + 1) with
  | error e => rfl
  | ok r => rfl

theorem mropeLoop_image (ids : List Int) (grid : Thw) (grids : List Thw) (position : Nat) :
    mropeLoop imageTokenId mergeSize (imageTokenId :: ids) (grid :: grids) position =
      framePositions mergeSize position grid >>= fun frame =>
        (mropeLoop imageTokenId mergeSize ids grids (frame.1 + 1)).map fun r =>
          { r with text := frame.1 :: r.text, vision := frame.2 :: r.vision } := by
  refine (if_neg (not_not.2 rfl)).trans ?_
  dsimp only
  cases framePositions mergeSize position grid with
  | error e => rfl
  | ok frame =>
    dsimp only [bind, Except.bind]
    cases mropeLoop imageTokenId mergeSize ids grids (frame.1 + 1) with
    | error e => rfl
    | ok r => rfl

theorem mropeLoop_image_nil (ids : List Int) (position : Nat) :
    mropeLoop imageTokenId mergeSize (imageTokenId :: ids) [] position = .error .noGrid :=
  if_neg (not_not.2 rfl)

/-- What a run and the run behind it come to. -/
def MropeRun.append (r r' : MropeRun) : MropeRun :=
  ⟨r.text ++ r'.text, r.vision ++ r'.vision, r'.next, r'.left⟩

theorem mropeLoop_append (ids ids' : List Int) (grids : List Thw) (position : Nat) :
    mropeLoop imageTokenId mergeSize (ids ++ ids') grids position =
      mropeLoop imageTokenId mergeSize ids grids position >>= fun r =>
        (mropeLoop imageTokenId mergeSize ids' r.left r.next).map r.append := by
  induction ids generalizing grids position with
  | nil =>
    rw [nil_append]
    show _ = (mropeLoop imageTokenId mergeSize ids' grids position).map _
    cases mropeLoop imageTokenId mergeSize ids' grids position with
    | error e => rfl
    | ok r' => rfl
  | cons id ids ih =>
    rw [cons_append]
    by_cases hi : id = imageTokenId
    · subst hi
      cases grids with
      | nil => rw [mropeLoop_image_nil, mropeLoop_image_nil]; rfl
      | cons grid grids =>
        rw [mropeLoop_image, mropeLoop_image]
        cases framePositions mergeSize position grid with
        | error e => rfl
        | ok frame =>
          dsimp only [bind, Except.bind]
          rw [ih]
          cases mropeLoop id mergeSize ids grids (frame.1 + 1) with
          | error e => rfl
          | ok r =>
            dsimp only [bind, Except.bind, Except.map]
            cases mropeLoop id mergeSize ids' r.left r.next with
            | error e => rfl
            | ok r' => rfl
    · rw [mropeLoop_text hi, mropeLoop_text hi, ih]
      cases mropeLoop imageTokenId mergeSize ids grids (position + 1) with
      | error e => rfl
      | ok r =>
        dsimp only [bind, Except.bind, Except.map]
        cases mropeLoop imageTokenId mergeSize ids' r.left r.next with
        | error e => rfl
        | ok r' => rfl

theorem mropeLoop_extra {ids : List Int} {grids : List Thw} (extra : List Thw)
    (h : ids.count imageTokenId ≤ grids.length) :
    mropeLoop imageTokenId mergeSize ids (grids ++ extra) position =
      (mropeLoop imageTokenId mergeSize ids grids position).map fun r =>
        { r with left := r.left ++ extra } := by
  induction ids generalizing grids position with
  | nil => rfl
  | cons id ids ih =>
    by_cases hi : id = imageTokenId
    · subst hi
      rw [count_cons_self] at h
      cases grids with
      | nil => exact absurd h (Nat.not_succ_le_zero _)
      | cons grid grids =>
        rw [cons_append, mropeLoop_image, mropeLoop_image]
        cases framePositions mergeSize position grid with
        | error e => rfl
        | ok frame =>
          dsimp only [bind, Except.bind]
          rw [ih (Nat.le_of_succ_le_succ h)]
          cases mropeLoop id mergeSize ids grids (frame.1 + 1) with
          | error e => rfl
          | ok r => rfl
    · rw [count_cons_of_ne hi] at h
      rw [mropeLoop_text hi, mropeLoop_text hi, ih h]
      cases mropeLoop imageTokenId mergeSize ids grids (position + 1) with
      | error e => rfl
      | ok r => rfl

theorem mropeLoop_left {ids : List Int} {grids : List Thw}
    (h : ids.count imageTokenId = grids.length)
    (hr : mropeLoop imageTokenId mergeSize ids grids position = .ok r) : r.left = [] := by
  induction ids generalizing grids position r with
  | nil =>
    cases hr
    exact length_eq_zero_iff.1 h.symm
  | cons id ids ih =>
    by_cases hi : id = imageTokenId
    · subst hi
      rw [count_cons_self] at h
      cases grids with
      | nil => cases h
      | cons grid grids =>
        rw [mropeLoop_image] at hr
        obtain ⟨frame, -, hrest⟩ := bind_eq_ok.1 hr
        obtain ⟨r', hr', rfl⟩ := map_eq_ok.1 hrest
        have hleft : r'.left = [] := ih (Nat.succ.inj h) hr'
        exact hleft
    · rw [count_cons_of_ne hi] at h
      rw [mropeLoop_text hi] at hr
      obtain ⟨r', hr', rfl⟩ := map_eq_ok.1 hr
      have hleft : r'.left = [] := ih h hr'
      exact hleft

/-- The places of the tokens lie from the start up to the next place, and the last is right
    below it. -/
theorem mropeLoop_bounds {ids : List Int} {grids : List Thw}
    (hr : mropeLoop imageTokenId mergeSize ids grids position = .ok r) :
    position ≤ r.next ∧ (∀ p ∈ r.text, p < r.next) ∧
      (r.text = [] ∧ r.next = position ∨ r.text.getLast? = some (r.next - 1) ∧ 0 < r.next) := by
  induction ids generalizing grids position r with
  | nil =>
    cases hr
    exact ⟨le_rfl, nofun, Or.inl ⟨rfl, rfl⟩⟩
  | cons id ids ih =>
    -- a token at `place`, then the run `r'` from right behind it
    have hcons : ∀ (place : Nat) (r' : MropeRun), position ≤ place → place + 1 ≤ r'.next →
        (∀ p ∈ r'.text, p < r'.next) →
        (r'.text = [] ∧ r'.next = place + 1 ∨ r'.text.getLast? = some (r'.next - 1) ∧ 0 < r'.next) →
        position ≤ r'.next ∧ (∀ p ∈ place :: r'.text, p < r'.next) ∧
          (place :: r'.text = [] ∧ r'.next = position ∨
            (place :: r'.text).getLast? = some (r'.next - 1) ∧ 0 < r'.next) := by
      intro place r' hplace hle hlt hlast
      refine ⟨le_trans hplace (Nat.le_of_succ_le hle), ?_, Or.inr ⟨?_, Nat.zero_lt_of_lt hle⟩⟩
      · intro p hp
        cases hp with
        | head => exact hle
        | tail _ hp => exact hlt p hp
      · rcases hlast with ⟨hnil, hn⟩ | ⟨hlast, -⟩
        · rw [hnil, hn]
          rfl
        · rw [getLast?_cons, hlast]
          rfl
    by_cases hi : id = imageTokenId
    · subst hi
      cases grids with
      | nil =>
        rw [mropeLoop_image_nil] at hr
        cases hr
      | cons grid grids =>
        rw [mropeLoop_image] at hr
        obtain ⟨frame, hfrm, hrest⟩ := bind_eq_ok.1 hr
        obtain ⟨r', hr', rfl⟩ := map_eq_ok.1 hrest
        obtain ⟨hle, hlt, hlast⟩ := ih hr'
        exact hcons frame.1 r' (le_framePositions hfrm) hle hlt hlast
    · rw [mropeLoop_text hi] at hr
      obtain ⟨r', hr', rfl⟩ := map_eq_ok.1 hr
      obtain ⟨hle, hlt, hlast⟩ := ih hr'
      exact hcons position r' le_rfl hle hlt hlast

theorem length_text {ids : List Int} {grids : List Thw}
    (hr : mropeLoop imageTokenId mergeSize ids grids position = .ok r) :
    r.text.length = ids.length := by
  induction ids generalizing grids position r with
  | nil =>
    cases hr
    rfl
  | cons id ids ih =>
    by_cases hi : id = imageTokenId
    · subst hi
      cases grids with
      | nil =>
        rw [mropeLoop_image_nil] at hr
        cases hr
      | cons grid grids =>
        rw [mropeLoop_image] at hr
        obtain ⟨frame, -, hrest⟩ := bind_eq_ok.1 hr
        obtain ⟨r', hr', rfl⟩ := map_eq_ok.1 hrest
        exact congrArg (· + 1) (ih hr')
    · rw [mropeLoop_text hi] at hr
      obtain ⟨r', hr', rfl⟩ := map_eq_ok.1 hr
      exact congrArg (· + 1) (ih hr')

end Loop

/-! ## Segments in a chain -/

/-- The tokens and frame grids of one segment. -/
structure MropeSegment where
  ids : List Int
  gridThw : Option (List Thw)
  deriving DecidableEq, Repr

def MropeSegment.grids (s : MropeSegment) : List Thw := s.gridThw.getD []

def MropeSegment.Aligned (imageTokenId : Int) (s : MropeSegment) : Prop :=
  s.ids.count imageTokenId = s.grids.length

instance (imageTokenId : Int) (s : MropeSegment) : Decidable (s.Aligned imageTokenId) :=
  inferInstanceAs (Decidable (_ = _))

/-- The segments taken as one. -/
def concatenation (segments : List MropeSegment) : MropeSegment where
  ids := segments.flatMap (·.ids)
  gridThw :=
    if segments.all (·.gridThw.isNone) then none else some (segments.flatMap (·.grids))

def joinVision : Option (List Thw) → Option (List Thw) → Option (List Thw)
  | none, vision => vision
  | some vision, none => some vision
  | some vision, some vision' => some (vision ++ vision')

/-- The segments one by one, each from where the one before ends. -/
def chainMrope (imageTokenId : Int) (mergeSize : Nat) :
    List MropeSegment → Nat → Except MropeError MropeOutcome
  | [], start => .ok ⟨[], none, start⟩
  | segment :: segments, start => do
    let first ← computeRealtimeMropeForSegment imageTokenId mergeSize segment.ids
      segment.gridThw start
    let rest ← chainMrope imageTokenId mergeSize segments first.nextPosition
    .ok ⟨first.textPositions ++ rest.textPositions,
      joinVision first.visionPositions rest.visionPositions, rest.nextPosition⟩

/-- The counts of the segments one by one, each behind those before. -/
def chainVisibleCounts (imageTokenId : Int) :
    Option (List Nat) → List MropeSegment → Option (List Nat)
  | previous, [] => previous
  | previous, segment :: segments =>
    chainVisibleCounts imageTokenId
      (some (appendVisibleFrameCounts imageTokenId previous segment.ids)) segments

section Chain

variable {imageTokenId : Int} {mergeSize : Nat}

theorem grids_concatenation (segments : List MropeSegment) :
    (concatenation segments).grids = segments.flatMap (·.grids) := by
  dsimp only [MropeSegment.grids, concatenation]
  split
  · next hall =>
    rw [List.all_eq_true] at hall
    symm
    rw [getD_none, flatMap_eq_nil_iff]
    intro segment hsegment
    rw [isNone_iff_eq_none.1 (hall segment hsegment)]
    rfl
  · rfl

theorem compute_of_aligned {s : MropeSegment} (h : s.Aligned imageTokenId)
    (hmerge : 0 < mergeSize) (start : Nat) :
    computeRealtimeMropeForSegment imageTokenId mergeSize s.ids s.gridThw start =
      (mropeLoop imageTokenId mergeSize s.ids s.grids start).map MropeRun.outcome := by
  unfold computeRealtimeMropeForSegment
  rw [if_neg (Nat.ne_of_gt hmerge)]
  show (mropeLoop imageTokenId mergeSize s.ids s.grids start >>= _) = _
  cases hr : mropeLoop imageTokenId mergeSize s.ids s.grids start with
  | error e => rfl
  | ok r => exact if_neg (not_not.2 (mropeLoop_left h hr))

theorem outcome_append (r r' : MropeRun) :
    (r.append r').outcome = ⟨r.outcome.textPositions ++ r'.outcome.textPositions,
        joinVision r.outcome.visionPositions r'.outcome.visionPositions,
        r'.outcome.nextPosition⟩ := by
  unfold MropeRun.outcome MropeRun.append joinVision
  cases r.vision with
  | nil => simp
  | cons frame frames =>
    cases r'.vision with
    | nil => simp
    | cons frame' frames' => simp

theorem aligned_concatenation {segments : List MropeSegment}
    (h : ∀ s ∈ segments, s.Aligned imageTokenId) :
    (concatenation segments).Aligned imageTokenId := by
  unfold MropeSegment.Aligned
  rw [grids_concatenation]
  show (segments.flatMap (·.ids)).count imageTokenId = _
  induction segments with
  | nil => rfl
  | cons s segments ih =>
    rw [flatMap_cons, flatMap_cons, count_append, length_append,
      h s (mem_cons_self ..), ih fun s hs => h s (mem_cons_of_mem _ hs)]

/-- Aligned segments one by one come to what they come to at once, errors included. -/
theorem chainMrope_eq (hmerge : 0 < mergeSize) {segments : List MropeSegment}
    (h : ∀ s ∈ segments, s.Aligned imageTokenId) (start : Nat) :
    chainMrope imageTokenId mergeSize segments start =
      computeRealtimeMropeForSegment imageTokenId mergeSize (concatenation segments).ids
        (concatenation segments).gridThw start := by
  rw [compute_of_aligned (aligned_concatenation h) hmerge, grids_concatenation]
  show _ = (mropeLoop imageTokenId mergeSize (segments.flatMap (·.ids)) _ start).map _
  induction segments generalizing start with
  | nil => rfl
  | cons s segments ih =>
    have hs := h s (mem_cons_self ..)
    have hrest := fun s' hs' => h s' (mem_cons_of_mem s hs')
    rw [chainMrope, compute_of_aligned hs hmerge, flatMap_cons, flatMap_cons,
      mropeLoop_append, mropeLoop_extra _ (le_of_eq hs)]
    cases hr : mropeLoop imageTokenId mergeSize s.ids s.grids start with
    | error e => rfl
    | ok r =>
      dsimp only [bind, Except.bind, Except.map]
      rw [mropeLoop_left hs hr, nil_append, ih hrest]
      show ((mropeLoop imageTokenId mergeSize _ _ r.next).map MropeRun.outcome >>= _) = _
      cases mropeLoop imageTokenId mergeSize (segments.flatMap (·.ids))
        (segments.flatMap (·.grids)) r.next with
      | error e => rfl
      | ok r' => exact congrArg Except.ok (outcome_append r r').symm

theorem computeVisibleFrameCounts_append (seen : Nat) (ids ids' : List Int) :
    computeVisibleFrameCounts imageTokenId seen (ids ++ ids') =
      computeVisibleFrameCounts imageTokenId seen ids ++ computeVisibleFrameCounts imageTokenId
          ((computeVisibleFrameCounts imageTokenId seen ids).getLast?.getD seen) ids' := by
  induction ids generalizing seen with
  | nil => rfl
  | cons id ids ih =>
    rw [cons_append, computeVisibleFrameCounts, computeVisibleFrameCounts, ih,
      cons_append, getLast?_cons, getD_some]

theorem appendVisibleFrameCounts_append (previous : Option (List Nat)) (ids ids' : List Int) :
    appendVisibleFrameCounts imageTokenId
        (some (appendVisibleFrameCounts imageTokenId previous ids)) ids' =
      appendVisibleFrameCounts imageTokenId previous (ids ++ ids') := by
  dsimp only [appendVisibleFrameCounts]
  rw [computeVisibleFrameCounts_append, getD_some, append_assoc, bind_some, getLast?_append]
  cases previous with
  | none => simp
  | some counts =>
    cases (computeVisibleFrameCounts imageTokenId (counts.getLast?.getD 0) ids).getLast? with
    | none => simp
    | some last => simp

/-- Counts appended segment by segment are those appended at once. -/
theorem chainVisibleCounts_eq (previous : Option (List Nat)) (segments : List MropeSegment) :
    (chainVisibleCounts imageTokenId previous segments).getD [] =
      appendVisibleFrameCounts imageTokenId previous (concatenation segments).ids := by
  show _ = appendVisibleFrameCounts imageTokenId previous (segments.flatMap (·.ids))
  induction segments generalizing previous with
  | nil => simp [chainVisibleCounts, appendVisibleFrameCounts, computeVisibleFrameCounts]
  | cons s segments ih =>
    rw [chainVisibleCounts, ih, appendVisibleFrameCounts_append, flatMap_cons]

end Chain

/-! ## The builder and the decode side -/

/-- `MossVLRealtimeSegmentBuilder`, as its check lets it through. -/
structure MossVLRealtimeSegmentBuilder where
  imageTokenId : Nat
  mergeSize : Nat
  mergeSize_pos : 0 < mergeSize

/-- What `build` continues. -/
structure SegmentHistory where
  mropePositions : Option (List Nat)
  visibleCounts : Option (List Nat)
  nextMropePosition : Nat
  committedDecoderLength : Option Nat
  pendingTextTokens : Nat

structure BuiltPositions where
  mropePositions : List Nat
  visibleFrameCounts : List Nat
  visionPositions : Option (List Thw)
  nextMropePosition : Nat

/-- `build`, from the tokens and grids of the processor on. -/
def MossVLRealtimeSegmentBuilder.build (b : MossVLRealtimeSegmentBuilder) (h : SegmentHistory)
    (segment : MropeSegment) : Except MropeError BuiltPositions :=
  let previousPositionLength := (h.mropePositions.getD []).length
  let committedDecoderLength := h.committedDecoderLength.getD previousPositionLength
  if committedDecoderLength < previousPositionLength then .error .decoderShorter
  else
    let missing := committedDecoderLength - previousPositionLength
    if h.nextMropePosition < missing then .error .nextInconsistent
    else do
      let event ← computeRealtimeMropeForSegment b.imageTokenId b.mergeSize segment.ids
        segment.gridThw (h.nextMropePosition + h.pendingTextTokens)
      let generated :=
        List.range' (h.nextMropePosition - missing) (missing + h.pendingTextTokens)
      let generatedIds := List.replicate (missing + h.pendingTextTokens) (-1)
      .ok
        { mropePositions := h.mropePositions.getD [] ++ (generated ++ event.textPositions)
          visibleFrameCounts :=
            appendVisibleFrameCounts b.imageTokenId h.visibleCounts (generatedIds ++ segment.ids)
          visionPositions := event.visionPositions
          nextMropePosition := event.nextPosition }

/-- `_next_mrope_position` of the batch adapter, on the positions alone. -/
def nextAfterPositions (next totalDecoderLength : Nat) (positions : List Nat) : Nat :=
  match positions.max? with
  | none => max next totalDecoderLength
  | some last => max next (last + 1)

/-- The positions a request carries, and what its last segment reported as next. -/
structure PositionState where
  mropePositions : Option (List Nat) := none
  visibleCounts : Option (List Nat) := none
  decoderLength : Nat := 0
  next : Nat := 0
  reportedNext : Nat := 0

/-- Tokens decoded since the last segment, the pending ones, and a segment. -/
structure SegmentTurn where
  decoded : Nat
  pending : Nat
  segment : MropeSegment

/-- Each decoded token moves length and position on by one; then the segment is built and
    committed. -/
def runTurn (b : MossVLRealtimeSegmentBuilder) (s : PositionState) (turn : SegmentTurn) :
    Except MropeError PositionState :=
  let next := s.next + turn.decoded
  let decoderLength := s.decoderLength + turn.decoded
  let total := decoderLength + turn.pending + turn.segment.ids.length
  (b.build ⟨s.mropePositions, s.visibleCounts, next, some decoderLength, turn.pending⟩
    turn.segment).map fun built =>
      { mropePositions := some built.mropePositions
        visibleCounts := some built.visibleFrameCounts
        decoderLength := total
        next := nextAfterPositions next total built.mropePositions
        reportedNext := built.nextMropePosition }

def runTurns (b : MossVLRealtimeSegmentBuilder) :
    List SegmentTurn → PositionState → Except MropeError PositionState
  | [], s => .ok s
  | turn :: turns, s => runTurn b s turn >>= runTurns b turns

/-- The tokens of a turn, those that were decoded or pending without their ids. -/
def SegmentTurn.history (turn : SegmentTurn) : MropeSegment where
  ids := List.replicate (turn.decoded + turn.pending) (-1) ++ turn.segment.ids
  gridThw := turn.segment.gridThw

section Session

variable {b : MossVLRealtimeSegmentBuilder} {s s' : PositionState}

/-- The state carries what the whole history comes to. -/
structure Carries (b : MossVLRealtimeSegmentBuilder) (ids : List Int) (grids : List Thw)
    (r : MropeRun) (s : PositionState) : Prop where
  loop : mropeLoop b.imageTokenId b.mergeSize ids grids 0 = .ok r
  aligned : ids.count (b.imageTokenId : Int) = grids.length
  positions : s.mropePositions.getD [] = r.text
  counts : s.visibleCounts.getD [] = appendVisibleFrameCounts b.imageTokenId none ids
  decoderLength : s.decoderLength = r.text.length
  next : s.next = r.next
  reported : s.reportedNext = s.next

theorem mropeLoop_generated (b : MossVLRealtimeSegmentBuilder) (count : Nat) (grids : List Thw)
    (position : Nat) :
    mropeLoop b.imageTokenId b.mergeSize (List.replicate count (-1)) grids position =
      .ok ⟨List.range' position count, [], position + count, grids⟩ := by
  have hne : (-1 : Int) ≠ b.imageTokenId := by omega
  induction count generalizing position with
  | zero => rfl
  | succ n ih =>
    rw [replicate_succ, mropeLoop_text hne, ih, range'_succ]
    show Except.ok _ = _
    rw [add_right_comm, add_assoc]

theorem appendVisibleFrameCounts_getD {imageTokenId : Int} {previous previous' : Option (List Nat)}
    (h : previous.getD [] = previous'.getD []) (ids : List Int) :
    appendVisibleFrameCounts imageTokenId previous ids =
      appendVisibleFrameCounts imageTokenId previous' ids := by
  have hinitial : ∀ counts : Option (List Nat),
      counts.bind List.getLast? = (counts.getD []).getLast? := by
    intro counts
    cases counts with
    | none => rfl
    | some counts => rfl
  dsimp only [appendVisibleFrameCounts]
  rw [hinitial, hinitial, h]

theorem nextAfterPositions_eq {ids : List Int} {grids : List Thw} {r : MropeRun} {next : Nat}
    (hr : mropeLoop b.imageTokenId b.mergeSize ids grids 0 = .ok r) (hn : next ≤ r.next) :
    nextAfterPositions next r.text.length r.text = r.next := by
  obtain ⟨-, hlt, hlast⟩ := mropeLoop_bounds hr
  unfold nextAfterPositions
  rcases hlast with ⟨hnil, hzero⟩ | ⟨hlast, hpos⟩
  · rw [hnil, hzero]
    rw [hzero] at hn
    exact Nat.max_eq_left (Nat.zero_le _) |>.trans (Nat.le_zero.1 hn)
  · have hmax : r.text.max? = some (r.next - 1) := by
      refine max?_eq_some_iff.2 ⟨mem_of_getLast? hlast, fun p hp => ?_⟩
      exact Nat.le_sub_one_of_lt (hlt p hp)
    rw [hmax]
    show max next (r.next - 1 + 1) = r.next
    rw [Nat.sub_add_cancel hpos]
    exact Nat.max_eq_right hn

theorem Carries.start (b : MossVLRealtimeSegmentBuilder) : Carries b [] [] ⟨[], [], 0, []⟩ {} :=
  ⟨rfl, rfl, rfl, rfl, rfl, rfl, rfl⟩

theorem Carries.turn {ids : List Int} {grids : List Thw} {r : MropeRun} {turn : SegmentTurn}
    (h : Carries b ids grids r s) (haligned : turn.segment.Aligned b.imageTokenId)
    (hturn : runTurn b s turn = .ok s') :
    ∃ r', Carries b (ids ++ turn.history.ids) (grids ++ turn.history.grids) r' s' := by
  obtain ⟨built, hbuilt, rfl⟩ := map_eq_ok.1 hturn
  dsimp only [MossVLRealtimeSegmentBuilder.build] at hbuilt
  rw [h.positions, getD_some, h.decoderLength, h.next, Nat.add_sub_cancel_left,
    if_neg (Nat.not_lt_of_le (Nat.le_add_right _ _)),
    if_neg (Nat.not_lt_of_le (Nat.le_add_left _ _)), Nat.add_sub_cancel] at hbuilt
  obtain ⟨event, hevt, hok⟩ := bind_eq_ok.1 hbuilt
  cases hok
  rw [compute_of_aligned haligned b.mergeSize_pos] at hevt
  obtain ⟨e, he, rfl⟩ := map_eq_ok.1 hevt
  -- the decoded and pending tokens, then the segment, behind the run so far
  let generated : MropeRun :=
    ⟨List.range' r.next (turn.decoded + turn.pending), [], r.next + (turn.decoded + turn.pending),
      turn.segment.grids⟩
  have hloop : mropeLoop b.imageTokenId b.mergeSize (ids ++ turn.history.ids)
      (grids ++ turn.history.grids) 0 = .ok (r.append (generated.append e)) := by
    have hleft : r.left = [] := mropeLoop_left h.aligned h.loop
    rw [mropeLoop_append, mropeLoop_extra _ (le_of_eq h.aligned), h.loop]
    show (mropeLoop _ _ (List.replicate _ _ ++ _) (r.left ++ _) r.next).map _ = _
    rw [hleft, nil_append, mropeLoop_append, mropeLoop_generated]
    show ((mropeLoop _ _ turn.segment.ids turn.segment.grids _).map _).map _ = _
    rw [← add_assoc, he]
    rfl
  have hn : r.next + turn.decoded ≤ e.next := by
    obtain ⟨hle, -⟩ := mropeLoop_bounds he
    exact le_trans (Nat.le_add_right _ _) hle
  have hlen : e.text.length = turn.segment.ids.length := length_text he
  have htot : r.text.length + turn.decoded + turn.pending + turn.segment.ids.length =
      (r.append (generated.append e)).text.length := by
    show _ = (r.text ++ (List.range' _ _ ++ e.text)).length
    rw [length_append, length_append, length_range', hlen]
    omega
  have hreported : nextAfterPositions (r.next + turn.decoded)
      (r.text.length + turn.decoded + turn.pending + turn.segment.ids.length)
      (r.append (generated.append e)).text = e.next := by
    rw [htot]
    exact nextAfterPositions_eq hloop hn
  refine ⟨_, hloop, ?_, rfl, ?_, ?_, ?_, ?_⟩
  · rw [count_append, length_append, h.aligned]
    show _ + (List.replicate _ _ ++ _).count _ = _
    rw [count_append, count_replicate, if_neg, zero_add, haligned]
    · rfl
    · rw [beq_iff_eq]
      omega
  · show appendVisibleFrameCounts _ s.visibleCounts _ = _
    refine Eq.trans ?_ (appendVisibleFrameCounts_append _ _ _)
    exact appendVisibleFrameCounts_getD h.counts _
  · show s.decoderLength + _ + _ + _ = _
    rw [h.decoderLength]
    exact htot
  · show nextAfterPositions (s.next + _) (s.decoderLength + _ + _ + _) _ = _
    rw [h.next, h.decoderLength]
    exact hreported
  · show e.next = nextAfterPositions (s.next + _) (s.decoderLength + _ + _ + _) _
    rw [h.next, h.decoderLength]
    exact hreported.symm

theorem runTurns_spec {turns : List SegmentTurn} {ids : List Int} {grids : List Thw}
    {r : MropeRun} (h : Carries b ids grids r s)
    (haligned : ∀ turn ∈ turns, turn.segment.Aligned b.imageTokenId)
    (hrun : runTurns b turns s = .ok s') :
    ∃ r', Carries b (ids ++ turns.flatMap (·.history.ids))
      (grids ++ turns.flatMap (·.history.grids)) r' s' := by
  induction turns generalizing s ids grids r with
  | nil =>
    cases hrun
    rw [flatMap_nil, flatMap_nil, append_nil, append_nil]
    exact ⟨r, h⟩
  | cons turn turns ih =>
    obtain ⟨s₁, hturn, hrest⟩ := bind_eq_ok.1 hrun
    obtain ⟨r₁, h₁⟩ := h.turn (haligned turn (mem_cons_self ..)) hturn
    rw [flatMap_cons, flatMap_cons, ← append_assoc, ← append_assoc]
    exact ih h₁ (fun t ht => haligned t (mem_cons_of_mem _ ht)) hrest

end Session

/-! ## Incremental and one-shot -/

/-- Segments with a grid for each image token come, one by one, to the positions, the next
    position and the visible counts of their concatenation. Over a session of built segments
    and decoded tokens the request carries those of its whole history, and the decode side's
    next position is the one the segment reported. -/
theorem incremental_positions (b : MossVLRealtimeSegmentBuilder) :
    (∀ segments : List MropeSegment, (∀ s ∈ segments, s.Aligned b.imageTokenId) → ∀ start,
      chainMrope b.imageTokenId b.mergeSize segments start =
        computeRealtimeMropeForSegment b.imageTokenId b.mergeSize (concatenation segments).ids
          (concatenation segments).gridThw start) ∧
    (∀ segments previous,
      (chainVisibleCounts b.imageTokenId previous segments).getD [] =
        appendVisibleFrameCounts b.imageTokenId previous (concatenation segments).ids) ∧
    ∀ turns s, (∀ turn ∈ turns, turn.segment.Aligned b.imageTokenId) →
      runTurns b turns {} = .ok s →
      (∃ vision, computeRealtimeMropeForSegment b.imageTokenId b.mergeSize
          (concatenation (turns.map (·.history))).ids
          (concatenation (turns.map (·.history))).gridThw 0 =
        .ok ⟨s.mropePositions.getD [], vision, s.next⟩) ∧
      s.visibleCounts.getD [] = appendVisibleFrameCounts b.imageTokenId none
        (concatenation (turns.map (·.history))).ids ∧
      s.next = s.reportedNext := by
  refine ⟨fun _ h start => chainMrope_eq b.mergeSize_pos h start,
    fun segments previous => chainVisibleCounts_eq previous segments, fun turns s haligned hrun => ?_⟩
  obtain ⟨r, hr⟩ := runTurns_spec (Carries.start b) haligned hrun
  have hids : (concatenation (turns.map (·.history))).ids = turns.flatMap (·.history.ids) :=
    flatMap_map ..
  have hgrids : (concatenation (turns.map (·.history))).grids =
      turns.flatMap (·.history.grids) :=
    (grids_concatenation _).trans (flatMap_map ..)
  rw [nil_append, nil_append] at hr
  have hhistory : (concatenation (turns.map (·.history))).Aligned b.imageTokenId := by
    rw [MropeSegment.Aligned, hids, hgrids]
    exact hr.aligned
  refine ⟨⟨r.outcome.visionPositions, ?_⟩, ?_, hr.reported.symm⟩
  · rw [compute_of_aligned hhistory b.mergeSize_pos, hids, hgrids, hr.loop, hr.positions, hr.next]
    rfl
  · rw [hids]
    exact hr.counts

/-- Two segments of a frame each: the second continues behind the separator of the first. -/
theorem incremental_positions_two_frames :
    computeRealtimeMropeForSegment 7 2 [1, 7, 7, 2] (some [(1, 2, 4), (1, 4, 2)]) 0 =
      .ok ⟨[0, 3, 6, 7],
        some [(1, 1, 1), (1, 1, 2), (3, 3, 3), (4, 4, 4), (4, 5, 4), (6, 6, 6)], 8⟩ := by
  have hchain := (incremental_positions ⟨7, 2, by decide⟩).1
    [⟨[1, 7], some [(1, 2, 4)]⟩, ⟨[7, 2], some [(1, 4, 2)]⟩]
    (by decide) 0
  exact hchain.symm.trans rfl

end OmniRealtime
