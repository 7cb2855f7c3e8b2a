import OmniRealtime.Vision.RuntimeState
import OmniRealtime.Vision.SessionState

/-!
# Appending a segment to a request

`_append_segment_to_request` and `_undo_appended_segment` of `scheduler.py`: a built segment
is put behind the tokens of a live request, what the append replaces is kept beside it, and
an extend that cannot be allocated takes the segment back. `_refresh_fill_ids` is upstream's,
a function of the two token lists. The attributes kept under one block of the source are one
record, since they appear and go together. A request whose append raises is aborted, so an
error carries no request.

1. `append_eq_ok`: what an accepted append has written.
2. `undo_append_restores`: taking it back.
-/

namespace OmniRealtime

/-! ## Requests and segments -/

/-- The `_moss_vl_realtime_previous_*` attributes. -/
structure PreviousFields where
  mmInputs : Option MultimodalInputs
  extendStart : Nat
  extendEnd : Nat
  prefixIndices : List Int
  skipRadixCacheInsert : Bool
  maxNewTokens : Int
  deriving DecidableEq, Repr

/-- The `_moss_vl_realtime_staged_*` attributes every append sets. -/
structure StagedFields where
  mropePositions : List Nat
  visibleFrameCounts : List Nat
  fullGridThw : List (Nat × Nat × Nat)
  events : List EventDict
  deriving DecidableEq

structure TurnTransition where
  interruptedTurnId : Nat
  turnId : Nat
  promptSeqNos : List Nat
  deriving DecidableEq, Repr

/-- A live request with its tokens, its page-table row and what a pending append keeps. -/
structure SegmentReq (τ : Type) extends RealtimeReq where
  originInputIds : List Int
  outputIds : List Int
  fullUntruncatedFillIds : List Int
  maxNewTokens : Int
  skipRadixCacheInsert : Bool := false
  pageRow : List Int
  previous : Option PreviousFields := none
  staged : Option StagedFields := none
  stagedFrameRecords : Option (List (RealtimeFrameRecord τ)) := none
  stagedTurnTransition : Option TurnTransition := none
  finalExtend : Bool := false
  deriving DecidableEq

/-- The runtime state with the turn and the bounds an append reads. -/
structure AppendState (τ : Type) extends MossVLRealtimeRuntimeState τ where
  turnId : Nat := 0
  contextLimit : Option Nat := none
  decodeAllowance : Option Int := none
  deriving DecidableEq

structure MossVLRealtimeSegment where
  events : List FramePromptEvent
  eventInputIds : List Int
  encoderPadIds : List Int
  fullGridThw : List (Nat × Nat × Nat)
  multimodalInputs : MultimodalInputs

def MossVLRealtimeSegment.rawAppendIds (segment : MossVLRealtimeSegment) : List Int :=
  segment.encoderPadIds ++ segment.eventInputIds

/-- Why an append or its undoing raises. -/
inductive SegmentError
  | noPendingToken
  | emptySlots (indices : List Nat) (encoderLength decoderLength : Nat)
      (committedLen allocatedLen : Option Nat)
  | noneHasNoClone
  | noAllowance (requestId : String) (maxNewTokens : Int) (outputIds : Nat)
  | noAttribute (name : String)
  deriving DecidableEq, Repr

/-- How Python prints an optional length. -/
def showLen : Option Nat → String
  | none => "None"
  | some n => toString n

def SegmentError.message : SegmentError → String
  | .noPendingToken => "request does not have exactly one pending sampled token"
  | .emptySlots indices encoderLength decoderLength committedLen allocatedLen =>
    "realtime committed KV prefix contains empty slots " ++
      s!"(indices={indices}, encoder_length={encoderLength}, " ++
      s!"decoder_length={decoderLength}, " ++
      s!"req_kv_committed_len={showLen committedLen}, " ++
      s!"req_kv_allocated_len={showLen allocatedLen})"
  | .noneHasNoClone => "'NoneType' object has no attribute 'clone'"
  | .noAllowance requestId maxNewTokens outputIds =>
    s!"realtime request {requestId} has no decode allowance " ++
      s!"left (max_new_tokens={maxNewTokens}, " ++ s!"output_ids={outputIds})"
  | .noAttribute name => s!"'Req' object has no attribute '{name}'"

/-! ## The append -/

section Append

variable {τ : Type} (refresh : List Int → List Int → List Int)

def SegmentReq.refreshFillIds (r : SegmentReq τ) : SegmentReq τ :=
  { r with fullUntruncatedFillIds := refresh r.originInputIds r.outputIds }

/-- Where a row prefix has no slot. -/
def emptyIndices (pagePrefix : List Int) : List Nat :=
  (List.range pagePrefix.length).filter fun i => pagePrefix.getD i 0 ≤ 0

def promptSeqNos (events : List FramePromptEvent) : List Nat :=
  (events.filter (·.prompt.isSome)).map (·.seqNo)

/-- What an append keeps and stages, before it touches the tokens. -/
def SegmentReq.stage (r : SegmentReq τ) (turnId : Nat) (segment : MossVLRealtimeSegment)
    (positions counts : List Nat) : SegmentReq τ :=
  { r with
    previous := some
      { mmInputs := r.multimodalInputs
        extendStart := r.extendStart
        extendEnd := r.extendEnd
        prefixIndices := r.prefixIndices
        skipRadixCacheInsert := r.skipRadixCacheInsert
        maxNewTokens := r.maxNewTokens }
    skipRadixCacheInsert := true
    staged := some
      { mropePositions := positions
        visibleFrameCounts := counts
        fullGridThw := segment.fullGridThw
        events := segment.events.map (·.toDict) }
    -- a transition of an earlier append stays where this one has no prompt
    stagedTurnTransition :=
      if promptSeqNos segment.events = [] then r.stagedTurnTransition
      else some
        { interruptedTurnId := turnId
          turnId := turnId + (promptSeqNos segment.events).length
          promptSeqNos := promptSeqNos segment.events }
    finalExtend := r.finalExtend || segment.events.any (·.final) }

/-- `_decode_allowance`: derived once for a state that has none. -/
def decodeAllowance (r : SegmentReq τ) (s : AppendState τ) :
    Except SegmentError (Int × AppendState τ) :=
  match s.decodeAllowance with
  | some allowance => .ok (allowance, s)
  | none =>
    let allowance := r.maxNewTokens - r.outputIds.length
    if allowance ≤ 0 then
      .error (.noAllowance s.requestId r.maxNewTokens r.outputIds.length)
    else .ok (allowance, { s with decodeAllowance := some allowance })

/-- The tokens of a segment behind those of the request, with the bound on new tokens, the
    prefix and the range of the extend. -/
def SegmentReq.extendTokens (r : SegmentReq τ) (contextLimit : Option Nat) (tokenTotal : Nat)
    (allowance : Int) (segment : MossVLRealtimeSegment) : SegmentReq τ :=
  let outputIds := r.outputIds ++ segment.rawAppendIds
  let fillIds := refresh r.originInputIds outputIds
  { r with
    outputIds := outputIds
    maxNewTokens := min (outputIds.length + allowance)
      (max 0 (((contextLimit.filter (0 < ·)).getD r.pageRow.length : Int) -
        r.originInputIds.length))
    multimodalInputs := some segment.multimodalInputs
    fullUntruncatedFillIds := fillIds
    prefixIndices := r.pageRow.take tokenTotal
    extendStart := tokenTotal
    extendEnd := fillIds.length }

def appendSegmentToRequest (req : SegmentReq τ) (state : AppendState τ)
    (segment : MossVLRealtimeSegment) : Except SegmentError (SegmentReq τ × AppendState τ) :=
  let committedTotal := state.encoderLength + state.decoderLength
  let tokenTotal := state.effectiveAppendedEncoderLength + state.decoderLength
  let req := req.refreshFillIds refresh
  if req.fullUntruncatedFillIds.length ≠ tokenTotal + 1 then .error .noPendingToken
  else
    let state := { state with pendingTokenId := req.fullUntruncatedFillIds.getLast? }
    let invalid := emptyIndices (req.pageRow.take committedTotal)
    if invalid ≠ [] then
      .error (.emptySlots (invalid.take 8) state.encoderLength state.decoderLength
        req.kvCommittedLen req.kvAllocatedLen)
    else
      match segment.multimodalInputs.mropePositions,
          segment.multimodalInputs.visibleFrameCounts with
      | some positions, some counts =>
        let req := req.stage state.turnId segment positions counts
        (decodeAllowance req state).map fun (allowance, state) =>
          (req.extendTokens refresh state.contextLimit tokenTotal allowance segment, state)
      | _, _ => .error .noneHasNoClone

/-- `stage_segment_frame_records` on a request with an appended segment. -/
def SegmentReq.stageFrameRecords (r : SegmentReq τ) (records : List (RealtimeFrameRecord τ)) :
    SegmentReq τ :=
  { r with stagedFrameRecords := some records }

/-! ## Taking it back -/

/-- `del output_ids[-count:]`, where a count of zero deletes nothing. -/
def dropLastTokens (outputIds : List Int) (count : Nat) : List Int :=
  if count = 0 then outputIds else outputIds.take (outputIds.length - count)

/-- Nothing kept and nothing staged. -/
def SegmentReq.unstaged (r : SegmentReq τ) : SegmentReq τ :=
  { r with
    previous := none
    staged := none
    stagedFrameRecords := none
    stagedTurnTransition := none
    finalExtend := false }

def undoAppendedSegment (req : SegmentReq τ) (state : AppendState τ)
    (segment : MossVLRealtimeSegment) : Except SegmentError (SegmentReq τ × AppendState τ) :=
  let outputIds := dropLastTokens req.outputIds segment.rawAppendIds.length
  match req.previous, req.staged with
  | none, _ => .error (.noAttribute "_moss_vl_realtime_previous_max_new_tokens")
  | some _, none => .error (.noAttribute "_moss_vl_realtime_staged_mrope_positions")
  | some previous, some _ =>
    let restored : SegmentReq τ :=
      { req with
        outputIds := outputIds
        maxNewTokens := previous.maxNewTokens
        multimodalInputs := previous.mmInputs
        extendStart := previous.extendStart
        extendEnd := previous.extendEnd
        prefixIndices := previous.prefixIndices
        skipRadixCacheInsert := previous.skipRadixCacheInsert }
    .ok (restored.unstaged.refreshFillIds refresh, { state with pendingTokenId := none })

/-! ## What each of the two leaves behind -/

variable {refresh}

theorem dropLastTokens_append (xs ys : List Int) : dropLastTokens (xs ++ ys) ys.length = xs := by
  unfold dropLastTokens
  cases ys with
  | nil => simp
  | cons y ys => simp

theorem decodeAllowance_eq_ok {r : SegmentReq τ} {s s' : AppendState τ} {allowance : Int}
    (h : decodeAllowance r s = .ok (allowance, s')) :
    s' = { s with decodeAllowance := some allowance } ∧
      allowance = s.decodeAllowance.getD (r.maxNewTokens - r.outputIds.length) := by
  unfold decodeAllowance at h
  split at h
  · next a ha =>
    cases h
    exact ⟨by rw [← ha], by rw [ha]; rfl⟩
  · next hnone =>
    dsimp only at h
    split at h
    · cases h
    · cases h
      exact ⟨rfl, by rw [hnone]; rfl⟩

variable {req req' : SegmentReq τ} {state state' : AppendState τ}

/-- An accepted append is a stage and an extension of the tokens, at the allowance of the
    state. -/
theorem append_eq_ok {segment : MossVLRealtimeSegment}
    (h : appendSegmentToRequest refresh req state segment = .ok (req', state')) :
    ∃ positions counts allowance,
      allowance = state.decodeAllowance.getD (req.maxNewTokens - req.outputIds.length) ∧
      req' = ((req.refreshFillIds refresh).stage state.turnId segment positions counts).extendTokens
        refresh state.contextLimit
          (state.effectiveAppendedEncoderLength + state.decoderLength) allowance segment ∧
      state' = { state with
          pendingTokenId := (refresh req.originInputIds req.outputIds).getLast?
          decodeAllowance := some allowance } := by
  dsimp only [appendSegmentToRequest] at h
  split at h
  · cases h
  split at h
  · cases h
  split at h
  · next positions counts _ _ =>
    obtain ⟨⟨allowance, s⟩, hallow, hpair⟩ := map_eq_ok.1 h
    obtain ⟨hs, hval⟩ := decodeAllowance_eq_ok hallow
    cases hpair
    subst hs
    exact ⟨positions, counts, allowance, hval, rfl, rfl⟩
  · cases h

/-- What an undo relies on: the segment is the tail of the tokens, the kept fields are those of
    the request before, and something is staged. -/
structure AppendedTo (before : SegmentReq τ) (segment : MossVLRealtimeSegment)
    (later : SegmentReq τ) : Prop where
  origin : later.originInputIds = before.originInputIds
  output : later.outputIds = before.outputIds ++ segment.rawAppendIds
  previous : later.previous = some
    { mmInputs := before.multimodalInputs
      extendStart := before.extendStart
      extendEnd := before.extendEnd
      prefixIndices := before.prefixIndices
      skipRadixCacheInsert := before.skipRadixCacheInsert
      maxNewTokens := before.maxNewTokens }
  staged : later.staged.isSome

/-- `later` with each field an append writes as it was, and nothing staged. -/
def SegmentReq.restoredFrom (later before : SegmentReq τ) : SegmentReq τ :=
  ({ later with
    outputIds := before.outputIds
    fullUntruncatedFillIds := before.fullUntruncatedFillIds
    maxNewTokens := before.maxNewTokens
    multimodalInputs := before.multimodalInputs
    extendStart := before.extendStart
    extendEnd := before.extendEnd
    prefixIndices := before.prefixIndices
    skipRadixCacheInsert := before.skipRadixCacheInsert } : SegmentReq τ).unstaged

theorem undo_of_appendedTo {before later : SegmentReq τ} {segment : MossVLRealtimeSegment}
    (h : AppendedTo before segment later) :
    undoAppendedSegment refresh later state segment =
      .ok (later.restoredFrom (before.refreshFillIds refresh),
        { state with pendingTokenId := none }) := by
  obtain ⟨staged, hstaged⟩ := Option.isSome_iff_exists.1 h.staged
  unfold undoAppendedSegment
  rw [h.previous, hstaged, h.output, dropLastTokens_append]
  show Except.ok _ = Except.ok _
  unfold SegmentReq.restoredFrom SegmentReq.refreshFillIds SegmentReq.unstaged
  rw [h.origin]

theorem append_appendedTo {segment : MossVLRealtimeSegment}
    (h : appendSegmentToRequest refresh req state segment = .ok (req', state')) :
    AppendedTo req segment req' := by
  obtain ⟨positions, counts, allowance, -, rfl, -⟩ := append_eq_ok h
  exact ⟨rfl, rfl, rfl, rfl⟩

/-- An undo at once gives the request back, as a refresh of its fill ids leaves it. -/
theorem restoredFrom_append {segment : MossVLRealtimeSegment}
    (h : appendSegmentToRequest refresh req state segment = .ok (req', state')) :
    req'.restoredFrom (req.refreshFillIds refresh) = (req.refreshFillIds refresh).unstaged := by
  obtain ⟨positions, counts, allowance, -, rfl, -⟩ := append_eq_ok h
  rfl

/-- Taking back an accepted append gives the request as it was, its fill ids refreshed and
    nothing kept or staged; the request itself where it was fresh and had nothing staged. What
    else happened to it before the commit stays. -/
theorem undo_append_restores {req req' : SegmentReq τ} {state state' : AppendState τ}
    {segment : MossVLRealtimeSegment}
    (h : appendSegmentToRequest refresh req state segment = .ok (req', state')) :
    undoAppendedSegment refresh req' state' segment =
        .ok ((req.refreshFillIds refresh).unstaged,
          { state with
            pendingTokenId := none
            decodeAllowance := some
              (state.decodeAllowance.getD (req.maxNewTokens - req.outputIds.length)) }) ∧
      (req.refreshFillIds refresh = req → req.unstaged = req →
        (undoAppendedSegment refresh req' state' segment).map Prod.fst = .ok req) ∧
      ∀ later s, later.originInputIds = req'.originInputIds →
        later.outputIds = req'.outputIds → later.previous = req'.previous →
        later.staged = req'.staged →
        undoAppendedSegment refresh later s segment =
          .ok (later.restoredFrom (req.refreshFillIds refresh),
            { s with pendingTokenId := none }) := by
  have happended := append_appendedTo h
  have hundo : undoAppendedSegment refresh req' state' segment =
      .ok ((req.refreshFillIds refresh).unstaged, { state' with pendingTokenId := none }) := by
    rw [undo_of_appendedTo happended, restoredFrom_append h]
  refine ⟨?_, ?_, ?_⟩
  · obtain ⟨-, -, allowance, rfl, -, rfl⟩ := append_eq_ok h
    exact hundo
  · intro hfresh hunstaged
    rw [hundo, hfresh, hunstaged]
    rfl
  · intro later s horigin houtput hprevious hstaged
    refine undo_of_appendedTo ⟨?_, ?_, ?_, ?_⟩
    · exact horigin.trans happended.origin
    · exact houtput.trans happended.output
    · exact hprevious.trans happended.previous
    · rw [hstaged]
      exact happended.staged

end Append

/-- A request of two prompt tokens and a sampled one, and a final segment of a frame with a
    prompt. -/
def sampleSegmentReq : SegmentReq Nat where
  rid := "req-1"
  prefixIndices := [11, 12]
  extendEnd := 2
  originInputIds := [101, 102]
  outputIds := [201]
  fullUntruncatedFillIds := [101, 102, 201]
  maxNewTokens := 10
  pageRow := [11, 12, 0, 0, 0, 0, 0, 0]

def sampleSegment : MossVLRealtimeSegment where
  events :=
    [{ requestId := "req-1", sessionId := "session-1", seqNo := 0, timestamp := .zero,
       frameRef := some "relay://frame-0", prompt := some "one", final := true,
       checked := by decide }]
  eventInputIds := [301, 302]
  encoderPadIds := [-101, -101]
  fullGridThw := [(1, 2, 2)]
  multimodalInputs := { mropePositions := some [1, 2], visibleFrameCounts := some [0, 1] }

def sampleAppendState : AppendState Nat where
  requestId := "req-1"
  decoderLength := 2

theorem undo_append_restores_final_prompt :
    ∃ req' state',
      appendSegmentToRequest (· ++ ·) sampleSegmentReq sampleAppendState sampleSegment =
        .ok (req', state') ∧
      req'.maxNewTokens = 6 ∧ req'.finalExtend = true ∧
      (undoAppendedSegment (· ++ ·) req' state' sampleSegment).map Prod.fst =
        .ok sampleSegmentReq := by
  have happend : appendSegmentToRequest (· ++ ·) sampleSegmentReq sampleAppendState
      sampleSegment = .ok (_, _) := rfl
  exact ⟨_, _, happend, rfl, rfl, (undo_append_restores happend).2.1 rfl rfl⟩

end OmniRealtime
