import OmniRealtime.Lib.DelayPattern
import OmniRealtime.Lib.WindowCuts

/-!
# Higgs streaming audio

`models/higgs_tts/vocoder_scheduler.py`: `ingest`, `decode_delta` and what it calls, and the calls
of `scheduling/streaming_vocoder.py` around them. Delayed code rows are collected; whenever enough
of them are there a window of raw frames is decoded, and the samples of its new frames are sent.

The codec is a parameter.

1. `decodeDelta`, `streamEvents`: one call, and the calls before the stream is done.
2. `decodeDelta_advances`: a call sends the new frames of its window, or nothing.
3. `higgs_emits_once`: every frame is sent once, unless the call that ends the stream finds
   everything sent and no overlap to decode.
-/

namespace OmniRealtime

open List Option

namespace Higgs

open WindowCuts

/-! ## The scheduler -/

/-- What the constructor accepts. -/
structure StreamConfig where
  streamStride : ℕ
  streamFollowupStride : ℕ
  defaultInitialChunkFrames : ℕ
  streamOverlapTokens : ℕ
  streamHoldbackTokens : ℕ
  streamStride_pos : 0 < streamStride
  streamFollowupStride_pos : 0 < streamFollowupStride

/-- The contract of a request, once it is latched. -/
structure StreamContract where
  numCodebooks : ℕ
  codebookSize : ℕ
  numCodebooks_pos : 0 < numCodebooks
  codebookSize_gt : 2 < codebookSize

/-- A row of codes, delayed or raw. -/
abbrev CodeRow (contract : StreamContract) : Type := Fin contract.numCodebooks → ℤ

/-- The codec: what it decodes, and the hop length its configuration gives, if it gives one. -/
structure StreamCodec (contract : StreamContract) (S : Type) extends
    Decoder (CodeRow contract) S where
  samplesPerFrame : Option ℕ
  samplesPerFrame_eq : ∀ k ∈ samplesPerFrame, k = hop

/-- `_HiggsStreamState`, and whether the stream has emitted. -/
structure StreamState (contract : StreamContract) where
  delayedRows : List (CodeRow contract) := []
  emittedRawFrames : ℕ := 0
  nextDecodeRows : ℕ := 0
  initialCodecChunkFrames : ℕ := 0
  hasEmitted : Bool := false

inductive StreamError
  /-- "Higgs delayed rows must include at least … rows" -/
  | tooFewRows
deriving DecidableEq, Repr

section Scheduler

variable (config : StreamConfig) {contract : StreamContract} {S : Type}
  (codec : StreamCodec contract S)

/-- Codes that stand for no sound are set to zero. -/
def maskRow (row : CodeRow contract) : CodeRow contract :=
  fun c => if (contract.codebookSize : ℤ) - 2 ≤ row c then 0 else row c

/-- The raw frames of delayed rows, as the codec sees them. -/
def rawFrames (rows : List (CodeRow contract)) : List (CodeRow contract) :=
  (Delay.dedelay rows).map maskRow

def decodeDelayedRows (rows : List (CodeRow contract)) : Except StreamError (List S) :=
  if rows.length < contract.numCodebooks then .error .tooFewRows
  else .ok (codec.decode (rawFrames rows))

def steadyCodecFrames (contract : StreamContract) : ℕ :=
  max 1 (config.streamStride + 1 - contract.numCodebooks)

/-- `resolve_initial_codec_chunk_frames`, of a value that is an integer and not negative. -/
def resolveInitialCodecChunkFrames (contract : StreamContract) (value : Option ℕ) : ℕ :=
  min (value.getD config.defaultInitialChunkFrames) (steadyCodecFrames config contract)

section Call

variable (state : StreamState contract) (isFinal : Bool)

def rawTotal : ℕ := state.delayedRows.length + 1 - contract.numCodebooks

def useInitialChunk : Bool :=
  decide (0 < state.initialCodecChunkFrames) &&
    decide (state.initialCodecChunkFrames < steadyCodecFrames config contract) && !state.hasEmitted

/-- `next_decode_rows`, before the call. -/
def nextDecodeRows : ℕ :=
  if state.nextDecodeRows ≠ 0 then state.nextDecodeRows
  else if useInitialChunk config state && !isFinal then
    max contract.numCodebooks (state.initialCodecChunkFrames + contract.numCodebooks - 1)
  else max contract.numCodebooks config.streamStride

def emitUntilRaw : ℕ :=
  if useInitialChunk config state && !isFinal then
    min (rawTotal state) state.initialCodecChunkFrames
  else if !isFinal && decide (config.streamHoldbackTokens ≠ 0) then
    rawTotal state - config.streamHoldbackTokens
  else rawTotal state

def nextDecodeRowsAfterEmit : ℕ :=
  if useInitialChunk config state && !isFinal then
    max contract.numCodebooks config.streamStride + config.streamFollowupStride
  else state.delayedRows.length + config.streamFollowupStride

/-- The first frame of the window. -/
def windowStartRaw : ℕ := state.emittedRawFrames - config.streamOverlapTokens

/-- The samples of the window that are sent. -/
def trimWindow (audio : List S) : List S :=
  let emitUntil := emitUntilRaw config state isFinal
  let windowStart := windowStartRaw config state
  let samplesPerFrame :=
    codec.samplesPerFrame.getD (max (audio.length / max (emitUntil - windowStart) 1) 1)
  let trimSamples := min ((state.emittedRawFrames - windowStart) * samplesPerFrame) audio.length
  if !isFinal && codec.samplesPerFrame.isSome then
    (audio.drop trimSamples).take ((emitUntil - state.emittedRawFrames) * samplesPerFrame)
  else audio.drop trimSamples

def decodeDelta : Except StreamError (StreamState contract × Option (List S)) :=
  let delayedCount := state.delayedRows.length
  let waiting : StreamState contract :=
    { state with nextDecodeRows := delayedCount + config.streamFollowupStride }
  if delayedCount = 0 then .ok (state, none)
  else if delayedCount < contract.numCodebooks then .ok (state, none)
  else if !isFinal ∧ delayedCount < nextDecodeRows config state isFinal then
    .ok ({ state with nextDecodeRows := nextDecodeRows config state isFinal }, none)
  else
    let emitUntil := emitUntilRaw config state isFinal
    if emitUntil < state.emittedRawFrames ∨
        (emitUntil = state.emittedRawFrames ∧ ¬(isFinal ∧ codec.samplesPerFrame.isSome)) then
      .ok (waiting, none)
    else do
      let rows := (state.delayedRows.take (emitUntil + contract.numCodebooks - 1)).drop
        (windowStartRaw config state)
      let audio ← decodeDelayedRows codec rows
      let delta := trimWindow config codec state isFinal audio
      if delta = [] then return (waiting, none)
      return ({ state with
        emittedRawFrames := emitUntil
        nextDecodeRows := nextDecodeRowsAfterEmit config state isFinal }, some delta)

end Call

/-! ## A stream -/

/-- What reaches a stream before it is done. -/
inductive StreamEvent (contract : StreamContract)
  /-- The payload or a chunk's metadata sets the frames of the initial chunk. -/
  | latch (value : Option ℕ)
  | chunk (rows : List (CodeRow contract))

/-- `_decode_and_emit`: the delta that is sent, if any is. -/
def decodeAndEmit (state : StreamState contract) :
    Except StreamError (StreamState contract × List (List S)) :=
  (decodeDelta config codec state false).map fun (next, delta) =>
    match delta with
    | none => (next, [])
    | some delta => ({ next with hasEmitted := true }, [delta])

/-- One event: a chunk is ingested and decoded. -/
def streamEvent (state : StreamState contract) :
    StreamEvent contract → Except StreamError (StreamState contract × List (List S))
  | .latch value =>
    .ok ({ state with
      initialCodecChunkFrames := resolveInitialCodecChunkFrames config contract value }, [])
  | .chunk rows =>
    decodeAndEmit config codec { state with delayedRows := state.delayedRows ++ rows }

def streamEvents (state : StreamState contract) :
    List (StreamEvent contract) → Except StreamError (StreamState contract × List (List S))
  | [] => .ok (state, [])
  | event :: events => do
    let (next, sent) ← streamEvent config codec state event
    let (last, later) ← streamEvents next events
    return (last, sent ++ later)

/-- The last call finds that everything was sent, and has no frame to overlap with: its window holds
    too few rows. -/
def TailFlushed (state : StreamState contract) : Prop :=
  codec.samplesPerFrame.isSome ∧ config.streamOverlapTokens = 0 ∧ 0 < state.emittedRawFrames ∧
    state.emittedRawFrames = rawTotal state

/-- Every event and the call that ends the stream return, and the deltas are the cuts of all raw
    frames. -/
def EmitsOnce (events : List (StreamEvent contract)) : Prop :=
  ∃ state sent last delta, streamEvents config codec {} events = .ok (state, sent) ∧
    decodeDelta config codec state true = .ok (last, delta) ∧
    Cuts codec.toDecoder (rawFrames state.delayedRows) (sent ++ delta.toList) (rawTotal state)

/-! ## One call -/

section Windows

variable {config} {codec} {state : StreamState contract} {w k : ℕ}

theorem length_rawFrames (rows : List (CodeRow contract)) :
    (rawFrames rows).length = rows.length + 1 - contract.numCodebooks := by
  rw [rawFrames, length_map, Delay.length_dedelay contract.numCodebooks_pos]

/-- A window that holds a frame is decoded. -/
theorem decode_window (hw : w < k) (hk : k ≤ rawTotal state) :
    decodeDelayedRows codec ((state.delayedRows.take (k + contract.numCodebooks - 1)).drop w) =
      .ok (codec.decode (((rawFrames state.delayedRows).take k).drop w)) := by
  have hpos := contract.numCodebooks_pos
  have hlen : ¬((state.delayedRows.take (k + contract.numCodebooks - 1)).drop w).length <
      contract.numCodebooks := by
    rw [length_drop, length_take]
    unfold rawTotal at hk
    omega
  rw [decodeDelayedRows, if_neg hlen, rawFrames, Delay.dedelay_window hpos, map_drop, map_take]
  rfl

/-- A window that starts behind the last frame is not. -/
theorem decode_tail (hk : rawTotal state ≤ w) :
    decodeDelayedRows codec ((state.delayedRows.take (k + contract.numCodebooks - 1)).drop w) =
      .error .tooFewRows := by
  have hpos := contract.numCodebooks_pos
  refine if_pos ?_
  rw [length_drop, length_take]
  unfold rawTotal at hk
  omega

theorem trimWindow_eq {isFinal : Bool} (hlt : windowStartRaw config state < k)
    (hj : state.emittedRawFrames ≤ k) (hk : k ≤ rawTotal state)
    (hemit : emitUntilRaw config state isFinal = k) :
    trimWindow config codec state isFinal
        (codec.decode (((rawFrames state.delayedRows).take k).drop (windowStartRaw config state))) =
      codec.cut (rawFrames state.delayedRows) (windowStartRaw config state)
        state.emittedRawFrames k := by
  have hw : windowStartRaw config state ≤ state.emittedRawFrames := Nat.sub_le _ _
  have hfms : k ≤ (rawFrames state.delayedRows).length := by
    rw [length_rawFrames]
    exact hk
  have haudio : (codec.decode (((rawFrames state.delayedRows).take k).drop
      (windowStartRaw config state))).length = (k - windowStartRaw config state) * codec.hop :=
    length_window hfms
  have hcut : (codec.cut (rawFrames state.delayedRows) (windowStartRaw config state)
      state.emittedRawFrames k).length = (k - state.emittedRawFrames) * codec.hop :=
    length_cut hw hfms
  have hhop : codec.samplesPerFrame.getD (max ((k - windowStartRaw config state) * codec.hop /
      max (k - windowStartRaw config state) 1) 1) = codec.hop := by
    cases hsamples : codec.samplesPerFrame with
    | some n => exact codec.samplesPerFrame_eq n hsamples
    | none =>
      have hpos : 0 < k - windowStartRaw config state := Nat.sub_pos_of_lt hlt
      rw [getD_none, Nat.max_eq_left hpos, Nat.mul_div_cancel_left _ hpos,
        Nat.max_eq_left codec.hop_pos]
  have htrim : min ((state.emittedRawFrames - windowStartRaw config state) * codec.hop)
      ((k - windowStartRaw config state) * codec.hop) =
        (state.emittedRawFrames - windowStartRaw config state) * codec.hop :=
    Nat.min_eq_left (Nat.mul_le_mul_right _ (Nat.sub_le_sub_right hj _))
  dsimp only [trimWindow]
  rw [hemit, haudio, hhop, htrim]
  split
  · exact take_of_length_le (le_of_eq hcut)
  · rfl

/-- What a call leaves: with no delta the cursor stays, with one it moves over the frames of it, and
    the last call moves it behind the last frame. -/
structure Advances (codec : StreamCodec contract S) (state : StreamState contract) (isFinal : Bool)
    (next : StreamState contract) (delta : Option (List S)) : Prop where
  rows : next.delayedRows = state.delayedRows
  stays : delta = none → next.emittedRawFrames = state.emittedRawFrames
  moves : ∀ samples, delta = some samples → ∃ w, w ≤ state.emittedRawFrames ∧
    state.emittedRawFrames < next.emittedRawFrames ∧ next.emittedRawFrames ≤ rawTotal state ∧
    samples = codec.cut (rawFrames state.delayedRows) w state.emittedRawFrames
      next.emittedRawFrames
  ends : isFinal = true → next.emittedRawFrames = rawTotal state

theorem Advances.stay {isFinal : Bool} {next : StreamState contract}
    (hrows : next.delayedRows = state.delayedRows)
    (hemt : next.emittedRawFrames = state.emittedRawFrames)
    (hf : isFinal = true → state.emittedRawFrames = rawTotal state) :
    Advances codec state isFinal next none where
  rows := hrows
  stays _ := hemt
  moves _ h := nomatch h
  ends h := hemt.trans (hf h)

theorem emitUntilRaw_le (config : StreamConfig) (state : StreamState contract) (isFinal : Bool) :
    emitUntilRaw config state isFinal ≤ rawTotal state := by
  unfold emitUntilRaw
  split
  · exact Nat.min_le_left _ _
  · split
    · exact Nat.sub_le _ _
    · exact le_rfl

theorem emitUntilRaw_final : emitUntilRaw config state true = rawTotal state := by
  unfold emitUntilRaw
  simp

variable (config) in
/-- A call returns and advances, but for a tail that holds too few rows. -/
theorem decodeDelta_advances (isFinal : Bool) (hle : state.emittedRawFrames ≤ rawTotal state)
    (hflush : isFinal = true → ¬TailFlushed config codec state) :
    ∃ next delta, decodeDelta config codec state isFinal = .ok (next, delta) ∧
      Advances codec state isFinal next delta := by
  dsimp only [decodeDelta]
  split_ifs with hzero hshort hwait hbehind
  · refine ⟨_, _, rfl, .stay rfl rfl fun _ => le_antisymm hle ?_⟩
    have hpos := contract.numCodebooks_pos
    simp only [rawTotal, hzero]
    omega
  · refine ⟨_, _, rfl, .stay rfl rfl fun _ => le_antisymm hle ?_⟩
    simp only [rawTotal]
    omega
  · refine ⟨_, _, rfl, .stay rfl rfl fun hf => ?_⟩
    rw [hf] at hwait
    exact absurd hwait.1 (by simp)
  · refine ⟨_, _, rfl, .stay rfl rfl fun hf => le_antisymm hle ?_⟩
    rw [hf, emitUntilRaw_final] at hbehind
    rcases hbehind with hlt | ⟨heq, -⟩
    · exact le_of_lt hlt
    · exact le_of_eq heq
  · -- a window is decoded
    have hj : state.emittedRawFrames ≤ emitUntilRaw config state isFinal :=
      not_lt.mp fun h => hbehind (.inl h)
    have hk := emitUntilRaw_le config state isFinal
    have hlt : windowStartRaw config state < emitUntilRaw config state isFinal := by
      rcases Nat.lt_or_eq_of_le hj with hlt | heq
      · exact lt_of_le_of_lt (Nat.sub_le _ _) hlt
      · -- everything was sent, so a frame of overlap is in the window
        obtain ⟨hf, hsome⟩ := Classical.not_not.mp fun h => hbehind (.inr ⟨heq.symm, h⟩)
        have htot : state.emittedRawFrames = rawTotal state := by
          rw [heq, hf, emitUntilRaw_final]
        have hemt : 0 < state.emittedRawFrames := by
          rw [htot]
          unfold rawTotal
          omega
        have hoverlap : 0 < config.streamOverlapTokens :=
          Nat.pos_of_ne_zero fun h => hflush hf ⟨hsome, h, hemt, htot⟩
        rw [← heq]
        exact Nat.sub_lt hemt hoverlap
    have hw : windowStartRaw config state ≤ state.emittedRawFrames := Nat.sub_le _ _
    have hfms : emitUntilRaw config state isFinal ≤ (rawFrames state.delayedRows).length := by
      rw [length_rawFrames]
      exact hk
    rw [decode_window hlt hk]
    dsimp only [Bind.bind, Except.bind]
    rw [trimWindow_eq hlt hj hk rfl]
    by_cases heq : state.emittedRawFrames = emitUntilRaw config state isFinal
    · rw [if_pos ((cut_eq_nil_iff hw hj hfms).mpr heq)]
      refine ⟨_, _, rfl, .stay rfl rfl fun hf => heq.trans ?_⟩
      rw [hf, emitUntilRaw_final]
    · rw [if_neg (fun h => heq ((cut_eq_nil_iff hw hj hfms).mp h))]
      refine ⟨_, _, rfl, rfl, nofun, fun samples hsamples => ?_, fun hf => ?_⟩
      · cases hsamples
        exact ⟨_, hw, Nat.lt_of_le_of_ne hj heq, hk, rfl⟩
      · rw [hf]
        exact emitUntilRaw_final

theorem decodeDelta_flushed (h : TailFlushed config codec state) :
    decodeDelta config codec state true = .error .tooFewRows := by
  obtain ⟨hsome, hoverlap, hpos, htot⟩ := h
  have hcnt : ¬state.delayedRows.length < contract.numCodebooks := by
    rw [htot] at hpos
    unfold rawTotal at hpos
    omega
  have hcodebooks := contract.numCodebooks_pos
  have hstart : windowStartRaw config state = state.emittedRawFrames := by
    rw [windowStartRaw, hoverlap, Nat.sub_zero]
  have htail : ¬(rawTotal state < state.emittedRawFrames ∨ (rawTotal state =
      state.emittedRawFrames ∧ ¬(True ∧ codec.samplesPerFrame.isSome = true))) := by
    rintro (hlt | ⟨-, hnot⟩)
    · exact absurd hlt (not_lt.mpr (le_of_eq htot))
    · exact hnot ⟨trivial, hsome⟩
  dsimp only [decodeDelta]
  rw [if_neg (by omega), if_neg hcnt, if_neg (by simp), emitUntilRaw_final]
  simp only [true_and] at htail ⊢
  rw [if_neg htail, hstart, htot, decode_tail le_rfl]
  rfl

end Windows

/-! ## Runs -/

section Runs

variable {codec} {state : StreamState contract} {out : List (List S)}

/-- What was sent is cut from the raw frames up to the cursor. -/
def Streamed (codec : StreamCodec contract S) (state : StreamState contract)
    (out : List (List S)) : Prop :=
  Cuts codec.toDecoder (rawFrames state.delayedRows) out state.emittedRawFrames

section

variable (h : Streamed codec state out)
include h

theorem Streamed.le : state.emittedRawFrames ≤ rawTotal state := by
  have hle := Cuts.le_length h
  rw [length_rawFrames] at hle
  exact hle

theorem Streamed.ingest (rows : List (CodeRow contract)) :
    Streamed codec { state with delayedRows := state.delayedRows ++ rows } out := by
  show Cuts codec.toDecoder (rawFrames (state.delayedRows ++ rows)) out state.emittedRawFrames
  rw [rawFrames, Delay.dedelay_append, map_append]
  exact Cuts.append h _

theorem Streamed.advance {isFinal : Bool} {next : StreamState contract} {delta : Option (List S)}
    (hcall : Advances codec state isFinal next delta) :
    Streamed codec next (out ++ delta.toList) := by
  unfold Streamed at h ⊢
  rw [hcall.rows]
  cases delta with
  | none =>
    rw [hcall.stays rfl, toList_none, append_nil]
    exact h
  | some samples =>
    obtain ⟨w, hw, hj, hk, rfl⟩ := hcall.moves samples rfl
    exact h.snoc hw hj (by rw [length_rawFrames]; exact hk)

/-- Before the stream is done no event raises. -/
theorem streamEvent_streamed (event : StreamEvent contract) :
    ∃ next sent, streamEvent config codec state event = .ok (next, sent) ∧
      Streamed codec next (out ++ sent) := by
  cases event with
  | latch value => exact ⟨_, [], rfl, by rw [append_nil]; exact h⟩
  | chunk rows =>
    have hrows := h.ingest rows
    obtain ⟨next, delta, hcall, hadvances⟩ :=
      decodeDelta_advances config false hrows.le nofun
    have hnext := hrows.advance hadvances
    simp only [streamEvent, decodeAndEmit, hcall]
    cases delta with
    | none | some samples => exact ⟨_, _, rfl, hnext⟩

theorem streamEvents_streamed (events : List (StreamEvent contract)) :
    ∃ last sent, streamEvents config codec state events = .ok (last, sent) ∧
      Streamed codec last (out ++ sent) := by
  induction events generalizing state out with
  | nil => exact ⟨state, [], rfl, by rw [append_nil]; exact h⟩
  | cons event events ih =>
    obtain ⟨next, sent, hevt, hnext⟩ := streamEvent_streamed config h event
    obtain ⟨last, later, hevents, hlast⟩ := ih hnext
    refine ⟨last, sent ++ later, ?_, by rw [← append_assoc]; exact hlast⟩
    simp only [streamEvents, hevt, hevents, Bind.bind, Except.bind]
    rfl

end

end Runs

/-- The stream emits every raw frame once, in order, exactly where the last call does not find a
    tail that holds too few rows. -/
theorem higgs_emits_once (events : List (StreamEvent contract)) :
    EmitsOnce config codec events ↔
      ∀ state sent, streamEvents config codec {} events = .ok (state, sent) →
        ¬TailFlushed config codec state := by
  constructor
  · rintro ⟨state, sent, last, delta, hevents, hcall, -⟩ state' sent' hevents' hflushed
    cases hevents.symm.trans hevents'
    rw [decodeDelta_flushed hflushed] at hcall
    cases hcall
  · intro hflush
    have hstart : Streamed codec ({} : StreamState contract) [] := Cuts.nil
    obtain ⟨state, sent, hevents, hstate⟩ :=
      streamEvents_streamed config hstart events
    obtain ⟨last, delta, hcall, hadvances⟩ :=
      decodeDelta_advances config true hstate.le fun _ => hflush state sent hevents
    have hlast := hstate.advance hadvances
    refine ⟨state, sent, last, delta, hevents, hcall, ?_⟩
    unfold Streamed at hlast
    rw [hadvances.rows, hadvances.ends rfl] at hlast
    exact hlast

end Scheduler

/-! ## A stream with no overlap -/

/-- No overlap and no holdback. -/
def plainConfig : StreamConfig where
  streamStride := 2
  streamFollowupStride := 1
  defaultInitialChunkFrames := 0
  streamOverlapTokens := 0
  streamHoldbackTokens := 0
  streamStride_pos := Nat.two_pos
  streamFollowupStride_pos := Nat.one_pos

def pairContract : StreamContract where
  numCodebooks := 2
  codebookSize := 10
  numCodebooks_pos := Nat.two_pos
  codebookSize_gt := by decide

/-- One sample for a frame: the code of its first codebook. -/
def firstCodeCodec : StreamCodec pairContract ℤ where
  decode frames := frames.map fun frame => frame ⟨0, Nat.two_pos⟩
  hop := 1
  hop_pos := Nat.one_pos
  length_decode frames := by rw [List.length_map, Nat.mul_one]
  samplesPerFrame := some 1
  samplesPerFrame_eq k hk := (some.inj hk).symm

def twoRows : List (CodeRow pairContract) := [fun _ => 3, fun _ => 4]

/-- Both rows arrive, their frame is sent, and the stream ends. -/
theorem plain_stream_raises :
    ¬EmitsOnce plainConfig firstCodeCodec [.chunk twoRows] := by
  rintro ⟨state, sent, last, delta, hevents, hcall, -⟩
  have hstream : streamEvents plainConfig firstCodeCodec {} [.chunk twoRows] =
      .ok ({ delayedRows := twoRows, emittedRawFrames := 1, nextDecodeRows := 3,
             hasEmitted := true }, [[3]]) := rfl
  cases hstream.symm.trans hevents
  have hraises : decodeDelta plainConfig firstCodeCodec
      { delayedRows := twoRows, emittedRawFrames := 1, nextDecodeRows := 3, hasEmitted := true }
      true = .error .tooFewRows := rfl
  rw [hraises] at hcall
  cases hcall

end Higgs

end OmniRealtime
