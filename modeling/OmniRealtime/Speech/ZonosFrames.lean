import Mathlib

/-!
# Frames of ZONOS2

What the runner keeps of a request's frames in its pool row: the feedback embedding, the state
machine for the end of the audio, the history ring and the step. A row is updated frame by frame
on the device (`_collect_launch`); the functions of all frames stand beside it. Codes of one
frame are a list, one for each codebook.

1. `rowAfter_generationStep`, `rowAfter_repHist`, `rowAfter_repLen`, `recordedEos_rowAfter`: what
   the row holds is a function of the frames.
2. `prefillEmbeds_eq`: the embeddings of a prefill that goes to the end of the prompt.
-/

namespace OmniRealtime

open List Option

abbrev ZonosFrame := List Int

/-- The parts of the model the runner calls, and its sizes. No request sets the repetition window
    or codebooks. -/
structure ZonosModel (E S : Type) where
  nCodebooks : Nat
  eoaId : Int
  textVocab : Int
  codebookSize : Int
  repetitionWindow : Nat
  repetitionCodebooks : Nat
  zero : E
  /-- `embed_frames`, on one row -/
  embedFrame : List Int → E
  /-- `speaker_projection` after `speaker_lda_projection` -/
  projectSpeaker : S → E

structure PoolRow (E : Type) where
  feedbackEmbed : E
  eosFrameSet : Bool
  eosFrameVal : Int
  eosCountdown : Int
  generationStep : Int
  repHist : List ZonosFrame
  repLen : Nat
  deriving DecidableEq

def repRing : Nat := 64

namespace ZonosModel

variable {E S : Type} (m : ZonosModel E S)

def resetRow : PoolRow E where
  feedbackEmbed := m.zero
  eosFrameSet := false
  eosFrameVal := 0
  eosCountdown := 0
  generationStep := 0
  repHist := List.replicate repRing (List.replicate m.nCodebooks (-1))
  repLen := 0

/-- The embedding of a sampled frame, its text column padded. -/
def feedback (codes : ZonosFrame) : E := m.embedFrame (codes ++ [m.textVocab])

/-- The rightmost codebook with the end-of-audio code; 0 where there is none. -/
def lastHit (codes : ZonosFrame) : Nat :=
  (codes.zipIdx.map fun p => if p.1 = m.eoaId then p.2 else 0).foldl max 0

/-- The update of one row in `_collect_launch`. -/
def collect (row : PoolRow E) (codes : ZonosFrame) : PoolRow E :=
  let firstSet := decide (m.eoaId ∈ codes) && !row.eosFrameSet
  let eosFrameSet := row.eosFrameSet || firstSet
  let countdown := if firstSet then (m.nCodebooks : Int) + 1 else row.eosCountdown
  { feedbackEmbed := m.feedback codes
    eosFrameSet := eosFrameSet
    eosFrameVal := if firstSet then max (row.generationStep - m.lastHit codes) 0
      else row.eosFrameVal
    eosCountdown := if eosFrameSet && decide (0 < countdown) then countdown - 1 else countdown
    generationStep := row.generationStep + 1
    repHist := row.repHist.drop 1 ++ [codes]
    repLen := min (row.repLen + 1) repRing }

/-- What a launch says of the end: `eos_frame_set` and `eos_frame_val`. -/
def recordedEos (row : PoolRow E) : Option Int :=
  if row.eosFrameSet then some row.eosFrameVal else none

/-- The request is told to stop. -/
def finished (row : PoolRow E) : Bool := row.eosFrameSet && decide (row.eosCountdown ≤ 0)

/-! ## What is read of the history -/

/-- `ring[:, -w:]`. -/
def lastFrames (w : Nat) (hist : List ZonosFrame) : List ZonosFrame :=
  if w = 0 then hist else hist.drop (hist.length - w)

/-- `_rep_window`, for each codebook. -/
def repWindow (hist : List ZonosFrame) : List (List Int) :=
  (List.range m.nCodebooks).map fun c =>
    (lastFrames m.repetitionWindow hist).map fun codes =>
      if c < min m.repetitionCodebooks m.nCodebooks ∧ codes.getD c (-1) < m.codebookSize then
        codes.getD c (-1)
      else -1

def breakRun : Nat := 8

/-- `_break_frame_loops`: the token of the first codebook that is masked. -/
def breakToken (hist : List ZonosFrame) (repLen : Nat) : Option Int :=
  let last := hist.getLastD []
  if (lastFrames breakRun hist).all (· = last) ∧ breakRun ≤ repLen ∧ 0 ≤ last.headD (-1) then
    some (last.headD (-1))
  else none

/-! ## As functions of all frames -/

def rowAfter (frames : List ZonosFrame) : PoolRow E := frames.foldl m.collect m.resetRow

/-- The last frames, with padding before the first. -/
def history (frames : List ZonosFrame) : List ZonosFrame :=
  (List.replicate repRing (List.replicate m.nCodebooks (-1)) ++ frames).drop frames.length

/-- Where the audio ends: the first frame with an end-of-audio code, moved back by the delay of
    the codebook. -/
def eosFrame (frames : List ZonosFrame) : Option Int :=
  (frames.zipIdx.find? fun p => decide (m.eoaId ∈ p.1)).map fun p =>
    max ((p.2 : Int) - m.lastHit p.1) 0

@[simp] theorem rowAfter_nil : m.rowAfter [] = m.resetRow := rfl

section

variable (frames : List ZonosFrame)

theorem rowAfter_snoc (codes : ZonosFrame) :
    m.rowAfter (frames ++ [codes]) = m.collect (m.rowAfter frames) codes := by
  rw [rowAfter, foldl_append]
  rfl

theorem rowAfter_generationStep : (m.rowAfter frames).generationStep = frames.length := by
  induction frames using List.reverseRecOn with
  | nil => rfl
  | append_singleton frames codes ih =>
    rw [rowAfter_snoc]
    show (m.rowAfter frames).generationStep + 1 = _
    rw [ih, length_append]
    rfl

theorem rowAfter_repLen : (m.rowAfter frames).repLen = min frames.length repRing := by
  induction frames using List.reverseRecOn with
  | nil => rfl
  | append_singleton frames codes ih =>
    rw [rowAfter_snoc]
    show min ((m.rowAfter frames).repLen + 1) repRing = _
    rw [ih, length_append, length_singleton]
    omega

theorem rowAfter_repHist : (m.rowAfter frames).repHist = m.history frames := by
  induction frames using List.reverseRecOn with
  | nil => rfl
  | append_singleton frames codes ih =>
    rw [rowAfter_snoc]
    show (m.rowAfter frames).repHist.drop 1 ++ [codes] = _
    rw [ih, history, history, drop_drop, ← append_assoc, length_append, length_singleton]
    exact (drop_append_of_le_length (by simp [repRing])).symm

/-- The end that a launch records is that of the frames so far. -/
theorem recordedEos_rowAfter : recordedEos (m.rowAfter frames) = m.eosFrame frames := by
  induction frames using List.reverseRecOn with
  | nil => rfl
  | append_singleton frames codes ih =>
    have hfind : m.eosFrame (frames ++ [codes]) = (m.eosFrame frames).or
        (if m.eoaId ∈ codes then some (max ((frames.length : Int) - m.lastHit codes) 0)
          else none) := by
      unfold eosFrame
      rw [zipIdx_append, find?_append, map_or]
      congr 1
      by_cases hit : m.eoaId ∈ codes
      · simp [hit]
      · simp [hit]
    rw [rowAfter_snoc, hfind, ← ih]
    have hst := rowAfter_generationStep m frames
    generalize m.rowAfter frames = row at hst ⊢
    cases hset : row.eosFrameSet with
    | true => simp [recordedEos, collect, hset]
    | false =>
      by_cases hit : m.eoaId ∈ codes
      · simp [recordedEos, collect, hset, hit, hst]
      · simp [recordedEos, collect, hset, hit]

end

end ZonosModel

/-! ## Prompts -/

/-- The prompt of a request. -/
structure ZonosPrompt (S : Type) where
  promptRows : List (List Int)
  speakerEmb : Option S
  speakerPosition : Int := -1

namespace ZonosModel

variable {E S : Type} (m : ZonosModel E S) (prompt : ZonosPrompt S)

/-- `_build_prefill_embeds`, for one request: the tokens from `prefixLen` on, `reqLen` of them. -/
def prefillEmbeds (prompt : ZonosPrompt S) (prefixLen reqLen : Nat) : List E :=
  let emb := ((prompt.promptRows.drop prefixLen).take reqLen).map m.embedFrame
  match prompt.speakerEmb with
  | none => emb
  | some speaker =>
    let pos := prompt.speakerPosition - prefixLen
    if 0 ≤ pos ∧ pos < reqLen then emb.set pos.toNat (m.projectSpeaker speaker) else emb

/-- The embeddings of a prompt. -/
def promptEmbeds (prompt : ZonosPrompt S) : List E :=
  let emb := prompt.promptRows.map m.embedFrame
  match prompt.speakerEmb with
  | none => emb
  | some speaker =>
    if 0 ≤ prompt.speakerPosition then
      emb.set prompt.speakerPosition.toNat (m.projectSpeaker speaker)
    else emb

/-- The embeddings of a prompt and the frames behind it. -/
def sequenceEmbeds (prompt : ZonosPrompt S) (frames : List ZonosFrame) : List E :=
  m.promptEmbeds prompt ++ frames.map m.feedback

theorem promptEmbeds_length : (m.promptEmbeds prompt).length = prompt.promptRows.length := by
  unfold promptEmbeds
  split
  · simp
  · dsimp only
    split <;> simp

theorem prefillEmbeds_eq (prefixLen : Nat) :
    m.prefillEmbeds prompt prefixLen (prompt.promptRows.length - prefixLen) =
      (m.promptEmbeds prompt).drop prefixLen := by
  have htake : (prompt.promptRows.drop prefixLen).take (prompt.promptRows.length - prefixLen) =
      prompt.promptRows.drop prefixLen :=
    take_of_length_le (by simp)
  unfold prefillEmbeds promptEmbeds
  rw [htake]
  cases prompt.speakerEmb with
  | none => simp
  | some speaker =>
    dsimp only
    have hlen : (prompt.promptRows.map m.embedFrame).length = prompt.promptRows.length := by simp
    rw [map_drop]
    generalize prompt.promptRows.map m.embedFrame = emb at hlen ⊢
    by_cases hpos : 0 ≤ prompt.speakerPosition
    · rw [if_pos hpos, drop_set]
      obtain ⟨pos, hpos⟩ := Int.eq_ofNat_of_zero_le hpos
      rw [hpos, Int.toNat_natCast]
      by_cases hbef : pos < prefixLen
      · rw [if_pos hbef, if_neg (by omega)]
      · rw [if_neg hbef]
        have hsub : ((pos : Int) - prefixLen).toNat = pos - prefixLen := by omega
        by_cases hin : pos - prefixLen < prompt.promptRows.length - prefixLen
        · rw [if_pos (by omega), hsub]
        · rw [if_neg (by omega), set_eq_of_length_le]
          rw [length_drop, hlen]
          omega
    · rw [if_neg hpos, if_neg (by omega)]

end ZonosModel

end OmniRealtime
