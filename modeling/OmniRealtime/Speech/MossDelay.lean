import Mathlib

/-!
# The MOSS-TTS Delay state machine

`models/moss_tts/model_runner.py` and `_initialize_generation_state` of `request_builders.py`.
A row has a text token and one code for each of `n_vq` codebooks. Text and codes come from the
samplers, which the runner masks; the runner itself forces the delay tail and the end of the
audio.

1. `DelayConfig`, `Row`, `DelayState`: the token ids, the rows, the state of one request.
2. `sampleRow`: one step of `_sample_rows`, given what the samplers returned.
3. `drawable`: what the masked samplers can return.
4. `generate`: the rows of a generation, up to `im_end` or to where it is cut off.
5. `AudioPrompt`: a prompt whose assistant prefix is in the delay pattern.
-/

namespace OmniRealtime

namespace Moss

/-- The token ids and sizes of the checkpoint's config. -/
structure DelayConfig where
  nVq : ℕ
  padTokenId : ℕ
  imStartTokenId : ℕ
  imEndTokenId : ℕ
  audioStartTokenId : ℕ
  audioEndTokenId : ℕ
  audioAssistantGenSlotTokenId : ℕ
  audioAssistantDelaySlotTokenId : ℕ
  audioPadCode : ℕ
  nVq_pos : 0 < nVq
  distinct : [imEndTokenId, audioStartTokenId, audioEndTokenId, audioAssistantGenSlotTokenId,
    audioAssistantDelaySlotTokenId].Nodup

/-- The codes of one row, or of one frame. -/
abbrev Codes (n : ℕ) := Fin n → ℕ

structure Row (n : ℕ) where
  text : ℕ
  codes : Codes n

/-- `delay_state`: `delayed` is `none` where the tensor has `INT64_MAX`. -/
structure DelayState where
  audioLength : ℕ
  delayed : Option ℕ
  isAudio : Bool
deriving DecidableEq

/-- The state of a request whose prompt has no audio to continue. -/
def DelayState.idle : DelayState := ⟨0, none, false⟩

section Machine

variable (cfg : DelayConfig)

/-- `audio_mask & ~is_audio_eos`. -/
def DelayState.audioMask (st : DelayState) : Bool :=
  st.isAudio && st.delayed != some cfg.nVq

/-- `delayed > n_vq`: the text token is sampled and not forced. -/
def DelayState.samplesText (st : DelayState) : Bool :=
  match st.delayed with
  | none => true
  | some d => decide (cfg.nVq < d)

/-- The text token of the next row, `text` where it is sampled. -/
def DelayState.nextText (st : DelayState) (text : ℕ) : ℕ :=
  match st.delayed with
  | none => text
  | some d =>
    if d < cfg.nVq then cfg.audioAssistantDelaySlotTokenId
    else if d = cfg.nVq then cfg.audioEndTokenId
    else text

/-- `sampling_audio_mask`: `pre_audio & post_audio` for one channel. -/
def DelayState.samplesCode (st : DelayState) (c : ℕ) : Bool :=
  decide (c < st.audioLength) &&
    match st.delayed with
    | none => true
    | some d => decide (d ≤ c)

/-- `delayed` behind a row: the tail is entered, counted and left. -/
def DelayState.nextDelayed (st : DelayState) (nextText : ℕ) : Option ℕ :=
  let entered :=
    if st.delayed = none ∧ nextText = cfg.audioAssistantDelaySlotTokenId then some 0
    else st.delayed
  match entered with
  | none => none
  | some d => if cfg.nVq < d + 1 then none else some (d + 1)

/-- `audio_lengths` behind a row. -/
def DelayState.nextAudioLength (st : DelayState) (nextText : ℕ) : ℕ :=
  if nextText = cfg.audioEndTokenId then 0
  else if nextText = cfg.audioStartTokenId ∨ nextText = cfg.audioAssistantGenSlotTokenId ∨
      nextText = cfg.audioAssistantDelaySlotTokenId then st.audioLength + 1
  else st.audioLength

/-- One step of `_sample_rows` for one request: `text` and `codes` are what the samplers return
where the row is sampled. -/
def sampleRow (st : DelayState) (text : ℕ) (codes : Codes cfg.nVq) : Row cfg.nVq × DelayState :=
  let nextText := st.nextText cfg text
  let nextAudio : Codes cfg.nVq :=
    fun c => if st.samplesCode c then codes c else cfg.audioPadCode
  let isAudio :=
    (st.audioMask cfg || nextText == cfg.audioStartTokenId) && nextText != cfg.imEndTokenId
  (⟨nextText, nextAudio⟩,
    ⟨st.nextAudioLength cfg nextText, st.nextDelayed cfg nextText, isAudio⟩)

/-- The text tokens that the masks leave at a step. In audio only the two slots are left, in the
compact head as in the full one; a first row is no delay slot, and the first `n_vq + 1` rows do
not end the request. -/
def textAllowed (st : DelayState) (steps text : ℕ) : Bool :=
  (if st.audioMask cfg then
      text == cfg.audioAssistantGenSlotTokenId || text == cfg.audioAssistantDelaySlotTokenId
    else
      !(List.contains [cfg.padTokenId, cfg.audioAssistantGenSlotTokenId,
        cfg.audioAssistantDelaySlotTokenId, cfg.audioEndTokenId] text)) &&
    !(steps == 0 && text == cfg.audioAssistantDelaySlotTokenId) &&
    !(decide (steps ≤ cfg.nVq) && text == cfg.imEndTokenId)

/-- What the samplers return for one row. -/
structure Draw (n : ℕ) where
  text : ℕ
  codes : Codes n

/-- The masked samplers can return it: codes at and above the pad code are masked out. -/
def drawable (st : DelayState) (steps : ℕ) (draw : Draw cfg.nVq) : Bool :=
  (!st.samplesText cfg || textAllowed cfg st steps draw.text) &&
    decide (∀ c, draw.codes c < cfg.audioPadCode)

/-- The output rows of a generation that is at step `steps`. A row with `im_end` ends the request
and is not among them; a generation may also be cut off behind any row. -/
def generate : DelayState → ℕ → List (Draw cfg.nVq) → Option (List (Row cfg.nVq))
  | _, _, [] => some []
  | st, steps, draw :: draws =>
    if drawable cfg st steps draw then
      let (row, next) := sampleRow cfg st draw.text draw.codes
      if row.text = cfg.imEndTokenId then some []
      else (generate next (steps + 1) draws).map (row :: ·)
    else none

/-- The rows that the machine gives in the middle of a generation, and the state they lead to. -/
def replay : DelayState → List (Draw cfg.nVq) → Option (List (Row cfg.nVq) × DelayState)
  | st, [] => some ([], st)
  | st, draw :: draws =>
    if drawable cfg st (cfg.nVq + 1) draw then
      let (row, next) := sampleRow cfg st draw.text draw.codes
      (replay next draws).map fun (rows, last) => (row :: rows, last)
    else none

end Machine

/-! ## The prompt -/

section Prompt

variable (cfg : DelayConfig)

/-- `_last_equal`: the last row with this text token. -/
def lastEqual {n : ℕ} (rows : List (Row n)) (value : ℕ) : Option ℕ :=
  (List.range rows.length).reverse.find? fun i => (rows[i]?.map Row.text) == some value

/-- `assistant_prefix_rows`: the prompt behind the header of its last turn. -/
def assistantPrefixRows (promptRows : List (Row cfg.nVq)) : List (Row cfg.nVq) :=
  let start :=
    match lastEqual promptRows cfg.imStartTokenId with
    | none => 2
    | some i => i + 3
  promptRows.drop (min start promptRows.length)

/-- The delay state that `_initialize_generation_state` reads off the prompt. -/
def initialState (promptRows : List (Row cfg.nVq)) : DelayState :=
  match promptRows.getLast?, lastEqual promptRows cfg.audioStartTokenId with
  | some last, some i =>
    if last.text = cfg.audioStartTokenId ∨ last.text = cfg.audioAssistantGenSlotTokenId then
      ⟨promptRows.length - i, none, true⟩
    else .idle
  | _, _ => .idle

/-- A prompt whose assistant prefix, with audio to continue or with none, is in the delay pattern:
its rows are rows of the machine, and generation starts in the state that they lead to. -/
structure AudioPrompt where
  promptRows : List (Row cfg.nVq)
  draws : List (Draw cfg.nVq)
  pattern : replay cfg .idle draws = some (assistantPrefixRows cfg promptRows,
    initialState cfg promptRows)

end Prompt

end Moss

end OmniRealtime
