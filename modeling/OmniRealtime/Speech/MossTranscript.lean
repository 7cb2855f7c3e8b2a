import OmniRealtime.Speech.MossStream

/-!
# Transcripts of the Delay machine

1. `Payload`, `Transcript`: the shape of the rows between a start of audio and its end, and of
   all rows.
2. `Steps.parse`: the rows of the machine, prompt and generation together, are a transcript.
3. `Payload.live`, `Payload.dead`: every window of a payload is a whole frame, and the last
   `n_vq - 1` rows of a complete payload open no frame.
-/

namespace OmniRealtime

open List Option

namespace Moss

open Delay DelayState

variable {cfg : DelayConfig}

/-! ## The grammar -/

/-- The row carries codes for the channels from `i` to `j`. -/
def Spans (cfg : DelayConfig) (i j : ℕ) (codes : Codes cfg.nVq) : Prop :=
  ∀ c, if i ≤ c.1 ∧ c.1 ≤ j then codes c < cfg.audioPadCode else codes c = cfg.audioPadCode

/-- The rest of a payload. The next row is its row `j`; `i` rows of the delay tail have been put
out. `whole` says that the tail has been put out to its end. -/
inductive Payload (cfg : DelayConfig) : ℕ → ℕ → List (Row cfg.nVq) → (whole : Bool) → Prop
  | cut (i j : ℕ) : Payload cfg i j [] false
  | close (j : ℕ) : Payload cfg cfg.nVq j [] true
  | gen {j : ℕ} {row : Row cfg.nVq} {rest : List (Row cfg.nVq)} {whole : Bool} :
      row.text = cfg.audioAssistantGenSlotTokenId → Spans cfg 0 j row.codes →
      Payload cfg 0 (j + 1) rest whole → Payload cfg 0 j (row :: rest) whole
  | delay {i j : ℕ} {row : Row cfg.nVq} {rest : List (Row cfg.nVq)} {whole : Bool} :
      i < cfg.nVq → row.text = cfg.audioAssistantDelaySlotTokenId → Spans cfg i j row.codes →
      Payload cfg (i + 1) (j + 1) rest whole → Payload cfg i j (row :: rest) whole

/-- A row without audio, with this text. -/
def Silent (cfg : DelayConfig) (row : Row cfg.nVq) : Prop := ∀ c, row.codes c = cfg.audioPadCode

/-- A text token that is none of those around audio. -/
structure PlainText (cfg : DelayConfig) (text : ℕ) : Prop where
  start : text ≠ cfg.audioStartTokenId
  stop : text ≠ cfg.audioEndTokenId
  gen : text ≠ cfg.audioAssistantGenSlotTokenId
  delay : text ≠ cfg.audioAssistantDelaySlotTokenId

/-- Rows of the machine from a state without audio, with their payloads in order. -/
inductive Transcript (cfg : DelayConfig) :
    List (Row cfg.nVq) → List (List (Row cfg.nVq)) → Prop
  | nil : Transcript cfg [] []
  | text {row : Row cfg.nVq} {rest : List (Row cfg.nVq)} {payloads : List (List (Row cfg.nVq))} :
      PlainText cfg row.text → Silent cfg row → Transcript cfg rest payloads →
      Transcript cfg (row :: rest) payloads
  | audio {first last : Row cfg.nVq} {payload rest : List (Row cfg.nVq)}
      {payloads : List (List (Row cfg.nVq))} :
      first.text = cfg.audioStartTokenId → Silent cfg first → Payload cfg 0 0 payload true →
      last.text = cfg.audioEndTokenId → Silent cfg last → Transcript cfg rest payloads →
      Transcript cfg (first :: (payload ++ last :: rest)) (payload :: payloads)
  | cut {first : Row cfg.nVq} {payload : List (Row cfg.nVq)} :
      first.text = cfg.audioStartTokenId → Silent cfg first → Payload cfg 0 0 payload false →
      Transcript cfg (first :: payload) [payload]

/-! ## The machine's rows -/

/-- Rows that the machine puts out between two states. -/
inductive Steps (cfg : DelayConfig) : DelayState → List (Row cfg.nVq) → DelayState → Prop
  | nil (st : DelayState) : Steps cfg st [] st
  | cons {st last : DelayState} {rest : List (Row cfg.nVq)} (draw : Draw cfg.nVq) :
      drawable cfg st (cfg.nVq + 1) draw = true →
      Steps cfg (sampleRow cfg st draw.text draw.codes).2 rest last →
      Steps cfg st ((sampleRow cfg st draw.text draw.codes).1 :: rest) last

/-- The masks of a later step leave what those of an early step left. -/
theorem drawable_late {st : DelayState} {steps : ℕ} {draw : Draw cfg.nVq}
    (h : drawable cfg st steps draw = true) : drawable cfg st (cfg.nVq + 1) draw = true := by
  simp only [drawable, textAllowed, Bool.and_eq_true, Bool.or_eq_true] at h ⊢
  obtain ⟨ht, hcodes⟩ := h
  refine ⟨ht.imp id fun ha => ⟨⟨ha.1.1, ?_⟩, ?_⟩, hcodes⟩ <;> simp

namespace Steps

variable {st mid last : DelayState} {rows more : List (Row cfg.nVq)}

theorem append (h : Steps cfg st rows mid) (h' : Steps cfg mid more last) :
    Steps cfg st (rows ++ more) last := by
  induction h with
  | nil => exact h'
  | cons draw hd _ ih => exact .cons draw hd (ih h')

theorem of_replay {draws : List (Draw cfg.nVq)} (h : replay cfg st draws = some (rows, last)) :
    Steps cfg st rows last := by
  induction draws generalizing st rows with
  | nil =>
    cases h
    exact .nil _
  | cons draw draws ih =>
    obtain ⟨hd, h⟩ := ite_none_right_eq_some.mp h
    obtain ⟨⟨rest, _⟩, hr, heq⟩ := map_eq_some_iff.mp h
    cases heq
    exact .cons draw hd (ih hr)

theorem of_generate {draws : List (Draw cfg.nVq)} {steps : ℕ}
    (h : generate cfg st steps draws = some rows) : ∃ last, Steps cfg st rows last := by
  induction draws generalizing st steps rows with
  | nil =>
    cases h
    exact ⟨st, .nil st⟩
  | cons draw draws ih =>
    obtain ⟨hd, h⟩ := ite_none_right_eq_some.mp h
    by_cases hend : (sampleRow cfg st draw.text draw.codes).1.text = cfg.imEndTokenId
    · obtain rfl := some.inj ((if_pos hend).symm.trans h)
      exact ⟨st, .nil st⟩
    · obtain ⟨rest, hr, rfl⟩ := map_eq_some_iff.mp ((if_neg hend).symm.trans h)
      obtain ⟨last, hsteps⟩ := ih hr
      exact ⟨last, .cons draw (drawable_late hd) hsteps⟩

end Steps

/-- The state inside a payload. -/
def phase (i j : ℕ) : DelayState := ⟨j + 1, if i = 0 then none else some i, true⟩

/-! ### The token ids -/

theorem start_ne_end : cfg.audioStartTokenId ≠ cfg.audioEndTokenId := by
  intro h; have := cfg.distinct; simp_all

theorem start_ne_imEnd : cfg.audioStartTokenId ≠ cfg.imEndTokenId := by
  intro h; have := cfg.distinct; simp_all

theorem gen_plain : cfg.audioAssistantGenSlotTokenId ≠ cfg.audioStartTokenId ∧
    cfg.audioAssistantGenSlotTokenId ≠ cfg.audioEndTokenId ∧
    cfg.audioAssistantGenSlotTokenId ≠ cfg.imEndTokenId ∧
    cfg.audioAssistantGenSlotTokenId ≠ cfg.audioAssistantDelaySlotTokenId := by
  have := cfg.distinct
  refine ⟨?_, ?_, ?_, ?_⟩ <;> intro h <;> simp_all

theorem delay_plain : cfg.audioAssistantDelaySlotTokenId ≠ cfg.audioStartTokenId ∧
    cfg.audioAssistantDelaySlotTokenId ≠ cfg.audioEndTokenId ∧
    cfg.audioAssistantDelaySlotTokenId ≠ cfg.imEndTokenId := by
  have := cfg.distinct
  refine ⟨?_, ?_, ?_⟩ <;> intro h <;> simp_all

/-! ### One step in each phase -/

section Phases

variable {st : DelayState} {steps i j : ℕ} {draw : Draw cfg.nVq}

theorem codes_lt (h : drawable cfg st steps draw = true) (c : Fin cfg.nVq) :
    draw.codes c < cfg.audioPadCode :=
  of_decide_eq_true (Bool.and_eq_true_iff.mp h).2 c

theorem text_allowed (h : drawable cfg st steps draw = true)
    (hsample : st.samplesText cfg = true) : textAllowed cfg st steps draw.text = true := by
  have ht := (Bool.and_eq_true_iff.mp h).1
  rw [hsample] at ht
  exact ht

theorem idle_text (h : drawable cfg .idle steps draw = true) :
    draw.text ≠ cfg.audioEndTokenId ∧ draw.text ≠ cfg.audioAssistantGenSlotTokenId ∧
      draw.text ≠ cfg.audioAssistantDelaySlotTokenId := by
  have ha := text_allowed h rfl
  simp only [textAllowed, audioMask, idle, Bool.false_and,
    Bool.false_eq_true, if_false, Bool.and_eq_true, Bool.not_eq_true', contains_eq_mem,
    decide_eq_false_iff_not, mem_cons, not_mem_nil, or_false, not_or] at ha
  exact ⟨ha.1.1.2.2.2, ha.1.1.2.1, ha.1.1.2.2.1⟩

theorem idle_silent : Silent cfg (sampleRow cfg .idle draw.text draw.codes).1 := fun _ => rfl

theorem idle_plain (h : drawable cfg .idle steps draw = true)
    (hsrt : draw.text ≠ cfg.audioStartTokenId) :
    (sampleRow cfg .idle draw.text draw.codes).2 = .idle := by
  obtain ⟨hend, hgen, hdelay⟩ := idle_text h
  simp [sampleRow, idle, nextText, nextAudioLength,
    nextDelayed, audioMask, hsrt, hend, hgen, hdelay]

theorem idle_start (hsrt : draw.text = cfg.audioStartTokenId) :
    (sampleRow cfg .idle draw.text draw.codes).2 = phase 0 0 := by
  simp [sampleRow, idle, nextText, nextAudioLength,
    nextDelayed, audioMask, phase, hsrt, start_ne_end, start_ne_imEnd,
    delay_plain.1.symm]

/-- In audio, before the tail, one of the two slots is sampled. -/
theorem phase_text (h : drawable cfg (phase 0 j) steps draw = true) :
    draw.text = cfg.audioAssistantGenSlotTokenId ∨
      draw.text = cfg.audioAssistantDelaySlotTokenId := by
  have ha := text_allowed h rfl
  simp only [textAllowed, audioMask, phase, Bool.and_eq_true] at ha
  simpa using ha.1.1

theorem phase_spans (h : drawable cfg (phase i j) steps draw = true) :
    Spans cfg i j (sampleRow cfg (phase i j) draw.text draw.codes).1.codes := by
  intro c
  have hlt := codes_lt h c
  have hsample : (phase i j).samplesCode c = decide (i ≤ c.1 ∧ c.1 ≤ j) := by
    cases i with
    | zero => simp [phase, samplesCode, Nat.lt_succ_iff]
    | succ i => simp [phase, samplesCode, Nat.lt_succ_iff, and_comm]
  simp only [sampleRow, hsample]
  by_cases hspan : i ≤ c.1 ∧ c.1 ≤ j
  · simpa [hspan] using hlt
  · simp [hspan]

theorem phase_gen (ht : draw.text = cfg.audioAssistantGenSlotTokenId) :
    (sampleRow cfg (phase 0 j) draw.text draw.codes).2 = phase 0 (j + 1) := by
  simp [sampleRow, phase, nextText, nextAudioLength,
    nextDelayed, audioMask, ht, gen_plain]

theorem phase_enter (ht : draw.text = cfg.audioAssistantDelaySlotTokenId) :
    (sampleRow cfg (phase 0 j) draw.text draw.codes).2 = phase 1 (j + 1) := by
  have hpos := cfg.nVq_pos
  simp [sampleRow, phase, nextText, nextAudioLength,
    nextDelayed, audioMask, ht, delay_plain, Nat.not_lt.mpr hpos]

theorem phase_tail (draw : Draw cfg.nVq) (j : ℕ) (hi : 0 < i) (hlt : i < cfg.nVq) :
    (sampleRow cfg (phase i j) draw.text draw.codes).1.text = cfg.audioAssistantDelaySlotTokenId ∧
      (sampleRow cfg (phase i j) draw.text draw.codes).2 = phase (i + 1) (j + 1) := by
  simp [sampleRow, phase, nextText, nextAudioLength,
    nextDelayed, audioMask, delay_plain, hlt, Nat.ne_of_gt hi,
    ne_of_lt hlt, not_lt.mpr (Nat.succ_le_of_lt hlt)]

/-- Behind the tail the end of the audio is forced. -/
theorem phase_end (draw : Draw cfg.nVq) (j : ℕ) :
    (sampleRow cfg (phase cfg.nVq j) draw.text draw.codes).1.text = cfg.audioEndTokenId ∧
      (sampleRow cfg (phase cfg.nVq j) draw.text draw.codes).2 = .idle := by
  have hpos := Nat.ne_of_gt cfg.nVq_pos
  simp [sampleRow, phase, idle, nextText, nextAudioLength,
    nextDelayed, audioMask, hpos, start_ne_end.symm]

theorem phase_end_silent : Silent cfg (sampleRow cfg (phase cfg.nVq j) draw.text draw.codes).1 := by
  intro c
  have hpos := Nat.ne_of_gt cfg.nVq_pos
  simp [sampleRow, phase, samplesCode, hpos, not_le.mpr c.2]

end Phases

/-! ### All rows -/

/-- The rows of the machine inside a payload: its rest, and what follows it. -/
inductive PayloadRest (cfg : DelayConfig) (i j : ℕ) (rows : List (Row cfg.nVq)) : Prop
  | cut : Payload cfg i j rows false → PayloadRest cfg i j rows
  | whole {payload rest : List (Row cfg.nVq)} {last : Row cfg.nVq}
      {payloads : List (List (Row cfg.nVq))} :
      rows = payload ++ last :: rest → Payload cfg i j payload true →
      last.text = cfg.audioEndTokenId → Silent cfg last → Transcript cfg rest payloads →
      PayloadRest cfg i j rows

theorem PayloadRest.cons {i j i' j' : ℕ} {row : Row cfg.nVq} {rest : List (Row cfg.nVq)}
    (h : PayloadRest cfg i' j' rest)
    (hrow : ∀ payload whole, Payload cfg i' j' payload whole →
      Payload cfg i j (row :: payload) whole) : PayloadRest cfg i j (row :: rest) := by
  cases h with
  | cut hp => exact .cut (hrow _ _ hp)
  | whole heq hp ht hsilent hr =>
    exact .whole (congrArg (row :: ·) heq) (hrow _ _ hp) ht hsilent hr

/-- Rows of the machine are a transcript; inside a payload they finish it first. -/
theorem Steps.parse {st last : DelayState} {rows : List (Row cfg.nVq)}
    (h : Steps cfg st rows last) :
    (st = .idle → ∃ payloads, Transcript cfg rows payloads) ∧
      ∀ i j, i ≤ cfg.nVq → st = phase i j → PayloadRest cfg i j rows := by
  induction h with
  | nil st => exact ⟨fun _ => ⟨[], .nil⟩, fun i j _ _ => .cut (.cut i j)⟩
  | @cons st last rest draw hd hr ih =>
    refine ⟨?_, fun i j hi => ?_⟩
    · rintro rfl
      by_cases hsrt : draw.text = cfg.audioStartTokenId
      · cases ih.2 0 0 (Nat.zero_le _) (idle_start hsrt) with
        | cut hp => exact ⟨_, .cut hsrt idle_silent hp⟩
        | whole heq hp ht hsilent htranscript =>
          rw [heq]
          exact ⟨_, .audio hsrt idle_silent hp ht hsilent htranscript⟩
      · obtain ⟨payloads, htranscript⟩ := ih.1 (idle_plain hd hsrt)
        obtain ⟨hend, hgen, hdelay⟩ := idle_text hd
        exact ⟨payloads, .text ⟨hsrt, hend, hgen, hdelay⟩ idle_silent htranscript⟩
    · rintro rfl
      have hs := phase_spans hd
      rcases Nat.eq_zero_or_pos i with rfl | hpos
      · rcases phase_text hd with ht | ht
        · exact (ih.2 0 (j + 1) (Nat.zero_le _) (phase_gen ht)).cons
            fun _ _ hp => .gen ht hs hp
        · exact (ih.2 1 (j + 1) cfg.nVq_pos (phase_enter ht)).cons
            fun _ _ hp => .delay cfg.nVq_pos ht hs hp
      · rcases Nat.lt_or_eq_of_le hi with hlt | rfl
        · obtain ⟨ht, hnext⟩ := phase_tail draw j hpos hlt
          exact (ih.2 (i + 1) (j + 1) hlt hnext).cons
            fun _ _ hp => .delay hlt ht hs hp
        · obtain ⟨ht, hnext⟩ := phase_end draw j
          obtain ⟨payloads, htranscript⟩ := ih.1 hnext
          exact .whole (nil_append _).symm (.close j) ht phase_end_silent htranscript

/-! ## The frames of a payload -/

namespace Payload

variable {i j : ℕ} {rows : List (Row cfg.nVq)} {whole : Bool}

section

variable (h : Payload cfg i j rows whole)
include h

theorem text :
    ∀ row ∈ rows, row.text = cfg.audioAssistantGenSlotTokenId ∨
      row.text = cfg.audioAssistantDelaySlotTokenId := by
  induction h with
  | cut | close => intro row hrow; exact absurd hrow not_mem_nil
  | gen ht _ _ ih =>
    intro row hrow
    rcases mem_cons.mp hrow with rfl | hrow
    · exact .inl ht
    · exact ih row hrow
  | delay _ ht _ _ ih =>
    intro row hrow
    rcases mem_cons.mp hrow with rfl | hrow
    · exact .inr ht
    · exact ih row hrow

/-- Behind `g` rows before the tail the span starts a channel later with every row; its end moves
on from the first row. -/
theorem spans :
    ∃ g, (0 < i → g = 0) ∧ (whole = true → rows.length + i = g + cfg.nVq) ∧
      ∀ (k : ℕ) (hk : k < rows.length), Spans cfg (i + (k - g)) (j + k) rows[k].codes := by
  induction h with
  | cut => exact ⟨0, fun _ => rfl, nofun, nofun⟩
  | close => exact ⟨0, fun _ => rfl, fun _ => rfl, nofun⟩
  | @gen j row rest whole _ hs _ ih =>
    obtain ⟨g, -, hlength, hr⟩ := ih
    refine ⟨g + 1, nofun, fun hw => ?_, fun k hk => ?_⟩
    · have := hlength hw
      rw [length_cons]
      omega
    · cases k with
      | zero => exact (Nat.zero_sub (g + 1)).symm ▸ hs
      | succ k =>
        have hspan := hr k (Nat.lt_of_succ_lt_succ hk)
        rw [add_right_comm j] at hspan
        rw [Nat.add_sub_add_right]
        exact hspan
  | @delay i j row rest whole _ _ hs _ ih =>
    obtain ⟨g, hg, hlength, hr⟩ := ih
    obtain rfl := hg (Nat.succ_pos i)
    refine ⟨0, fun _ => rfl, fun hw => ?_, fun k hk => ?_⟩
    · rw [← hlength hw, length_cons]
      omega
    · cases k with
      | zero => exact hs
      | succ k =>
        have hspan := hr k (Nat.lt_of_succ_lt_succ hk)
        rw [Nat.sub_zero, add_right_comm i, add_right_comm j] at hspan
        exact hspan

theorem length_of_tail (hi : 0 < i) :
    rows.length ≤ cfg.nVq - i ∧ (whole = true → rows.length = cfg.nVq - i) := by
  induction h with
  | cut => exact ⟨Nat.zero_le _, nofun⟩
  | close => simp
  | gen => exact absurd hi (lt_irrefl 0)
  | delay hlt _ _ _ ih =>
    obtain ⟨hle, heq⟩ := ih (Nat.succ_pos _)
    rw [length_cons]
    refine ⟨by omega, fun hw => ?_⟩
    rw [heq hw]
    omega

end

/-- A window that starts before the tail is a whole frame. -/
theorem first_frame (h : Payload cfg 0 j rows whole)
    (hfit : cfg.nVq ≤ (rows.map Row.codes).length) :
    ∀ c, Delay.diagonal (rows.map Row.codes) hfit c < cfg.audioPadCode := by
  intro c
  rw [length_map] at hfit
  obtain ⟨g, -, -, hs⟩ := h.spans
  have hcode := hs c.1 (lt_of_lt_of_le c.2 hfit) c
  rw [if_pos ⟨by omega, Nat.le_add_left _ _⟩] at hcode
  simpa [diagonal] using hcode

end Payload

theorem nonPad_of_lt {frame : Codes cfg.nVq} (h : ∀ c, frame c < cfg.audioPadCode) :
    nonPad cfg.audioPadCode frame = true := by
  have hpad : isPad cfg.audioPadCode frame = false :=
    decide_eq_false fun hall => absurd (hall ⟨0, cfg.nVq_pos⟩) (ne_of_lt (h _))
  rw [nonPad, hpad]
  exact decide_eq_true h

theorem dead_of_pad {codes : Codes cfg.nVq} (h : ∀ c : Fin cfg.nVq, c.1 = 0 →
    codes c = cfg.audioPadCode) : Delay.Dead (nonPad cfg.audioPadCode) codes := by
  intro frame hf
  have hfst : frame ⟨0, cfg.nVq_pos⟩ = cfg.audioPadCode :=
    (hf ⟨0, cfg.nVq_pos⟩ rfl).trans (h _ rfl)
  have hcomplete : isComplete cfg.audioPadCode frame = false :=
    decide_eq_false fun hall => absurd (hall ⟨0, cfg.nVq_pos⟩) (by rw [hfst]; exact lt_irrefl _)
  rw [nonPad, hcomplete, Bool.and_false]

theorem Silent.dead {row : Row cfg.nVq} (h : Silent cfg row) :
    Delay.Dead (nonPad cfg.audioPadCode) row.codes := dead_of_pad fun c _ => h c

/-- The frames of a payload. -/
def frames (rows : List (Row cfg.nVq)) : List (Codes cfg.nVq) :=
  Delay.dedelay (rows.map Row.codes)

theorem frames_eq_nil_iff {rows : List (Row cfg.nVq)} :
    frames rows = [] ↔ rows.length < cfg.nVq := by
  rw [frames, dedelay_eq_nil_iff cfg.nVq_pos, length_map]

namespace Payload

variable {i j : ℕ} {rows : List (Row cfg.nVq)} {whole : Bool}

theorem live (h : Payload cfg 0 j rows whole) :
    ∀ frame ∈ frames rows, nonPad cfg.audioPadCode frame = true := by
  generalize hi : 0 = i at h
  induction h with
  | cut | close => intro frame hf; exact absurd hf not_mem_nil
  | @gen j row rest whole ht hs hr ih =>
    intro frame hf
    rw [frames, map_cons] at hf
    by_cases hfit : cfg.nVq ≤ ((row :: rest).map Row.codes).length
    · rw [dedelay_cons (by exact hfit)] at hf
      rcases mem_cons.mp hf with rfl | hf
      · exact nonPad_of_lt ((Payload.gen ht hs hr).first_frame hfit)
      · exact ih rfl frame hf
    · rw [dedelay_short (by simpa using hfit)] at hf
      exact absurd hf not_mem_nil
  | @delay i j row rest whole hlt ht hs hr _ =>
    subst hi
    intro frame hf
    rw [frames, map_cons] at hf
    have hr' := (hr.length_of_tail one_pos).1
    by_cases hfit : cfg.nVq ≤ ((row :: rest).map Row.codes).length
    · rw [dedelay_cons (by exact hfit)] at hf
      rcases mem_cons.mp hf with rfl | hf
      · exact nonPad_of_lt ((Payload.delay hlt ht hs hr).first_frame hfit)
      · rw [dedelay_short (by rw [length_map]; omega)] at hf
        exact absurd hf not_mem_nil
    · rw [dedelay_short (by simpa using hfit)] at hf
      exact absurd hf not_mem_nil

/-- Rows of the tail have no code in the first channel. -/
theorem dead_of_tail (h : Payload cfg i j rows whole) (hi : 0 < i) :
    ∀ codes ∈ rows.map Row.codes, Delay.Dead (nonPad cfg.audioPadCode) codes := by
  induction h with
  | cut | close => intro codes hcodes; exact absurd hcodes not_mem_nil
  | gen => exact absurd hi (lt_irrefl 0)
  | @delay i j row rest whole _ _ hs _ ih =>
    intro codes hcodes
    rw [map_cons] at hcodes
    rcases mem_cons.mp hcodes with rfl | hcodes
    · refine dead_of_pad fun c hc => ?_
      have hcode := hs c
      rwa [if_neg (by omega)] at hcode
    · exact ih (Nat.succ_pos _) codes hcodes

/-- A complete payload has a frame, and its last `n_vq - 1` rows open none. -/
theorem dead (h : Payload cfg 0 j rows true) :
    cfg.nVq ≤ rows.length ∧
      ∀ codes ∈ (rows.map Row.codes).drop ((rows.map Row.codes).length + 1 - cfg.nVq),
        Delay.Dead (nonPad cfg.audioPadCode) codes := by
  generalize hi : 0 = i at h
  generalize hw : true = whole at h
  induction h with
  | cut => cases hw
  | close => exact absurd hi (ne_of_lt cfg.nVq_pos)
  | @gen j row rest whole _ _ _ ih =>
    obtain ⟨hle, hdead⟩ := ih rfl hw
    rw [length_map] at hdead
    refine ⟨Nat.le_succ_of_le hle, ?_⟩
    rw [length_map, length_cons, map_cons,
      show rest.length + 1 + 1 - cfg.nVq = (rest.length + 1 - cfg.nVq) + 1 by omega,
      drop_succ_cons]
    exact hdead
  | @delay i j row rest whole hlt _ _ hr _ =>
    subst hi
    have hlen := (hr.length_of_tail one_pos).2 hw.symm
    refine ⟨by rw [length_cons]; omega, ?_⟩
    rw [length_map, length_cons, map_cons,
      show rest.length + 1 + 1 - cfg.nVq = 1 by omega, drop_succ_cons, drop_zero]
    exact hr.dead_of_tail one_pos

end Payload

end Moss

end OmniRealtime
