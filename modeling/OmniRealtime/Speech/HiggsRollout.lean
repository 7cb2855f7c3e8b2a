import OmniRealtime.Speech.HiggsSampler

/-!
# Delay patterns and rollout masks of Higgs

`apply_delay_pattern` and `delay_pattern_action_mask` of `models/higgs_tts/utils.py`,
`reverse_delay_pattern` of `utils/codec_delay.py`, and the rows that the scalar sampler emits.

1. `reverse_apply`: the delay pattern is taken back.
2. `rollout`: the rows of a generation, up to the row that ends it.
3. `rollout_wound`: a row of every codebook that starts, rows with no end of code, the row with
   one, and the rows in which the other codebooks wind down.
4. `rollout_mask_iff`: when the mask marks the frames of the audio and nothing else.
-/

namespace OmniRealtime

open List

namespace Higgs

variable {cfg : SamplerConfig} (codes : List (Codes cfg)) {state : SamplerState cfg}

/-! ## The delay pattern -/

def applyDelayPattern (codes : List (Codes cfg)) : List (Codes cfg) :=
  (List.range (codes.length + cfg.numCodebooks - 1)).map fun r c =>
    if r < c.1 then cfg.bocId else ((codes[r - c.1]?).map (· c)).getD cfg.eocId

inductive CodecDelayError
  /-- "delayed has L=…, N=…; need L >= N so at least one data row can be recovered." -/
  | tooShort
deriving DecidableEq, Repr

def reverseDelayPattern (delayed : List (Codes cfg)) (allowShort : Bool) :
    Except CodecDelayError (List (Codes cfg)) :=
  let rows := delayed.length + 1 - cfg.numCodebooks
  if rows = 0 then if allowShort then .ok [] else .error .tooShort
  else .ok ((List.range rows).map fun t c => ((delayed[t + c.1]?).map (· c)).getD 0)

/-- `delay_pattern_action_mask`, at row `r` and codebook `c`. -/
def delayPatternActionMask (delayed : List (Codes cfg)) (r c : ℕ) : Bool :=
  let tRaw := delayed.findIdx fun row => row cfg.first == cfg.eocId
  decide (c ≤ r) && decide (r < c + tRaw)

theorem length_applyDelayPattern :
    (applyDelayPattern codes).length = codes.length + cfg.numCodebooks - 1 := by
  rw [applyDelayPattern, length_map, length_range]

/-- The delay pattern is taken back; without a frame there is nothing to take back, and the call
raises unless short input is allowed. -/
theorem reverse_apply (allowShort : Bool) :
    reverseDelayPattern (applyDelayPattern codes) allowShort =
      if codes = [] ∧ allowShort = false then .error .tooShort else .ok codes := by
  have hpos := cfg.numCodebooks_pos
  have hrows : (applyDelayPattern codes).length + 1 - cfg.numCodebooks = codes.length := by
    rw [length_applyDelayPattern]
    omega
  dsimp only [reverseDelayPattern]
  rw [hrows]
  cases codes with
  | nil => cases allowShort <;> rfl
  | cons code codes =>
    rw [if_neg (by simp), if_neg (fun h => by cases h.1)]
    congr 1
    refine ext_getElem (by rw [length_map, length_range]) fun t h h' => ?_
    funext c
    have hrow : t + c.1 < (applyDelayPattern (code :: codes)).length := by
      have hc := c.2
      rw [length_applyDelayPattern]
      omega
    rw [getElem_map, getElem_range, getElem?_eq_getElem hrow]
    simp [applyDelayPattern, getElem?_eq_getElem h']

/-! ## The rows of a generation -/

/-- The rows that are emitted, up to the one that ends the generation. -/
def rollout (state : SamplerState cfg) : List (Codes cfg) → SamplerState cfg × List (Codes cfg)
  | [] => (state, [])
  | sampled :: rest =>
    if state.generationDone then (state, [])
    else
      let (codes, next) := step state sampled
      let (last, later) := rollout next rest
      (last, codes :: later)

theorem rollout_done (h : state.generationDone = true) (samples : List (Codes cfg)) :
    rollout state samples = (state, []) := by
  cases samples with
  | nil => rfl
  | cons sampled rest => rw [rollout, if_pos h]

theorem rollout_cons (h : state.generationDone = false) (sampled : Codes cfg)
    (rest : List (Codes cfg)) : rollout state (sampled :: rest) =
      ((rollout (step state sampled).2 rest).1,
        (step state sampled).1 :: (rollout (step state sampled).2 rest).2) := by
  rw [rollout, if_neg (Bool.eq_false_iff.mp h)]

section Step

variable {state : SamplerState cfg} {sampled : Codes cfg}

theorem step_delay (sampled : Codes cfg) (hd : state.generationDone = false)
    (hdelay : state.delayCount < cfg.numCodebooks) :
    (step state sampled).2.delayCount = state.delayCount + 1 ∧
      (step state sampled).2.eocCountdown = state.eocCountdown ∧
      (step state sampled).2.generationDone = false ∧
      ∀ c : Fin cfg.numCodebooks, c.1 ≤ state.delayCount →
        (step state sampled).1 c = sampled c := by
  simp only [step, hd, hdelay, if_true, Bool.false_eq_true, if_false, true_and]
  exact fun c hc => if_neg (not_le.mpr (Nat.lt_succ_of_le hc))

section

variable (hd : state.generationDone = false) (hdelay : ¬state.delayCount < cfg.numCodebooks)
include hd hdelay

/-- Behind that the samples are emitted as they are. -/
theorem step_codes : (step state sampled).1 = sampled := by
  simp only [step, hd, hdelay, if_false, Bool.false_eq_true]

theorem step_steady (hnone : state.eocCountdown = none) (hgoes : sampled cfg.first ≠ cfg.eocId) :
    (step state sampled).2 = { state with lastCodes := some sampled } := by
  simp [step, hd, hdelay, hnone, hgoes]

theorem step_last (hnone : state.eocCountdown = none) (hends : sampled cfg.first = cfg.eocId) :
    (step state sampled).2 =
      if cfg.numCodebooks ≤ 2 then { state with generationDone := true }
      else { state with
        eocCountdown := some (cfg.numCodebooks - 2), lastCodes := some sampled } := by
  by_cases hfew : cfg.numCodebooks ≤ 2 <;> simp [step, hd, hdelay, hnone, hends, hfew]

end

theorem step_winddown (sampled : Codes cfg) {k : ℕ} (hd : state.generationDone = false)
    (hdelay : ¬state.delayCount < cfg.numCodebooks) (hcnt : state.eocCountdown = some (k + 1)) :
    (step state sampled).2.delayCount = state.delayCount ∧
      (step state sampled).2.eocCountdown = some (k : ℤ) ∧
      (step state sampled).2.generationDone = decide (k = 0) := by
  cases k with
  | zero => simp [step, hd, hdelay, hcnt]
  | succ k =>
    have hgoes : ¬(k : ℤ) + 1 ≤ 0 := by omega
    simp [step, hd, hdelay, hcnt, hgoes]

theorem step_delayCount (hd : state.generationDone = false)
    (hdelay : ¬state.delayCount < cfg.numCodebooks) :
    (step state sampled).2.delayCount = state.delayCount := by
  simp only [step, hd, hdelay, if_false, Bool.false_eq_true]
  repeat' split
  all_goals rfl

theorem rollout_sampled (samples : List (Codes cfg)) {r : ℕ} {c : Fin cfg.numCodebooks}
    {row : Codes cfg} (hc : c.1 ≤ state.delayCount + r)
    (hrow : (rollout state samples).2[r]? = some row) :
    ∃ sampled, samples[r]? = some sampled ∧ row c = sampled c := by
  induction samples generalizing state r with
  | nil => cases hrow
  | cons sampled rest ih =>
    cases hd : state.generationDone with
    | true =>
      rw [rollout_done hd] at hrow
      cases hrow
    | false =>
      rw [rollout_cons hd] at hrow
      by_cases hdelay : state.delayCount < cfg.numCodebooks
      · obtain ⟨hcnt, -, -, hcodes⟩ := step_delay sampled hd hdelay
        cases r with
        | zero =>
          obtain rfl := Option.some.inj hrow
          exact ⟨sampled, rfl, hcodes c hc⟩
        | succ r => exact ih (by rw [hcnt]; omega) hrow
      · cases r with
        | zero =>
          obtain rfl := Option.some.inj hrow
          exact ⟨sampled, rfl, by rw [step_codes hd hdelay]⟩
        | succ r =>
          have hlt := c.2
          exact ih (by rw [step_delayCount hd hdelay]; omega) hrow

/-- The other codebooks wind down, one row for each count. -/
theorem rollout_winddown {k : ℕ} (samples : List (Codes cfg)) (hd : state.generationDone = false)
    (hdelay : ¬state.delayCount < cfg.numCodebooks) (hcnt : state.eocCountdown = some (k + 1))
    (hends : (rollout state samples).1.generationDone = true) :
    (rollout state samples).2.length = k + 1 := by
  induction samples generalizing state k with
  | nil => exact absurd (hd.symm.trans hends) Bool.false_ne_true
  | cons sampled rest ih =>
    rw [rollout_cons hd] at hends ⊢
    obtain ⟨hnext, hcountdown, hlast⟩ := step_winddown sampled hd hdelay hcnt
    rw [length_cons]
    cases k with
    | zero => rw [rollout_done hlast]; rfl
    | succ k =>
      rw [ih hlast (by rwa [hnext]) (by rw [hcountdown]; rfl) hends]

/-- The rows of a generation that ends: one for each codebook that starts, whose first codes are
sampled; rows with no end of code in the first codebook; the row with one; and the wind-down. -/
theorem rollout_wound (samples : List (Codes cfg)) (hd : state.generationDone = false)
    (hdelay : state.delayCount ≤ cfg.numCodebooks) (hnone : state.eocCountdown = none)
    (hends : (rollout state samples).1.generationDone = true) :
    ∃ window steady last wind, (rollout state samples).2 = window ++ (steady ++ last :: wind) ∧
      window.map (· cfg.first) =
        (samples.take (cfg.numCodebooks - state.delayCount)).map (· cfg.first) ∧
      window.length = cfg.numCodebooks - state.delayCount ∧
      (∀ row ∈ steady, row cfg.first ≠ cfg.eocId) ∧ last cfg.first = cfg.eocId ∧
      wind.length = cfg.numCodebooks - 2 := by
  induction samples generalizing state with
  | nil => exact absurd (hd.symm.trans hends) Bool.false_ne_true
  | cons sampled rest ih =>
    rw [rollout_cons hd] at hends ⊢
    by_cases hstarts : state.delayCount < cfg.numCodebooks
    · obtain ⟨hcnt, hcountdown, hgoes, hcodes⟩ := step_delay sampled hd hstarts
      obtain ⟨window, steady, last, wind, hrows, hfirst, hlength, hsteady⟩ :=
        ih hgoes (by rw [hcnt]; exact hstarts) (hcountdown.trans hnone) hends
      have hsub : cfg.numCodebooks - state.delayCount =
          cfg.numCodebooks - (step state sampled).2.delayCount + 1 := by
        rw [hcnt]
        omega
      refine ⟨(step state sampled).1 :: window, steady, last, wind, ?_, ?_, ?_, hsteady⟩
      · rw [hrows]
        rfl
      · rw [hsub, take_succ_cons, map_cons, map_cons, hfirst, hcodes cfg.first (Nat.zero_le _)]
      · rw [length_cons, hlength, hsub]
    · have hsub : cfg.numCodebooks - state.delayCount = 0 := by omega
      rw [step_codes hd hstarts, hsub, take_zero]
      by_cases heoc : sampled cfg.first = cfg.eocId
      · refine ⟨[], [], sampled, _, rfl, rfl, rfl, nofun, heoc, ?_⟩
        rw [step_last hd hstarts hnone heoc] at hends ⊢
        by_cases hfew : cfg.numCodebooks ≤ 2
        · rw [if_pos hfew, rollout_done rfl, length_nil]
          omega
        · have hcnt : (cfg.numCodebooks : ℤ) - 2 = ((cfg.numCodebooks - 3 : ℕ) : ℤ) + 1 := by
            omega
          rw [if_neg hfew, hcnt] at hends ⊢
          rw [rollout_winddown rest (by exact hd) (by exact hstarts) rfl hends]
          omega
      · rw [step_steady hd hstarts hnone heoc] at hends ⊢
        obtain ⟨window, steady, last, wind, hrows, -, hlength, hsteady, hlast⟩ :=
          ih (by exact hd) (by exact hdelay) (by exact hnone) hends
        obtain rfl := length_eq_zero_iff.mp (hlength.trans hsub)
        refine ⟨[], sampled :: steady, last, wind, by rw [hrows]; rfl, rfl, rfl, ?_, hlast⟩
        exact forall_mem_cons.mpr ⟨heoc, hsteady⟩

end Step

/-! ## The mask of a rollout -/

section Mask

variable {rows : List (Codes cfg)}

/-- The rows de-delay to `T = L - N + 1` frames, frame `t` from the rows `t` and on. -/
theorem reverse_rows (h : cfg.numCodebooks ≤ rows.length) :
    reverseDelayPattern rows false = .ok ((List.range (rows.length - cfg.numCodebooks + 1)).map
      fun t c => ((rows[t + c.1]?).map (· c)).getD 0) := by
  dsimp only [reverseDelayPattern]
  rw [Nat.sub_add_comm h, if_neg (by omega)]

/-- The mask marks the frames: row `r` of codebook `c` is in frame `r - c`. -/
def MarksFrames (rows : List (Codes cfg)) : Prop :=
  ∀ r c, r < rows.length → c < cfg.numCodebooks →
    (delayPatternActionMask rows r c = true ↔
      ∃ t, t < rows.length - cfg.numCodebooks + 1 ∧ r = t + c)

/-- It does where the first end of code in the first codebook stands behind the last frame. -/
theorem marksFrames_iff (h : cfg.numCodebooks ≤ rows.length)
    (hends : rows.findIdx (fun row => row cfg.first == cfg.eocId) ≤
      rows.length - cfg.numCodebooks + 1) :
    MarksFrames rows ↔ rows.findIdx (fun row => row cfg.first == cfg.eocId) =
      rows.length - cfg.numCodebooks + 1 := by
  have hpos := cfg.numCodebooks_pos
  dsimp only [MarksFrames, delayPatternActionMask]
  generalize rows.findIdx (fun row => row cfg.first == cfg.eocId) = tRaw at *
  simp only [Bool.and_eq_true, decide_eq_true_eq]
  constructor
  · intro hmarks
    refine le_antisymm hends (Nat.le_of_not_lt fun hlt => ?_)
    -- the first code of the row with the end of code is a frame's
    obtain ⟨-, hmarked⟩ := (hmarks tRaw 0 (by omega) hpos).mpr ⟨tRaw, hlt, rfl⟩
    omega
  · rintro rfl r c - -
    constructor
    · rintro ⟨hle, hlt⟩
      exact ⟨r - c, by omega, by omega⟩
    · rintro ⟨t, ht, rfl⟩
      exact ⟨Nat.le_add_left c t, by omega⟩

end Mask

/-- What the first rows sampled for the first codebook holds no end of code. -/
def WindowOpen (samples : List (Codes cfg)) : Prop :=
  ∀ sampled ∈ samples.take cfg.numCodebooks, sampled cfg.first ≠ cfg.eocId

/-- The delay pattern is taken back, and the rows of a generation that ends de-delay to its frames.
What the mask marks was sampled. It marks these frames exactly where there are two codebooks at
least and no end of code is sampled for the first of them while the others start. -/
theorem rollout_mask_iff {cfg : SamplerConfig} (samples : List (Codes cfg))
    (hends : (rollout ({} : SamplerState cfg) samples).1.generationDone = true) :
    (∀ codes : List (Codes cfg), codes ≠ [] →
      reverseDelayPattern (applyDelayPattern codes) false = .ok codes) ∧
      (∀ codes : List (Codes cfg),
        reverseDelayPattern (applyDelayPattern codes) true = .ok codes) ∧
      (∃ frames, reverseDelayPattern (rollout ({} : SamplerState cfg) samples).2 false =
          .ok frames ∧
        frames.length =
          (rollout ({} : SamplerState cfg) samples).2.length - cfg.numCodebooks + 1) ∧
      (∀ (r : ℕ) (c : Fin cfg.numCodebooks) (row : Codes cfg),
        (rollout ({} : SamplerState cfg) samples).2[r]? = some row →
        delayPatternActionMask (rollout ({} : SamplerState cfg) samples).2 r c = true →
          ∃ sampled, samples[r]? = some sampled ∧ row c = sampled c) ∧
      (MarksFrames (rollout ({} : SamplerState cfg) samples).2 ↔
        2 ≤ cfg.numCodebooks ∧ WindowOpen samples) := by
  have hpos := cfg.numCodebooks_pos
  obtain ⟨window, steady, last, wind, hrows, hfirst, hlength, hsteady, hlast, hwind⟩ :=
    rollout_wound samples rfl (Nat.zero_le _) rfl hends
  rw [Nat.sub_zero] at hfirst hlength
  have htotal : (rollout ({} : SamplerState cfg) samples).2.length =
      cfg.numCodebooks + (steady.length + 1 + (cfg.numCodebooks - 2)) := by
    rw [hrows]
    simp only [length_append, length_cons, hlength, hwind]
    omega
  have hle : cfg.numCodebooks ≤ (rollout ({} : SamplerState cfg) samples).2.length := by omega
  -- the first end of code: in the window, or behind the steady rows
  have hindex : (rollout ({} : SamplerState cfg) samples).2.findIdx
      (fun row => row cfg.first == cfg.eocId) =
        if window.findIdx (fun row => row cfg.first == cfg.eocId) < cfg.numCodebooks then
          window.findIdx (fun row => row cfg.first == cfg.eocId)
        else cfg.numCodebooks + steady.length := by
    have hnone : steady.findIdx (fun row => row cfg.first == cfg.eocId) = steady.length :=
      findIdx_eq_length.mpr fun row hrow => beq_eq_false_iff_ne.mpr (hsteady row hrow)
    rw [hrows, findIdx_append, findIdx_append, hnone, if_neg (Nat.lt_irrefl _),
      findIdx_cons, beq_iff_eq.mpr hlast, hlength]
    split
    · rfl
    · simp only [cond_true]
      omega
  have hopen : WindowOpen samples ↔
      ¬window.findIdx (fun row => row cfg.first == cfg.eocId) < cfg.numCodebooks := by
    have hsamples : WindowOpen samples ↔ ∀ row ∈ window, row cfg.first ≠ cfg.eocId := by
      have hall := congrArg (fun codes => ∀ code ∈ codes, code ≠ cfg.eocId) hfirst
      simp only [List.forall_mem_map] at hall
      exact hall.symm.to_iff
    rw [hsamples, ← hlength, findIdx_lt_length]
    simp only [beq_iff_eq, not_exists, not_and, ne_eq]
  refine ⟨fun codes hne => ?_, fun codes => ?_, ⟨_, reverse_rows hle, ?_⟩,
    fun r c row hrow hmarked => ?_, ?_⟩
  · rw [reverse_apply, if_neg fun h => hne h.1]
  · rw [reverse_apply, if_neg fun h => Bool.noConfusion h.2]
  · rw [length_map, length_range]
  · have hstarted := of_decide_eq_true (Bool.and_eq_true_iff.mp hmarked).1
    exact rollout_sampled samples (by rwa [Nat.zero_add]) hrow
  · rw [marksFrames_iff hle, hindex, hopen, htotal]
    · split
      · omega
      · omega
    · rw [hindex, htotal]
      split
      · omega
      · omega

/-! ## Two codebooks -/

def twoCodebooks : SamplerConfig where
  numCodebooks := 2
  bocId := 1024
  eocId := 1025
  numCodebooks_pos := Nat.two_pos

/-- A generation of two rows that start a codebook, one of sound and one that ends it. -/
def briefSamples (start : ℤ) : List (Codes twoCodebooks) :=
  [fun _ => start, fun _ => 7, fun _ => 7, fun _ => 1025]

theorem brief_rollout_marked : MarksFrames (rollout {} (briefSamples 7)).2 :=
  ((rollout_mask_iff (briefSamples 7) (by decide)).2.2.2.2).mpr
    ⟨le_refl 2, by unfold WindowOpen; decide⟩

/-- The end of code that the first row samples is ignored by the sampler and not by the mask. -/
theorem early_end_unmarked :
    (rollout {} (briefSamples 1025)).1.generationDone = true ∧
      ¬MarksFrames (rollout {} (briefSamples 1025)).2 := by
  refine ⟨by decide, fun hmarks => ?_⟩
  have hfirst := (hmarks 0 0 (by decide) (by decide)).mpr ⟨0, by decide, rfl⟩
  exact absurd hfirst (by decide)

end Higgs

end OmniRealtime
