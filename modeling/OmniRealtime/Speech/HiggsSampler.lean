import Mathlib

/-!
# The Higgs multi-codebook sampler

`models/higgs_tts/sampler.py`. A row of `N` codes is sampled at every step: the codebooks start one
after another, and an end of code in the first of them winds the others down. The samples
themselves are inputs.

1. `step`: the scalar sampler, the reference.
2. `batchedStepDirect`, `batchedStep`: the same for the rows of a batch at once, and for rows that
   are gathered from a pool and scattered back.
3. `direct_refines_scalar`: a row of a batch makes the scalar step of its own state.
4. `batched_sampler_refines_scalar`: and so does a row of the pool, over any sequence of batches.
-/

namespace OmniRealtime

namespace Higgs

/-- `num_codebooks` and the codes that begin and end a codebook. -/
structure SamplerConfig where
  numCodebooks : ℕ
  bocId : ℤ
  eocId : ℤ
  numCodebooks_pos : 0 < numCodebooks

/-- A row of codes. -/
abbrev Codes (cfg : SamplerConfig) := Fin cfg.numCodebooks → ℤ

def SamplerConfig.first (cfg : SamplerConfig) : Fin cfg.numCodebooks := ⟨0, cfg.numCodebooks_pos⟩

def stopCode : ℤ := -1

variable {cfg : SamplerConfig} {b m : ℕ}

/-! ## The scalar sampler -/

/-- `HiggsSamplerState`. -/
structure SamplerState (cfg : SamplerConfig) where
  delayCount : ℕ := 0
  eocCountdown : Option ℤ := none
  generationDone : Bool := false
  lastCodes : Option (Codes cfg) := none

/-- `step`, given what `_sample_independent` returns. -/
def step (state : SamplerState cfg) (sampled : Codes cfg) : Codes cfg × SamplerState cfg :=
  if state.generationDone then (fun _ => stopCode, state)
  else
    let codes : Codes cfg :=
      if state.delayCount < cfg.numCodebooks then
        fun c => if state.delayCount + 1 ≤ c then cfg.bocId else sampled c
      else sampled
    let next : SamplerState cfg :=
      if state.delayCount < cfg.numCodebooks then { state with delayCount := state.delayCount + 1 }
      else
        match state.eocCountdown with
        | some k =>
          { state with eocCountdown := some (k - 1), generationDone := decide (k - 1 ≤ 0) }
        | none =>
          if codes cfg.first = cfg.eocId then
            if cfg.numCodebooks ≤ 2 then { state with generationDone := true }
            else { state with eocCountdown := some (cfg.numCodebooks - 2) }
          else state
    (codes, if next.generationDone then next else { next with lastCodes := some codes })

/-- The codes and the state behind a sequence of samples. -/
def scalarRun (state : SamplerState cfg) :
    List (Codes cfg) → SamplerState cfg × List (Codes cfg)
  | [] => (state, [])
  | sampled :: rest =>
    let (codes, next) := step state sampled
    let (last, later) := scalarRun next rest
    (last, codes :: later)

/-! ## The batched sampler -/

/-- `HiggsBatchedSamplerState`, and the tensors of one batch of it. The seeds go to the sampling
alone. -/
structure Rows (cfg : SamplerConfig) (m : ℕ) where
  delayCount : Fin m → ℕ
  eocCountdown : Fin m → ℤ
  generationDone : Fin m → Bool
  lastCodes : Fin m → Codes cfg
  stepCount : Fin m → ℕ

open Rows

/-- The pool as it is built. -/
def Rows.fresh (cfg : SamplerConfig) (m : ℕ) : Rows cfg m where
  delayCount _ := 0
  eocCountdown _ := -1
  generationDone _ := false
  lastCodes _ _ := 0
  stepCount _ := 0

def Rows.viewRow (rows : Rows cfg m) (r : Fin m) : SamplerState cfg where
  delayCount := rows.delayCount r
  eocCountdown := if rows.eocCountdown r < 0 then none else some (rows.eocCountdown r)
  generationDone := rows.generationDone r
  lastCodes := if rows.delayCount r = 0 then none else some (rows.lastCodes r)

/-- `batched_step_direct`: masks over all rows, and `torch.where`. -/
def batchedStepDirect (rows : Rows cfg b) (sampled : Fin b → Codes cfg) :
    (Fin b → Codes cfg) × Rows cfg b :=
  let codes : Fin b → Codes cfg := fun i c =>
    if rows.delayCount i < cfg.numCodebooks ∧ rows.delayCount i < c then cfg.bocId else sampled i c
  let active := fun i => !rows.generationDone i
  let inDelayActive := fun i => active i && decide (rows.delayCount i < cfg.numCodebooks)
  let inWinddownActive := fun i =>
    active i && decide (0 ≤ rows.eocCountdown i) && !inDelayActive i
  let cb0EocNowActive := fun i =>
    active i && !inDelayActive i && !inWinddownActive i && codes i cfg.first == cfg.eocId
  let newEocCountdown : Fin b → ℤ := fun i =>
    if 2 < cfg.numCodebooks ∧ cb0EocNowActive i then cfg.numCodebooks - 2
    else if inWinddownActive i then rows.eocCountdown i - 1 else rows.eocCountdown i
  let doneThisStep := fun i =>
    (!decide (2 < cfg.numCodebooks) && cb0EocNowActive i) ||
      (inWinddownActive i && decide (newEocCountdown i ≤ 0))
  (fun i => if rows.generationDone i then fun _ => stopCode else codes i,
    { delayCount := fun i => if inDelayActive i then rows.delayCount i + 1 else rows.delayCount i
      eocCountdown := newEocCountdown
      generationDone := fun i => rows.generationDone i || doneThisStep i
      lastCodes := fun i => if active i && !doneThisStep i then codes i else rows.lastCodes i
      stepCount := fun i => rows.stepCount i + (if active i then 1 else 0) })

/-- A batch: its rows of the pool, one for each request, and their samples. -/
structure Batch (cfg : SamplerConfig) (m : ℕ) where
  size : ℕ
  rowIndices : Fin size → Fin m
  sampled : Fin size → Codes cfg
  injective : Function.Injective rowIndices

/-- Where a row stands in the batch. -/
def Batch.entry (batch : Batch cfg m) (r : Fin m) : Option (Fin batch.size) :=
  (List.finRange batch.size).find? fun i => batch.rowIndices i = r

/-- `pool[row_indices] = values`. -/
def Batch.scatter {α : Type} (batch : Batch cfg m) (values : Fin batch.size → α)
    (pool : Fin m → α) : Fin m → α :=
  fun r => ((batch.entry r).map values).getD (pool r)

/-- `pool[row_indices]`. -/
def Rows.gather (pool : Rows cfg m) (rowIndices : Fin b → Fin m) : Rows cfg b where
  delayCount := pool.delayCount ∘ rowIndices
  eocCountdown := pool.eocCountdown ∘ rowIndices
  generationDone := pool.generationDone ∘ rowIndices
  lastCodes := pool.lastCodes ∘ rowIndices
  stepCount := pool.stepCount ∘ rowIndices

def batchedStep (pool : Rows cfg m) (batch : Batch cfg m) :
    (Fin batch.size → Codes cfg) × Rows cfg m :=
  let (outCodes, new) := batchedStepDirect (pool.gather batch.rowIndices) batch.sampled
  (outCodes,
    { delayCount := batch.scatter new.delayCount pool.delayCount
      eocCountdown := batch.scatter new.eocCountdown pool.eocCountdown
      generationDone := batch.scatter new.generationDone pool.generationDone
      lastCodes := batch.scatter new.lastCodes pool.lastCodes
      stepCount := batch.scatter new.stepCount pool.stepCount })

/-- A sequence of batches: the pool behind it, and the codes that each row got. -/
def batchedRun (pool : Rows cfg m) : List (Batch cfg m) → Rows cfg m × (Fin m → List (Codes cfg))
  | [] => (pool, fun _ => [])
  | batch :: rest =>
    let (out, next) := batchedStep pool batch
    let (last, later) := batchedRun next rest
    (last, fun r => ((batch.entry r).map out).toList ++ later r)

/-- The samples of one row. -/
def samplesOf (r : Fin m) (batches : List (Batch cfg m)) : List (Codes cfg) :=
  batches.filterMap fun batch => (batch.entry r).map batch.sampled

/-- The same for batches that keep their rows. -/
def directRun (rows : Rows cfg b) :
    List (Fin b → Codes cfg) → Rows cfg b × List (Fin b → Codes cfg)
  | [] => (rows, [])
  | sampled :: rest =>
    let (out, next) := batchedStepDirect rows sampled
    let (last, later) := directRun next rest
    (last, out :: later)

/-! ## One step -/

namespace Rows

variable {rows : Rows cfg b} {i : Fin b}

/-- A row whose countdown has run out is done. -/
def Counted (rows : Rows cfg m) (r : Fin m) : Prop :=
  rows.generationDone r = false → rows.eocCountdown r ≠ 0

/-- All that a row holds. -/
def row (rows : Rows cfg m) (r : Fin m) : ℕ × ℤ × Bool × Codes cfg × ℕ :=
  (rows.delayCount r, rows.eocCountdown r, rows.generationDone r, rows.lastCodes r,
    rows.stepCount r)

end Rows

theorem direct_done (rows : Rows cfg b) (sampled : Fin b → Codes cfg) {i : Fin b}
    (hdone : rows.generationDone i = true) :
    (batchedStepDirect rows sampled).2.row i = rows.row i := by
  simp [batchedStepDirect, Rows.row, hdone]

theorem direct_refines_scalar (rows : Rows cfg b) (sampled : Fin b → Codes cfg) {i : Fin b}
    (h : rows.Counted i) :
    (batchedStepDirect rows sampled).1 i = (step (rows.viewRow i) (sampled i)).1 ∧
      (batchedStepDirect rows sampled).2.viewRow i = (step (rows.viewRow i) (sampled i)).2 ∧
      (batchedStepDirect rows sampled).2.Counted i := by
  cases hdone : rows.generationDone i with
  | true =>
    simp [batchedStepDirect, viewRow, Counted, step, hdone]
  | false =>
    have hcnt := h hdone
    by_cases hd : rows.delayCount i < cfg.numCodebooks
    · -- the codebooks start one after another
      have hnot : ¬cfg.numCodebooks ≤ rows.delayCount i := not_le.mpr hd
      simp [batchedStepDirect, viewRow, Counted, step, hdone, hd, hnot, hcnt,
        Nat.add_one_le_iff]
    · have hle : cfg.numCodebooks ≤ rows.delayCount i := not_lt.mp hd
      have hzero : rows.delayCount i ≠ 0 := by
        have hpos := cfg.numCodebooks_pos
        omega
      by_cases ho : rows.eocCountdown i < 0
      · have hneg : ¬0 ≤ rows.eocCountdown i := Int.not_le.mpr ho
        by_cases heoc : sampled i cfg.first = cfg.eocId
        · by_cases hfew : 2 < cfg.numCodebooks
          · -- the end of code starts the countdown
            have hfew' : ¬cfg.numCodebooks ≤ 2 := not_le.mpr hfew
            have hpos : (0 : ℤ) < cfg.numCodebooks - 2 := by omega
            have ho' : ¬((cfg.numCodebooks : ℤ) - 2 < 0) := by omega
            simp [batchedStepDirect, viewRow, Counted, step, hdone, hle, hd, ho,
              hneg, heoc, hfew, hfew', hzero, ho', hpos.ne']
          · have hfew' : cfg.numCodebooks ≤ 2 := not_lt.mp hfew
            simp [batchedStepDirect, viewRow, Counted, step, hdone, hle, hd, ho,
              hneg, heoc, hfew, hfew', hzero]
        · simp [batchedStepDirect, viewRow, Counted, step, hdone, hle, hd, ho,
            hneg, heoc, hzero, hcnt]
      · -- the others wind down
        have hge : 0 ≤ rows.eocCountdown i := Int.not_lt.mp ho
        have ho' : ¬(rows.eocCountdown i - 1 < 0) := by omega
        by_cases hends : rows.eocCountdown i - 1 ≤ 0
        · simp [batchedStepDirect, viewRow, Counted, step, hdone, hle, hd, ho,
            hge, hzero, ho', hends]
          exact fun hlt => absurd hlt (by omega)
        · have hne : rows.eocCountdown i - 1 ≠ 0 := fun heq => hends (le_of_eq heq)
          simp [batchedStepDirect, viewRow, Counted, step, hdone, hle, hd, ho,
            hge, hzero, ho', hends, hne]
          exact fun hle => absurd hle (by omega)

/-! ## Runs -/

theorem direct_run_refines (rows : Rows cfg b) {i : Fin b} (h : rows.Counted i)
    (samples : List (Fin b → Codes cfg)) :
    (directRun rows samples).1.viewRow i = (scalarRun (rows.viewRow i) (samples.map (· i))).1 ∧
      (directRun rows samples).2.map (· i) =
        (scalarRun (rows.viewRow i) (samples.map (· i))).2 := by
  induction samples generalizing rows with
  | nil => exact ⟨rfl, rfl⟩
  | cons sampled samples ih =>
    obtain ⟨hout, hv, hc⟩ := direct_refines_scalar rows sampled h
    obtain ⟨hlast, hlater⟩ := ih _ hc
    rw [hv] at hlast hlater
    exact ⟨hlast, congrArg₂ List.cons hout hlater⟩

section Pool

variable {pool : Rows cfg m} {batch : Batch cfg m} {r : Fin m}

theorem Batch.entry_eq_some_iff {i : Fin batch.size} :
    batch.entry r = some i ↔ batch.rowIndices i = r := by
  have hsome : ∀ j, batch.entry r = some j → batch.rowIndices j = r := fun j h =>
    of_decide_eq_true (List.find?_some (p := fun i => decide (batch.rowIndices i = r)) h)
  refine ⟨hsome i, fun hrow => ?_⟩
  cases he : batch.entry r with
  | none =>
    exact absurd (decide_eq_true hrow) (List.find?_eq_none.mp he i (List.mem_finRange i))
  | some j => rw [batch.injective ((hsome j he).trans hrow.symm)]

/-- What a row of the pool holds behind a step: the row of the batch that it was gathered to, or
what it held. -/
theorem batchedStep_row (pool : Rows cfg m) (batch : Batch cfg m) (r : Fin m) :
    (batchedStep pool batch).2.row r = match batch.entry r with
      | some i => (batchedStepDirect (pool.gather batch.rowIndices) batch.sampled).2.row i
      | none => pool.row r := by
  cases he : batch.entry r <;> simp [batchedStep, Batch.scatter, row, he]

theorem viewRow_congr {rows : Rows cfg b} {i : Fin b} (h : pool.row r = rows.row i) :
    pool.viewRow r = rows.viewRow i ∧ (pool.Counted r ↔ rows.Counted i) := by
  simp only [Rows.row, Prod.mk.injEq] at h
  obtain ⟨hd, hcountdown, hdone, hcodes, -⟩ := h
  simp only [viewRow, Counted, hd, hcountdown, hdone, hcodes, true_and]

theorem batchedStep_unchanged (h : (∀ i, batch.rowIndices i ≠ r) ∨ pool.generationDone r = true) :
    (batchedStep pool batch).2.row r = pool.row r := by
  rw [batchedStep_row]
  cases he : batch.entry r with
  | none => rfl
  | some i =>
    obtain rfl := Batch.entry_eq_some_iff.mp he
    rcases h with hother | hdone
    · exact absurd rfl (hother i)
    · exact direct_done _ _ hdone

theorem batchedStep_refines (h : pool.Counted r) (batch : Batch cfg m) (rest : List (Codes cfg)) :
    scalarRun (pool.viewRow r) (((batch.entry r).map batch.sampled).toList ++ rest) =
      ((scalarRun ((batchedStep pool batch).2.viewRow r) rest).1,
        ((batch.entry r).map (batchedStep pool batch).1).toList ++
          (scalarRun ((batchedStep pool batch).2.viewRow r) rest).2) ∧
      (batchedStep pool batch).2.Counted r := by
  have hrow := batchedStep_row pool batch r
  cases he : batch.entry r with
  | none =>
    rw [he] at hrow
    obtain ⟨hv, hc⟩ := viewRow_congr hrow
    rw [hv]
    exact ⟨rfl, hc.mpr h⟩
  | some i =>
    rw [he] at hrow
    obtain ⟨hv, hc⟩ := viewRow_congr hrow
    obtain rfl := Batch.entry_eq_some_iff.mp he
    have hgathered : (pool.gather batch.rowIndices).Counted i := h
    obtain ⟨hout, hst, hnext⟩ := direct_refines_scalar _ batch.sampled hgathered
    rw [hv, hst]
    refine ⟨?_, hc.mpr hnext⟩
    exact Prod.ext rfl (congrArg₂ List.cons hout.symm rfl)

theorem batched_run_refines (h : pool.Counted r) (batches : List (Batch cfg m)) :
    (batchedRun pool batches).1.viewRow r = (scalarRun (pool.viewRow r) (samplesOf r batches)).1 ∧
      (batchedRun pool batches).2 r = (scalarRun (pool.viewRow r) (samplesOf r batches)).2 := by
  induction batches generalizing pool with
  | nil => exact ⟨rfl, rfl⟩
  | cons batch batches ih =>
    have hsamples : samplesOf r (batch :: batches) =
        ((batch.entry r).map batch.sampled).toList ++ samplesOf r batches := by
      rw [samplesOf, List.filterMap_cons]
      cases batch.entry r <;> rfl
    obtain ⟨hst, hc⟩ := batchedStep_refines h batch (samplesOf r batches)
    obtain ⟨hv, hcodes⟩ := ih hc
    rw [hsamples, hst]
    exact ⟨hv, congrArg (_ ++ ·) hcodes⟩

end Pool

/-- Over any sequence of batches a row of the pool gets the codes, the counters and the done flag of
a scalar sampler of its own, and so does a row of a batch that is stepped directly. A batch leaves
the rows as they are that are done or not in it. -/
theorem batched_sampler_refines_scalar (cfg : SamplerConfig) (m : ℕ) (r : Fin m) :
    (∀ batches : List (Batch cfg m),
      (batchedRun (Rows.fresh cfg m) batches).1.viewRow r =
          (scalarRun {} (samplesOf r batches)).1 ∧
        (batchedRun (Rows.fresh cfg m) batches).2 r = (scalarRun {} (samplesOf r batches)).2) ∧
      (∀ samples : List (Fin m → Codes cfg),
        (directRun (Rows.fresh cfg m) samples).1.viewRow r =
            (scalarRun {} (samples.map (· r))).1 ∧
          (directRun (Rows.fresh cfg m) samples).2.map (· r) =
            (scalarRun {} (samples.map (· r))).2) ∧
      ∀ (pool : Rows cfg m) (batch : Batch cfg m),
        (∀ i, batch.rowIndices i ≠ r) ∨ pool.generationDone r = true →
          (batchedStep pool batch).2.row r = pool.row r := by
  have hfresh : (fresh cfg m).Counted r := fun _ => by simp [fresh]
  exact ⟨batched_run_refines hfresh, direct_run_refines _ hfresh,
    fun _ _ h => batchedStep_unchanged h⟩

end Higgs

end OmniRealtime
