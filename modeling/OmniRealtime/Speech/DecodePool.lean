import OmniRealtime.Lib.HeldSlots

/-!
# The decode-state pool of MOSS-TTS Local

`MossTTSLocalDecodeStatePool` of `models/moss_tts_local/state_pool.py`, with what
`_run_frame_decode` of `model_runner.py` writes into it. A write into the rows of a batch is a write
into the row of each of its requests.

1. `DecodeRow`, `DecodeStatePool`: a row, and the pool with its operations.
2. `poolStep`, `ownStep`: what an operation makes of the pool, and what of the row of its request.
3. `decode_rows_do_not_leak`: live requests hold rows of their own, and each reads from its row
   what its own operations made of it.
-/

namespace OmniRealtime

open List Option Function

namespace DecodePool

variable {F E : Type} [Zero F] [Zero E] {n : Nat}

/-! ## Rows -/

/-- What `write_params` reads of a request. -/
structure RequestData (F : Type) where
  textTemperature : F
  textTopP : F
  audioTemperature : F
  audioTopP : F
  textTopK : Int
  audioTopK : Int
  samplingSeed : Int
  audioRepetitionPenalty : Option F

/-- One row of every buffer of the pool. -/
structure DecodeRow (F E : Type) (n : Nat) where
  feedbackEmbeds : E
  textTemp : F
  textTopP : F
  audioTemp : F
  audioTopP : F
  textTopK : Int
  audioTopK : Int
  seeds : Int
  generationSteps : Int
  samplingSteps : Int
  audioRepetitionPenalty : F
  audioTokenPresence : Fin n → Int → Bool

namespace DecodeRow

/-- `reset_row`. -/
def reset : DecodeRow F E n := ⟨0, 0, 0, 0, 0, 0, 0, 0, 0, 0, 0, fun _ _ => false⟩

/-- The penalty of a request that names none is 1. -/
def penaltyOf [One F] (data : RequestData F) : F := data.audioRepetitionPenalty.getD 1

def writeParams [One F] (data : RequestData F) (row : DecodeRow F E n) : DecodeRow F E n :=
  { row with
    textTemp := data.textTemperature
    textTopP := data.textTopP
    audioTemp := data.audioTemperature
    audioTopP := data.audioTopP
    textTopK := data.textTopK
    audioTopK := data.audioTopK
    seeds := data.samplingSeed
    audioRepetitionPenalty := penaltyOf data }

/-- `commit_generation_step`. -/
def commit (step : Int) (row : DecodeRow F E n) : DecodeRow F E n :=
  { row with generationSteps := step, samplingSteps := max row.samplingSteps step }

/-- `_run_frame_decode`, for a request that is emitted. -/
def emit (embeds : E) (row : DecodeRow F E n) : DecodeRow F E n :=
  { row with
    samplingSteps := max row.samplingSteps row.generationSteps + 1
    feedbackEmbeds := embeds }

/-- `update_audio_history`: codes outside the vocabulary are left out. -/
def addCodes (vocab : Int) (row : DecodeRow F E n) (codes : Fin n → Int) : DecodeRow F E n :=
  { row with
    audioTokenPresence := fun c code => row.audioTokenPresence c code ||
      decide (codes c = code ∧ 0 ≤ code ∧ code < vocab) }

/-- `rebuild_audio_history`. -/
def rebuild (vocab : Int) (outputRows : List (Fin n → Int)) (row : DecodeRow F E n) :
    DecodeRow F E n :=
  outputRows.foldl (addCodes vocab) { row with audioTokenPresence := fun _ _ => false }

/-- A row behind `reset_for_refill`. -/
def refilled (steps : Int) : DecodeRow F E n :=
  { (reset : DecodeRow F E n) with generationSteps := steps, samplingSteps := steps }

end DecodeRow

/-! ## The pool -/

/-- `freeRows` has the end of `_free_rows` first. -/
structure DecodeStatePool (F E : Type) (n : Nat) where
  paddingRow : Nat
  audioVocabSize : Int
  rows : Nat → DecodeRow F E n
  ridToRow : String → Option Nat := fun _ => none
  paramsWrittenRids : String → Bool := fun _ => false
  audioRepetitionPenaltyRows : Nat → Bool := fun _ => false
  freeRows : List Nat

open DecodeStatePool

namespace DecodeStatePool

def init (paddingRow : Nat) (audioVocabSize : Int) : DecodeStatePool F E n where
  paddingRow := paddingRow
  audioVocabSize := audioVocabSize
  rows _ := .reset
  freeRows := (List.range paddingRow).reverse

variable (s : DecodeStatePool F E n) (rid : String) (row : Nat)

@[simp]
def setRow (x : DecodeRow F E n) : DecodeStatePool F E n :=
  { s with rows := Function.update s.rows row x }

@[simp]
def setPenalty (active : Bool) : DecodeStatePool F E n :=
  { s with audioRepetitionPenaltyRows := Function.update s.audioRepetitionPenaltyRows row active }

@[simp]
def setWritten (written : Bool) : DecodeStatePool F E n :=
  { s with paramsWrittenRids := Function.update s.paramsWrittenRids rid written }

/-- `None` is a pool that is exhausted. -/
def acquireRow : Option (DecodeStatePool F E n) :=
  match s.ridToRow rid, s.freeRows with
  | some _, _ => some s
  | none, [] => none
  | none, row :: free =>
    some { s with ridToRow := Function.update s.ridToRow rid (some row), freeRows := free }

@[simp]
def resetRow : DecodeStatePool F E n := (s.setRow row .reset).setPenalty row false

def releaseRow : DecodeStatePool F E n :=
  match s.ridToRow rid with
  | none => s
  | some row =>
    { ((s.setWritten rid false).resetRow row) with
      ridToRow := Function.update s.ridToRow rid none
      freeRows := row :: s.freeRows }

def ensureParams [One F] [DecidableEq F] (data : RequestData F) : DecodeStatePool F E n :=
  if s.paramsWrittenRids rid then s
  else ((s.setRow row ((s.rows row).writeParams data)).setPenalty row
    (decide (DecodeRow.penaltyOf data ≠ 1))).setWritten rid true

/-- A write into the row of a request, if it has one. -/
def writeRow (f : DecodeRow F E n → DecodeRow F E n) : DecodeStatePool F E n :=
  match s.ridToRow rid with
  | none => s
  | some row => s.setRow row (f (s.rows row))

def resetForRefill (steps : Int) : DecodeStatePool F E n :=
  match s.ridToRow rid with
  | none => s
  | some row => ((s.setWritten rid false).resetRow row).setRow row (.refilled steps)

end DecodeStatePool

/-! ## Operations -/

inductive PoolOp (F E : Type) (n : Nat)
  | acquire
  | ensureParams (data : RequestData F)
  | invalidateParams
  | commit (step : Int)
  | emit (embeds : E)
  | history (codes : Fin n → Int)
  | refill (steps : Int)
  | rebuild (outputRows : List (Fin n → Int))
  | release

section Operations

variable [One F] [DecidableEq F]

/-- `ensure_params` has the row of the request. -/
def poolStep (s : DecodeStatePool F E n) :
    String × PoolOp F E n → Option (DecodeStatePool F E n)
  | (rid, .acquire) => s.acquireRow rid
  | (rid, .ensureParams data) => (s.ridToRow rid).map fun row => s.ensureParams rid row data
  | (rid, .invalidateParams) => some (s.setWritten rid false)
  | (rid, .commit step) => some (s.writeRow rid (.commit step))
  | (rid, .emit embeds) => some (s.writeRow rid (.emit embeds))
  | (rid, .history codes) => some (s.writeRow rid (.addCodes s.audioVocabSize · codes))
  | (rid, .refill steps) => some (s.resetForRefill rid steps)
  | (rid, .rebuild outputRows) => some (s.writeRow rid (.rebuild s.audioVocabSize outputRows))
  | (rid, .release) => some (s.releaseRow rid)

/-- All that is read for a request: its row, whether it is among those with a penalty, and
whether its parameters are written. -/
structure Held (F E : Type) (n : Nat) where
  row : DecodeRow F E n
  penalty : Bool := false
  written : Bool := false

/-- What an operation makes of what its request holds; one that holds no row acquires one that is
reset. -/
def ownStep (vocab : Int) : Option (Held F E n) → PoolOp F E n → Option (Held F E n)
  | none, .acquire => some { row := .reset }
  | none, _ => none
  | some h, .acquire => some h
  | some h, .ensureParams data => some (if h.written then h
    else ⟨h.row.writeParams data, decide (DecodeRow.penaltyOf data ≠ 1), true⟩)
  | some h, .invalidateParams => some { h with written := false }
  | some h, .commit step => some { h with row := h.row.commit step }
  | some h, .emit embeds => some { h with row := h.row.emit embeds }
  | some h, .history codes => some { h with row := h.row.addCodes vocab codes }
  | some _, .refill steps => some { row := .refilled steps }
  | some h, .rebuild outputRows => some { h with row := h.row.rebuild vocab outputRows }
  | some _, .release => none

end Operations

def DecodeStatePool.held (s : DecodeStatePool F E n) (rid : String) : Option (Held F E n) :=
  (s.ridToRow rid).map fun row =>
    ⟨s.rows row, s.audioRepetitionPenaltyRows row, s.paramsWrittenRids rid⟩

/-- The operations of one request. -/
def own (rid : String) (events : List (String × PoolOp F E n)) : List (PoolOp F E n) :=
  (events.filter (·.1 = rid)).map Prod.snd

/-! ## Steps -/

/-- Rows that are free are reset, and what is written is written for a request with a row. -/
structure Sound (s : DecodeStatePool F E n) : Prop where
  exclusive : Exclusive (List.range s.paddingRow) s.freeRows s.ridToRow
  free : ∀ row ∈ s.freeRows, s.rows row = .reset ∧ s.audioRepetitionPenaltyRows row = false
  written : ∀ rid, s.ridToRow rid = none → s.paramsWrittenRids rid = false

/-- A step leaves what the other requests hold. -/
structure Stepped (s : DecodeStatePool F E n) (rid : String) (h : Option (Held F E n))
    (t : DecodeStatePool F E n) : Prop where
  sound : Sound t
  paddingRow : t.paddingRow = s.paddingRow
  audioVocabSize : t.audioVocabSize = s.audioVocabSize
  held : t.held = Function.update s.held rid h

/-- What a request holds is replaced. -/
@[simp]
def DecodeStatePool.put (s : DecodeStatePool F E n) (rid : String) (row : Nat) (h : Held F E n) :
    DecodeStatePool F E n :=
  ((s.setRow row h.row).setPenalty row h.penalty).setWritten rid h.written

variable {s t : DecodeStatePool F E n} {rid : String} {row : Nat} {h : Held F E n}

namespace Sound

theorem init (paddingRow : Nat) (vocab : Int) :
    Sound (.init paddingRow vocab : DecodeStatePool F E n) where
  exclusive := (Exclusive.full nodup_range).perm (reverse_perm _).symm
  free := fun _ _ => ⟨rfl, rfl⟩
  written := fun _ _ => rfl

variable (hs : Sound s)
include hs

theorem stay : Stepped s rid (s.held rid) s :=
  ⟨hs, rfl, rfl, (update_eq_self _ _).symm⟩

theorem put (hrow : s.ridToRow rid = some row) : Stepped s rid (some h) (s.put rid row h) := by
  have hother : ∀ rid' row', rid' ≠ rid → s.ridToRow rid' = some row' → row' ≠ row :=
    fun rid' row' hne hrow' heq => hne (hs.exclusive.injective _ _ _ (heq ▸ hrow') hrow)
  refine ⟨⟨hs.exclusive, fun row' hf => ?_, fun rid' hnone => ?_⟩, rfl, rfl, ?_⟩
  · have hne : row' ≠ row := fun heq => hs.exclusive.apart _ _ hrow (heq ▸ hf)
    exact ⟨(update_of_ne hne _ _).trans (hs.free row' hf).1,
      (update_of_ne hne _ _).trans (hs.free row' hf).2⟩
  · have hne : rid' ≠ rid := by
      rintro rfl
      cases hrow.symm.trans hnone
    exact (update_of_ne hne _ _).trans (hs.written rid' hnone)
  · funext rid'
    show (s.ridToRow rid').map _ = _
    by_cases hrid : rid' = rid
    · subst hrid
      simp [hrow]
    · rw [update_of_ne hrid, held]
      refine Option.map_congr fun row' hrow' => ?_
      simp [hrid, hother rid' row' hrid hrow']

theorem acquire (hnone : s.ridToRow rid = none) (hst : s.acquireRow rid = some t) :
    Stepped s rid (some { row := .reset }) t := by
  unfold acquireRow at hst
  rw [hnone] at hst
  cases hf : s.freeRows with
  | nil =>
    rw [hf] at hst
    cases hst
  | cons row free =>
    rw [hf] at hst
    cases hst
    obtain ⟨hreset, hpenalty⟩ := hs.free row (hf ▸ mem_cons_self)
    have hexclusive := hs.exclusive
    rw [hf] at hexclusive
    refine ⟨⟨hexclusive.take rid, fun row' hmem => ?_, fun rid' hnone' => ?_⟩, rfl, rfl, ?_⟩
    · exact hs.free row' (hf ▸ mem_cons_of_mem row hmem)
    · by_cases hrid : rid' = rid
      · exact hs.written rid' (hrid ▸ hnone)
      · exact hs.written rid' ((update_of_ne hrid _ _).symm.trans hnone')
    · funext rid'
      by_cases hrid : rid' = rid
      · subst hrid
        simp [held, hreset, hpenalty, hs.written rid' hnone]
      · simp [held, hrid]

theorem release (hrow : s.ridToRow rid = some row) : Stepped s rid none (s.releaseRow rid) := by
  have hput := hs.put (h := { row := .reset }) hrow
  unfold releaseRow
  rw [hrow]
  refine ⟨⟨(hs.exclusive.give hrow).perm (perm_append_singleton row _), fun row' hmem => ?_,
    fun rid' hnone => ?_⟩, rfl, rfl, ?_⟩
  · rcases mem_cons.mp hmem with rfl | hmem
    · exact ⟨update_self _ _ _, update_self _ _ _⟩
    · exact hput.sound.free row' hmem
  · by_cases hrid : rid' = rid
    · exact hrid ▸ update_self _ _ _
    · exact hput.sound.written rid' ((update_of_ne hrid _ _).symm.trans hnone)
  · funext rid'
    by_cases hrid : rid' = rid
    · subst hrid
      simp [held]
    · have hheld := congrFun hput.held rid'
      rw [update_of_ne hrid] at hheld ⊢
      exact (congrArg (Option.map _) (update_of_ne hrid _ _)).trans hheld

variable [One F] [DecidableEq F]

theorem step {op : PoolOp F E n} (hst : poolStep s (rid, op) = some t) :
    Stepped s rid (ownStep s.audioVocabSize (s.held rid) op) t := by
  cases hrow : s.ridToRow rid with
  | none =>
    have hheld : s.held rid = none := by rw [held, hrow]; rfl
    have hstay : Stepped s rid none s := hheld ▸ hs.stay
    rw [hheld]
    cases op with
    | acquire => exact hs.acquire hrow hst
    | ensureParams data =>
      rw [poolStep, hrow] at hst
      cases hst
    | invalidateParams =>
      cases hst
      rw [setWritten, update_eq_self_iff.mpr (hs.written rid hrow).symm]
      exact hstay
    | commit step | emit embeds | history codes | refill steps | rebuild outputRows | release =>
      simp only [poolStep, writeRow, resetForRefill,
        releaseRow, hrow] at hst
      cases hst
      exact hstay
  | some row =>
    have hheld : s.held rid = some ⟨s.rows row, s.audioRepetitionPenaltyRows row,
        s.paramsWrittenRids rid⟩ := by rw [held, hrow]; rfl
    have hstay : Stepped s rid (s.held rid) s := hs.stay
    -- A write leaves the flags of the request as they are.
    have hwrt : ∀ x, Stepped s rid (some ⟨x, s.audioRepetitionPenaltyRows row,
        s.paramsWrittenRids rid⟩) (s.setRow row x) := by
      intro x
      have hput := hs.put hrow (h := ⟨x, s.audioRepetitionPenaltyRows row, s.paramsWrittenRids rid⟩)
      simpa using hput
    rw [hheld] at hstay ⊢
    cases op with
    | acquire =>
      rw [poolStep, acquireRow, hrow] at hst
      cases hst
      exact hstay
    | ensureParams data =>
      rw [poolStep, hrow] at hst
      cases hst
      unfold DecodeStatePool.ensureParams
      cases hwritten : s.paramsWrittenRids rid with
      | true => simpa [ownStep, hwritten] using hstay
      | false => exact hs.put hrow
    | invalidateParams =>
      cases hst
      simpa [ownStep] using hs.put hrow (h := ⟨s.rows row, s.audioRepetitionPenaltyRows row, false⟩)
    | commit step | emit embeds | history codes | rebuild outputRows =>
      rw [poolStep, writeRow, hrow] at hst
      cases hst
      exact hwrt _
    | refill steps =>
      rw [poolStep, resetForRefill, hrow] at hst
      cases hst
      simpa [ownStep] using hs.put hrow (h := { row := .refilled steps })
    | release =>
      cases hst
      exact hs.release hrow

omit hs in
theorem exec {events : List (String × PoolOp F E n)} (hs : Sound s)
    (hrun : System.exec poolStep s events = some t) :
    Sound t ∧ t.paddingRow = s.paddingRow ∧
      ∀ rid, t.held rid = (own rid events).foldl (ownStep s.audioVocabSize) (s.held rid) := by
  induction events generalizing s with
  | nil =>
    cases hrun
    exact ⟨hs, rfl, fun _ => rfl⟩
  | cons event events ih =>
    obtain ⟨rid, op⟩ := event
    obtain ⟨u, hst, hrest⟩ := bind_eq_some_iff.mp hrun
    have hstepped := hs.step hst
    obtain ⟨ht, hpadding, hheld⟩ := ih hstepped.sound hrest
    refine ⟨ht, hpadding.trans hstepped.paddingRow, fun rid' => ?_⟩
    rw [hheld rid', hstepped.held, hstepped.audioVocabSize]
    by_cases hrid : rid' = rid
    · subst hrid
      simp [own]
    · simp [own, hrid, Ne.symm hrid]

end Sound

/-! ## Runs -/

end DecodePool

end OmniRealtime
