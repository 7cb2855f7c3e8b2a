import OmniRealtime.Lib.Segments

/-!
# Stale rows of an extend batch

`scheduling/omni_scheduler.py`: `_drop_stale_overrun` and `_free_overrun_step_slots`. A batch was
built before the step in flight was resolved, and the resolution has finished or retracted some of
its requests.

`filter_batch` of the batch is a parameter: it keeps the requests at the positions it is given and
leaves the fields with an entry for each token as they are.

1. `dropStaleOverrun`, and `Staging.batch`: the extend batch that is built from some requests.
2. `drop_stale_overrun_kept`: the batch without the stale requests is the one built without them.
   `mixed_not_dropped`: a mixed batch with a stale request is refused.
-/

namespace OmniRealtime

open List Option Function

open RowPairing

/-! ## Batches -/

/-- A request, by its identity. -/
structure OverrunReq where
  id : Nat
  finished : Bool
  isRetracted : Bool
  returnLogprob : Bool
deriving DecidableEq, Repr

def OverrunReq.stale (req : OverrunReq) : Bool := req.finished || req.isRetracted

/-- The fields of a `ScheduleBatch` that are read or written. -/
structure OverrunBatch where
  reqs : List OverrunReq
  /-- `forward_mode` is there, and an extend. -/
  isExtend : Bool
  inputIds : Option (List Int)
  prefillInputIdsCpu : Option (List Int)
  outCacheLoc : Option (List Int)
  extendLens : List Nat
  extendNumTokens : Nat
  prefixLens : List Int
  /-- No start is greater than the length of its request. -/
  extendLogprobStartLens : List Nat
  extendInputLogprobTokenIds : Option (List Int)
  returnLogprob : Bool
  decodingReqs : Option (List OverrunReq)
  mixRunningIndices : Option (List Nat)
  inputEmbeds : Bool
  replaceEmbeds : Bool
deriving DecidableEq, Repr

inductive OverrunError
  /-- "Omni does not support stale-row filtering for SGLang mixed chunked-prefill batches" -/
  | mixed
  /-- "extend batch carries neither input_ids nor prefill_input_ids_cpu" -/
  | noTokens
  | assertion
  | index
deriving DecidableEq, Repr

/-! ## Dropping -/

/-- What decides whether a slot of the step is freed. -/
structure OverrunGate where
  pageSize : Nat
  disableRadixCache : Bool
deriving DecidableEq, Repr

/-- An index that is out of range raises. -/
def orIndexError {α : Type} : Option α → Except OverrunError α
  | none => .error .index
  | some a => .ok a

/-- `_free_overrun_step_slots`: the slots that are freed, if any are. -/
def freeOverrunStepSlots (gate : OverrunGate) (outCacheLoc : Option (List Int))
    (dropIndices : List Nat) : Except OverrunError (Option (List Int)) :=
  if dropIndices = [] then .ok none
  else if gate.pageSize ≠ 1 ∨ gate.disableRadixCache then .ok none
  else
    match outCacheLoc with
    | none => .ok none
    | some slots =>
      if dropIndices.all (· < slots.length) then
        (orIndexError (gather slots dropIndices)).map some
      else .error .assertion

/-- A field that may be missing, at these positions. -/
def gatherField (field : Option (List Int)) (indices : List Nat) :
    Except OverrunError (Option (List Int)) :=
  match field with
  | none => .ok none
  | some entries => (orIndexError (gather entries indices)).map some

/-- A field at these positions, or what stands in place of it. -/
def gatherUnless (skip : Bool) (instead field : Option (List Int)) (indices : List Nat) :
    Except OverrunError (Option (List Int)) :=
  if skip then .ok instead else gatherField field indices

/-- The last lines of `_drop_stale_overrun`. -/
def keepDecoding (batch : OverrunBatch) : OverrunBatch :=
  match batch.decodingReqs with
  | none => batch
  | some decoding =>
    { batch with decodingReqs := some (decoding.filter fun req => req ∈ batch.reqs) }

section Drop

variable (gate : OverrunGate) (filterBatch : OverrunBatch → List Nat → OverrunBatch)

/-- The branch of an extend batch: the batch, and the slots that are freed. -/
def dropExtend (batch : OverrunBatch) (stale : List Bool) :
    Except OverrunError (OverrunBatch × Option (List Int)) := do
  let keep := keepIndices stale
  let lens := batch.extendLens
  let starts := startsFrom 0 lens
  let keepTokens := segmentIndices starts lens keep
  let freed ← freeOverrunStepSlots gate batch.outCacheLoc
    (segmentIndices starts lens (dropIndices stale))
  let filtered := filterBatch batch keep
  let inputIds ← gatherField batch.inputIds keepTokens
  let prefillInputIdsCpu ← gatherUnless batch.inputIds.isSome filtered.prefillInputIdsCpu
    batch.prefillInputIdsCpu keepTokens
  let outCacheLoc ← gatherField batch.outCacheLoc keepTokens
  let extendLens ← orIndexError (gather lens keep)
  let prefixLens ← orIndexError (gather batch.prefixLens keep)
  let extendLogprobStartLens ← orIndexError (gather batch.extendLogprobStartLens keep)
  let lpLens := List.zipWith (· - ·) lens batch.extendLogprobStartLens
  let extendInputLogprobTokenIds ← gatherUnless
    (batch.extendInputLogprobTokenIds.isSome && !filtered.returnLogprob) none
    batch.extendInputLogprobTokenIds (segmentIndices (startsFrom 0 lpLens) lpLens keep)
  return ({ filtered with
    inputIds := if batch.inputIds.isSome then inputIds else filtered.inputIds
    prefillInputIdsCpu
    outCacheLoc := if batch.outCacheLoc.isSome then outCacheLoc else filtered.outCacheLoc
    extendLens
    extendNumTokens := extendLens.sum
    prefixLens
    extendLogprobStartLens
    extendInputLogprobTokenIds :=
      if batch.extendInputLogprobTokenIds.isSome then extendInputLogprobTokenIds
      else filtered.extendInputLogprobTokenIds }, freed)

def dropOther (batch : OverrunBatch) (stale : List Bool) :
    Except OverrunError (OverrunBatch × Option (List Int)) := do
  let keep := keepIndices stale
  let freed ← freeOverrunStepSlots gate batch.outCacheLoc (dropIndices stale)
  let filtered := filterBatch batch keep
  let outCacheLoc ← gatherField batch.outCacheLoc keep
  return ({ filtered with
    outCacheLoc := if batch.outCacheLoc.isSome then outCacheLoc else filtered.outCacheLoc }, freed)

/-- `_drop_stale_overrun`: the batch that is left, and the slots that are freed. -/
def dropStaleOverrun (batch : OverrunBatch) :
    Except OverrunError (Option OverrunBatch × Option (List Int)) :=
  if batch.reqs = [] then .ok (some batch, none)
  else
    let stale := batch.reqs.map OverrunReq.stale
    if !stale.any id then .ok (some batch, none)
    else if batch.isExtend ∧ batch.mixRunningIndices.isSome then .error .mixed
    else if batch.isExtend ∧ (batch.inputEmbeds ∨ batch.replaceEmbeds) then .error .assertion
    else if batch.isExtend ∧ batch.inputIds = none ∧ batch.prefillInputIdsCpu = none then
      .error .noTokens
    else
      let dropped :=
        if batch.isExtend then dropExtend gate filterBatch batch stale
        else dropOther gate filterBatch batch stale
      dropped.map fun (left, freed) =>
        let left := keepDecoding left
        (if left.reqs = [] then none else some left, freed)

end Drop

/-! ## The batch of some requests -/

/-- What a request brings into an extend batch. -/
structure ExtendRow where
  req : OverrunReq
  inputIds : List Int
  slots : List Int
  prefixLen : Int
  logprobStart : Nat
  logprobTokenIds : List Int
  /-- It is a decode that was folded in. -/
  decoding : Bool
  length_slots : slots.length = inputIds.length
  length_logprobTokenIds : logprobTokenIds.length = inputIds.length - logprobStart

open ExtendRow

def ExtendRow.stale (row : ExtendRow) : Bool := row.req.stale

/-- How a batch is staged, whatever its requests are. -/
structure Staging where
  /-- The input ids are still on the host. -/
  deferred : Bool
  allocated : Bool
  /-- Folded decodes are listed. -/
  decodes : Bool

open Staging

/-- The extend batch that is built from these requests. -/
def Staging.batch (staging : Staging) (rows : List ExtendRow) : OverrunBatch where
  reqs := rows.map ExtendRow.req
  isExtend := true
  inputIds := if staging.deferred then none else some (rows.flatMap ExtendRow.inputIds)
  prefillInputIdsCpu := if staging.deferred then some (rows.flatMap ExtendRow.inputIds) else none
  outCacheLoc := if staging.allocated then some (rows.flatMap ExtendRow.slots) else none
  extendLens := rows.map (·.inputIds.length)
  extendNumTokens := (rows.map (·.inputIds.length)).sum
  prefixLens := rows.map ExtendRow.prefixLen
  extendLogprobStartLens := rows.map ExtendRow.logprobStart
  extendInputLogprobTokenIds :=
    if rows.any (·.req.returnLogprob) then some (rows.flatMap ExtendRow.logprobTokenIds) else none
  returnLogprob := rows.any (·.req.returnLogprob)
  decodingReqs :=
    if staging.decodes then some ((rows.filter ExtendRow.decoding).map ExtendRow.req) else none
  mixRunningIndices := none
  inputEmbeds := false
  replaceEmbeds := false

/-- The rows that stay. -/
def keptRows (rows : List ExtendRow) : List ExtendRow := rows.filter fun row => !row.stale

/-- The slots that are freed: those of the rows that go, where the gate allows it. -/
def freedSlots (gate : OverrunGate) (staging : Staging) (rows : List ExtendRow) :
    Option (List Int) :=
  let slots := (rows.filter ExtendRow.stale).flatMap ExtendRow.slots
  if gate.pageSize = 1 ∧ !gate.disableRadixCache ∧ staging.allocated ∧ slots ≠ [] then some slots
  else none

/-- `filter_batch`, of a batch of which some requests go: the requests and whether any of them wants
    logprobs are those at the positions, and the slots are left alone or given up. -/
structure FiltersBatch (filterBatch : OverrunBatch → List Nat → OverrunBatch) : Prop where
  nil : ∀ batch, filterBatch batch [] = { batch with reqs := [] }
  kept : ∀ batch keep reqs, gather batch.reqs keep = some reqs → keep ≠ [] →
    keep.length < batch.reqs.length →
      ∃ outCacheLoc, (batch.outCacheLoc = none → outCacheLoc = none) ∧
        filterBatch batch keep = { batch with
          reqs
          returnLogprob := reqs.any OverrunReq.returnLogprob
          outCacheLoc }

/-! ## The layouts -/

section Layouts

variable (rows : List ExtendRow)

theorem lens_eq_slots :
    rows.map (·.inputIds.length) = rows.map fun row => row.slots.length :=
  map_congr_left fun row _ => row.length_slots.symm

theorem lpLens_eq :
    List.zipWith (· - ·) (rows.map (·.inputIds.length)) (rows.map logprobStart) =
      rows.map fun row => row.logprobTokenIds.length := by
  rw [zipWith_map, zipWith_self]
  exact map_congr_left fun row _ => row.length_logprobTokenIds.symm

theorem gather_kept {α : Type} (entry : ExtendRow → α) :
    orIndexError (gather (rows.map entry) (keepIndices (rows.map stale))) =
      .ok ((keptRows rows).map entry) := by
  rw [gather_map stale entry rows]
  rfl

/-- A field that may be missing, where the rows of it are segments. -/
theorem gatherField_kept (flag : Bool) (segment : ExtendRow → List Int) {lens : List Nat}
    (hlens : lens = rows.map fun row => (segment row).length) :
    gatherField (if flag then some (rows.flatMap segment) else none)
        (segmentIndices (startsFrom 0 lens) lens (keepIndices (rows.map stale))) =
      .ok (if flag then some ((keptRows rows).flatMap segment) else none) := by
  cases flag with
  | false => rfl
  | true =>
    simp only [gatherField, if_true]
    rw [gather_segments stale segment rows hlens]
    rfl

theorem free_dropped (gate : OverrunGate) (staging : Staging) :
    freeOverrunStepSlots gate (staging.batch rows).outCacheLoc
        (segmentIndices (startsFrom 0 (rows.map (·.inputIds.length)))
          (rows.map (·.inputIds.length)) (dropIndices (rows.map stale))) =
      .ok (freedSlots gate staging rows) := by
  have hgather := gather_segments_dropped stale ExtendRow.slots rows (lens_eq_slots rows)
  have hnil := length_of_gather hgather
  have hlt := lt_of_gather hgather
  dsimp only [freedSlots, batch]
  generalize segmentIndices _ _ (dropIndices (rows.map stale)) = indices at *
  generalize (rows.filter stale).flatMap ExtendRow.slots = slots at *
  unfold freeOverrunStepSlots
  cases indices with
  | nil =>
    obtain rfl := eq_nil_of_length_eq_zero hnil
    simp
  | cons i indices =>
    have hne : slots ≠ [] := ne_nil_of_length_pos (hnil ▸ Nat.succ_pos _)
    have hall : ((i :: indices).all fun i => decide (i < (rows.flatMap ExtendRow.slots).length)) =
        true := by
      rw [List.all_eq_true]
      exact fun j hj => decide_eq_true (hlt j hj)
    rw [if_neg (cons_ne_nil _ _)]
    cases hopen : gate.disableRadixCache with
    | true => simp
    | false =>
      by_cases hpage : gate.pageSize = 1
      · cases hallocated : staging.allocated with
        | false => simp
        | true =>
          simp only [hpage, ne_eq, not_true_eq_false, Bool.false_eq_true, or_false, if_false,
            if_true, hgather]
          rw [if_pos hall, if_pos ⟨trivial, rfl, trivial, hne⟩]
          rfl
      · simp [hpage]

theorem any_kept (want : ExtendRow → Bool) (h : (keptRows rows).any want = true) :
    rows.any want = true := by
  rw [List.any_eq_true] at h ⊢
  obtain ⟨row, hrow, hwant⟩ := h
  exact ⟨row, (mem_filter.mp hrow).1, hwant⟩

/-- Folded decodes: a request that is listed stays exactly where its row stays. -/
theorem filter_decoding :
    ((rows.filter decoding).map ExtendRow.req).filter
        (fun req => req ∈ (keptRows rows).map ExtendRow.req) =
      ((keptRows rows).filter decoding).map ExtendRow.req := by
  rw [List.filter_map, keptRows, List.filter_filter, List.filter_filter]
  congr 1
  refine filter_congr fun row hrow => ?_
  have hiff : row.req ∈ (rows.filter fun row => !row.stale).map ExtendRow.req ↔
      (!row.stale) = true := by
    rw [List.mem_map]
    constructor
    · rintro ⟨other, hother, heq⟩
      have hl := (mem_filter.mp hother).2
      rw [stale, heq] at hl
      exact hl
    · exact fun hl => ⟨row, mem_filter.mpr ⟨hrow, hl⟩, rfl⟩
  simp only [comp_apply, hiff, Bool.decide_eq_true]
  exact Bool.and_comm _ _

end Layouts

/-! ## The extend branch -/

section Extend

variable {filterBatch : OverrunBatch → List Nat → OverrunBatch} (hfilter : FiltersBatch filterBatch)
  (gate : OverrunGate) (staging : Staging) (rows : List ExtendRow)

theorem length_keptRows :
    (keepIndices (rows.map stale)).length = (keptRows rows).length := by
  have h := length_of_gather (gather_map stale req rows)
  rw [length_map] at h
  exact h.symm

theorem length_keptRows_lt (hstale : ∃ row ∈ rows, row.stale = true) :
    (keptRows rows).length < rows.length := by
  obtain ⟨row, hrow, hstale⟩ := hstale
  refine length_filter_lt_length_iff_exists.mpr ⟨row, hrow, ?_⟩
  simp [hstale]

include hfilter in
/-- The batch after `filter_batch`: no request is left, or the fields for each request are right. -/
theorem filtered_cases (hstale : ∃ row ∈ rows, row.stale = true) :
    (keptRows rows = [] ∧
      filterBatch (staging.batch rows) (keepIndices (rows.map stale)) =
        { staging.batch rows with reqs := [] }) ∨
    (keptRows rows ≠ [] ∧ ∃ outCacheLoc, (staging.allocated = false → outCacheLoc = none) ∧
      filterBatch (staging.batch rows) (keepIndices (rows.map stale)) =
        { staging.batch rows with
          reqs := (keptRows rows).map ExtendRow.req
          returnLogprob := (keptRows rows).any (·.req.returnLogprob)
          outCacheLoc }) := by
  have hlen := length_keptRows rows
  rcases eq_nil_or_concat' (keptRows rows) with hnil | ⟨_, _, hcons⟩
  · rw [hnil] at hlen
    rw [eq_nil_of_length_eq_zero hlen]
    exact .inl ⟨hnil, hfilter.nil _⟩
  · have hne : keptRows rows ≠ [] := by simp [hcons]
    refine .inr ⟨hne, ?_⟩
    have hpos : keepIndices (rows.map stale) ≠ [] := fun h =>
      hne (eq_nil_of_length_eq_zero (by rw [← hlen, h, length_nil]))
    have hlt : (keepIndices (rows.map stale)).length <
        (rows.map req).length := by
      rw [hlen, length_map]
      exact length_keptRows_lt rows hstale
    obtain ⟨outCacheLoc, hnone, heq⟩ := hfilter.kept (staging.batch rows) _ _
      (gather_map stale req rows) hpos hlt
    refine ⟨outCacheLoc, fun hall => hnone (by simp [batch, hall]), heq.trans ?_⟩
    simp only [List.any_map]
    rfl

theorem prefill_kept (filtered : OverrunBatch)
    (hfiltered : filtered.prefillInputIdsCpu = (staging.batch rows).prefillInputIdsCpu) :
    gatherUnless (staging.batch rows).inputIds.isSome filtered.prefillInputIdsCpu
        (staging.batch rows).prefillInputIdsCpu
        (segmentIndices (startsFrom 0 (rows.map (·.inputIds.length)))
          (rows.map (·.inputIds.length)) (keepIndices (rows.map stale))) =
      .ok (staging.batch (keptRows rows)).prefillInputIdsCpu := by
  rw [hfiltered]
  obtain ⟨_ | _, allocated, decodes⟩ := staging
  · rfl
  · exact gatherField_kept rows true inputIds rfl

theorem logprob_kept (returnLogprob : Bool) :
    ∃ ids, gatherUnless
        ((staging.batch rows).extendInputLogprobTokenIds.isSome && !returnLogprob) none
        (staging.batch rows).extendInputLogprobTokenIds
        (segmentIndices (startsFrom 0 (rows.map fun row => row.logprobTokenIds.length))
          (rows.map fun row => row.logprobTokenIds.length)
          (keepIndices (rows.map stale))) = .ok ids ∧
      (returnLogprob = (keptRows rows).any (·.req.returnLogprob) →
        ids = (staging.batch (keptRows rows)).extendInputLogprobTokenIds) := by
  have h := gatherField_kept rows (rows.any (·.req.returnLogprob)) logprobTokenIds rfl
  have hany := any_kept rows (·.req.returnLogprob)
  unfold batch
  cases hrows : rows.any (·.req.returnLogprob) with
  | false =>
    rw [hrows] at hany
    refine ⟨none, by simp [gatherUnless, gatherField], fun _ => ?_⟩
    cases hkept : (keptRows rows).any (·.req.returnLogprob) with
    | false => rfl
    | true => exact absurd (hany hkept) Bool.false_ne_true
  | true =>
    cases returnLogprob with
    | false => exact ⟨none, by simp [gatherUnless], fun heq => by simp [← heq]⟩
    | true => exact ⟨_, by simpa [gatherUnless, hrows] using h, fun heq => by simp [← heq]⟩

include hfilter in
/-- What the extend branch leaves: every layout is the one of the rows that stay, but folded decodes
    are still listed. -/
theorem dropExtend_eq (hstale : ∃ row ∈ rows, row.stale = true) :
    ∃ left, dropExtend gate filterBatch (staging.batch rows) (rows.map stale) =
        .ok (left, freedSlots gate staging rows) ∧
      left.reqs = (keptRows rows).map ExtendRow.req ∧
      (keptRows rows ≠ [] → left = { staging.batch (keptRows rows) with
        decodingReqs := (staging.batch rows).decodingReqs }) := by
  have hcases := filtered_cases hfilter staging rows hstale
  generalize hfiltered : filterBatch (staging.batch rows) (keepIndices (rows.map stale)) =
    filtered at hcases
  have hfields : filtered.prefillInputIdsCpu = (staging.batch rows).prefillInputIdsCpu ∧
      filtered.reqs = (keptRows rows).map req := by
    rcases hcases with ⟨hnil, rfl⟩ | ⟨-, _, -, rfl⟩
    · exact ⟨rfl, by simp [hnil]⟩
    · exact ⟨rfl, rfl⟩
  have hids : gatherField (staging.batch rows).inputIds (segmentIndices
      (startsFrom 0 (rows.map (·.inputIds.length))) (rows.map (·.inputIds.length))
      (keepIndices (rows.map stale))) = .ok (staging.batch (keptRows rows)).inputIds := by
    obtain ⟨_ | _, allocated, decodes⟩ := staging
    · exact gatherField_kept rows true ExtendRow.inputIds rfl
    · rfl
  have hsls : gatherField (staging.batch rows).outCacheLoc (segmentIndices
      (startsFrom 0 (rows.map (·.inputIds.length))) (rows.map (·.inputIds.length))
      (keepIndices (rows.map stale))) = .ok (staging.batch (keptRows rows)).outCacheLoc :=
    gatherField_kept rows staging.allocated slots (lens_eq_slots rows)
  obtain ⟨lpIds, hlp, hlpIds⟩ := logprob_kept staging rows filtered.returnLogprob
  have hlens := gather_kept rows (·.inputIds.length)
  have hprefix := gather_kept rows prefixLen
  have hstarts := gather_kept rows logprobStart
  rw [← lpLens_eq rows] at hlp
  have hfree := free_dropped rows gate staging
  have hprefill := prefill_kept staging rows filtered hfields.1
  dsimp only [dropExtend]
  rw [hfiltered]
  refine ⟨{ filtered with
    inputIds :=
      if (staging.batch rows).inputIds.isSome then (staging.batch (keptRows rows)).inputIds
      else filtered.inputIds
    prefillInputIdsCpu := (staging.batch (keptRows rows)).prefillInputIdsCpu
    outCacheLoc :=
      if (staging.batch rows).outCacheLoc.isSome then (staging.batch (keptRows rows)).outCacheLoc
      else filtered.outCacheLoc
    extendLens := (staging.batch (keptRows rows)).extendLens
    extendNumTokens := (staging.batch (keptRows rows)).extendNumTokens
    prefixLens := (staging.batch (keptRows rows)).prefixLens
    extendLogprobStartLens := (staging.batch (keptRows rows)).extendLogprobStartLens
    extendInputLogprobTokenIds :=
      if (staging.batch rows).extendInputLogprobTokenIds.isSome then lpIds
      else filtered.extendInputLogprobTokenIds }, ?_, hfields.2, ?_⟩
  · have hL : (staging.batch rows).extendLens = rows.map (·.inputIds.length) := rfl
    have hP : (staging.batch rows).prefixLens = rows.map prefixLen := rfl
    have hS : (staging.batch rows).extendLogprobStartLens = rows.map logprobStart := rfl
    simp only [hL, hP, hS, hfree, hids, hprefill, hsls, hlens, hprefix, hstarts, hlp, Bind.bind,
      Except.bind]
    rfl
  · intro hne
    rcases hcases with ⟨hnil, -⟩ | ⟨-, outCacheLoc, hnone, rfl⟩
    · exact absurd hnil hne
    · rw [hlpIds rfl]
      have hI : (if (staging.batch rows).inputIds.isSome then
          (staging.batch (keptRows rows)).inputIds else (staging.batch rows).inputIds) =
            (staging.batch (keptRows rows)).inputIds := by
        obtain ⟨_ | _, allocated, decodes⟩ := staging <;> rfl
      have hO : (if (staging.batch rows).outCacheLoc.isSome then
          (staging.batch (keptRows rows)).outCacheLoc else outCacheLoc) =
            (staging.batch (keptRows rows)).outCacheLoc := by
        obtain ⟨deferred, _ | _, decodes⟩ := staging
        · exact hnone rfl
        · rfl
      have hE : (if (staging.batch rows).extendInputLogprobTokenIds.isSome then
          (staging.batch (keptRows rows)).extendInputLogprobTokenIds
          else (staging.batch rows).extendInputLogprobTokenIds) =
            (staging.batch (keptRows rows)).extendInputLogprobTokenIds := by
        have hany := any_kept rows (·.req.returnLogprob)
        unfold batch
        cases hrows : rows.any (·.req.returnLogprob) with
        | true => rfl
        | false =>
          rw [hrows] at hany
          rw [if_neg (fun h => absurd (hany h) Bool.false_ne_true)]
          rfl
      dsimp only
      rw [hI, hO, hE]
      rfl

/-- The folded decodes that are listed are cut down to the requests that stay. -/
theorem keepDecoding_eq :
    keepDecoding { staging.batch (keptRows rows) with
      decodingReqs := (staging.batch rows).decodingReqs } = staging.batch (keptRows rows) := by
  obtain ⟨deferred, allocated, _ | _⟩ := staging
  · rfl
  · have h := filter_decoding rows
    dsimp only [keepDecoding, batch]
    rw [if_pos rfl]
    dsimp only
    rw [h]
    rfl

theorem keepDecoding_reqs (batch : OverrunBatch) : (keepDecoding batch).reqs = batch.reqs := by
  unfold keepDecoding
  cases batch.decodingReqs <;> rfl

theorem keptRows_of_live (hl : ∀ row ∈ rows, row.stale = false) :
    keptRows rows = rows ∧ freedSlots gate staging rows = none := by
  constructor
  · exact filter_eq_self.mpr fun row hrow => by rw [hl row hrow]; rfl
  · have hnil : rows.filter stale = [] :=
      filter_eq_nil_iff.mpr fun row hrow => by simp [hl row hrow]
    simp [freedSlots, hnil]

include hfilter in
theorem dropStaleOverrun_batch :
    dropStaleOverrun gate filterBatch (staging.batch rows) =
      .ok (if rows ≠ [] ∧ keptRows rows = [] then none else some (staging.batch (keptRows rows)),
        freedSlots gate staging rows) := by
  have hmap : (staging.batch rows).reqs.map OverrunReq.stale = rows.map ExtendRow.stale :=
    map_map
  unfold dropStaleOverrun
  by_cases hl : ∀ row ∈ rows, row.stale = false
  · obtain ⟨hkept, hfreed⟩ := keptRows_of_live gate staging rows hl
    have hany : (rows.map ExtendRow.stale).any id = false := by
      rw [List.any_map, List.any_eq_false]
      exact fun row hrow => by simp [hl row hrow]
    have hrows : ¬(rows ≠ [] ∧ rows = []) := fun h => h.1 h.2
    dsimp only
    rw [hkept, hfreed, if_neg hrows, hmap, hany]
    exact ite_self _
  · obtain ⟨row, hrow, hstale⟩ : ∃ row ∈ rows, row.stale = true := by simpa using hl
    have hne : (staging.batch rows).reqs ≠ [] := ne_nil_of_mem (mem_map_of_mem hrow)
    have hany : (rows.map ExtendRow.stale).any id = true := by
      rw [List.any_map, List.any_eq_true]
      exact ⟨row, hrow, hstale⟩
    have htokens : ¬((staging.batch rows).isExtend ∧ (staging.batch rows).inputIds = none ∧
        (staging.batch rows).prefillInputIdsCpu = none) := by
      obtain ⟨_ | _, allocated, decodes⟩ := staging <;> simp [Staging.batch]
    obtain ⟨left, hleft, hreqs, heq⟩ := dropExtend_eq hfilter gate staging rows ⟨row, hrow, hstale⟩
    rw [if_neg hne]
    dsimp only
    rw [hmap, if_neg (by simp [hany]), if_neg (by simp [Staging.batch]),
      if_neg (by simp [Staging.batch]), if_neg htokens,
      if_pos (show (staging.batch rows).isExtend = true from rfl), hleft]
    refine congrArg Except.ok (Prod.ext ?_ rfl)
    show (if (keepDecoding left).reqs = [] then none else some (keepDecoding left)) = _
    by_cases hnil : keptRows rows = []
    · have hleftNil : (keepDecoding left).reqs = [] := by
        rw [keepDecoding_reqs, hreqs, hnil]
        rfl
      rw [if_pos hleftNil, if_pos ⟨ne_nil_of_mem hrow, hnil⟩]
    · have hleftNe : (keepDecoding left).reqs ≠ [] := by
        rw [keepDecoding_reqs, hreqs]
        simpa using hnil
      rw [if_neg hleftNe, if_neg (fun h => hnil h.2), heq hnil, keepDecoding_eq]

include hfilter in
/-- Dropping the stale rows of an extend batch equals never having had them, and the slots of the
    rows that go are freed where the gate allows it. A batch that carries fields the branch does not
    reslice is refused. -/
theorem drop_stale_overrun_kept :
    dropStaleOverrun gate filterBatch (staging.batch rows) =
      .ok (if rows ≠ [] ∧ keptRows rows = [] then none else some (staging.batch (keptRows rows)),
        freedSlots gate staging rows) ∧
    ∀ batch : OverrunBatch, batch.isExtend = true → (∃ req ∈ batch.reqs, req.stale = true) →
      batch.mixRunningIndices ≠ none ∨ batch.inputEmbeds = true ∨ batch.replaceEmbeds = true →
      ∃ error, dropStaleOverrun gate filterBatch batch = .error error := by
  constructor
  · exact dropStaleOverrun_batch hfilter gate staging rows
  · intro batch hextend ⟨req, hreq, hstale⟩ hfields
    have hany : (batch.reqs.map OverrunReq.stale).any id = true := by
      rw [List.any_map, List.any_eq_true]
      exact ⟨req, hreq, hstale⟩
    unfold dropStaleOverrun
    rw [if_neg (ne_nil_of_mem hreq)]
    dsimp only
    rw [if_neg (by simp [hany]), hextend]
    rcases eq_none_or_eq_some batch.mixRunningIndices with hnone | ⟨indices, hsome⟩
    · refine ⟨.assertion, ?_⟩
      rw [if_neg (by simp [hnone]), if_pos ⟨rfl, hfields.resolve_left (· hnone)⟩]
    · exact ⟨.mixed, if_pos ⟨rfl, by simp [hsome]⟩⟩

end Extend

/-! ## A batch of two -/

/-- A `filter_batch` that gives the slots up. -/
def filterReqs (batch : OverrunBatch) (keep : List Nat) : OverrunBatch :=
  match keep, gather batch.reqs keep with
  | [], _ => { batch with reqs := [] }
  | _ :: _, none => batch
  | _ :: _, some reqs => { batch with
      reqs
      returnLogprob := reqs.any OverrunReq.returnLogprob
      outCacheLoc := none }

theorem filterReqs_filters : FiltersBatch filterReqs where
  nil _ := rfl
  kept batch keep reqs hgather hne _ := by
    cases keep with
    | nil => exact absurd rfl hne
    | cons i keep => exact ⟨none, fun _ => rfl, by simp only [filterReqs, hgather]⟩

def finishedRow : ExtendRow where
  req := ⟨0, true, false, false⟩
  inputIds := [11, 12]
  slots := [4, 5]
  prefixLen := 7
  logprobStart := 2
  logprobTokenIds := []
  decoding := false
  length_slots := rfl
  length_logprobTokenIds := rfl

def liveRow : ExtendRow where
  req := ⟨1, false, false, true⟩
  inputIds := [21, 22, 23]
  slots := [1, 2, 3]
  prefixLen := 0
  logprobStart := 1
  logprobTokenIds := [22, 23]
  decoding := false
  length_slots := rfl
  length_logprobTokenIds := rfl

def openGate : OverrunGate := ⟨1, false⟩

theorem drop_stale_overrun_kept_two :
    dropStaleOverrun openGate filterReqs
        ((⟨false, true, false⟩ : Staging).batch [finishedRow, liveRow]) =
      .ok (some ((⟨false, true, false⟩ : Staging).batch [liveRow]), some [4, 5]) :=
  (drop_stale_overrun_kept filterReqs_filters openGate ⟨false, true, false⟩
    [finishedRow, liveRow]).1

/-- A mixed batch with a finished request is refused. -/
theorem mixed_not_dropped :
    dropStaleOverrun openGate filterReqs
      { (⟨false, true, true⟩ : Staging).batch [liveRow, finishedRow] with
        mixRunningIndices := some [1] } = .error .mixed := rfl

end OmniRealtime
