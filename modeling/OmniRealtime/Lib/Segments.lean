import OmniRealtime.Lib.RowPairing

/-!
# Segments of a flat list

Rows with segments of different lengths lie behind one another in a flat list. The segments of some
rows are taken out of it by position.

1. `gather_map`: one entry for each row.
2. `gather_segments`: one segment for each row.
-/

namespace OmniRealtime

open List Option

universe u v

namespace RowPairing

/-- Where segments of these lengths start. -/
def startsFrom : Nat → List Nat → List Nat
  | _, [] => []
  | start, len :: lens => start :: startsFrom (start + len) lens

/-- The positions in the segments of some rows. -/
def segmentIndices (starts lens rows : List Nat) : List Nat :=
  rows.flatMap fun i => List.range' (starts.getD i 0) (lens.getD i 0)

/-- The positions that are stale. -/
def dropIndices (stale : List Bool) : List Nat := keepIndices (stale.map not)

variable {α : Type u} {ρ : Type v} {indices : List Nat} {xs : List α} {ys : List α}

theorem gather_cons {i : Nat} {a : α} (h : xs[i]? = some a) (indices : List Nat) :
    gather xs (i :: indices) = (gather xs indices).map (a :: ·) := by
  simp only [gather, mapM_cons, h]
  cases List.mapM (fun i => xs[i]?) indices <;> rfl

theorem gather_append {xs ys : List α} (h : gather xs indices = some ys) (rest : List Nat) :
    gather xs (indices ++ rest) = (gather xs rest).map (ys ++ ·) := by
  simp only [gather] at h ⊢
  rw [mapM_append, h]
  cases List.mapM (fun i => xs[i]?) rest <;> rfl

theorem exists_of_gather_cons {i : Nat} (h : gather xs (i :: indices) = some ys) :
    ∃ a rest, xs[i]? = some a ∧ gather xs indices = some rest ∧ ys = a :: rest := by
  cases ha : xs[i]? with
  | none => simp [gather, ha] at h
  | some a =>
    rw [gather_cons ha, map_eq_some_iff] at h
    obtain ⟨rest, hrest, rfl⟩ := h
    exact ⟨a, rest, rfl, hrest, rfl⟩

theorem length_of_gather (h : gather xs indices = some ys) : ys.length = indices.length := by
  induction indices generalizing ys with
  | nil =>
    cases h
    rfl
  | cons i indices ih =>
    obtain ⟨a, rest, -, hrest, rfl⟩ := exists_of_gather_cons h
    rw [length_cons, length_cons, ih hrest]

theorem lt_of_gather (h : gather xs indices = some ys) : ∀ i ∈ indices, i < xs.length := by
  induction indices generalizing ys with
  | nil => exact nofun
  | cons j indices ih =>
    obtain ⟨a, rest, ha, hrest, -⟩ := exists_of_gather_cons h
    rintro i (_ | ⟨_, hi⟩)
    · exact (List.getElem?_eq_some_iff.mp ha).1
    · exact ih hrest i hi

/-- A segment with what lies ahead of it and behind it. -/
theorem gather_range' (ahead segment behind : List α) :
    gather (ahead ++ (segment ++ behind)) (List.range' ahead.length segment.length) =
      some segment := by
  induction segment generalizing ahead with
  | nil => rfl
  | cons a segment ih =>
    have hhead : (ahead ++ (a :: segment ++ behind))[ahead.length]? = some a := by simp
    have ht := ih (ahead ++ [a])
    rw [length_cons, range'_succ, gather_cons hhead]
    simp only [append_assoc, singleton_append, length_append, length_singleton]
      at ht
    rw [cons_append, ht]
    rfl

theorem getD_startsFrom (start : Nat) (ahead : List Nat) (len : Nat) (behind : List Nat) :
    (startsFrom start (ahead ++ len :: behind)).getD ahead.length 0 = start + ahead.sum := by
  induction ahead generalizing start with
  | nil => rfl
  | cons first ahead ih =>
    rw [cons_append, startsFrom, length_cons, getD_cons_succ, ih, sum_cons, Nat.add_assoc]

section Rows

variable (stale : ρ → Bool)

/-- The positions that are not stale, from a position on. -/
def keepFrom (start : Nat) (rows : List ρ) : List Nat :=
  (((rows.map stale).zipIdx start).filter fun entry => !entry.1).map Prod.snd

theorem keepFrom_cons (start : Nat) (row : ρ) (rows : List ρ) :
    keepFrom stale start (row :: rows) =
      if stale row then keepFrom stale (start + 1) rows
      else start :: keepFrom stale (start + 1) rows := by
  unfold keepFrom
  rw [map_cons, zipIdx_cons, filter_cons]
  cases stale row <;> rfl

theorem gather_keepFrom (entry : ρ → α) (rows : List ρ) (ahead : List α) :
    gather (ahead ++ rows.map entry) (keepFrom stale ahead.length rows) =
      some ((rows.filter fun row => !stale row).map entry) := by
  induction rows generalizing ahead with
  | nil => rfl
  | cons row rows ih =>
    have ht := ih (ahead ++ [entry row])
    rw [append_assoc, length_append] at ht
    rw [keepFrom_cons, filter_cons, map_cons]
    cases stale row with
    | true => exact ht
    | false =>
      have hhead : (ahead ++ entry row :: rows.map entry)[ahead.length]? = some (entry row) := by
        simp
      show gather _ (ahead.length :: keepFrom stale (ahead.length + 1) rows) = _
      rw [gather_cons hhead]
      exact congrArg (Option.map _) ht

theorem gather_map (entry : ρ → α) (rows : List ρ) :
    gather (rows.map entry) (keepIndices (rows.map stale)) =
      some ((rows.filter fun row => !stale row).map entry) :=
  gather_keepFrom stale entry rows []

section

variable (segment : ρ → List α) (rows : List ρ)

theorem gather_segmentsFrom (ahead : List α) (lens : List Nat) (hlens : lens.sum = ahead.length) :
    gather (ahead ++ rows.flatMap segment)
        (segmentIndices (startsFrom 0 (lens ++ rows.map fun row => (segment row).length))
          (lens ++ rows.map fun row => (segment row).length) (keepFrom stale lens.length rows)) =
      some ((rows.filter fun row => !stale row).flatMap segment) := by
  induction rows generalizing ahead lens with
  | nil => rfl
  | cons row rows ih =>
    have ht := ih (ahead ++ segment row) (lens ++ [(segment row).length])
      (by rw [sum_append, hlens, length_append, sum_singleton])
    rw [append_assoc, append_assoc, length_append] at ht
    rw [keepFrom_cons, filter_cons, map_cons, flatMap_cons]
    cases stale row with
    | true => exact ht
    | false =>
      have hsrt : (startsFrom 0 (lens ++ (segment row).length ::
          rows.map fun row => (segment row).length)).getD lens.length 0 = ahead.length := by
        rw [getD_startsFrom, hlens, Nat.zero_add]
      have hlen : (lens ++ (segment row).length ::
          rows.map fun row => (segment row).length).getD lens.length 0 = (segment row).length := by
        simp
      show gather _ (segmentIndices _ _ (lens.length :: keepFrom stale (lens.length + 1) rows)) = _
      rw [segmentIndices, flatMap_cons, hsrt, hlen, gather_append (gather_range' ..)]
      exact congrArg (Option.map _) ht

theorem gather_segments {lens : List Nat}
    (hlens : lens = rows.map fun row => (segment row).length) :
    gather (rows.flatMap segment)
        (segmentIndices (startsFrom 0 lens) lens (keepIndices (rows.map stale))) =
      some ((rows.filter fun row => !stale row).flatMap segment) :=
  hlens ▸ gather_segmentsFrom stale segment rows [] [] rfl

theorem gather_segments_dropped {lens : List Nat}
    (hlens : lens = rows.map fun row => (segment row).length) :
    gather (rows.flatMap segment)
        (segmentIndices (startsFrom 0 lens) lens (dropIndices (rows.map stale))) =
      some ((rows.filter stale).flatMap segment) := by
  have h := gather_segments (fun row => !stale row) segment rows hlens
  simp only [Bool.not_not] at h
  rw [dropIndices, List.map_map]
  exact h

end

end Rows

end RowPairing

end OmniRealtime
