import Mathlib

/-!
# Strided arrays

A view of a memory with a size and a stride for each axis. Its values are read in row-major order.

1. `values_ofValues`: a contiguous array has the values it was built from.
-/

namespace OmniRealtime

open List

universe u v

/-- An array of any rank. -/
structure NdArray (α : Type u) where
  memory : Nat → α
  offset : Nat
  /-- The size and the stride of each axis. -/
  axes : List (Nat × Nat)

namespace NdArray

variable {α : Type u} {β : Type v}

def shape (array : NdArray α) : List Nat := array.axes.map Prod.fst

/-- The addresses of the elements from a base on, the last axis first. -/
def addresses : Nat → List (Nat × Nat) → List Nat
  | base, [] => [base]
  | base, (size, stride) :: axes =>
    (List.range size).flatMap fun i => addresses (base + i * stride) axes

/-- The values in row-major order. -/
def values (array : NdArray α) : List α :=
  (addresses array.offset array.axes).map array.memory

/-- An array of the same layout, with other elements. -/
def map (f : α → β) (array : NdArray α) : NdArray β :=
  ⟨f ∘ array.memory, array.offset, array.axes⟩

theorem values_map (f : α → β) (array : NdArray α) : (array.map f).values = array.values.map f := by
  rw [values, values, map_map]
  rfl

theorem length_addresses (base : Nat) (axes : List (Nat × Nat)) :
    (addresses base axes).length = (axes.map Prod.fst).prod := by
  induction axes generalizing base with
  | nil => rfl
  | cons axis axes ih =>
    obtain ⟨size, stride⟩ := axis
    rw [addresses, length_flatMap]
    simp only [ih, map_const', length_range, sum_replicate_nat, map_cons, prod_cons]

theorem length_values (array : NdArray α) : array.values.length = array.shape.prod := by
  rw [values, length_map, length_addresses]
  rfl

def contiguousAxes : List Nat → List (Nat × Nat)
  | [] => []
  | size :: shape => (size, shape.prod) :: contiguousAxes shape

theorem map_fst_contiguousAxes (shape : List Nat) :
    (contiguousAxes shape).map Prod.fst = shape := by
  induction shape with
  | nil => rfl
  | cons size shape ih => rw [contiguousAxes, map_cons, ih]

theorem flatMap_range' (base size step : Nat) :
    ((List.range size).flatMap fun i => List.range' (base + i * step) step) =
      List.range' base (size * step) := by
  induction size with
  | zero => rw [Nat.zero_mul]; rfl
  | succ size ih =>
    rw [range_succ, flatMap_append, ih, flatMap_singleton, Nat.succ_mul, ← range'_append_1]

/-- The elements of a contiguous array lie behind one another. -/
theorem addresses_contiguousAxes (base : Nat) (shape : List Nat) :
    addresses base (contiguousAxes shape) = List.range' base shape.prod := by
  induction shape generalizing base with
  | nil => rfl
  | cons size shape ih =>
    rw [contiguousAxes, addresses]
    simp only [ih]
    rw [flatMap_range', prod_cons]

/-- A contiguous array. -/
def ofValues [Inhabited α] (shape : List Nat) (values : List α) : NdArray α :=
  ⟨fun i => values.getD i default, 0, contiguousAxes shape⟩

theorem shape_ofValues [Inhabited α] (sizes : List Nat) (xs : List α) :
    (ofValues sizes xs).shape = sizes :=
  map_fst_contiguousAxes sizes

theorem values_ofValues [Inhabited α] {sizes : List Nat} {xs : List α}
    (h : xs.length = sizes.prod) : (ofValues sizes xs).values = xs := by
  rw [values, ofValues, addresses_contiguousAxes, ← h]
  refine ext_getElem (by simp) fun i hi hi' => ?_
  simp [getD_eq_getElem?_getD, hi']

end NdArray

end OmniRealtime
