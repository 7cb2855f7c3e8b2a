import Mathlib

/-!
# Runs of free slots

The slots of a pool as a list of flags, true where a slot is free. A request for several slots
takes a run of free ones.

1. `mark`: the flags of a run, set one after the other; `count_mark_false`, `count_mark_true`.
2. `FirstFit`: the leftmost run that is long enough.
3. `Scanned.free`, `Scanned.taken`, `Scanned.finds`: what a scan from the left, which keeps the
   length of the run it is in, knows of the slots it has passed.
-/

namespace OmniRealtime

namespace SlotRuns

/-- The `n` slots from `start` are flagged `b`. -/
def All (slots : List Bool) (start n : Nat) (b : Bool) : Prop :=
  ∀ i, start ≤ i → i < start + n → slots[i]? = some b

/-- The `n` slots from `start` are free. -/
def Fits (slots : List Bool) (start n : Nat) : Prop := All slots start n true

/-- The leftmost run of `n` free slots. -/
def FirstFit (slots : List Bool) (start n : Nat) : Prop :=
  Fits slots start n ∧ ∀ s < start, ¬Fits slots s n

/-! ## Setting the flags of a run -/

/-- Flag the slots of a run, from the first on. -/
def mark (slots : List Bool) (start : Nat) (b : Bool) : Nat → List Bool
  | 0 => slots
  | n + 1 => (mark slots start b n).set (start + n) b

variable {slots : List Bool} {start n : Nat} {b : Bool} {i : Nat}

@[simp] theorem length_mark (slots : List Bool) (start : Nat) (b : Bool) (n : Nat) :
    (mark slots start b n).length = slots.length := by
  induction n with
  | zero => rfl
  | succ n ih => rw [mark, List.length_set, ih]

theorem getElem?_mark_of_mem (hlow : start ≤ i) (hh : i < start + n) (hlt : i < slots.length) :
    (mark slots start b n)[i]? = some b := by
  induction n with
  | zero => exact absurd hlow (Nat.not_le_of_lt hh)
  | succ n ih =>
    rw [mark]
    have hle : i ≤ start + n := Nat.le_of_lt_succ hh
    obtain heq | hlt' := Nat.eq_or_lt_of_le hle
    · rw [heq, List.getElem?_set_self (by rw [length_mark, ← heq]; exact hlt)]
    · rw [List.getElem?_set_ne (Nat.ne_of_gt hlt')]
      exact ih hlt'

theorem getElem?_mark_of_not_mem (h : i < start ∨ start + n ≤ i) :
    (mark slots start b n)[i]? = slots[i]? := by
  induction n with
  | zero => rfl
  | succ n ih =>
    rw [mark, List.getElem?_set_ne]
    · exact ih (h.imp_right fun h => Nat.le_of_succ_le h)
    · obtain h | h := h
      · exact Nat.ne_of_gt (Nat.lt_add_right n h)
      · exact Nat.ne_of_lt h

theorem All.lt_length (h : All slots start n b) (hlow : start ≤ i) (hh : i < start + n) :
    i < slots.length :=
  (List.getElem?_eq_some_iff.1 (h i hlow hh)).1

theorem All.last (h : All slots start (n + 1) b) (b' : Bool) :
    (mark slots start b' n)[start + n]? = some b := by
  rw [getElem?_mark_of_not_mem (.inr (Nat.le_refl _))]
  exact h _ (Nat.le_add_right _ _) (Nat.lt_succ_self _)

theorem All.init (h : All slots start (n + 1) b) : All slots start n b :=
  fun i hlow hh => h i hlow (Nat.lt_succ_of_lt hh)

/-- A run that is free after others were taken was free before. -/
theorem Fits.of_mark {s m : Nat} (h : Fits (mark slots start false n) s m) : Fits slots s m := by
  intro i hlow hh
  have hi := h i hlow hh
  have hlt : i < slots.length := by
    rw [← length_mark slots start false n]
    exact (List.getElem?_eq_some_iff.1 hi).1
  by_cases hout : i < start ∨ start + n ≤ i
  · rwa [getElem?_mark_of_not_mem hout] at hi
  · obtain ⟨hsrt, hend⟩ := not_or.1 hout
    rw [getElem?_mark_of_mem (Nat.le_of_not_lt hsrt) (Nat.lt_of_not_le hend) hlt] at hi
    cases hi

theorem count_mark_false (h : All slots start n true) :
    (mark slots start false n).count true + n = slots.count true := by
  induction n with
  | zero => rfl
  | succ n ih =>
    obtain ⟨hlt, hlast⟩ := List.getElem?_eq_some_iff.1 (h.last false)
    have hbef := ih h.init
    have hpos : 0 < (mark slots start false n).count true :=
      List.count_pos_iff.2 (hlast ▸ List.getElem_mem hlt)
    rw [mark, List.count_set hlt, hlast]
    simp only [beq_self_eq_true, if_true, Bool.false_eq_true, beq_iff_eq, if_false]
    omega

theorem count_mark_true (h : All slots start n false) :
    (mark slots start true n).count true = slots.count true + n := by
  induction n with
  | zero => rfl
  | succ n ih =>
    obtain ⟨hlt, hlast⟩ := List.getElem?_eq_some_iff.1 (h.last true)
    have hbef := ih h.init
    rw [mark, List.count_set hlt, hlast]
    simp only [beq_self_eq_true, if_true, Bool.false_eq_true, beq_iff_eq, if_false]
    omega

/-! ## Scanning -/

/-- A scan has passed the first `index` slots without a run of `n` free ones; the last `runLen` of
    them are free, and no more. -/
structure Scanned (slots : List Bool) (n index runLen : Nat) : Prop where
  le : runLen ≤ index
  short : runLen < n
  run : ∀ i, index - runLen ≤ i → i < index → slots[i]? = some true
  edge : runLen < index → slots[index - runLen - 1]? = some false
  none : ∀ s, s + n ≤ index → ¬Fits slots s n

variable {index runLen : Nat}

theorem scanned_zero (hn : 0 < n) : Scanned slots n 0 0 where
  le := Nat.le_refl 0
  short := hn
  run := fun i _ hi => absurd hi (Nat.not_lt_zero i)
  edge := fun h => absurd h (Nat.lt_irrefl 0)
  none := fun s h => absurd h (by omega)

section

variable (h : Scanned slots n index runLen)
include h

theorem Scanned.taken (hnext : slots[index]? = some false) :
    Scanned slots n (index + 1) 0 where
  le := Nat.zero_le _
  short := Nat.lt_of_le_of_lt (Nat.zero_le _) h.short
  run := fun i hlow hh => absurd hlow (Nat.not_le_of_lt hh)
  edge := fun _ => hnext
  none := by
    intro s hs hf
    obtain heq | hlt := Nat.eq_or_lt_of_le hs
    · have htrue := hf index (by have := h.short; omega) (by omega)
      rw [hnext] at htrue
      cases htrue
    · exact h.none s (Nat.le_of_lt_succ hlt) hf

theorem Scanned.free (hnext : slots[index]? = some true) (hshort : runLen + 1 < n)
    : Scanned slots n (index + 1) (runLen + 1) where
  le := Nat.succ_le_succ h.le
  short := hshort
  run := by
    intro i hlow hh
    rw [Nat.add_sub_add_right] at hlow
    obtain rfl | hlt := Nat.eq_or_lt_of_le (Nat.le_of_lt_succ hh)
    · exact hnext
    · exact h.run i hlow hlt
  edge := by
    intro hlt
    rw [Nat.add_sub_add_right]
    exact h.edge (Nat.lt_of_succ_lt_succ hlt)
  none := by
    intro s hs hf
    obtain heq | hlt := Nat.eq_or_lt_of_le hs
    · -- the run would reach over the taken slot before this one
      have hedge := h.edge (by omega)
      have htrue := hf (index - runLen - 1) (by omega) (by omega)
      rw [hedge] at htrue
      cases htrue
    · exact h.none s (Nat.le_of_lt_succ hlt) hf

theorem Scanned.finds (hnext : slots[index]? = some true) (hlong : runLen + 1 = n)
    : FirstFit slots (index - runLen) n := by
  have hle := h.le
  constructor
  · intro i hlow hh
    obtain rfl | hlt := Nat.eq_or_lt_of_le (show i ≤ index by omega)
    · exact hnext
    · exact h.run i hlow hlt
  · exact fun s hs => h.none s (by omega)

theorem Scanned.ends (hall : slots.length ≤ index) (s : Nat) : ¬Fits slots s n := by
  intro hf
  have hshort := h.short
  have hlt := All.lt_length hf (i := s + n - 1) (by omega) (by omega)
  exact h.none s (by omega) hf

end

end SlotRuns

end OmniRealtime
