import Mathlib

/-!
# Occupancy

The members of a list are each at one place or at none. The occupancy of a place is how many members
are there.

1. `occupancy_set`: a member that moves leaves one place for another.
2. `presence_le_occupancy`: a place where somebody is has an occupancy.
-/

namespace OmniRealtime

universe u v

variable {α : Type u} {κ : Type v} [DecidableEq κ] {place : α → Option κ} {l : List α} {n : ℕ}
  {a b : α} {k : κ}

def occupancy (place : α → Option κ) (l : List α) (k : κ) : ℤ :=
  (l.countP fun a => place a = some k : ℕ)

/-- One for the place where the member is. -/
def presence (place : Option κ) (k : κ) : ℤ := if place = some k then 1 else 0

@[simp] theorem presence_none : presence none k = 0 := rfl

theorem presence_nonneg (p : Option κ) : 0 ≤ presence p k := by
  unfold presence
  split <;> decide

@[simp] theorem occupancy_nil : occupancy place [] k = 0 := rfl

theorem occupancy_cons : occupancy place (a :: l) k = occupancy place l k + presence
    (place a) k := by
  unfold occupancy presence
  rw [List.countP_cons]
  by_cases ha : place a = some k <;> simp [ha]

theorem occupancy_nonneg : 0 ≤ occupancy place l k := Int.natCast_nonneg _

theorem occupancy_concat :
    occupancy place (l ++ [a]) k = occupancy place l k + presence (place a) k := by
  induction l with
  | nil => rw [List.nil_append, occupancy_cons]
  | cons b l ih => rw [List.cons_append, occupancy_cons, occupancy_cons, ih, add_right_comm]

theorem occupancy_set (hn : l[n]? = some a) :
    occupancy place (l.set n b) k =
      occupancy place l k - presence (place a) k + presence (place b) k := by
  induction l generalizing n with
  | nil => cases hn
  | cons c l ih =>
    cases n with
    | zero =>
      cases hn
      rw [List.set_cons_zero, occupancy_cons, occupancy_cons, add_sub_cancel_right]
    | succ n =>
      rw [List.set_cons_succ, occupancy_cons, occupancy_cons, ih hn]
      omega

theorem presence_le_occupancy (hn : l[n]? = some a) :
    presence (place a) k ≤ occupancy place l k := by
  induction l generalizing n with
  | nil => cases hn
  | cons c l ih =>
    rw [occupancy_cons]
    cases n with
    | zero =>
      cases hn
      exact le_add_of_nonneg_left occupancy_nonneg
    | succ n => exact (ih hn).trans (le_add_of_nonneg_right (presence_nonneg _))

theorem occupancy_stay (hn : l[n]? = some a) (hsame : place b = place a) :
    occupancy place (l.set n b) k = occupancy place l k := by
  rw [occupancy_set hn, hsame, sub_add_cancel]

end OmniRealtime
