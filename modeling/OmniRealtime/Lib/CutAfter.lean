import Mathlib

/-!
# Lists cut after marked elements

1. `cutFrom_append`: a list that comes in parts is cut as a whole, when what is left of one part
   goes ahead of the next.
-/

namespace OmniRealtime

universe u

namespace CutAfter

variable {α : Type u} (mark : α → Bool)

/-- The pieces that end in a mark, and what is left, of a list behind the start of a piece. -/
def cutFrom : List α → List α → List (List α) × List α
  | ahead, [] => ([], ahead)
  | ahead, x :: xs =>
    if mark x then
      let (pieces, rest) := cutFrom [] xs
      ((ahead ++ [x]) :: pieces, rest)
    else cutFrom (ahead ++ [x]) xs

theorem cutFrom_append (ahead xs ys : List α) :
    cutFrom mark ahead (xs ++ ys) =
      ((cutFrom mark ahead xs).1 ++ (cutFrom mark (cutFrom mark ahead xs).2 ys).1,
        (cutFrom mark (cutFrom mark ahead xs).2 ys).2) := by
  induction xs generalizing ahead with
  | nil => rfl
  | cons x xs ih =>
    rw [List.cons_append, cutFrom, cutFrom]
    cases mark x with
    | true => simp only [if_true, ih, List.cons_append]
    | false => exact ih (ahead ++ [x])

/-- What is left holds no mark. -/
theorem rest_cutFrom {ahead : List α} (hahead : ∀ x ∈ ahead, mark x = false) (xs : List α) :
    ∀ x ∈ (cutFrom mark ahead xs).2, mark x = false := by
  induction xs generalizing ahead with
  | nil => exact hahead
  | cons x xs ih =>
    rw [cutFrom]
    cases hx : mark x with
    | true => exact ih nofun
    | false =>
      refine ih fun y hy => ?_
      rcases List.mem_append.mp hy with hy | hy
      · exact hahead y hy
      · rw [List.mem_singleton.mp hy]
        exact hx

theorem cutFrom_of_unmarked {xs : List α} (h : ∀ x ∈ xs, mark x = false) (ahead : List α) :
    cutFrom mark ahead xs = ([], ahead ++ xs) := by
  induction xs generalizing ahead with
  | nil => rw [List.append_nil]; rfl
  | cons x xs ih =>
    rw [cutFrom, h x List.mem_cons_self, if_neg Bool.false_ne_true,
      ih fun y hy => h y (List.mem_cons_of_mem _ hy), List.append_assoc]
    rfl

end CutAfter

end OmniRealtime
