import Mathlib

/-!
# The leading run of a list that meets a test

What is left to take off once part of the run is gone, and, along a list on which the test
only turns from true to false, what remains behind the run.

1. `length_takeWhile_drop`: dropping part of the run leaves the rest of it.
2. `not_of_mem_drop`: behind the run nothing meets the test.
3. `takeWhile_append_run`, `dropWhile_append_run`: a run laid before a list without any.
-/

namespace OmniRealtime

open List

namespace TrailingPrefix

variable {α : Type} {p : α → Bool} {l : List α}

theorem length_takeWhile_drop {k : Nat} (h : k ≤ (l.takeWhile p).length) :
    ((l.drop k).takeWhile p).length = (l.takeWhile p).length - k := by
  induction l generalizing k with
  | nil => simp
  | cons a rest ih =>
    cases k with
    | zero => rfl
    | succ k =>
      cases ha : p a with
      | false => simp [ha] at h
      | true =>
        rw [takeWhile_cons_of_pos ha, length_cons] at h ⊢
        rw [drop_succ_cons, ih (Nat.le_of_succ_le_succ h), Nat.add_sub_add_right]

theorem not_of_mem_drop (hp : l.Pairwise fun a b => p b = true → p a = true) {b : α}
    (hb : b ∈ l.drop (l.takeWhile p).length) : p b = false := by
  induction l with
  | nil => cases hb
  | cons a rest ih =>
    rw [pairwise_cons] at hp
    cases ha : p a with
    | true =>
      rw [takeWhile_cons_of_pos ha, length_cons, drop_succ_cons] at hb
      exact ih hp.2 hb
    | false =>
      rw [takeWhile_cons_of_neg (by simp [ha]), length_nil, drop_zero] at hb
      cases hb with
      | head => exact ha
      | tail _ hmem =>
        cases hpb : p b with
        | false => rfl
        | true => exact absurd (hp.1 b hmem hpb) (by simp [ha])

theorem length_takeWhile_lt {a : α} (ha : a ∈ l) (hp : p a = false) :
    (l.takeWhile p).length < l.length := by
  have hprefix : l.takeWhile p <+: l := takeWhile_prefix p
  refine Nat.lt_of_le_of_ne hprefix.length_le fun hlen => ?_
  have hself : l.takeWhile p = l := hprefix.eq_of_length hlen
  rw [takeWhile_eq_self_iff] at hself
  rw [hself a ha] at hp
  cases hp

theorem takeWhile_append_run {run rest : List α} (hrun : ∀ a ∈ run, p a = true)
    (hrest : ∀ a ∈ rest, p a = false) : (run ++ rest).takeWhile p = run := by
  rw [takeWhile_append_of_pos hrun]
  cases rest with
  | nil => simp
  | cons a rest => simp [hrest a (mem_cons_self ..)]

theorem dropWhile_append_run {run rest : List α} (hrun : ∀ a ∈ run, p a = true)
    (hrest : ∀ a ∈ rest, p a = false) : (run ++ rest).dropWhile p = rest := by
  rw [dropWhile_append_of_pos hrun]
  cases rest with
  | nil => rfl
  | cons a rest => simp [hrest a (mem_cons_self ..)]

end TrailingPrefix

end OmniRealtime
