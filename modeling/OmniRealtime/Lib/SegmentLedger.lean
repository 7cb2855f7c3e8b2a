import Mathlib

/-!
# Ledgers over cumulative counters

A ledger totals counters that are reported as cumulative values. Counting happens in
segments, each with a baseline and a high-water mark; a report covers the live segments of
one scope, and a segment it leaves out is folded into the retired total of its group and
forgotten. The ledger itself only holds the live segments and the retired totals; `seen`
and the marks of retired segments are history.

1. `Valid.accept`: a report that brings no retired segment back keeps the ledger valid.
2. `Valid.total_eq`: the totals of a valid ledger are the sum over all segments ever seen.
3. `Valid.total_le_accept`: a report never lowers a total.
-/

namespace OmniRealtime

open Finset

universe u v

structure SegmentLedger (σ : Type u) (γ : Type v) where
  seen : Finset σ
  live : Finset σ
  high : σ → ℕ
  base : σ → ℕ
  retired : γ → ℕ

namespace SegmentLedger

variable {σ : Type u} {γ : Type v} [DecidableEq σ] [DecidableEq γ] {A : SegmentLedger σ γ}
  {group : σ → γ}

/-- What a segment has counted since its baseline. -/
def credit (A : SegmentLedger σ γ) (x : σ) : ℕ := A.high x - A.base x

def total (A : SegmentLedger σ γ) (group : σ → γ) (w : γ) : ℕ :=
  A.retired w + ∑ x ∈ A.live with group x = w, A.credit x

def empty : SegmentLedger σ γ := ⟨∅, ∅, fun _ => 0, fun _ => 0, fun _ => 0⟩

/-- A report of `value` for the segments `keys`, which are all of the scope that are left. A
    new segment starts from zero, or from its own value at first contact. -/
def accept (A : SegmentLedger σ γ) (group : σ → γ) (scope : σ → Prop) [DecidablePred scope]
    (keys : Finset σ) (value : σ → ℕ) (first : Bool) : SegmentLedger σ γ where
  seen := A.seen ∪ keys
  live := A.live.filter (fun x => ¬scope x) ∪ keys
  high x := if x ∈ keys then max (A.high x) (value x) else A.high x
  base x := if x ∈ keys ∧ x ∉ A.seen then (if first then value x else 0) else A.base x
  retired w := A.retired w + ∑ x ∈ A.live.filter scope \ keys with group x = w, A.credit x

/-- The retired total of a group is what its retired segments have counted. -/
structure Valid (A : SegmentLedger σ γ) (group : σ → γ) : Prop where
  live_seen : A.live ⊆ A.seen
  base_le : ∀ x, A.base x ≤ A.high x
  unseen : ∀ x, x ∉ A.seen → A.high x = 0 ∧ A.base x = 0
  retired_eq : ∀ w, A.retired w = ∑ x ∈ A.seen \ A.live with group x = w, A.credit x

theorem valid_empty (group : σ → γ) : (empty : SegmentLedger σ γ).Valid group :=
  ⟨Subset.refl _, fun _ => le_rfl, fun _ _ => ⟨rfl, rfl⟩, fun _ => rfl⟩

section Accept

variable {A : SegmentLedger σ γ} {group : σ → γ} {scope : σ → Prop} [DecidablePred scope]
  {keys : Finset σ} {value : σ → ℕ} {first : Bool}

theorem credit_accept_of_notMem {x : σ} (hx : x ∉ keys) :
    (A.accept group scope keys value first).credit x = A.credit x := by
  dsimp only [credit, accept]
  rw [if_neg hx, if_neg (fun h => hx h.1)]

theorem Valid.credit_le_accept (h : A.Valid group) (x : σ) :
    A.credit x ≤ (A.accept group scope keys value first).credit x := by
  by_cases hx : x ∈ keys
  · dsimp only [credit, accept]
    rw [if_pos hx]
    by_cases hs : x ∈ A.seen
    · rw [if_neg (fun h => h.2 hs)]
      exact Nat.sub_le_sub_right (Nat.le_max_left _ _) _
    · rw [(h.unseen x hs).1, Nat.zero_sub]
      exact Nat.zero_le _
  · exact (credit_accept_of_notMem hx).ge

section

variable (h : A.Valid group) (hback : ∀ x ∈ keys, x ∈ A.seen → x ∈ A.live)
include h hback

/-- After a report, the retired segments are the old ones and those of the scope that the
    report has left out. -/
theorem Valid.retired_accept :
    (A.accept group scope keys value first).seen \ (A.accept group scope keys value first).live =
      (A.seen \ A.live) ∪ (A.live.filter scope \ keys) := by
  ext x
  simp only [accept, mem_sdiff, mem_union, mem_filter, not_or, not_and,
    not_not]
  constructor
  · intro hx
    obtain ⟨hs | hkeys, hlive, hnot⟩ := hx
    · by_cases hx' : x ∈ A.live
      · exact .inr ⟨⟨hx', hlive hx'⟩, hnot⟩
      · exact .inl ⟨hs, hx'⟩
    · exact absurd hkeys hnot
  · intro hx
    obtain ⟨hs, hlive⟩ | ⟨⟨hlive, hin⟩, hnot⟩ := hx
    · exact ⟨.inl hs, fun hl => absurd hl hlive, fun hk => hlive (hback x hk hs)⟩
    · exact ⟨.inl (h.live_seen hlive), fun _ => hin, hnot⟩

theorem Valid.accept : (A.accept group scope keys value first).Valid group := by
  refine ⟨?_, ?_, ?_, ?_⟩
  · intro x hx
    rcases mem_union.mp hx with hx | hx
    · exact mem_union_left _ (h.live_seen (mem_filter.mp hx).1)
    · exact mem_union_right _ hx
  · intro x
    dsimp only [SegmentLedger.accept]
    by_cases hx : x ∈ keys
    · rw [if_pos hx]
      split
      · split
        · exact Nat.le_max_right _ _
        · exact Nat.zero_le _
      · exact (h.base_le x).trans (Nat.le_max_left _ _)
    · rw [if_neg hx, if_neg (fun h => hx h.1)]
      exact h.base_le x
  · intro x hx
    have hnot := mem_union.not.mp hx
    rw [not_or] at hnot
    dsimp only [SegmentLedger.accept]
    rw [if_neg hnot.2, if_neg (fun h => hnot.2 h.1)]
    exact h.unseen x hnot.1
  · intro w
    rw [h.retired_accept hback, filter_union, sum_union]
    · refine congrArg₂ (· + ·) ((h.retired_eq w).trans ?_) ?_
      · refine sum_congr rfl fun x hx => (credit_accept_of_notMem fun hk => ?_).symm
        obtain ⟨hs, hlive⟩ := mem_sdiff.mp (mem_filter.mp hx).1
        exact hlive (hback x hk hs)
      · refine sum_congr rfl fun x hx => (credit_accept_of_notMem ?_).symm
        exact (mem_sdiff.mp (mem_filter.mp hx).1).2
    · refine disjoint_filter_filter (disjoint_left.mpr fun x hx hx' => ?_)
      exact (mem_sdiff.mp hx).2 (mem_filter.mp (mem_sdiff.mp hx').1).1

end

end Accept

theorem Valid.total_eq (h : A.Valid group) (w : γ) :
    A.total group w = ∑ x ∈ A.seen with group x = w, A.credit x := by
  unfold total
  rw [h.retired_eq w, ← sum_union]
  · rw [← filter_union, sdiff_union_of_subset h.live_seen]
  · exact disjoint_filter_filter sdiff_disjoint

theorem Valid.total_le_accept {scope : σ → Prop} [DecidablePred scope] {keys : Finset σ}
    {value : σ → ℕ} {first : Bool} (h : A.Valid group) (hback : ∀ x ∈ keys, x ∈ A.seen → x ∈ A.live)
    (w : γ) : A.total group w ≤ (A.accept group scope keys value first).total group w := by
  rw [h.total_eq, (h.accept hback).total_eq]
  calc ∑ x ∈ A.seen with group x = w, A.credit x
      ≤ ∑ x ∈ A.seen with group x = w, (A.accept group scope keys value first).credit x :=
        sum_le_sum fun x _ => h.credit_le_accept x
    _ ≤ _ := by
        refine sum_le_sum_of_subset (filter_subset_filter _ ?_)
        exact subset_union_left

end SegmentLedger

end OmniRealtime
