import Mathlib

/-!
# Aligned spans in a buffer

Spans laid one after another in a buffer, each at a multiple of its own alignment.

1. `Layout.snoc`: a span past the end extends a layout.
2. `Layout.disjoint`: two spans of a layout share no position.
3. `dvd_add_padding`: the padding brings an offset to its alignment.
4. `slice_append`, `slice_end`: what a span reads from a buffer that grows.
-/

namespace OmniRealtime

namespace ByteLayout

structure Span where
  offset : ℕ
  size : ℕ
  align : ℕ
  deriving DecidableEq

def Span.stop (s : Span) : ℕ := s.offset + s.size

/-- `i` is a position of the span. -/
def Span.Covers (s : Span) (i : ℕ) : Prop := s.offset ≤ i ∧ i < s.stop

/-- Spans in order below `len`, each aligned, none reaching into the next. -/
structure Layout (spans : List Span) (len : ℕ) : Prop where
  aligned : ∀ s ∈ spans, s.align ∣ s.offset
  inside : ∀ s ∈ spans, s.stop ≤ len
  ordered : spans.Pairwise fun a b => a.stop ≤ b.offset

theorem Layout.nil (len : ℕ) : Layout [] len where
  aligned s hs := by cases hs
  inside s hs := by cases hs
  ordered := List.Pairwise.nil

theorem Layout.snoc {spans : List Span} {len : ℕ} (h : Layout spans len) {s : Span}
    (halign : s.align ∣ s.offset) (hlen : len ≤ s.offset) : Layout (spans ++ [s]) s.stop where
  aligned a ha := by
    rcases List.mem_append.mp ha with hold | hnew
    · exact h.aligned a hold
    · rw [List.mem_singleton.mp hnew]
      exact halign
  inside a ha := by
    rcases List.mem_append.mp ha with hold | hnew
    · exact ((h.inside a hold).trans hlen).trans (Nat.le_add_right _ _)
    · rw [List.mem_singleton.mp hnew]
  ordered := by
    refine List.pairwise_append.mpr ⟨h.ordered, List.pairwise_singleton _ _, fun a ha b hb => ?_⟩
    rw [List.mem_singleton.mp hb]
    exact (h.inside a ha).trans hlen

theorem Layout.mono {spans : List Span} {len len' : ℕ} (h : Layout spans len) (hle : len ≤ len') :
    Layout spans len' where
  aligned := h.aligned
  inside s hs := (h.inside s hs).trans hle
  ordered := h.ordered

/-- No position lies in two spans of a layout. -/
theorem Layout.disjoint {spans : List Span} {len : ℕ} (h : Layout spans len) :
    spans.Pairwise fun a b => ∀ i, ¬ (a.Covers i ∧ b.Covers i) :=
  h.ordered.imp fun hab i ⟨ha, hb⟩ =>
    absurd (lt_of_lt_of_le ha.2 (hab.trans hb.1)) (lt_irrefl i)

/-- The distance from `offset` to the next multiple of `align`. -/
def padding (offset align : ℕ) : ℕ := ((-(offset : ℤ)) % (align : ℤ)).toNat

theorem dvd_add_padding {align : ℕ} (h : 0 < align) (offset : ℕ) :
    align ∣ offset + padding offset align := by
  have hpos : (0 : ℤ) < align := Int.natCast_pos.mpr h
  have hnonneg : 0 ≤ (-(offset : ℤ)) % (align : ℤ) := Int.emod_nonneg _ hpos.ne'
  have hcast : ((offset + padding offset align : ℕ) : ℤ)
      = offset + (-(offset : ℤ)) % (align : ℤ) := by
    simp [padding, hnonneg]
  refine Int.natCast_dvd_natCast.mp (hcast ▸ Int.dvd_of_emod_eq_zero ?_)
  rw [Int.add_emod_emod, Int.add_right_neg, Int.zero_emod]

section Slice

variable {β : Type}

/-- The part of a buffer that a span names. -/
def slice (buf : List β) (s : Span) : List β := (buf.drop s.offset).take s.size

theorem slice_append {buf : List β} {s : Span} (h : s.stop ≤ buf.length) (more : List β) :
    slice (buf ++ more) s = slice buf s := by
  have hoff : s.offset ≤ buf.length := (Nat.le_add_right _ _).trans h
  have hsz : s.size ≤ (buf.drop s.offset).length := by
    rw [List.length_drop]
    exact Nat.le_sub_of_add_le' h
  rw [slice, slice, List.drop_append_of_le_length hoff, List.take_append_of_le_length hsz]

theorem slice_end {buf block : List β} {s : Span} (hoff : s.offset = buf.length)
    (hsz : s.size = block.length) : slice (buf ++ block) s = block := by
  rw [slice, hoff, hsz, List.drop_left, List.take_length]

end Slice

end ByteLayout

end OmniRealtime
