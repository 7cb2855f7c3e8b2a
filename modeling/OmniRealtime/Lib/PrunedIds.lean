import Mathlib

/-!
# Identifiers that were seen, with a floor

Positive identifiers that may arrive in any order and more than once. The ones that were seen are
kept in a set; when the set grows past a limit, those some way below the greatest are forgotten,
and from then on every identifier up to this floor counts as seen.

1. `PrunedIds.take`: whether an identifier is new, and what is kept of it.
2. `PrunedIds.Remembers.take`: what was taken is never new again.
3. `PrunedIds.Remembers.new_iff`: an identifier that was not taken is new above the floor, which
   follows the taken ones at a distance.
-/

namespace OmniRealtime

open Finset

structure PrunedIds where
  seqs : Finset Nat := ∅
  floor : Nat := 0
  above : ∀ n ∈ seqs, floor < n := by simp

namespace PrunedIds

/-- The greatest identifier that is kept. -/
def top (seqs : Finset Nat) : Nat := seqs.sup id

/-- The identifiers above the new floor. -/
def prune (window : Nat) (seqs : Finset Nat) : PrunedIds where
  seqs := seqs.filter (top seqs - window < ·)
  floor := top seqs - window
  above := fun _ hn => (Finset.mem_filter.1 hn).2

/-- The identifier is new. -/
def New (s : PrunedIds) (n : Nat) : Prop := s.floor < n ∧ n ∉ s.seqs

instance (s : PrunedIds) (n : Nat) : Decidable (s.New n) := inferInstanceAs (Decidable (_ ∧ _))

/-- A new identifier is kept; more than `limit` are pruned. -/
def take (limit window : Nat) (s : PrunedIds) (n : Nat) : PrunedIds :=
  if h : s.New n then
    if limit < (insert n s.seqs).card then prune window (insert n s.seqs)
    else
      { seqs := insert n s.seqs
        floor := s.floor
        above := fun m hm => (Finset.mem_insert.1 hm).elim (fun heq => heq ▸ h.1) (s.above m) }
  else s

variable {seqs : Finset Nat}

theorem le_top {n : Nat} (h : n ∈ seqs) : n ≤ top seqs :=
  le_sup (f := id) h

theorem top_mem (h : seqs.Nonempty) : top seqs ∈ seqs := by
  obtain ⟨m, hm, heq⟩ := exists_mem_eq_sup seqs h id
  unfold top
  rw [heq]
  exact hm

/-- Identifiers above a floor reach as far above it as there are. -/
theorem add_card_le_top {floor : Nat} (h : seqs.Nonempty) (habove : ∀ m ∈ seqs, floor < m) :
    floor + seqs.card ≤ top seqs := by
  have hsub : seqs ⊆ Ioc floor (top seqs) := fun m hm =>
    mem_Ioc.2 ⟨habove m hm, le_top hm⟩
  have hcard := card_le_card hsub
  rw [Nat.card_Ioc] at hcard
  have hlt := habove _ (top_mem h)
  omega

/-! ## What is remembered -/

variable {limit window n : Nat} {s : PrunedIds} {taken : Finset Nat}

/-- What was kept and forgotten of the identifiers that were taken. -/
structure Remembers (limit window : Nat) (s : PrunedIds) (taken : Finset Nat) : Prop where
  kept : s.seqs ⊆ taken
  forgotten : ∀ n ∈ taken, n ∈ s.seqs ∨ n ≤ s.floor
  /-- The floor follows an identifier that was taken. -/
  follows : s.floor = 0 ∨ s.floor + window ∈ taken
  few : taken.card ≤ limit → s.floor = 0

theorem remembers_empty (limit window : Nat) : Remembers limit window {} ∅ :=
  ⟨fun _ h => h, fun _ h => absurd h (notMem_empty _), .inl rfl, fun _ => rfl⟩

section

variable (h : Remembers limit window s taken)
include h

theorem Remembers.not_new (hn : n ∈ taken) : ¬s.New n := by
  rintro ⟨hfloor, hseqs⟩
  obtain hmem | hle := h.forgotten n hn
  · exact hseqs hmem
  · exact Nat.not_le_of_lt hfloor hle

theorem Remembers.new_iff :
    s.New n ↔ n ∉ taken ∧ s.floor < n :=
  ⟨fun hnew => ⟨fun hn => h.not_new hn hnew, hnew.1⟩,
    fun hn => ⟨hn.2, fun hmem => hn.1 (h.kept hmem)⟩⟩

theorem Remembers.take (hwin : window ≤ limit) (hnew : s.New n)
    : Remembers limit window (s.take limit window n) (insert n taken) := by
  have hnot : n ∉ taken := fun hn => h.not_new hn hnew
  have hkept : insert n s.seqs ⊆ insert n taken := insert_subset_insert n h.kept
  unfold PrunedIds.take
  rw [dif_pos hnew]
  split
  · next hmany =>
    have habove : ∀ m ∈ insert n s.seqs, s.floor < m := fun m hm =>
      (mem_insert.1 hm).elim (fun heq => heq ▸ hnew.1) (s.above m)
    have hsome : (insert n s.seqs).Nonempty := insert_nonempty n s.seqs
    have htop := add_card_le_top hsome habove
    refine ⟨fun m hm => hkept (mem_filter.1 hm).1, fun m hm => ?_, .inr ?_, fun hfew => ?_⟩
    · have hseen : m ∈ insert n s.seqs ∨ m ≤ s.floor := by
        obtain heq | hm := mem_insert.1 hm
        · exact .inl (heq ▸ mem_insert_self n s.seqs)
        · exact (h.forgotten m hm).imp_left mem_insert_of_mem
      obtain hseen | hle := hseen
      · obtain hlt | hle := lt_or_ge (top (insert n s.seqs) - window) m
        · exact .inl (mem_filter.2 ⟨hseen, hlt⟩)
        · exact .inr hle
      · refine .inr (hle.trans ?_)
        show s.floor ≤ top (insert n s.seqs) - window
        omega
    · have heq : top (insert n s.seqs) - window + window = top (insert n s.seqs) :=
        Nat.sub_add_cancel (by omega)
      show top (insert n s.seqs) - window + window ∈ insert n taken
      rw [heq]
      exact hkept (top_mem hsome)
    · exact absurd (card_le_card hkept) (Nat.not_le_of_lt (hfew.trans_lt hmany))
  · refine ⟨hkept, fun m hm => ?_, ?_, fun hfew => h.few ?_⟩
    · obtain heq | hm := mem_insert.1 hm
      · exact .inl (heq ▸ mem_insert_self n s.seqs)
      · exact (h.forgotten m hm).imp_left mem_insert_of_mem
    · exact h.follows.imp_right mem_insert_of_mem
    · rw [card_insert_of_notMem hnot] at hfew
      exact Nat.le_of_succ_le hfew

end

end PrunedIds

end OmniRealtime
