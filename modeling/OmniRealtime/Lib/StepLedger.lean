import Mathlib

/-!
# What the steps of a run give back

A step takes one thing for each of its rows. It is open until it is settled, at once or not at
all; when it is settled some of its rows are given back and some are kept. Over it, a map
changed row by row.

1. `LedgerOk.settle`, `LedgerOk.begin_step`: nothing is given back twice, or given back and kept.
2. `updateEach_of_mem`, `updateEach_of_notMem`: what a pass over the rows leaves behind.
-/

namespace OmniRealtime

open List Function

universe u v w

section Ledger

variable {ρ : Type u} {isOpen isOpen' : Nat → Prop} {next : Nat} {freed kept : List (Nat × ρ)}

/-- What is given back and what is kept belongs to a step that is no longer open, and no entry
    is given back twice, or kept as well. -/
structure LedgerOk (isOpen : Nat → Prop) (next : Nat) (freed kept : List (Nat × ρ)) : Prop where
  nodup : freed.Nodup
  apart : ∀ e ∈ freed, e ∉ kept
  freed_settled : ∀ e ∈ freed, ¬isOpen e.1 ∧ e.1 < next
  kept_settled : ∀ e ∈ kept, ¬isOpen e.1 ∧ e.1 < next

namespace LedgerOk

theorem nil (isOpen : Nat → Prop) (next : Nat) :
    LedgerOk isOpen next ([] : List (Nat × ρ)) [] where
  nodup := .nil
  apart _ h := absurd h not_mem_nil
  freed_settled _ h := absurd h not_mem_nil
  kept_settled _ h := absurd h not_mem_nil

section

variable (h : LedgerOk isOpen next freed kept)
include h

theorem mono (hopen : ∀ k, isOpen' k → isOpen k) :
    LedgerOk isOpen' next freed kept where
  nodup := h.nodup
  apart := h.apart
  freed_settled e he := ⟨fun ho => (h.freed_settled e he).1 (hopen _ ho), (h.freed_settled e he).2⟩
  kept_settled e he := ⟨fun ho => (h.kept_settled e he).1 (hopen _ ho), (h.kept_settled e he).2⟩

theorem begin_step (hopen : ∀ k, isOpen' k → isOpen k ∨ k = next)
    : LedgerOk isOpen' (next + 1) freed kept := by
  have hstl : ∀ e : Nat × ρ, ¬isOpen e.1 ∧ e.1 < next → ¬isOpen' e.1 ∧ e.1 < next + 1 := by
    rintro e ⟨hcl, hlt⟩
    refine ⟨fun ho => ?_, Nat.lt_succ_of_lt hlt⟩
    rcases hopen _ ho with ho | heq
    · exact hcl ho
    · exact absurd heq (Nat.ne_of_lt hlt)
  exact
    { nodup := h.nodup
      apart := h.apart
      freed_settled := fun e he => hstl e (h.freed_settled e he)
      kept_settled := fun e he => hstl e (h.kept_settled e he) }

theorem settle {k : Nat} (hk : isOpen k) (hlt : k < next) (hopen : ∀ j, isOpen' j → isOpen j)
    (hcl : ¬isOpen' k) (back keep : List ρ) (hback : back.Nodup)
    (happart : ∀ r ∈ back, r ∉ keep) :
    LedgerOk isOpen' next (freed ++ back.map (k, ·)) (kept ++ keep.map (k, ·)) := by
  -- No entry of an open step is there yet.
  have hfreed : ∀ r, (k, r) ∉ freed := fun r hr => (h.freed_settled _ hr).1 hk
  have hkept : ∀ r, (k, r) ∉ kept := fun r hr => (h.kept_settled _ hr).1 hk
  have hnew : ∀ {rows : List ρ} {e : Nat × ρ}, e ∈ rows.map (k, ·) → ¬isOpen' e.1 ∧ e.1 < next := by
    intro rows e he
    obtain ⟨r, -, rfl⟩ := mem_map.1 he
    exact ⟨hcl, hlt⟩
  have hmono := h.mono hopen
  refine ⟨?_, ?_, ?_, ?_⟩
  · refine h.nodup.append (hback.map fun a b hab => (Prod.mk.inj hab).2) ?_
    intro e he hmap
    obtain ⟨r, -, rfl⟩ := mem_map.1 hmap
    exact hfreed r he
  · intro e he hmem
    rcases mem_append.1 he with he | he <;> rcases mem_append.1 hmem with hmem | hmem
    · exact h.apart e he hmem
    · obtain ⟨r, -, rfl⟩ := mem_map.1 hmem
      exact hfreed r he
    · obtain ⟨r, -, rfl⟩ := mem_map.1 he
      exact hkept r hmem
    · obtain ⟨r, hr, rfl⟩ := mem_map.1 he
      obtain ⟨r', hr', heq⟩ := mem_map.1 hmem
      cases heq
      exact happart r hr hr'
  · intro e he
    exact (mem_append.1 he).elim (hmono.freed_settled e) hnew
  · intro e he
    exact (mem_append.1 he).elim (hmono.kept_settled e) hnew

end

end LedgerOk

end Ledger

/-! ## A map changed row by row -/

section UpdateEach

variable {κ : Type u} [DecidableEq κ] {β : Type v} {ρ : Type w} {key : ρ → κ} {g : ρ → β → β}
  {f : κ → β}

/-- Each row changes the value at its key. -/
def updateEach (key : ρ → κ) (g : ρ → β → β) (rows : List ρ) (f : κ → β) : κ → β :=
  rows.foldl (fun f row => Function.update f (key row) (g row (f (key row)))) f

theorem updateEach_of_notMem {rows : List ρ} {a : κ} (h : a ∉ rows.map key) :
    updateEach key g rows f a = f a := by
  induction rows generalizing f with
  | nil => rfl
  | cons row rows ih =>
    obtain ⟨hne, hrest⟩ := not_or.1 (mt mem_cons.2 h)
    exact (ih hrest).trans (update_of_ne hne _ _)

theorem updateEach_of_mem {rows : List ρ} (hnd : (rows.map key).Nodup) {row : ρ}
    (hmem : row ∈ rows) : updateEach key g rows f (key row) = g row (f (key row)) := by
  induction rows generalizing f with
  | nil => exact absurd hmem not_mem_nil
  | cons first rows ih =>
    obtain ⟨hfst, hrest⟩ := nodup_cons.1 hnd
    rcases mem_cons.1 hmem with rfl | hmem
    · exact (updateEach_of_notMem hfst).trans (update_self _ _ _)
    · have hne : key row ≠ key first :=
        fun heq => hfst (heq ▸ mem_map_of_mem hmem)
      exact (ih hrest hmem).trans (congrArg (g row) (update_of_ne hne _ _))

/-- A row in a pass, or none of them. -/
theorem updateEach_cases {rows : List ρ} (hnd : (rows.map key).Nodup) (a : κ) :
    (∃ row ∈ rows, key row = a ∧ updateEach key g rows f a = g row (f a)) ∨
      a ∉ rows.map key ∧ updateEach key g rows f a = f a := by
  by_cases h : a ∈ rows.map key
  · obtain ⟨row, hmem, rfl⟩ := mem_map.1 h
    exact .inl ⟨row, hmem, rfl, updateEach_of_mem hnd hmem⟩
  · exact .inr ⟨h, updateEach_of_notMem h⟩

end UpdateEach

end OmniRealtime
