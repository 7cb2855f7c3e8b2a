import OmniRealtime.Lib.System

/-!
# A pool of slots

The slots of a pool are free, or each is held by one holder. A holder takes the first free slot and
gives it back at the end.

1. `Exclusive.take`, `Exclusive.give`, `Exclusive.rotate`: what taking and giving back keep.
2. `Exclusive.length_lt`: while a slot is held, the pool is not full.
-/

namespace OmniRealtime

open List

universe u v

variable {ι : Type u} {α : Type v} {slots free : List α} {held : ι → Option α} {i : ι} {slot : α}

/-- No slot is free twice, free and held, or held twice. -/
structure Exclusive (slots free : List α) (held : ι → Option α) : Prop where
  nodup : free.Nodup
  subset : free ⊆ slots
  issued : ∀ i slot, held i = some slot → slot ∈ slots
  apart : ∀ i slot, held i = some slot → slot ∉ free
  injective : ∀ i j slot, held i = some slot → held j = some slot → i = j

namespace Exclusive

theorem full (hsls : slots.Nodup) : Exclusive slots slots (fun _ : ι => none) where
  nodup := hsls
  subset := List.Subset.refl _
  issued := nofun
  apart := nofun
  injective := nofun

section

variable (h : Exclusive slots free held)
include h

theorem length_le : free.length ≤ slots.length :=
  (subperm_of_subset h.nodup h.subset).length_le

theorem length_lt (hi : held i = some slot) : free.length < slots.length := by
  have hnd : (slot :: free).Nodup := nodup_cons.mpr ⟨h.apart i slot hi, h.nodup⟩
  have hsubset : slot :: free ⊆ slots := cons_subset.mpr ⟨h.issued i slot hi, h.subset⟩
  exact (subperm_of_subset hnd hsubset).length_le

theorem perm {free' : List α} (hperm : free.Perm free') :
    Exclusive slots free' held where
  nodup := hperm.nodup_iff.mp h.nodup
  subset := fun _ hc => h.subset (hperm.mem_iff.mpr hc)
  issued := h.issued
  apart := fun i c hc hmem => h.apart i c hc (hperm.mem_iff.mpr hmem)
  injective := h.injective

end

theorem rotate (h : Exclusive slots (slot :: free) held) :
    Exclusive slots (free ++ [slot]) held :=
  h.perm (perm_append_singleton slot free).symm

section Update

variable [DecidableEq ι]

theorem take (h : Exclusive slots (slot :: free) held) (i : ι) :
    Exclusive slots free (Function.update held i (some slot)) where
  nodup := (nodup_cons.mp h.nodup).2
  subset := fun c hc => h.subset (mem_cons_of_mem _ hc)
  issued := by
    intro j c hj
    obtain ⟨-, heq⟩ | ⟨-, hold⟩ := update_eq_some hj
    · cases heq
      exact h.subset mem_cons_self
    · exact h.issued j c hold
  apart := by
    intro j c hj hc
    obtain ⟨-, heq⟩ | ⟨-, hold⟩ := update_eq_some hj
    · cases heq
      exact (nodup_cons.mp h.nodup).1 hc
    · exact h.apart j c hold (mem_cons_of_mem _ hc)
  injective := by
    -- An older holder holds no free slot, so not the one taken now.
    have hother : ∀ j, held j ≠ some slot :=
      fun j hj => h.apart j slot hj mem_cons_self
    intro j k c hj hk
    obtain ⟨rfl, hjc⟩ | ⟨-, hjold⟩ := update_eq_some hj <;>
      obtain ⟨rfl, hkc⟩ | ⟨-, hkold⟩ := update_eq_some hk
    · rfl
    · cases hjc
      exact absurd hkold (hother k)
    · cases hkc
      exact absurd hjold (hother j)
    · exact h.injective j k c hjold hkold

theorem give (h : Exclusive slots free held) (hi : held i = some slot) :
    Exclusive slots (free ++ [slot]) (Function.update held i none) := by
  have hold : ∀ j c, Function.update held i none j = some c → j ≠ i ∧ held j = some c :=
    fun j c hj => (update_eq_some hj).resolve_left nofun
  exact {
    nodup := (perm_append_singleton slot free).nodup_iff.mpr
      (nodup_cons.mpr ⟨h.apart i slot hi, h.nodup⟩)
    subset := append_subset.mpr ⟨h.subset, cons_subset.mpr ⟨h.issued i slot hi, nil_subset _⟩⟩
    issued := fun j c hj => h.issued j c (hold j c hj).2
    apart := by
      intro j c hj hmem
      obtain ⟨hji, hheld⟩ := hold j c hj
      rcases mem_append.mp hmem with hmem | hmem
      · exact h.apart j c hheld hmem
      · obtain rfl := mem_singleton.mp hmem
        exact hji (h.injective j i c hheld hi)
    injective := fun j k c hj hk => h.injective j k c (hold j c hj).2 (hold k c hk).2 }

end Update

end Exclusive

end OmniRealtime
