import Mathlib

/-!
# Dicts

Python dicts as lists of entries in insertion order.

1. `mem_set`, `get_set`, `get_set_of_fresh`, `get_pop_of_ne`: what an assignment and a `pop` change.
2. `nodup_set`, `nodup_pop`: keys stay distinct.
3. `sum_entries`: a sum over the entries is a sum over the keys.
-/

namespace OmniRealtime

open List Option

universe u v

/-- The entries of a dict, oldest first. -/
abbrev Dict (κ : Type u) (β : Type v) := List (κ × β)

namespace Dict

variable {κ : Type u} {β : Type v}

def keys (d : Dict κ β) : List κ := d.map Prod.fst

variable {d : Dict κ β} {k : κ}

theorem mem_keys : k ∈ d.keys ↔ ∃ b, (k, b) ∈ d := by
  unfold keys
  rw [List.mem_map]
  constructor
  · intro ⟨e, he, hk⟩
    exact ⟨e.2, hk ▸ he⟩
  · intro ⟨b, hb⟩
    exact ⟨(k, b), hb, rfl⟩

variable [DecidableEq κ]

/-- `d.get(k)`. -/
def get (d : Dict κ β) (k : κ) : Option β := d.lookup k

/-- `d[k] = b`: an old key keeps its place. -/
def set (d : Dict κ β) (k : κ) (b : β) : Dict κ β :=
  if k ∈ d.keys then d.map fun e => if e.1 = k then (k, b) else e else d ++ [(k, b)]

/-- `d.pop(k, None)`. -/
def pop (d : Dict κ β) (k : κ) : Dict κ β := d.filter fun e => e.1 ≠ k

theorem mem_set {b : β} {e : κ × β} : e ∈ d.set k b ↔ e = (k, b) ∨ e.1 ≠ k ∧ e ∈ d := by
  unfold set
  split
  · next hk =>
    rw [List.mem_map]
    constructor
    · intro ⟨e', he', heq⟩
      split at heq
      · exact .inl heq.symm
      · next hne => exact .inr ⟨heq ▸ hne, heq ▸ he'⟩
    · intro h
      rcases h with rfl | ⟨hne, he⟩
      · obtain ⟨b', hb'⟩ := mem_keys.mp hk
        exact ⟨(k, b'), hb', if_pos rfl⟩
      · exact ⟨e, he, if_neg hne⟩
  · next hk =>
    rw [mem_append, mem_singleton]
    constructor
    · intro h
      rcases h with he | rfl
      · exact .inr ⟨fun hek => hk (mem_keys.mpr ⟨e.2, hek ▸ he⟩), he⟩
      · exact .inl rfl
    · intro h
      rcases h with rfl | ⟨-, he⟩
      · exact .inr rfl
      · exact .inl he

theorem mem_pop {e : κ × β} : e ∈ d.pop k ↔ e ∈ d ∧ e.1 ≠ k := by
  unfold pop
  rw [mem_filter, decide_eq_true_eq]

theorem nodup_set (h : d.keys.Nodup) (k : κ) (b : β) : (d.set k b).keys.Nodup := by
  unfold set
  split
  · next hk =>
    have hkeys : keys (d.map fun e => if e.1 = k then (k, b) else e) = d.keys := by
      unfold keys
      rw [List.map_map]
      refine map_congr_left fun e _ => ?_
      dsimp only [Function.comp]
      split
      · next hek => exact hek.symm
      · rfl
    rw [hkeys]
    exact h
  · next hk =>
    have hkeys : keys (d ++ [(k, b)]) = d.keys ++ [k] := map_append
    rw [hkeys, nodup_append]
    refine ⟨h, nodup_singleton k, fun a ha c hc hac => hk ?_⟩
    obtain rfl := mem_singleton.mp hc
    exact hac ▸ ha

theorem nodup_pop (h : d.keys.Nodup) (k : κ) : (d.pop k).keys.Nodup :=
  h.sublist (filter_sublist.map _)

theorem get_eq_some (h : d.keys.Nodup) {b : β} : d.get k = some b ↔ (k, b) ∈ d := by
  unfold get
  induction d with
  | nil => simp
  | cons e d ih =>
    obtain ⟨k', b'⟩ := e
    have hnd := nodup_cons.mp h
    rw [lookup_cons]
    by_cases hk : k = k'
    · subst hk
      rw [beq_self_eq_true, mem_cons, Prod.mk.injEq]
      constructor
      · intro hb
        exact .inl ⟨rfl, (some.inj hb).symm⟩
      · intro hb
        rcases hb with ⟨-, rfl⟩ | hmem
        · rfl
        · exact absurd (mem_keys.mpr ⟨b, hmem⟩) hnd.1
    · rw [beq_false_of_ne hk, mem_cons, Prod.mk.injEq]
      constructor
      · intro hb
        exact .inr ((ih hnd.2).mp hb)
      · intro hb
        rcases hb with ⟨rfl, -⟩ | hmem
        · exact absurd rfl hk
        · exact (ih hnd.2).mpr hmem

theorem get_eq_none : d.get k = none ↔ k ∉ d.keys := by
  unfold get
  rw [lookup_eq_none_iff]
  constructor
  · intro h hk
    obtain ⟨b, hb⟩ := mem_keys.mp hk
    exact bne_iff_ne.mp (h _ hb) rfl
  · intro h e he
    rw [bne_iff_ne]
    exact fun heq => h (mem_keys.mpr ⟨e.2, heq ▸ he⟩)

theorem get_pop_of_ne {k k' : κ} (hne : k' ≠ k) : (d.pop k).get k' = d.get k' := by
  unfold get pop
  induction d with
  | nil => rfl
  | cons e d ih =>
    obtain ⟨a, b⟩ := e
    by_cases ha : a = k
    · rw [filter_cons_of_neg (by simpa using ha), ih, lookup_cons,
        beq_false_of_ne (fun h => hne (h.trans ha))]
    · rw [filter_cons_of_pos (by simpa using ha), lookup_cons, lookup_cons, ih]

theorem get_pop_self (d : Dict κ β) (k : κ) : (d.pop k).get k = none :=
  get_eq_none.mpr fun hk => by
    obtain ⟨b, hb⟩ := mem_keys.mp hk
    exact (mem_pop.mp hb).2 rfl

theorem get_append (d e : Dict κ β) (k : κ) : get (d ++ e) k = (d.get k).or (e.get k) := by
  unfold get
  induction d with
  | nil => rfl
  | cons a d ih =>
    obtain ⟨k', b⟩ := a
    rw [cons_append, lookup_cons, lookup_cons]
    split
    · rfl
    · exact ih

theorem get_set_of_fresh (hk : k ∉ d.keys) (b : β) (k' : κ) :
    (d.set k b).get k' = if k' = k then some b else d.get k' := by
  rw [set, if_neg hk, get_append]
  split
  · next heq =>
    subst heq
    rw [get_eq_none.mpr hk]
    simp [get]
  · next hne =>
    simp [get, lookup_cons, beq_false_of_ne hne]

theorem get_set_of_ne {k k' : κ} (hne : k' ≠ k) (d : Dict κ β) (b : β) :
    (d.set k b).get k' = d.get k' := by
  unfold set
  split
  · unfold get
    clear * - hne
    induction d with
    | nil => rfl
    | cons e d ih =>
      obtain ⟨a, c⟩ := e
      rw [map_cons, lookup_cons, lookup_cons, ih]
      by_cases ha : a = k
      · rw [if_pos ha, beq_false_of_ne hne, beq_false_of_ne (ha ▸ hne)]
      · rw [if_neg ha]
  · rw [get_append]
    have hnone : get [(k, b)] k' = none := by
      simp [get, lookup_cons, beq_false_of_ne hne]
    rw [hnone, or_none]

theorem mem_keys_set {b : β} {k' : κ} : k' ∈ (d.set k b).keys ↔ k' = k ∨ k' ∈ d.keys := by
  rw [mem_keys, mem_keys]
  constructor
  · intro ⟨c, hc⟩
    rcases mem_set.mp hc with heq | ⟨-, hmem⟩
    · exact .inl (Prod.mk.inj heq).1
    · exact .inr ⟨c, hmem⟩
  · intro h
    by_cases hk : k' = k
    · exact ⟨b, mem_set.mpr (.inl (by rw [hk]))⟩
    · obtain ⟨c, hc⟩ := h.resolve_left hk
      exact ⟨c, mem_set.mpr (.inr ⟨hk, hc⟩)⟩

theorem get_set (h : d.keys.Nodup) (k : κ) (b : β) (k' : κ) :
    (d.set k b).get k' = if k' = k then some b else d.get k' := by
  refine Option.ext fun c => ?_
  rw [get_eq_some (nodup_set h k b), mem_set]
  split
  · next hk =>
    rw [some.injEq]
    constructor
    · intro hc
      rcases hc with heq | ⟨hne, -⟩
      · exact (Prod.mk.inj heq).2.symm
      · exact absurd hk hne
    · intro hbc
      exact .inl (by rw [hk, hbc])
  · next hk =>
    rw [get_eq_some h]
    constructor
    · intro hc
      rcases hc with heq | ⟨-, hmem⟩
      · exact absurd (Prod.mk.inj heq).1 hk
      · exact hmem
    · intro hmem
      exact .inr ⟨hk, hmem⟩

theorem sum_entries (h : d.keys.Nodup) (p : κ → Prop) [DecidablePred p] {f : β → ℕ} {g : κ → ℕ}
    (hfg : ∀ e ∈ d, f e.2 = g e.1) :
    ((d.filter fun e => p e.1).map fun e => f e.2).sum = ∑ k ∈ d.keys.toFinset with p k, g k := by
  have hkeys : (d.filter fun e => p e.1).map Prod.fst = d.keys.filter fun k => p k := by
    unfold keys
    rw [List.filter_map]
    rfl
  calc ((d.filter fun e => p e.1).map fun e => f e.2).sum
      = ((d.filter fun e => p e.1).map fun e => g e.1).sum := by
        refine congrArg List.sum (map_congr_left fun e he => ?_)
        exact hfg e (mem_of_mem_filter he)
    _ = ((d.keys.filter fun k => p k).map g).sum := by
        rw [← hkeys, List.map_map]
        rfl
    _ = ∑ k ∈ (d.keys.filter fun k => p k).toFinset, g k :=
        (sum_toFinset g (h.filter _)).symm
    _ = _ := by
        refine Finset.sum_congr ?_ fun _ _ => rfl
        ext k
        simp only [List.mem_toFinset, mem_filter, Finset.mem_filter, decide_eq_true_eq]

end Dict

end OmniRealtime
