import Mathlib

/-!
# Positional pairing

A step computes one row for each item of a list, in its order. Later the items of which a mask says
that they are stale are dropped, by position, from the items and from the rows, and what is left is
paired. In between, items may have been taken out of the list, but not out of the rows.

1. `exists_common_prefix`: where nothing was taken out ahead of an item to keep, the lists agree up
   to the last one.
2. `pairKept_aligned`: then every item that is kept is paired with its own row.
-/

namespace OmniRealtime

open List Option

universe u

namespace RowPairing

variable {α β : Type u} {launched before items : List α} {indices : List Nat}

/-- The positions that are not stale. -/
def keepIndices (stale : List Bool) : List Nat :=
  (stale.zipIdx.filter fun entry => !entry.1).map Prod.snd

/-- The entries at the positions; `none` where a position is out of range. -/
def gather (xs : List α) (indices : List Nat) : Option (List α) := indices.mapM fun i => xs[i]?

/-- The items and the rows that are kept, paired by position. Nothing is dropped where as many items
    are kept as there are. -/
def pairKept (stale : List Bool) (items : List α) (rows : List β) : Option (List (α × β)) :=
  let keep := keepIndices stale
  if keep.length < items.length then do
    let kept ← if keep = [] then some rows else gather rows keep
    return (← gather items keep).zip kept
  else some (items.zip rows)

/-! ## Positions -/

theorem mem_keepIndices {stale : List Bool} {i : Nat} :
    i ∈ keepIndices stale ↔ stale[i]? = some false := by
  simp [keepIndices, mem_zipIdx_iff_getElem?]

theorem length_keepIndices (stale : List Bool) :
    (keepIndices stale).length = stale.count false := by
  rw [keepIndices, length_map, ← countP_eq_length_filter]
  conv_rhs => rw [← zipIdx_map_fst 0 stale, List.count, countP_map]
  congr 1
  funext entry
  cases h : entry.1 <;> simp [h]

theorem exists_gather (xs : List α) (h : ∀ i ∈ indices, i < xs.length) :
    ∃ ys, gather xs indices = some ys := by
  induction indices with
  | nil => exact ⟨[], rfl⟩
  | cons i indices ih =>
    obtain ⟨ys, hys⟩ := ih fun j hj => h j (mem_cons_of_mem _ hj)
    have hi : i < xs.length := h i mem_cons_self
    refine ⟨xs[i] :: ys, ?_⟩
    simp only [gather, mapM_cons, getElem?_eq_getElem hi] at hys ⊢
    simp [hys]

/-- Two gathered lists are paired at the positions they were gathered from. -/
theorem exists_of_mem_zip_gather {xs : List α} {ys : List β} {us : List α} {vs : List β} {p : α × β}
    (hu : gather xs indices = some us) (hv : gather ys indices = some vs) (hp : p ∈ us.zip vs) : ∃ i ∈ indices, xs[i]? = some p.1 ∧ ys[i]? = some p.2 := by
  induction indices generalizing us vs with
  | nil =>
    cases hu
    simp at hp
  | cons i indices ih =>
    simp only [gather, mapM_cons, bind_eq_bind, bind_eq_some_iff,
      Option.pure_def, some.injEq] at hu hv
    obtain ⟨u, hu, us, hus, rfl⟩ := hu
    obtain ⟨v, hv, vs, hvs, rfl⟩ := hv
    rw [zip_cons_cons, mem_cons] at hp
    rcases hp with rfl | hp
    · exact ⟨i, mem_cons_self, hu, hv⟩
    · obtain ⟨j, hj, h⟩ := ih hus hvs hp
      exact ⟨j, mem_cons_of_mem _ hj, h⟩

theorem mem_zip_of_getElem? {xs : List α} {ys : List β} {i : Nat} {p : α × β}
    (hx : xs[i]? = some p.1) (hy : ys[i]? = some p.2) : p ∈ xs.zip ys :=
  mem_of_getElem? (i := i) (getElem?_zip_eq_some.mpr ⟨hx, hy⟩)

/-! ## What was taken out -/

/-- An item that is still there and not stale has everything ahead of it still there. -/
def Undisturbed (launched before items : List α) (stale : α → Bool) : Prop :=
  ∀ ahead item behind, launched = ahead ++ item :: behind → item ∈ before → stale item = false →
    item ∈ items ∧ ∀ other ∈ ahead, other ∈ items

/-- Up to the last item that is not stale the three lists agree. -/
theorem exists_common_prefix {stale : α → Bool} (hnd : launched.Nodup)
    (hbef : before.Sublist launched) (hitems : items.Sublist before)
    (h : Undisturbed launched before items stale) :
    ∃ common l b t, launched = common ++ l ∧ before = common ++ b ∧ items = common ++ t ∧
      ∀ item ∈ b, stale item = true := by
  induction launched generalizing before items with
  | nil =>
    obtain rfl := sublist_nil.mp hbef
    obtain rfl := sublist_nil.mp hitems
    exact ⟨[], [], [], [], rfl, rfl, rfl, nofun⟩
  | cons a launched ih =>
    by_cases hall : ∀ item ∈ before, stale item = true
    · exact ⟨[], _, before, items, rfl, rfl, rfl, hall⟩
    obtain ⟨item, hmem, hl⟩ : ∃ item ∈ before, stale item = false := by simpa using hall
    -- an item to keep is there, so the first item of the step is still there
    obtain ⟨ha, hnd⟩ := nodup_cons.mp hnd
    have hhead : a ∈ items := by
      obtain ⟨ahead, behind, hs⟩ := append_of_mem (hbef.subset hmem)
      obtain ⟨hkept, hahead⟩ := h ahead item behind hs hmem hl
      cases ahead with
      | nil => exact (cons.inj hs).1 ▸ hkept
      | cons a' ahead => exact hahead a ((cons.inj hs).1 ▸ mem_cons_self)
    have huncons {xs : List α} (hxs : xs.Sublist (a :: launched)) (hmem : a ∈ xs) :
        ∃ rest, xs = a :: rest ∧ rest.Sublist launched := by
      cases hxs with
      | cons _ hxs => exact absurd (hxs.subset hmem) ha
      | cons_cons _ hxs => exact ⟨_, rfl, hxs⟩
    obtain ⟨items, rfl, -⟩ := huncons (hitems.trans hbef) hhead
    obtain ⟨before, rfl, htail⟩ := huncons hbef (hitems.subset hhead)
    have hrest : Undisturbed launched before items stale := by
      intro ahead item behind hs hmem hl
      have hne {other : α} (hother : other ∈ launched) : other ≠ a :=
        fun heq => ha (heq ▸ hother)
      obtain ⟨hkept, hahead⟩ := h (a :: ahead) item behind (by rw [hs]; rfl)
        (mem_cons_of_mem _ hmem) hl
      refine ⟨(mem_cons.mp hkept).resolve_left (hne (by simp [hs])), ?_⟩
      intro other hother
      exact (mem_cons.mp (hahead other (mem_cons_of_mem _ hother))).resolve_left
        (hne (by simp [hs, hother]))
    obtain ⟨common, l, b, t, rfl, rfl, rfl, hb⟩ :=
      ih hnd htail (cons_sublist_cons.mp hitems) hrest
    exact ⟨a :: common, l, b, t, rfl, rfl, rfl, hb⟩

/-- Every item that is kept is paired with the row that was computed for it, and is not stale. -/
theorem pairKept_aligned {rows : List β} {stale : α → Bool} (hrows : rows.length = launched.length)
    (hnd : launched.Nodup) (hbef : before.Sublist launched) (hitems : items.Sublist before)
    (h : Undisturbed launched before items stale) :
    ∃ pairs, pairKept (before.map stale) items rows = some pairs ∧
      ∀ p ∈ pairs, p ∈ launched.zip rows ∧ p.1 ∈ items ∧ stale p.1 = false := by
  obtain ⟨common, l, b, t, rfl, rfl, rfl, hb⟩ := exists_common_prefix hnd hbef hitems h
  have hlt {i : Nat} (hi : i ∈ keepIndices ((common ++ b).map stale)) :
      ∃ hi : i < common.length, stale common[i] = false := by
    rw [mem_keepIndices, getElem?_map, map_eq_some_iff] at hi
    obtain ⟨item, hitem, hl⟩ := hi
    rcases Nat.lt_or_ge i common.length with hi | hi
    · rw [getElem?_append_left hi, getElem?_eq_getElem hi, some.injEq] at hitem
      exact ⟨hi, hitem ▸ hl⟩
    · rw [getElem?_append_right hi] at hitem
      exact absurd (hb item (mem_of_getElem? hitem)) (by simp [hl])
  have hlength : (keepIndices ((common ++ b).map stale)).length =
      (common.map stale).count false := by
    have hzero : (b.map stale).count false = 0 := by
      rw [count_eq_zero]
      simpa using hb
    rw [length_keepIndices, map_append, count_append, hzero, Nat.add_zero]
  unfold pairKept
  generalize keepIndices ((common ++ b).map stale) = keep at hlt hlength ⊢
  dsimp only
  split_ifs with hdrop hnil
  · -- nothing is kept
    exact ⟨[], by simp [hnil, gather], nofun⟩
  · obtain ⟨us, hus⟩ := exists_gather (common ++ t) fun i hi => by
      obtain ⟨hi, -⟩ := hlt hi
      rw [length_append]
      exact Nat.lt_add_right _ hi
    obtain ⟨vs, hvs⟩ := exists_gather rows fun i hi => by
      obtain ⟨hi, -⟩ := hlt hi
      rw [hrows, length_append]
      exact Nat.lt_add_right _ hi
    refine ⟨us.zip vs, by simp [hus, hvs], fun p hp => ?_⟩
    obtain ⟨i, hi, hu, hv⟩ := exists_of_mem_zip_gather hus hvs hp
    obtain ⟨hi, hl⟩ := hlt hi
    rw [getElem?_append_left hi] at hu
    have hp1 : common[i] = p.1 := by
      rw [getElem?_eq_getElem hi] at hu
      exact some.inj hu
    exact ⟨mem_zip_of_getElem? (by rw [getElem?_append_left hi, hu]) hv,
      mem_append_left _ (mem_of_getElem? hu), hp1 ▸ hl⟩
  · -- everything is kept, so nothing stands behind the common part
    have hcnt : (common ++ t).length ≤ (common.map stale).count false :=
      hlength ▸ Nat.not_lt.mp hdrop
    have hle : (common.map stale).count false ≤ common.length := by
      simpa using count_le_length (a := false) (l := common.map stale)
    have ht : t = [] := by
      rw [length_append] at hcnt
      exact eq_nil_of_length_eq_zero (by omega)
    have hl : ∀ item ∈ common, stale item = false := by
      have heq : (common.map stale).count false = (common.map stale).length := by
        rw [ht, append_nil] at hcnt
        rw [length_map]
        exact Nat.le_antisymm hle hcnt
      exact fun item hitem =>
        (count_eq_length.mp heq _ (mem_map_of_mem hitem)).symm
    refine ⟨_, rfl, fun p hp => ?_⟩
    rw [ht, append_nil] at hp
    obtain ⟨i, hi⟩ := mem_iff_getElem?.mp hp
    obtain ⟨hx, hy⟩ := getElem?_zip_eq_some.mp hi
    have hlen : i < common.length := (List.getElem?_eq_some_iff.mp hx).1
    have hmem : p.1 ∈ common := mem_of_getElem? hx
    exact ⟨mem_zip_of_getElem? (by rw [getElem?_append_left hlen, hx]) hy,
      mem_append_left _ hmem, hl p.1 hmem⟩

end RowPairing

end OmniRealtime
