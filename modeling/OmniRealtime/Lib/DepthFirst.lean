import Mathlib

/-!
# Depth-first walks

A walk goes through what lies below a node of a graph, which may have cycles, and marks where it was.
It joins what it finds, and ends as soon as a finding stops it.

1. `walk`: the walk; its fuel bounds the depth.
2. `walk_spec`: with as much fuel as there are nodes it ends.
3. `exists_walk`, `exists_search`: a walk that nothing stops, and the search for a node.
-/

namespace OmniRealtime

namespace DepthFirst

open Finset Relation

variable {α β : Type*} [DecidableEq α] [SemilatticeSup β] [OrderBot β]

/-- One node after the other, until a finding stops the walk. -/
def walkAll (stops : β → Bool) (visit : α → Finset α → Option (β × Finset α)) :
    β → List α → Finset α → Option (β × Finset α)
  | found, [], seen => some (found, seen)
  | found, node :: nodes, seen =>
    (visit node seen).bind fun (more, seen) =>
      if stops more then some (found ⊔ more, seen)
      else walkAll stops visit (found ⊔ more) nodes seen

def walk (children : α → List α) (finding : α → β) (stops : β → Bool) :
    ℕ → α → Finset α → Option (β × Finset α)
  | 0, _, _ => none
  | fuel + 1, node, seen =>
    if node ∈ seen then some (⊥, seen)
    else if stops (finding node) then some (finding node, insert node seen)
    else walkAll stops (walk children finding stops fuel) (finding node) (children node)
      (insert node seen)

/-- The node lies below the other one. -/
def Below (children : α → List α) : α → α → Prop := ReflTransGen fun node child => child ∈ children node

section

variable {children : α → List α} {finding : α → β} {stops : β → Bool} {node : α} {nodes : List α}
  {seen : Finset α} {found : β} {out out' : β × Finset α}

/-- What a walk from the nodes has seen and found. -/
structure Walked (children : α → List α) (finding : α → β) (stops : β → Bool) (found : β)
    (nodes : List α) (seen : Finset α) (out : β × Finset α) : Prop where
  grows : seen ⊆ out.2
  joins : out.1 = found ⊔ (out.2 \ seen).sup finding
  below : ∀ x ∈ out.2, x ∈ seen ∨ ∃ node ∈ nodes, Below children node x
  closed : stops out.1 = false → (∀ node ∈ nodes, node ∈ out.2) ∧
    ∀ x ∈ out.2, x ∈ seen ∨ ∀ child ∈ children x, child ∈ out.2

theorem Walked.rest (hseen : stops found = false → ∀ node ∈ nodes, node ∈ seen) :
    Walked children finding stops found nodes seen (found, seen) where
  grows := Subset.rfl
  joins := by rw [Finset.sdiff_self, sup_empty, sup_bot_eq]
  below _ hx := .inl hx
  closed hgo := ⟨hseen hgo, fun _ hx => .inl hx⟩

theorem sup_sdiff_trans {s t u : Finset α} (hst : s ⊆ t) (htu : t ⊆ u) :
    (u \ s).sup finding = (t \ s).sup finding ⊔ (u \ t).sup finding := by
  rw [← sup_union, union_comm, sdiff_union_sdiff_cancel htu hst]

theorem Walked.stop (h : Walked children finding stops ⊥ [node] seen out)
    (hstop : stops (found ⊔ out.1) = true) :
    Walked children finding stops found (node :: nodes) seen (found ⊔ out.1, out.2) where
  grows := h.grows
  joins := by rw [h.joins, bot_sup_eq]
  below x hx := (h.below x hx).imp_right fun ⟨n, hn, hb⟩ =>
    ⟨n, List.mem_cons.mpr (.inl (List.mem_singleton.mp hn)), hb⟩
  closed hgo := absurd (hstop.symm.trans hgo) (by decide)

theorem Walked.cons (hmono : Monotone stops) (h : Walked children finding stops ⊥ [node] seen out)
    (h' : Walked children finding stops (found ⊔ out.1) nodes out.2 out') :
    Walked children finding stops found (node :: nodes) seen out' where
  grows := h.grows.trans h'.grows
  joins := by rw [h'.joins, h.joins, bot_sup_eq, sup_assoc, sup_sdiff_trans h.grows h'.grows]
  below x hx := by
    rcases h'.below x hx with hx | ⟨n, hn, hb⟩
    · exact (h.below x hx).imp_right fun ⟨n, hn, hb⟩ =>
        ⟨n, List.mem_cons.mpr (.inl (List.mem_singleton.mp hn)), hb⟩
    · exact .inr ⟨n, List.mem_cons_of_mem _ hn, hb⟩
  closed hgo := by
    have hle : out.1 ≤ out'.1 := by
      rw [h'.joins]
      exact le_sup_right.trans le_sup_left
    have hgo' : stops out.1 = false := Bool.eq_false_of_le_false (hgo ▸ hmono hle)
    obtain ⟨hnode, hc⟩ := h.closed hgo'
    obtain ⟨hnodes, hc'⟩ := h'.closed hgo
    refine ⟨fun n hn => ?_, fun x hx => ?_⟩
    · rcases List.mem_cons.mp hn with rfl | hn
      · exact h'.grows (hnode n (List.mem_singleton_self n))
      · exact hnodes n hn
    · rcases hc' x hx with hx | hx
      · exact (hc x hx).imp_right fun hx child hchild => h'.grows (hx child hchild)
      · exact .inr hx

/-- A node that is not yet seen, before what lies below it. -/
theorem Walked.visit (hnew : node ∉ seen)
    (h : Walked children finding stops (finding node) (children node) (insert node seen) out) :
    Walked children finding stops ⊥ [node] seen out where
  grows := (subset_insert node seen).trans h.grows
  joins := by
    rw [h.joins, bot_sup_eq, sup_sdiff_trans (subset_insert node seen) h.grows,
      insert_sdiff_cancel hnew, sup_singleton]
  below x hx := by
    rcases h.below x hx with hx | ⟨n, hn, hb⟩
    · refine (mem_insert.mp hx).symm.imp_right ?_
      rintro rfl
      exact ⟨x, List.mem_singleton_self x, .refl⟩
    · exact .inr ⟨node, List.mem_singleton_self node, .head hn hb⟩
  closed hgo := by
    obtain ⟨hchildren, hc⟩ := h.closed hgo
    refine ⟨fun n hn => ?_, fun x hx => ?_⟩
    · rw [List.mem_singleton.mp hn]
      exact h.grows (mem_insert_self node seen)
    · rcases hc x hx with hx | hx
      · refine (mem_insert.mp hx).symm.imp_right ?_
        rintro rfl
        exact hchildren
      · exact .inr hx

theorem walkAll_spec (hmono : Monotone stops) {visit : α → Finset α → Option (β × Finset α)}
    {start : Finset α} (hvisit : ∀ node seen, start ⊆ seen → ∃ out, visit node seen = some out ∧
      Walked children finding stops ⊥ [node] seen out) (hseen : start ⊆ seen) :
    ∃ out, walkAll stops visit found nodes seen = some out ∧
      Walked children finding stops found nodes seen out := by
  induction nodes generalizing found seen with
  | nil => exact ⟨_, rfl, .rest fun _ => nofun⟩
  | cons node nodes ih =>
    obtain ⟨out, hout, hw⟩ := hvisit node seen hseen
    rw [walkAll, hout, Option.bind_some]
    dsimp only
    split
    · next hstop =>
      refine ⟨_, rfl, hw.stop ?_⟩
      exact le_antisymm (Bool.le_true _) (hstop ▸ hmono le_sup_right)
    · obtain ⟨out', hout', hw'⟩ := ih (hseen.trans hw.grows)
      exact ⟨out', hout', hw.cons hmono hw'⟩

/-- Every visit below has one node more behind it, and there are only as many. -/
theorem walk_spec [Fintype α] (hmono : Monotone stops) {fuel : ℕ} (hfuel : seenᶜ.card < fuel) :
    ∃ out, walk children finding stops fuel node seen = some out ∧
      Walked children finding stops ⊥ [node] seen out := by
  induction fuel generalizing node seen with
  | zero => exact absurd hfuel (Nat.not_lt_zero _)
  | succ fuel ih =>
    rw [walk]
    split
    · next hnode =>
      exact ⟨_, rfl, .rest fun _ n hn => List.mem_singleton.mp hn ▸ hnode⟩
    · next hnew =>
      split
      · next hstop =>
        exact ⟨_, rfl, .visit hnew (.rest fun hgo => absurd (hstop.symm.trans hgo) (by decide))⟩
      · have hless : (insert node seen)ᶜ.card < seenᶜ.card :=
          card_lt_card (compl_ssubset_compl.mpr (ssubset_insert hnew))
        have hvisit : ∀ n seen', insert node seen ⊆ seen' → ∃ out,
            walk children finding stops fuel n seen' = some out ∧
              Walked children finding stops ⊥ [n] seen' out := fun n seen' hseen' =>
          ih ((card_le_card (compl_subset_compl.mpr hseen')).trans_lt
            (hless.trans_le (Nat.le_of_lt_succ hfuel)))
        obtain ⟨out, hout, hw⟩ := walkAll_spec hmono hvisit Subset.rfl
        exact ⟨out, hout, hw.visit hnew⟩

/-- A walk from a node that nothing stopped has seen what lies below the node. -/
theorem Walked.mem_iff (h : Walked children finding stops found [node] ∅ out)
    (hgo : stops out.1 = false) {x : α} : x ∈ out.2 ↔ Below children node x := by
  obtain ⟨hnode, hc⟩ := h.closed hgo
  constructor
  · intro hx
    obtain ⟨n, hn, hb⟩ := (h.below x hx).resolve_left (notMem_empty x)
    exact List.mem_singleton.mp hn ▸ hb
  · intro hb
    induction hb with
    | refl => exact hnode node (List.mem_singleton_self node)
    | @tail y z _ hchild ih => exact (hc y ih).resolve_left (notMem_empty y) z hchild

end

section

variable [Fintype α] (children : α → List α) (node : α)

theorem exists_walk (finding : α → β) : ∃ out : β × Finset α,
    walk children finding (fun _ => false) (Fintype.card α + 1) node ∅ = some out ∧
      out.1 = out.2.sup finding ∧ ∀ x, x ∈ out.2 ↔ Below children node x := by
  obtain ⟨out, hout, hw⟩ : ∃ out, _ = some out ∧
      Walked children finding (fun _ => false) ⊥ [node] ∅ out :=
    walk_spec monotone_const (Nat.lt_succ_of_le (card_le_univ _))
  refine ⟨out, hout, ?_, fun x => hw.mem_iff rfl⟩
  rw [hw.joins, bot_sup_eq, sdiff_empty]

theorem exists_search (hit : α → Bool) : ∃ out : Bool × Finset α,
    walk children hit id (Fintype.card α + 1) node ∅ = some out ∧
      (out.1 = true ↔ ∃ x, Below children node x ∧ hit x = true) := by
  obtain ⟨out, hout, hw⟩ : ∃ out, _ = some out ∧ Walked children hit id ⊥ [node] ∅ out :=
    walk_spec monotone_id (Nat.lt_succ_of_le (card_le_univ _))
  have hfound : out.1 = out.2.sup hit := by rw [hw.joins, bot_sup_eq, sdiff_empty]
  refine ⟨out, hout, fun htrue => ?_, fun ⟨x, hb, hhit⟩ => ?_⟩
  · by_contra hnone
    have hmiss : out.2.sup hit = ⊥ := (Finset.sup_eq_bot_iff hit out.2).mpr fun x hx => by
      obtain ⟨n, hn, hb⟩ := (hw.below x hx).resolve_left (notMem_empty x)
      refine Bool.eq_false_iff.mpr fun hhit => hnone ⟨x, ?_, hhit⟩
      exact List.mem_singleton.mp hn ▸ hb
    exact absurd ((htrue.symm.trans hfound).trans hmiss) (by decide)
  · by_contra hno
    have hgo := Bool.eq_false_iff.mpr hno
    have hle : hit x ≤ out.1 := hfound ▸ le_sup ((hw.mem_iff hgo).mpr hb)
    rw [hhit, hgo] at hle
    exact absurd hle (by decide)

end

end DepthFirst

end OmniRealtime
