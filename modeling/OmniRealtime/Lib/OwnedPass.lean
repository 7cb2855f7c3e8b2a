import Mathlib

/-!
# A pass over items that own their cells

Items are handled one after another; each handling changes only the cell of its item. If no
two items own one cell, every item sees its cell as it was before the pass, and the cells of
no item stay as they were.

1. `Pass.forall₂`: the pass, item by item.
2. `Pass.get_of_notMem`: the cells outside.
3. `Pass.stay`: the items a pass stops before.
-/

namespace OmniRealtime

section OwnedPass

variable {ι ρ σ α β γ : Type}

/-- `Q c a c' b`: handling item `a` with cell content `c` leaves `c'` and gives `b`. -/
inductive Pass (get : σ → ι → ρ) (cell : α → ι) (Q : ρ → α → ρ → β → Prop) :
    σ → List α → σ → List β → Prop
  | nil (s : σ) : Pass get cell Q s [] s []
  | cons {s t s' : σ} {a : α} {as : List α} {b : β} {bs : List β} :
      Q (get s (cell a)) a (get t (cell a)) b → (∀ j, j ≠ cell a → get t j = get s j) →
      Pass get cell Q t as s' bs → Pass get cell Q s (a :: as) s' (b :: bs)

variable {get : σ → ι → ρ} {cell : α → ι} {Q : ρ → α → ρ → β → Prop} {s s' : σ} {as : List α}
  {bs : List β}

theorem Pass.get_of_notMem (h : Pass get cell Q s as s' bs) {j : ι} (hj : j ∉ as.map cell) :
    get s' j = get s j := by
  induction h with
  | nil s => rfl
  | cons _ hother _ ih =>
    rw [List.map_cons, List.mem_cons, not_or] at hj
    rw [ih hj.2, hother j hj.1]

theorem Pass.forall₂ (h : Pass get cell Q s as s' bs) (hnd : (as.map cell).Nodup) :
    List.Forall₂ (fun a b => Q (get s (cell a)) a (get s' (cell a)) b) as bs := by
  induction h with
  | nil s => exact .nil
  | @cons s t s' a as b bs hQ hother hrest ih =>
    rw [List.map_cons, List.nodup_cons] at hnd
    obtain ⟨hnot, hnd⟩ := hnd
    refine .cons ?_ ?_
    · rw [hrest.get_of_notMem hnot]
      exact hQ
    · have hcells : ∀ x ∈ as, get t (cell x) = get s (cell x) := by
        intro x hx
        refine hother _ fun heq => hnot ?_
        rw [← heq]
        exact List.mem_map_of_mem hx
      refine List.Forall₂.imp ?_ ((List.forall₂_and_left _ _).2 ⟨hcells, ih hnd⟩)
      intro x y hxy
      rw [← hxy.1]
      exact hxy.2

/-- Items that a pass stops before are handled by leaving them alone. -/
theorem Pass.stay {P : ρ → α → ρ → α → Prop} (hstay : ∀ c a, P c a c a) (s : σ) (as : List α) :
    Pass get cell P s as s as := by
  induction as with
  | nil => exact .nil s
  | cons a as ih => exact .cons (hstay _ a) (fun _ _ => rfl) ih

theorem map_eq_of_forall₂ {δ : Type} {f : α → δ} {g : β → δ} {as : List α} {bs : List β}
    (h : List.Forall₂ (fun a b => g b = f a) as bs) : bs.map g = as.map f := by
  induction h with
  | nil => rfl
  | cons hab _ ih => rw [List.map_cons, List.map_cons, hab, ih]

theorem forall₂_trans {R : α → β → Prop} {S : β → γ → Prop} {T : α → γ → Prop} {bs : List β}
    {cs : List γ} (h : List.Forall₂ R as bs) (h' : List.Forall₂ S bs cs)
    (htrans : ∀ a b c, R a b → S b c → T a c) : List.Forall₂ T as cs := by
  induction h generalizing cs with
  | nil =>
    cases h'
    exact .nil
  | cons hab _ ih =>
    cases h' with
    | cons hbc hrest => exact .cons (htrans _ _ _ hab hbc) (ih hrest)

end OwnedPass

end OmniRealtime
