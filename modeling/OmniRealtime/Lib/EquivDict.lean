import Mathlib

/-!
# Dicts under an equality of their own

Entry lists whose keys are compared by `==`, an equivalence that need not be equality: `1` and
`True` are one key.

1. `get_set`, `get_update`: what an assignment and an `update` change.
2. `distinct_set`, `distinct_update`: keys stay distinct.
3. `update_nil`: distinct entries assigned in order are themselves.
-/

namespace OmniRealtime

open List

universe u v

/-- The entries of a dict, oldest first. -/
abbrev EquivDict (κ : Type u) (β : Type v) := List (κ × β)

namespace EquivDict

variable {κ : Type u} {β : Type v} [BEq κ] (d : EquivDict κ β)

/-- `d.get(k)`. -/
def get : EquivDict κ β → κ → Option β
  | [], _ => none
  | e :: d, k => if k == e.1 then some e.2 else get d k

/-- `d[k] = b`: an old key keeps its place and its spelling. -/
def set : EquivDict κ β → κ → β → EquivDict κ β
  | [], k, b => [(k, b)]
  | e :: d, k, b => if k == e.1 then (e.1, b) :: d else e :: set d k b

/-- `d.update(e)`. -/
def update (d e : EquivDict κ β) : EquivDict κ β := e.foldl (fun d b => d.set b.1 b.2) d

def Distinct (d : EquivDict κ β) : Prop := d.Pairwise fun a b => (a.1 == b.1) = false

@[simp]
theorem get_nil (k : κ) : get ([] : EquivDict κ β) k = none := rfl

@[simp]
theorem update_nil_right : update d [] = d := rfl

theorem update_cons (d e : EquivDict κ β) (b : κ × β) :
    update d (b :: e) = update (d.set b.1 b.2) e := rfl

variable {d : EquivDict κ β}

theorem mem_of_get {k : κ} {b : β} (h : d.get k = some b) :
    ∃ k', (k', b) ∈ d ∧ (k == k') = true := by
  induction d with
  | nil => cases h
  | cons e d ih =>
    rw [get] at h
    split at h
    · next hk =>
      cases h
      exact ⟨e.1, mem_cons_self, hk⟩
    · obtain ⟨k', hmem, hk⟩ := ih h
      exact ⟨k', mem_cons_of_mem e hmem, hk⟩

theorem keys_set {k : κ} {b : β} {e : κ × β} (he : e ∈ d.set k b) :
    e = (k, b) ∨ ∃ b', (e.1, b') ∈ d := by
  induction d with
  | nil => exact .inl (mem_singleton.mp he)
  | cons a d ih =>
    rw [set] at he
    split at he
    · rcases mem_cons.mp he with rfl | hmem
      · exact .inr ⟨a.2, mem_cons_self⟩
      · exact .inr ⟨e.2, mem_cons_of_mem a hmem⟩
    · rcases mem_cons.mp he with rfl | hmem
      · exact .inr ⟨e.2, mem_cons_self⟩
      · rcases ih hmem with hnew | ⟨b', hold⟩
        · exact .inl hnew
        · exact .inr ⟨b', mem_cons_of_mem a hold⟩

variable [EquivBEq κ] {e : EquivDict κ β}

theorem get_congr {k k' : κ} (h : (k == k') = true) : d.get k = d.get k' := by
  induction d with
  | nil => rfl
  | cons e d ih => rw [get, get, BEq.congr_left h, ih]

theorem get_of_mem (h : d.Distinct) {e : κ × β} (he : e ∈ d) : d.get e.1 = some e.2 := by
  induction d with
  | nil => cases he
  | cons a d ih =>
    obtain ⟨hhead, htail⟩ := pairwise_cons.mp h
    rcases mem_cons.mp he with rfl | hmem
    · simp [get]
    · have hne : (e.1 == a.1) = false := BEq.symm_false (hhead e hmem)
      simp [get, hne, ih htail hmem]

theorem get_set (k : κ) (b : β) (k' : κ) :
    (d.set k b).get k' = if k' == k then some b else d.get k' := by
  induction d with
  | nil => rfl
  | cons e d ih =>
    rw [set]
    split
    · next hk =>
      rw [get, get, BEq.congr_right hk]
      split <;> rfl
    · next hk =>
      rw [get, get, ih]
      split
      · next hk' =>
        have hne : (k' == k) = false := by
          rw [BEq.congr_left hk', BEq.comm]
          exact Bool.eq_false_iff.mpr hk
        simp [hne]
      · rfl

theorem distinct_set (h : d.Distinct) (k : κ) (b : β) : (d.set k b).Distinct := by
  induction d with
  | nil => exact pairwise_singleton _ _
  | cons a d ih =>
    obtain ⟨hhead, htail⟩ := pairwise_cons.mp h
    rw [set]
    split
    · exact pairwise_cons.mpr ⟨hhead, htail⟩
    · next hk =>
      refine pairwise_cons.mpr ⟨fun e he => ?_, ih htail⟩
      rcases keys_set he with rfl | ⟨b', hold⟩
      · exact BEq.symm_false (Bool.eq_false_iff.mpr hk)
      · exact hhead (e.1, b') hold

theorem distinct_update (h : d.Distinct) (e : EquivDict κ β) : (d.update e).Distinct := by
  induction e generalizing d with
  | nil => exact h
  | cons b e ih => exact ih (distinct_set h b.1 b.2)

theorem get_update (d : EquivDict κ β) {e : EquivDict κ β} (h : e.Distinct) (k : κ) :
    (d.update e).get k = (e.get k).or (d.get k) := by
  induction e generalizing d with
  | nil => rfl
  | cons b e ih =>
    obtain ⟨hhead, htail⟩ := pairwise_cons.mp h
    rw [update_cons, ih _ htail, get_set, get]
    split
    · next hk =>
      have hnone : get e k = none := by
        cases hget : get e k with
        | none => rfl
        | some c =>
          obtain ⟨k', hmem, hk'⟩ := mem_of_get hget
          have hne := hhead _ hmem
          rw [BEq.trans (BEq.symm hk) hk'] at hne
          cases hne
      simp [hnone]
    · rfl

theorem set_of_fresh {k : κ} (h : ∀ e ∈ d, (e.1 == k) = false) (b : β) :
    d.set k b = d ++ [(k, b)] := by
  induction d with
  | nil => rfl
  | cons a d ih =>
    have hne : (k == a.1) = false := BEq.symm_false (h a mem_cons_self)
    simp [set, hne, ih fun e he => h e (mem_cons_of_mem a he)]

/-- Distinct entries assigned in order come after the old ones. -/
theorem update_of_distinct (h : Distinct (d ++ e)) : d.update e = d ++ e := by
  induction e generalizing d with
  | nil => simp
  | cons b e ih =>
    have hfrs : ∀ a ∈ d, (a.1 == b.1) = false := fun a ha =>
      (pairwise_append.mp h).2.2 a ha b mem_cons_self
    have hsnoc : d ++ b :: e = (d ++ [(b.1, b.2)]) ++ e := by simp
    rw [update_cons, set_of_fresh hfrs, hsnoc]
    exact ih (hsnoc ▸ h)

theorem update_nil (h : e.Distinct) : update [] e = e :=
  update_of_distinct h

end EquivDict

end OmniRealtime
