import Mathlib

/-!
# Chains of promises

Tasks that are started in order, each with the promise of the task started before it in its lane.
A task may work at any time, but it is done only after its predecessor. A table has the last open
task of each lane, for the next one to wait for.

1. `Chained`: what the tasks and the table keep; `push`, `set_open`, `finish`.
2. `Chained.earlier_done`: behind a done predecessor every earlier task of the lane is done.
3. `filterMap_set_of_eq`, `filterMap_set_last`: what a projection of the tasks sees of a step.
-/

namespace OmniRealtime

open List Function

universe u v w

variable {τ : Type u} {κ : Type v}

theorem getElem?_set_cases {tasks : List τ} {h k : ℕ} {a b : τ}
    (hb : (tasks.set h a)[k]? = some b) : k = h ∧ b = a ∨ k ≠ h ∧ tasks[k]? = some b := by
  rw [getElem?_set] at hb
  split at hb
  · next hk =>
    split at hb
    · exact .inl ⟨hk.symm, (Option.some.inj hb).symm⟩
    · cases hb
  · next hk => exact .inr ⟨Ne.symm hk, hb⟩

/-- The links of the tasks, and the table of the lanes' last tasks. -/
structure Chained (lane : τ → κ) (pred : τ → Option ℕ) (done : τ → Prop) (tasks : List τ)
    (tails : κ → Option ℕ) : Prop where
  free : ∀ (h : ℕ) (a : τ), tasks[h]? = some a → pred a = none →
    ∀ (k : ℕ) (b : τ), k < h → tasks[k]? = some b → lane b = lane a → done b
  link : ∀ (h : ℕ) (a : τ) (p : ℕ), tasks[h]? = some a → pred a = some p → p < h ∧
    ∀ (k : ℕ) (b : τ), p < k → k < h → tasks[k]? = some b → lane b ≠ lane a
  settled : ∀ (h : ℕ) (a : τ), tasks[h]? = some a → done a →
    ∀ (k : ℕ) (b : τ), k < h → tasks[k]? = some b → lane b = lane a → done b
  tailFree : ∀ l, tails l = none → ∀ (k : ℕ) (b : τ), tasks[k]? = some b → lane b = l → done b
  tailLast : ∀ l p, tails l = some p → p < tasks.length ∧
    ∀ (k : ℕ) (b : τ), p < k → tasks[k]? = some b → lane b ≠ l
  sameLane : ∀ (h : ℕ) (a : τ) (p : ℕ) (b : τ), tasks[h]? = some a → pred a = some p →
    tasks[p]? = some b → lane b = lane a
  tailLane : ∀ l p (b : τ), tails l = some p → tasks[p]? = some b → lane b = l

namespace Chained

variable {lane : τ → κ} {pred : τ → Option ℕ} {done : τ → Prop} {tasks : List τ}
variable {tails : κ → Option ℕ}

theorem nil : Chained lane pred done [] fun _ => none where
  free _ _ h := by cases h
  link _ _ _ h := by cases h
  settled _ _ h := by cases h
  tailFree _ _ _ _ h := by cases h
  tailLast _ _ h := by cases h
  sameLane _ _ _ _ h := by cases h
  tailLane _ _ _ h := by cases h

theorem earlier_done (hc : Chained lane pred done tasks tails) {h : ℕ} {a : τ}
    (ha : tasks[h]? = some a)
    (hpred : ∀ p b, pred a = some p → tasks[p]? = some b → done b) {k : ℕ} {b : τ} (hk : k < h)
    (hb : tasks[k]? = some b) (hlane : lane b = lane a) : done b := by
  cases hp : pred a with
  | none => exact hc.free h a ha hp k b hk hb hlane
  | some p =>
    obtain ⟨hph, hbetween⟩ := hc.link h a p ha hp
    obtain ⟨hlen, -⟩ := List.getElem?_eq_some_iff.mp ha
    have hget : tasks[p]? = some tasks[p] := getElem?_eq_getElem (Nat.lt_trans hph hlen)
    have hdone : done tasks[p] := hpred p tasks[p] hp hget
    rcases Nat.lt_trichotomy k p with hkp | rfl | hpk
    · refine hc.settled p tasks[p] hget hdone k b hkp hb (hlane.trans ?_)
      exact (hc.sameLane h a p tasks[p] ha hp hget).symm
    · exact Option.some.inj (hget.symm.trans hb) ▸ hdone
    · exact absurd hlane (hbetween k b hpk hk hb)

variable [DecidableEq κ]

theorem push (hc : Chained lane pred done tasks tails) {a : τ} (hpred : pred a = tails (lane a))
    (hopen : ¬done a) :
    Chained lane pred done (tasks ++ [a]) (update tails (lane a) (some tasks.length)) := by
  have hget : ∀ {k : ℕ} {b : τ}, (tasks ++ [a])[k]? = some b →
      k < tasks.length ∧ tasks[k]? = some b ∨ k = tasks.length ∧ b = a := by
    intro k b hb
    rw [getElem?_append] at hb
    split at hb
    · next hk => exact .inl ⟨hk, hb⟩
    · next hk =>
      obtain ⟨hlt, heq⟩ := List.getElem?_eq_some_iff.mp hb
      have hzero : k - tasks.length = 0 := Nat.lt_one_iff.mp hlt
      refine .inr ⟨Nat.le_antisymm (Nat.sub_eq_zero_iff_le.mp hzero) (Nat.not_lt.mp hk), ?_⟩
      rw [← heq]
      exact mem_singleton.mp (getElem_mem hlt)
  have hold : ∀ {h k : ℕ} {b c : τ}, k < h → (tasks ++ [a])[k]? = some b →
      (tasks ++ [a])[h]? = some c → tasks[k]? = some b := by
    intro h k b c hkh hb hc'
    rcases hget hb with ⟨-, hb⟩ | ⟨hk, -⟩
    · exact hb
    · rcases hget hc' with ⟨hlt, -⟩ | ⟨heq, -⟩
      · exact absurd (hk ▸ Nat.lt_trans hkh hlt) (Nat.lt_irrefl _)
      · exact absurd (hk ▸ heq ▸ hkh) (Nat.lt_irrefl _)
  constructor
  · intro h c hc' hn k b hk hb hlane
    have hb' := hold hk hb hc'
    rcases hget hc' with ⟨-, hc'⟩ | ⟨-, rfl⟩
    · exact hc.free h c hc' hn k b hk hb' hlane
    · exact hc.tailFree (lane c) (hpred ▸ hn) k b hb' hlane
  · intro h c p hc' hp
    rcases hget hc' with ⟨-, hold'⟩ | ⟨hlen, rfl⟩
    · obtain ⟨hph, hbetween⟩ := hc.link h c p hold' hp
      exact ⟨hph, fun k b hpk hk hb => hbetween k b hpk hk (hold hk hb hc')⟩
    · obtain ⟨hph, hlast⟩ := hc.tailLast (lane c) p (hpred ▸ hp)
      exact ⟨hlen ▸ hph, fun k b hpk hk hb => hlast k b hpk (hold hk hb hc')⟩
  · intro h c hc' hdone k b hk hb hlane
    have hb := hold hk hb hc'
    rcases hget hc' with ⟨-, hc'⟩ | ⟨-, rfl⟩
    · exact hc.settled h c hc' hdone k b hk hb hlane
    · exact absurd hdone hopen
  · intro l hn k b hb hlane
    by_cases hl : l = lane a
    · rw [hl, update_self] at hn
      cases hn
    · rw [update_of_ne hl] at hn
      rcases hget hb with ⟨-, hb⟩ | ⟨-, rfl⟩
      · exact hc.tailFree l hn k b hb hlane
      · exact absurd hlane.symm hl
  · intro l p hp
    rw [length_append]
    by_cases hl : l = lane a
    · rw [hl, update_self] at hp
      cases hp
      refine ⟨Nat.lt_succ_self _, fun k b hk hb => ?_⟩
      rcases hget hb with ⟨hlt, -⟩ | ⟨heq, -⟩
      · exact absurd (Nat.lt_trans hk hlt) (Nat.lt_irrefl _)
      · exact absurd hk (heq ▸ Nat.lt_irrefl _)
    · rw [update_of_ne hl] at hp
      obtain ⟨hlen, hlast⟩ := hc.tailLast l p hp
      refine ⟨Nat.lt_succ_of_lt hlen, fun k b hk hb => ?_⟩
      rcases hget hb with ⟨-, hb⟩ | ⟨-, rfl⟩
      · exact hlast k b hk hb
      · exact Ne.symm hl
  · intro h c p b hc' hp hb
    rcases hget hc' with ⟨-, hold'⟩ | ⟨hlen, rfl⟩
    · exact hc.sameLane h c p b hold' hp (hold (hc.link h c p hold' hp).1 hb hc')
    · have hlt := (hc.tailLast (lane c) p (hpred ▸ hp)).1
      exact hc.tailLane (lane c) p b (hpred ▸ hp) (hold (hlen ▸ hlt) hb hc')
  · intro l p b hp hb
    by_cases hl : l = lane a
    · rw [hl, update_self] at hp
      cases hp
      rcases hget hb with ⟨hlt, -⟩ | ⟨-, rfl⟩
      · exact absurd hlt (Nat.lt_irrefl _)
      · exact hl.symm
    · rw [update_of_ne hl] at hp
      rcases hget hb with ⟨-, hb⟩ | ⟨heq, -⟩
      · exact hc.tailLane l p b hp hb
      · exact absurd (hc.tailLast l p hp).1 (heq ▸ Nat.lt_irrefl _)

section Set

variable {h : ℕ} {a a' : τ}

omit [DecidableEq κ] in
theorem set (hc : Chained lane pred done tasks tails) (ha : tasks[h]? = some a)
    (hlane : lane a' = lane a) (hpred : pred a' = pred a) (hkeep : done a → done a')
    (hrdy : done a' → ∀ (k : ℕ) (b : τ), k < h → tasks[k]? = some b → lane b = lane a → done b) :
    Chained lane pred done (tasks.set h a') tails := by
  have hget : ∀ {k : ℕ} {b : τ}, (tasks.set h a')[k]? = some b → ∃ c, tasks[k]? = some c ∧
      lane b = lane c ∧ pred b = pred c ∧ (b = a' ∧ k = h ∨ b = c) := by
    intro k b hb
    rcases getElem?_set_cases hb with ⟨rfl, rfl⟩ | ⟨-, hb⟩
    · exact ⟨a, ha, hlane, hpred, .inl ⟨rfl, rfl⟩⟩
    · exact ⟨b, hb, rfl, rfl, .inr rfl⟩
  have hdone : ∀ {k : ℕ} {b c : τ}, (tasks.set h a')[k]? = some b → tasks[k]? = some c →
      done c → done b := by
    intro k b c hb hc' hdone
    obtain ⟨d, hd, -, -, ⟨rfl, rfl⟩ | rfl⟩ := hget hb
    · obtain rfl := Option.some.inj (ha.symm.trans hc')
      exact hkeep hdone
    · exact Option.some.inj (hd.symm.trans hc') ▸ hdone
  constructor
  · intro j b hb hn k c hk hc' hlane'
    obtain ⟨b₀, hb₀, hl, hp, -⟩ := hget hb
    obtain ⟨c₀, hc₀, hl', -, -⟩ := hget hc'
    refine hdone hc' hc₀ (hc.free j b₀ hb₀ (hp ▸ hn) k c₀ hk hc₀ ?_)
    rw [← hl', hlane', hl]
  · intro j b p hb hp
    obtain ⟨b₀, hb₀, hl, hp', -⟩ := hget hb
    obtain ⟨hpj, hbetween⟩ := hc.link j b₀ p hb₀ (hp' ▸ hp)
    refine ⟨hpj, fun k c hpk hk hc' => ?_⟩
    obtain ⟨c₀, hc₀, hl', -, -⟩ := hget hc'
    rw [hl', hl]
    exact hbetween k c₀ hpk hk hc₀
  · intro j b hb hdone' k c hk hc' hlane'
    obtain ⟨c₀, hc₀, hl', -, -⟩ := hget hc'
    refine hdone hc' hc₀ ?_
    obtain ⟨b₀, hb₀, hl, -, ⟨rfl, rfl⟩ | rfl⟩ := hget hb
    · refine hrdy hdone' k c₀ hk hc₀ ?_
      rw [← hl', hlane', hlane]
    · exact hc.settled j b hb₀ hdone' k c₀ hk hc₀ (hl' ▸ hlane')
  · intro l hn k b hb hl
    obtain ⟨b₀, hb₀, hl', -, -⟩ := hget hb
    exact hdone hb hb₀ (hc.tailFree l hn k b₀ hb₀ (hl' ▸ hl))
  · intro l p hp
    obtain ⟨hlen, hlast⟩ := hc.tailLast l p hp
    refine ⟨(List.length_set ..).symm ▸ hlen, fun k b hk hb => ?_⟩
    obtain ⟨b₀, hb₀, hl', -, -⟩ := hget hb
    exact hl' ▸ hlast k b₀ hk hb₀
  · intro j b p c hb hp hc'
    obtain ⟨b₀, hb₀, hl, hp', -⟩ := hget hb
    obtain ⟨c₀, hc₀, hl', -, -⟩ := hget hc'
    rw [hl', hl]
    exact hc.sameLane j b₀ p c₀ hb₀ (hp' ▸ hp) hc₀
  · intro l p b hp hb
    obtain ⟨b₀, hb₀, hl', -, -⟩ := hget hb
    exact hl' ▸ hc.tailLane l p b₀ hp hb₀

theorem drop (hc : Chained lane pred done tasks tails) (ha : tasks[h]? = some a) (hdone : done a)
    (htail : tails (lane a) = some h) :
    Chained lane pred done tasks (update tails (lane a) none) := by
  refine ⟨hc.free, hc.link, hc.settled, ?_, ?_, hc.sameLane, ?_⟩
  · intro l hn k b hb hl
    by_cases hla : l = lane a
    · subst hla
      rcases Nat.lt_trichotomy k h with hk | rfl | hk
      · exact hc.settled h a ha hdone k b hk hb hl
      · exact Option.some.inj (ha.symm.trans hb) ▸ hdone
      · exact absurd hl ((hc.tailLast (lane a) h htail).2 k b hk hb)
    · rw [update_of_ne hla] at hn
      exact hc.tailFree l hn k b hb hl
  · intro l p hp
    by_cases hla : l = lane a
    · rw [hla, update_self] at hp
      cases hp
    · rw [update_of_ne hla] at hp
      exact hc.tailLast l p hp
  · intro l p b hp hb
    by_cases hla : l = lane a
    · rw [hla, update_self] at hp
      cases hp
    · rw [update_of_ne hla] at hp
      exact hc.tailLane l p b hp hb

end Set

end Chained

/-! ## Projections -/

section Projections

variable {β : Type w} {f : τ → Option β} {tasks : List τ} {h : ℕ} {a a' : τ}

section

variable (ha : tasks[h]? = some a)
include ha

theorem filterMap_split :
    tasks.filterMap f =
      (tasks.take h).filterMap f ++ ((f a).toList ++ (tasks.drop (h + 1)).filterMap f) := by
  obtain ⟨hlen, heq⟩ := List.getElem?_eq_some_iff.mp ha
  have hspl : tasks = tasks.take h ++ a :: tasks.drop (h + 1) := by
    rw [← heq, ← drop_eq_getElem_cons hlen, take_append_drop]
  calc tasks.filterMap f = (tasks.take h ++ a :: tasks.drop (h + 1)).filterMap f :=
        congrArg (List.filterMap f) hspl
    _ = _ := by
      rw [filterMap_append, filterMap_cons]
      cases f a <;> rfl

theorem filterMap_set :
    (tasks.set h a').filterMap f =
      (tasks.take h).filterMap f ++ ((f a').toList ++ (tasks.drop (h + 1)).filterMap f) := by
  obtain ⟨hlen, -⟩ := List.getElem?_eq_some_iff.mp ha
  rw [set_eq_take_append_cons_drop, if_pos hlen, filterMap_append, filterMap_cons]
  cases f a' <;> rfl

theorem filterMap_set_of_eq (heq : f a' = f a) :
    (tasks.set h a').filterMap f = tasks.filterMap f := by
  rw [filterMap_set ha, filterMap_split ha, heq]

/-- A task that comes into the projection behind all others. -/
theorem filterMap_set_last {x : β} (hn : f a = none) (hsome : f a' = some x)
    (hlater : ∀ (k : ℕ) (b : τ), h < k → tasks[k]? = some b → f b = none) :
    tasks.filterMap f = (tasks.take h).filterMap f ∧
      (tasks.set h a').filterMap f = (tasks.take h).filterMap f ++ [x] := by
  have hdrop : (tasks.drop (h + 1)).filterMap f = [] := by
    rw [filterMap_eq_nil_iff]
    intro b hb
    obtain ⟨k, hk⟩ := getElem?_of_mem hb
    rw [getElem?_drop] at hk
    exact hlater (h + 1 + k) b (Nat.lt_of_lt_of_le (Nat.lt_succ_self h) (Nat.le_add_right ..)) hk
  constructor
  · rw [filterMap_split ha, hn, hdrop]
    exact append_nil _
  · rw [filterMap_set ha, hsome, hdrop]
    rfl

end

end Projections

end OmniRealtime
