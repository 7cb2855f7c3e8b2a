import OmniRealtime.Lib.Dict

/-!
# Gathering from a set of sources

Results that arrive under the name of their source and are kept in a dict, until a set of sources
is covered. A source may report again; its last result counts.

1. `mem_keys_gathered`, `get_gathered`: the dict holds the sources and their last results.
2. `Gathering.Covers`: the sources that have reported are all that were waited for.
3. `get_gathered_of_agree`: where repeated results agree, the dict is the same in any order.
-/

namespace OmniRealtime

open List

universe u v

namespace Gathering

variable {κ : Type u} {β : Type v} {expected : Finset κ} {sources : List κ}

/-- Something has arrived, and each of the sources is among it. -/
def Covers (expected : Finset κ) (sources : List κ) : Prop :=
  sources ≠ [] ∧ ∀ k ∈ expected, k ∈ sources

theorem Covers.append (h : Covers expected sources) (more : List κ) : Covers expected
    (sources ++ more) :=
  ⟨fun hnil => h.1 (append_eq_nil_iff.1 hnil).1, fun k hk => mem_append_left more (h.2 k hk)⟩

theorem Covers.of_take {n : Nat} (h : Covers expected (sources.take n)) :
    Covers expected sources := by
  have happend := h.append (sources.drop n)
  rw [take_append_drop] at happend
  exact happend

variable [DecidableEq κ] (arrivals : List (κ × β)) {k : κ}

instance (expected : Finset κ) (sources : List κ) : Decidable (Covers expected sources) :=
  inferInstanceAs (Decidable (_ ∧ _))

/-- The dict after the arrivals, oldest first. -/
def gathered (arrivals : List (κ × β)) : Dict κ β :=
  arrivals.foldl (fun d a => d.set a.1 a.2) []

/-- What a source sent last. -/
def lastFrom (arrivals : List (κ × β)) (k : κ) : Option β := arrivals.reverse.lookup k

theorem gathered_concat (a : κ × β) :
    gathered (arrivals ++ [a]) = (gathered arrivals).set a.1 a.2 := by
  unfold gathered
  rw [foldl_append]
  rfl

theorem lastFrom_concat (a : κ × β) (k : κ) :
    lastFrom (arrivals ++ [a]) k = if k = a.1 then some a.2 else lastFrom arrivals k := by
  unfold lastFrom
  rw [reverse_append, reverse_singleton, singleton_append, lookup_cons]
  by_cases hk : k = a.1
  · rw [if_pos hk, hk]
    simp
  · rw [if_neg hk, beq_false_of_ne hk]

theorem nodup_gathered : (gathered arrivals).keys.Nodup := by
  induction arrivals using List.reverseRecOn with
  | nil => exact nodup_nil
  | append_singleton arrivals a ih =>
    rw [gathered_concat]
    exact Dict.nodup_set ih a.1 a.2

theorem mem_keys_gathered {arrivals : List (κ × β)} :
    k ∈ (gathered arrivals).keys ↔ k ∈ arrivals.map Prod.fst := by
  induction arrivals using List.reverseRecOn with
  | nil => exact Iff.rfl
  | append_singleton arrivals a ih =>
    rw [gathered_concat, Dict.mem_keys_set, ih, map_append, mem_append, map_singleton,
      mem_singleton]
    exact or_comm

theorem get_gathered (k : κ) : (gathered arrivals).get k = lastFrom arrivals k := by
  induction arrivals using List.reverseRecOn with
  | nil => rfl
  | append_singleton arrivals a ih =>
    rw [gathered_concat, Dict.get_set (nodup_gathered arrivals), ih, lastFrom_concat]

theorem toFinset_keys_gathered :
    (gathered arrivals).keys.toFinset = (arrivals.map Prod.fst).toFinset := by
  ext k
  rw [List.mem_toFinset, List.mem_toFinset, mem_keys_gathered]

theorem mem_of_lastFrom {arrivals : List (κ × β)} {b : β} (h : lastFrom arrivals k = some b) :
    (k, b) ∈ arrivals := by
  induction arrivals using List.reverseRecOn with
  | nil => cases h
  | append_singleton arrivals a ih =>
    rw [lastFrom_concat] at h
    split at h
    · next hk =>
      refine mem_append_right _ (mem_singleton.2 ?_)
      rw [← Option.some.inj h, hk]
    · exact mem_append_left _ (ih h)

theorem exists_lastFrom {arrivals : List (κ × β)} (h : k ∈ arrivals.map Prod.fst) :
    ∃ b, lastFrom arrivals k = some b := by
  rw [← mem_keys_gathered] at h
  cases hget : lastFrom arrivals k with
  | some b => exact ⟨b, rfl⟩
  | none =>
    rw [← get_gathered] at hget
    exact absurd h (Dict.get_eq_none.1 hget)

/-- Where the results of a source agree, the order does not matter. -/
theorem get_gathered_of_agree {arrivals : List (κ × β)} {value : κ → β}
    (h : ∀ a ∈ arrivals, a.2 = value a.1) (hk : k ∈ arrivals.map Prod.fst) :
    (gathered arrivals).get k = some (value k) := by
  obtain ⟨b, hb⟩ := exists_lastFrom hk
  rw [get_gathered, hb, ← h _ (mem_of_lastFrom hb)]

/-! ## Covering a set -/

/-- Sources of the set that do not cover it are a proper part of it. -/
theorem ssubset_iff_not_covers (hne : sources ≠ [])
    (hin : expected ≠ ∅ → ∀ k ∈ sources, k ∈ expected) :
    sources.toFinset ⊂ expected ↔ ¬Covers expected sources := by
  constructor
  · intro hpart hcovers
    refine hpart.2 fun k hk => List.mem_toFinset.2 (hcovers.2 k hk)
  · intro hnot
    have hsome : expected ≠ ∅ := by
      rintro rfl
      exact hnot ⟨hne, fun k hk => absurd hk (Finset.notMem_empty k)⟩
    refine ⟨fun k hk => hin hsome k (List.mem_toFinset.1 hk), fun hall => hnot ⟨hne, ?_⟩⟩
    exact fun k hk => List.mem_toFinset.1 (hall hk)

end Gathering

end OmniRealtime
