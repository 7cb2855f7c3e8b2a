import Mathlib

/-!
# Little-endian words

Numbers of a fixed number of bytes, least significant byte first, one behind the other.

1. `ofLeBytes_leBytes`: a number that fits is read back.
2. `blocks_flatten`: words that lie behind one another are taken apart again.
-/

namespace OmniRealtime

universe u

namespace LittleEndian

/-- The lowest bytes of a number. -/
def leBytes : Nat → Nat → List UInt8
  | 0, _ => []
  | width + 1, n => UInt8.ofNat n :: leBytes width (n / 256)

def ofLeBytes : List UInt8 → Nat
  | [] => 0
  | b :: bs => b.toNat + 256 * ofLeBytes bs

@[simp] theorem length_leBytes (width n : Nat) : (leBytes width n).length = width := by
  induction width generalizing n with
  | zero => rfl
  | succ width ih => rw [leBytes, List.length_cons, ih]

theorem ofLeBytes_leBytes {width n : Nat} (h : n < 256 ^ width) :
    ofLeBytes (leBytes width n) = n := by
  induction width generalizing n with
  | zero =>
    rw [Nat.pow_zero, Nat.lt_one_iff] at h
    rw [h]
    rfl
  | succ width ih =>
    have hdiv : n / 256 < 256 ^ width := by
      rw [Nat.div_lt_iff_lt_mul (by decide), ← Nat.pow_succ]
      exact h
    rw [leBytes, ofLeBytes, ih hdiv, UInt8.toNat_ofNat']
    exact Nat.mod_add_div n 256

def blocks {β : Type u} (size : Nat) : Nat → List β → List (List β)
  | 0, _ => []
  | count + 1, xs => xs.take size :: blocks size count (xs.drop size)

theorem blocks_flatten {β : Type u} {size : Nat} {words : List (List β)}
    (h : ∀ word ∈ words, word.length = size) : blocks size words.length words.flatten = words := by
  induction words with
  | nil => rfl
  | cons word words ih =>
    have hword := h word List.mem_cons_self
    rw [List.length_cons, blocks, List.flatten_cons, List.take_left' hword, List.drop_left' hword,
      ih fun other hother => h other (List.mem_cons_of_mem _ hother)]

theorem length_flatten_words {β : Type u} {size : Nat} {words : List (List β)}
    (h : ∀ word ∈ words, word.length = size) : words.flatten.length = words.length * size := by
  induction words with
  | nil => exact (Nat.zero_mul size).symm
  | cons word words ih =>
    rw [List.flatten_cons, List.length_append, h word List.mem_cons_self,
      ih fun other hother => h other (List.mem_cons_of_mem _ hother), List.length_cons,
      Nat.succ_mul, Nat.add_comm]

end LittleEndian

end OmniRealtime
