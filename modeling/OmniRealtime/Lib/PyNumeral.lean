import OmniRealtime.Lib.PyText

/-!
# Numerals of Python

`str` of an `int`, and `int` of a text: white space around it, a sign, and digits that may be
grouped by underscores. Digits are those of ASCII.

1. `pyInt_pyStr`: an integer is read back from its text.
-/

namespace OmniRealtime

def pyStr : Int → List Char
  | .ofNat n => Nat.toDigits 10 n
  | .negSucc n => '-' :: Nat.toDigits 10 (n + 1)

/-- The digits of `int(text)`. -/
def pyDigits (text : List Char) : Option Nat :=
  let groups := text.splitOn '_'
  if ∀ group ∈ groups, group ≠ [] ∧ ∀ c ∈ group, c.isDigit then
    some (Nat.ofDigitChars 10 groups.flatten 0)
  else none

/-- `int(text)`; `none` where it raises. -/
def pyInt (text : List Char) : Option Int :=
  match strip text with
  | '-' :: digits => (pyDigits digits).map Int.negOfNat
  | '+' :: digits => (pyDigits digits).map Int.ofNat
  | digits => (pyDigits digits).map Int.ofNat

theorem isDigit_of_mem_toDigits {n : Nat} {c : Char} (h : c ∈ Nat.toDigits 10 n) :
    c.isDigit = true :=
  Nat.isDigit_of_mem_toDigits (by decide) (by decide) h

theorem pyDigits_toDigits (n : Nat) : pyDigits (Nat.toDigits 10 n) = some n := by
  have hspl : (Nat.toDigits 10 n).splitOn '_' = [Nat.toDigits 10 n] := by
    refine List.splitOnP_eq_singleton fun c hc => beq_false_of_ne fun h => ?_
    have hdigit := isDigit_of_mem_toDigits hc
    rw [h] at hdigit
    exact absurd hdigit (by decide)
  rw [pyDigits, hspl, if_pos]
  · rw [List.flatten_singleton, Nat.ofDigitChars_ten_toDigits]
  · intro group hgroup
    rw [List.mem_singleton.mp hgroup]
    exact ⟨Nat.toDigits_ne_nil, fun c hc => isDigit_of_mem_toDigits hc⟩

theorem pyIsSpace_of_isDigit {c : Char} (h : c.isDigit = true) : pyIsSpace c = false := by
  rw [Char.isDigit, Bool.and_eq_true, decide_eq_true_eq, decide_eq_true_eq] at h
  have hlo : 48 ≤ c.toNat := h.1
  have hhi : c.toNat ≤ 57 := h.2
  rw [pyIsSpace, decide_eq_false_iff_not]
  omega

theorem strip_pyStr (n : Int) : strip (pyStr n) = pyStr n := by
  refine strip_eq_self fun c hc => ?_
  cases n with
  | ofNat n => exact pyIsSpace_of_isDigit (isDigit_of_mem_toDigits hc)
  | negSucc n =>
    rcases List.mem_cons.mp hc with rfl | hc
    · decide
    · exact pyIsSpace_of_isDigit (isDigit_of_mem_toDigits hc)

theorem pyInt_pyStr (n : Int) : pyInt (pyStr n) = some n := by
  rw [pyInt, strip_pyStr]
  cases n with
  | negSucc n =>
    show (pyDigits (Nat.toDigits 10 (n + 1))).map _ = _
    rw [pyDigits_toDigits]
    rfl
  | ofNat n =>
    show (match Nat.toDigits 10 n with
      | '-' :: digits => (pyDigits digits).map Int.negOfNat
      | '+' :: digits => (pyDigits digits).map Int.ofNat
      | digits => (pyDigits digits).map Int.ofNat) = _
    have hdigits := fun c => isDigit_of_mem_toDigits (n := n) (c := c)
    split
    next digits h =>
      -- a digit is no sign
      exact absurd (hdigits '-' (h ▸ List.mem_cons_self)) (by decide)
    next digits h => exact absurd (hdigits '+' (h ▸ List.mem_cons_self)) (by decide)
    next => rw [pyDigits_toDigits]; rfl

end OmniRealtime
