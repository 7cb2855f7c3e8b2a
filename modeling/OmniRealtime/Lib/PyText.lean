import Mathlib

/-!
# Text of Python

`str.isspace`, `str.strip` and `str.lower`. Lower-casing follows the Unicode tables of the
interpreter; a `PyLower` is any function that agrees with it on ASCII, which is all that
names made of ASCII letters need.

1. `strip_eq_self`: text without white space is its own strip.
2. `PyLower.lower_ne_nil`: lower-casing ASCII text never empties it.
-/

namespace OmniRealtime

/-- `str.isspace` on one character. -/
def pyIsSpace (c : Char) : Bool :=
  let n := c.toNat
  (9 ≤ n ∧ n ≤ 13) ∨ (28 ≤ n ∧ n ≤ 32) ∨ n = 0x85 ∨ n = 0xA0 ∨ n = 0x1680 ∨
    (0x2000 ≤ n ∧ n ≤ 0x200A) ∨ n = 0x2028 ∨ n = 0x2029 ∨ n = 0x202F ∨ n = 0x205F ∨ n = 0x3000

/-- `str.strip`. -/
def strip (s : List Char) : List Char :=
  ((s.dropWhile pyIsSpace).reverse.dropWhile pyIsSpace).reverse

def IsAscii (s : List Char) : Prop := ∀ c ∈ s, c.toNat < 128

/-- `str.lower`, known on ASCII. -/
structure PyLower where
  lower : List Char → List Char
  ascii : ∀ s, IsAscii s → lower s = s.map Char.toLower

/-- Lower-casing that leaves everything but ASCII alone. -/
def PyLower.asciiOnly : PyLower where
  lower s := s.map Char.toLower
  ascii _ _ := rfl

theorem dropWhile_eq_self {α : Type} {p : α → Bool} {l : List α} (h : ∀ a ∈ l, p a = false) :
    l.dropWhile p = l := by
  cases l with
  | nil => rfl
  | cons a l => rw [List.dropWhile_cons, h a List.mem_cons_self]; rfl

theorem strip_eq_self {s : List Char} (h : ∀ c ∈ s, pyIsSpace c = false) : strip s = s := by
  have hrev : ∀ c ∈ s.reverse, pyIsSpace c = false := fun c hc => h c (List.mem_reverse.mp hc)
  rw [strip, dropWhile_eq_self h, dropWhile_eq_self hrev, List.reverse_reverse]

theorem PyLower.lower_ne_nil (py : PyLower) {s : List Char} (hs : s ≠ []) (ha : IsAscii s) :
    py.lower s ≠ [] := by
  rw [py.ascii s ha]
  exact fun h => hs (List.map_eq_nil_iff.mp h)

end OmniRealtime
