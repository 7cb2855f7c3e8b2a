import OmniRealtime.Lib.Utf8Lossy

/-!
# Percent coding

`quote` and `unquote` as the standard library of the source has them, with no safe
character beyond the unreserved ones and UTF-8 as the encoding.

1. `unquote_quote`: a quoted string is read back unchanged.
2. `quote_injective`: two strings with one quotation are equal.
-/

namespace OmniRealtime

namespace PercentCoding

/-- Letters, digits and `_.-~` are never quoted. -/
def isAlwaysSafe (c : Char) : Bool :=
  c.isAlphanum || c == '_' || c == '.' || c == '-' || c == '~'

/-- A hexadecimal digit, in upper case. -/
def hexDigit (n : Nat) : Char :=
  if n < 10 then Char.ofNat (n + 48) else Char.ofNat (n + 55)

/-- The value of a hexadecimal digit of either case. -/
def hexValue (c : Char) : Option Nat :=
  let n := c.toNat
  if 48 ≤ n ∧ n ≤ 57 then some (n - 48)
  else if 65 ≤ n ∧ n ≤ 70 then some (n - 55)
  else if 97 ≤ n ∧ n ≤ 102 then some (n - 87)
  else none

def quoteByte (b : UInt8) : List Char :=
  if isAlwaysSafe (Char.ofNat b.toNat) then [Char.ofNat b.toNat]
  else ['%', hexDigit (b.toNat / 16), hexDigit (b.toNat % 16)]

def quoteChars (text : List Char) : List Char :=
  (text.flatMap String.utf8EncodeChar).flatMap quoteByte

/-- The byte of a `%XY` escape. -/
def escapedByte (c₁ c₂ : Char) : Option UInt8 :=
  match hexValue c₁, hexValue c₂ with
  | some h, some l => some (UInt8.ofNat (h * 16 + l))
  | _, _ => none

/-- `bytes` are those of the run of ASCII characters read so far: each run is decoded
    on its own, and a percent sign that starts no escape stands for itself. -/
def unquoteChars : List UInt8 → List Char → List Char
  | bytes, [] => Utf8Lossy.decode bytes
  | bytes, '%' :: c₁ :: c₂ :: rest =>
    match escapedByte c₁ c₂ with
    | some b => unquoteChars (bytes ++ [b]) rest
    | none => unquoteChars (bytes ++ [UInt8.ofNat '%'.toNat]) (c₁ :: c₂ :: rest)
  | bytes, c :: rest =>
    if c.toNat < 128 then unquoteChars (bytes ++ [UInt8.ofNat c.toNat]) rest
    else Utf8Lossy.decode bytes ++ c :: unquoteChars [] rest

end PercentCoding

/-- `quote(text, safe="")`. -/
def quote (text : String) : String := String.ofList (PercentCoding.quoteChars text.toList)

/-- `unquote(text)`. -/
def unquote (text : String) : String :=
  String.ofList (PercentCoding.unquoteChars [] text.toList)

namespace PercentCoding

/-! ## Reading back a quoted string -/

theorem hexValue_hexDigit : ∀ n < 16, hexValue (hexDigit n) = some n := by decide

theorem escapedByte_hexDigit (b : UInt8) :
    escapedByte (hexDigit (b.toNat / 16)) (hexDigit (b.toNat % 16)) = some b := by
  have hb := b.toNat_lt
  have hsum : b.toNat / 16 * 16 + b.toNat % 16 = b.toNat := by omega
  simp only [escapedByte, hexValue_hexDigit _ (show b.toNat / 16 < 16 by omega),
    hexValue_hexDigit _ (show b.toNat % 16 < 16 by omega), hsum, UInt8.ofNat_toNat]

theorem isAlwaysSafe_spec : ∀ n < 256, isAlwaysSafe (Char.ofNat n) = true →
    Char.ofNat n ≠ '%' ∧ (Char.ofNat n).toNat = n ∧ n < 128 := by decide +kernel

theorem unquoteChars_of_ne_percent {c : Char} (hc : c ≠ '%') (h : c.toNat < 128)
    (bytes : List UInt8) (rest : List Char) :
    unquoteChars bytes (c :: rest) = unquoteChars (bytes ++ [UInt8.ofNat c.toNat]) rest := by
  rw [unquoteChars.eq_3 bytes c rest (fun _ _ _ h _ => hc h), if_pos h]

theorem unquoteChars_quoteByte (bytes : List UInt8) (b : UInt8) (rest : List Char) :
    unquoteChars bytes (quoteByte b ++ rest) = unquoteChars (bytes ++ [b]) rest := by
  unfold quoteByte
  split_ifs with hsafe
  · obtain ⟨hne, htoNat, hlt⟩ := isAlwaysSafe_spec b.toNat b.toNat_lt hsafe
    rw [List.singleton_append, unquoteChars_of_ne_percent hne (by omega), htoNat, UInt8.ofNat_toNat]
  · simp only [List.cons_append, List.nil_append, unquoteChars, escapedByte_hexDigit]

theorem unquoteChars_flatMap (bytes bs : List UInt8) :
    unquoteChars bytes (bs.flatMap quoteByte) = Utf8Lossy.decode (bytes ++ bs) := by
  induction bs generalizing bytes with
  | nil => simp [unquoteChars]
  | cons b bs ih =>
    rw [List.flatMap_cons, unquoteChars_quoteByte, ih, List.append_assoc, List.singleton_append]

end PercentCoding

open PercentCoding

theorem unquote_quote (text : String) : unquote (quote text) = text := by
  simp [unquote, quote, quoteChars, unquoteChars_flatMap, Utf8Lossy.decode_encode]

theorem quote_injective : Function.Injective quote :=
  Function.LeftInverse.injective unquote_quote

end OmniRealtime
