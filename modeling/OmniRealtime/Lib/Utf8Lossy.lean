import Mathlib

/-!
# Lossy UTF-8 decoding

The incremental decoder of UTF-8 with replacement: an ill-formed maximal subpart
becomes one U+FFFD. `Partial` is an unfinished sequence; `run` feeds bytes to the
decoder and `decode` also flushes what is left at the end of the input.

1. `run_append`: the decoder is incremental.
2. `decode_append_of_complete`: bytes that end on a character boundary decode
   independently of what follows.
3. `complete_of_not_endsLossy`: a text that does not end in U+FFFD was decoded from
   bytes that end on a character boundary.
4. `decode_append_of_not_continues`: an input may also be cut inside a character that the
   rest does not continue.
5. `decode_encode`: UTF-8 encoded text decodes to itself.
6. `decodeIgnoring_encode`: so it does where ill-formed bytes are dropped.
-/

namespace OmniRealtime

open List Option

/-- U+FFFD, which stands for an ill-formed sequence. -/
def replacementChar : Char := Char.ofNat 0xFFFD

namespace Utf8Lossy

/-- A sequence whose lead byte was read: the bits so far, the continuation bytes still
    owed after the next one, and the range the next byte must lie in. -/
structure Partial where
  bits : Nat
  owed : Nat
  low : Nat
  high : Nat
  deriving DecidableEq, Repr

/-- Between two characters (`none`), or inside a sequence. -/
abbrev State := Option Partial

/-- A byte read between two characters. -/
def lead (b : UInt8) : List Char × State :=
  let n := b.toNat
  if n ≤ 0x7F then ([Char.ofNat n], none)
  else if 0xC2 ≤ n ∧ n ≤ 0xDF then ([], some ⟨n - 0xC0, 0, 0x80, 0xBF⟩)
  else if n = 0xE0 then ([], some ⟨0, 1, 0xA0, 0xBF⟩)
  else if n = 0xED then ([], some ⟨0xD, 1, 0x80, 0x9F⟩)
  else if 0xE1 ≤ n ∧ n ≤ 0xEF then ([], some ⟨n - 0xE0, 1, 0x80, 0xBF⟩)
  else if n = 0xF0 then ([], some ⟨0, 2, 0x90, 0xBF⟩)
  else if 0xF1 ≤ n ∧ n ≤ 0xF3 then ([], some ⟨n - 0xF0, 2, 0x80, 0xBF⟩)
  else if n = 0xF4 then ([], some ⟨4, 2, 0x80, 0x8F⟩)
  else ([replacementChar], none)

/-- One byte: the characters it completes and the state after it. A byte that does not
    continue the sequence ends it with U+FFFD and is read again as a lead byte. -/
def step : State → UInt8 → List Char × State
  | none, b => lead b
  | some p, b =>
    let n := b.toNat
    if p.low ≤ n ∧ n ≤ p.high then
      let bits := p.bits * 64 + (n - 0x80)
      match p.owed with
      | 0 => ([Char.ofNat bits], none)
      | owed + 1 => ([], some ⟨bits, owed, 0x80, 0xBF⟩)
    else
      (replacementChar :: (lead b).1, (lead b).2)

/-- The characters completed by the bytes, and the state they leave. -/
def run : State → List UInt8 → List Char × State
  | s, [] => ([], s)
  | s, b :: bs => ((step s b).1 ++ (run (step s b).2 bs).1, (run (step s b).2 bs).2)

/-- An unfinished sequence at the end of the input is one U+FFFD. -/
def flush : State → List Char
  | none => []
  | some _ => [replacementChar]

/-- Lossy decoding of a whole input. -/
def decode (bs : List UInt8) : List Char :=
  (run none bs).1 ++ flush (run none bs).2

/-- The bytes end on a character boundary. -/
def Complete (bs : List UInt8) : Prop := (run none bs).2 = none

instance (bs : List UInt8) : Decidable (Complete bs) :=
  inferInstanceAs (Decidable ((run none bs).2 = none))

def EndsLossy (text : List Char) : Prop := text.getLast? = some replacementChar

instance (text : List Char) : Decidable (EndsLossy text) :=
  inferInstanceAs (Decidable (text.getLast? = some replacementChar))

/-! ## The decoder is incremental -/

@[simp] theorem run_nil (s : State) : run s [] = ([], s) := rfl

@[simp] theorem flush_none : flush none = [] := rfl

@[simp] theorem decode_nil : decode [] = [] := rfl

theorem complete_nil : Complete [] := rfl

variable (s : State)

theorem run_append (bs cs : List UInt8) : run s (bs ++ cs) =
      ((run s bs).1 ++ (run (run s bs).2 cs).1, (run (run s bs).2 cs).2) := by
  induction bs generalizing s with
  | nil => simp
  | cons b bs ih => simp [run, ih]

/-! ## Character boundaries -/

variable {bs : List UInt8} {cs : List UInt8} {n : Nat} (c : Char)

/-- Bytes that end on a character boundary decode on their own, whatever follows. -/
theorem decode_append_of_complete (h : Complete bs) (cs : List UInt8) :
    decode (bs ++ cs) = decode bs ++ decode cs := by
  have hs : (run none bs).2 = none := h
  simp [decode, run_append, hs]

theorem Complete.append (hbs : Complete bs) (hcs : Complete cs) : Complete (bs ++ cs) := by
  have hs : (run none bs).2 = none := hbs
  have hs' : (run none cs).2 = none := hcs
  simp [Complete, run_append, hs, hs']

theorem endsLossy_of_not_complete (h : ¬ Complete bs) : EndsLossy (decode bs) := by
  obtain ⟨p, hp⟩ := ne_none_iff_exists'.mp h
  simp [EndsLossy, decode, hp, flush]

/-- Only bytes that end on a character boundary decode to a text without a U+FFFD at
    its end. -/
theorem complete_of_not_endsLossy (h : ¬ EndsLossy (decode bs)) : Complete bs := by
  by_contra hbs
  exact h (endsLossy_of_not_complete hbs)

/-- What was decoded up to a character boundary is a prefix of what is decoded later. -/
theorem decode_prefix_of_complete (h : Complete bs) (cs : List UInt8) :
    decode bs <+: decode (bs ++ cs) := by
  rw [decode_append_of_complete h]
  exact prefix_append _ _

/-! ## Inputs cut inside a character -/

/-- `cs` continues the unfinished character at the end of `bs`. -/
def Continues (bs cs : List UInt8) : Prop :=
  ∃ p b rest, (run none bs).2 = some p ∧ cs = b :: rest ∧ p.low ≤ b.toNat ∧ b.toNat ≤ p.high

theorem not_continues_of_complete (h : Complete bs) (cs : List UInt8) : ¬ Continues bs cs := by
  rintro ⟨p, b, rest, hp, -⟩
  exact absurd (hp.symm.trans h) (by simp)

theorem not_continues_nil (bs : List UInt8) : ¬ Continues bs [] := by
  rintro ⟨p, b, rest, -, h, -⟩
  cases h

theorem Continues.append (h : cs ≠ []) (ds : List UInt8) :
    Continues bs (cs ++ ds) ↔ Continues bs cs := by
  obtain ⟨c, cs, rfl⟩ := exists_cons_of_ne_nil h
  constructor
  · rintro ⟨p, b, rest, hp, hcs, hb⟩
    cases hcs
    exact ⟨p, c, cs, hp, rfl, hb⟩
  · rintro ⟨p, b, rest, hp, hcs, hb⟩
    cases hcs
    exact ⟨p, c, cs ++ ds, hp, rfl, hb⟩

/-- Bytes that do not continue it end the unfinished character with U+FFFD and are read
    on their own. -/
theorem run_of_not_continues (hne : cs ≠ []) (h : ¬ Continues bs cs) :
    run (run none bs).2 cs = (flush (run none bs).2 ++ (run none cs).1, (run none cs).2) := by
  obtain ⟨b, cs, rfl⟩ := exists_cons_of_ne_nil hne
  cases hs : (run none bs).2 with
  | none => rfl
  | some p =>
    have hout : ¬ (p.low ≤ b.toNat ∧ b.toNat ≤ p.high) := fun hb => h ⟨p, b, cs, hs, rfl, hb⟩
    simp only [run, step, if_neg hout]
    rfl

/-- Such bytes decode independently of what came before. -/
theorem decode_append_of_not_continues (h : ¬ Continues bs cs) :
    decode (bs ++ cs) = decode bs ++ decode cs := by
  by_cases hne : cs = []
  · subst hne
    simp
  · simp only [decode, run_append, run_of_not_continues hne h, append_assoc]

/-- What follows them depends on them alone. -/
theorem continues_append_left (hne : cs ≠ []) (h : ¬ Continues bs cs) (ds : List UInt8) : Continues
    (bs ++ cs) ds ↔ Continues cs ds := by
  have hs : (run none (bs ++ cs)).2 = (run none cs).2 := by
    rw [run_append, run_of_not_continues hne h]
  unfold Continues
  rw [hs]

/-! ## Decoding encoded text -/

theorem toNat_ofNat (h : n < 256) : (UInt8.ofNat n).toNat = n := by
  simp [UInt8.toNat_ofNat']
  omega

theorem char_range : c.val.toNat < 0xD800 ∨ 0xDFFF < c.val.toNat ∧ c.val.toNat < 0x110000 := c.valid

theorem lead_two (h : 2 ≤ n ∧ n < 0x20) :
    lead (UInt8.ofNat (n + 0xC0)) = ([], some ⟨n, 0, 0x80, 0xBF⟩) := by
  simp only [lead, toNat_ofNat (n := n + 0xC0) (by omega), Nat.add_sub_cancel]
  rw [if_neg (by omega), if_pos (by omega)]

theorem lead_three (h : n < 0x10) : lead (UInt8.ofNat (n + 0xE0)) =
      ([], some ⟨n, 1, if n = 0 then 0xA0 else 0x80, if n = 0xD then 0x9F else 0xBF⟩) := by
  simp only [lead, toNat_ofNat (n := n + 0xE0) (by omega), Nat.add_sub_cancel]
  split_ifs <;> first | omega | simp_all

theorem lead_four (h : n < 5) : lead (UInt8.ofNat (n + 0xF0)) =
      ([], some ⟨n, 2, if n = 0 then 0x90 else 0x80, if n = 4 then 0x8F else 0xBF⟩) := by
  simp only [lead, toNat_ofNat (n := n + 0xF0) (by omega), Nat.add_sub_cancel]
  split_ifs <;> first | omega | simp_all

theorem step_last {bits low high n : Nat} (h : low ≤ n % 64 + 0x80 ∧ n % 64 + 0x80 ≤ high) :
    step (some ⟨bits, 0, low, high⟩) (UInt8.ofNat (n % 64 + 0x80)) =
      ([Char.ofNat (bits * 64 + n % 64)], none) := by
  simp only [step, toNat_ofNat (n := n % 64 + 0x80) (by omega), Nat.add_sub_cancel]
  rw [if_pos h]

theorem step_tail {bits owed low high n : Nat} (h : low ≤ n % 64 + 0x80 ∧ n % 64 + 0x80 ≤ high) :
    step (some ⟨bits, owed + 1, low, high⟩) (UInt8.ofNat (n % 64 + 0x80)) =
      ([], some ⟨bits * 64 + n % 64, owed, 0x80, 0xBF⟩) := by
  simp only [step, toNat_ofNat (n := n % 64 + 0x80) (by omega), Nat.add_sub_cancel]
  rw [if_pos h]

/-- The decoder reads back one encoded character. -/
theorem run_utf8EncodeChar : run none (String.utf8EncodeChar c) = ([c], none) := by
  have hc := char_range c
  have hofNat : Char.ofNat c.val.toNat = c := Char.ofNat_toNat c
  generalize hv : c.val.toNat = v at hc hofNat
  unfold String.utf8EncodeChar
  simp only [hv]
  split_ifs with h1 h2 h3
  · have hlead : lead (UInt8.ofNat v) = ([c], none) := by
      simp only [lead, toNat_ofNat (n := v) (by omega), if_pos h1, hofNat]
    simp [run, step, hlead]
  · have hbits : v / 64 % 0x20 * 64 + v % 64 = v := by omega
    simp only [run]
    rw [step, lead_two (by omega), step_last (by omega), hbits, hofNat]
    rfl
  · have hbits : (v / 4096 % 0x10 * 64 + v / 64 % 64) * 64 + v % 64 = v := by omega
    simp only [run]
    rw [step, lead_three (by omega), step_tail (by split_ifs <;> omega), step_last (by omega),
      hbits, hofNat]
    rfl
  · have hbits : ((v / 262144 % 8 * 64 + v / 4096 % 64) * 64 + v / 64 % 64) * 64 + v % 64 = v := by
      omega
    simp only [run]
    rw [step, lead_four (by omega), step_tail (by split_ifs <;> omega), step_tail (by omega),
      step_last (by omega), hbits, hofNat]
    rfl

theorem decode_encode (text : List Char) : decode (text.flatMap String.utf8EncodeChar) = text := by
  induction text with
  | nil => rfl
  | cons c cs ih =>
    have hc : decode (String.utf8EncodeChar c) = [c] := by simp [decode, run_utf8EncodeChar]
    have hcomplete : Complete (String.utf8EncodeChar c) := by
      simp [Complete, run_utf8EncodeChar]
    rw [flatMap_cons, decode_append_of_complete hcomplete, hc, ih, singleton_append]

/-! ## Dropping ill-formed bytes -/

/-- A byte between two characters, dropped if it begins none. -/
def leadIgnoring (b : UInt8) : List Char × State :=
  if lead b = ([replacementChar], none) then ([], none) else lead b

/-- `step`, where an ill-formed sequence gives nothing. -/
def stepIgnoring : State → UInt8 → List Char × State
  | none, b => leadIgnoring b
  | some p, b =>
    if p.low ≤ b.toNat ∧ b.toNat ≤ p.high then step (some p) b else leadIgnoring b

def runIgnoring : State → List UInt8 → List Char × State
  | s, [] => ([], s)
  | s, b :: bs =>
    ((stepIgnoring s b).1 ++ (runIgnoring (stepIgnoring s b).2 bs).1,
      (runIgnoring (stepIgnoring s b).2 bs).2)

/-- Decoding that drops what is ill-formed, an unfinished sequence at the end included. -/
def decodeIgnoring (bs : List UInt8) : List Char := (runIgnoring none bs).1

theorem leadIgnoring_spec (b : UInt8) :
    (leadIgnoring b).2 = (lead b).2 ∧ (leadIgnoring b).1.Sublist (lead b).1 ∧
      (leadIgnoring b).1.filter (· ≠ replacementChar) =
        (lead b).1.filter (· ≠ replacementChar) := by
  unfold leadIgnoring
  split
  · next h =>
    rw [h]
    exact ⟨rfl, nil_sublist _, by simp⟩
  · exact ⟨rfl, .refl _, rfl⟩

theorem stepIgnoring_spec (b : UInt8) :
    (stepIgnoring s b).2 = (step s b).2 ∧ (stepIgnoring s b).1.Sublist (step s b).1 ∧
      (stepIgnoring s b).1.filter (· ≠ replacementChar) =
        (step s b).1.filter (· ≠ replacementChar) := by
  cases s with
  | none => exact leadIgnoring_spec b
  | some p =>
    dsimp only [stepIgnoring]
    split
    · exact ⟨rfl, .refl _, rfl⟩
    · next hout =>
      obtain ⟨hs, hsub, hfilter⟩ := leadIgnoring_spec b
      have hst : step (some p) b = (replacementChar :: (lead b).1, (lead b).2) := if_neg hout
      rw [hst]
      exact ⟨hs, hsub.cons _, by simpa using hfilter⟩

theorem runIgnoring_spec (bs : List UInt8) :
    (runIgnoring s bs).2 = (run s bs).2 ∧ (runIgnoring s bs).1.Sublist (run s bs).1 ∧
      (runIgnoring s bs).1.filter (· ≠ replacementChar) =
        (run s bs).1.filter (· ≠ replacementChar) := by
  induction bs generalizing s with
  | nil => exact ⟨rfl, .refl _, rfl⟩
  | cons b bs ih =>
    obtain ⟨hs, hsub, hfilter⟩ := stepIgnoring_spec s b
    obtain ⟨ihstate, ihsub, ihfilter⟩ := ih (step s b).2
    unfold runIgnoring run
    rw [hs, filter_append, filter_append, hfilter, ihfilter]
    exact ⟨ihstate, hsub.append ihsub, rfl⟩

theorem runIgnoring_append (bs cs : List UInt8) : runIgnoring s (bs ++ cs) =
      ((runIgnoring s bs).1 ++ (runIgnoring (runIgnoring s bs).2 cs).1,
        (runIgnoring (runIgnoring s bs).2 cs).2) := by
  induction bs generalizing s with
  | nil => rfl
  | cons b bs ih => simp [runIgnoring, ih]

theorem runIgnoring_utf8EncodeChar : runIgnoring none (String.utf8EncodeChar c) = ([c], none) := by
  by_cases hc : c = replacementChar
  · subst hc
    decide
  · obtain ⟨hs, hsub, hfilter⟩ := runIgnoring_spec none (String.utf8EncodeChar c)
    rw [run_utf8EncodeChar] at hs hsub hfilter
    have hlen : 1 ≤ (runIgnoring none (String.utf8EncodeChar c)).1.length := by
      have hle := length_filter_le (· ≠ replacementChar)
        (runIgnoring none (String.utf8EncodeChar c)).1
      rw [hfilter] at hle
      simpa [hc] using hle
    exact Prod.ext (hsub.eq_of_length_le hlen) hs

theorem decodeIgnoring_encode (text : List Char) :
    decodeIgnoring (text.flatMap String.utf8EncodeChar) = text := by
  induction text with
  | nil => rfl
  | cons c cs ih =>
    unfold decodeIgnoring at ih ⊢
    rw [flatMap_cons, runIgnoring_append, runIgnoring_utf8EncodeChar, ih, singleton_append]

end Utf8Lossy

end OmniRealtime
