import OmniRealtime.Lib.System

/-!
# Seqlocks, word by word

A sequence word guards `k` data words. A write makes the sequence odd, stores the data
words one at a time, and makes the sequence even again; a read copies the words between
two reads of the sequence and keeps the copy only when both saw the same even value.
One write is under way at a time, and it may be abandoned after any word.

1. `Inv.step`: while the sequence is even, the data words are those of the last
   completed write; a copy whose sequence still stands agrees with the data.
2. `returned_known`: what a read returned is what one completed write stored, or what
   the words held at first.
3. `check_latest`: at the moment a read succeeds, its copy is the current contents.
4. `Step.fuel_lt`, `exists_continues`: a read goes on until it has returned or failed,
   and does so within its attempts.
5. `solo_read`: a read that nobody disturbs, of an even sequence, returns the data.
-/

namespace OmniRealtime

open List Function

namespace Seqlock

/-- A write under way: called, with the sequence read and the marker computed, or with
    the marker and the first `done` data words stored. -/
inductive Writer (W : Type) (k : Nat)
  | called (v : Fin k → W)
  | marking (v : Fin k → W) (marker : Nat)
  | storing (v : Fin k → W) (marker done : Nat)

/-- A read: about to read the sequence with `left` attempts to spare, about to copy the
    sequence word, copying the data words, or ended. -/
inductive Reader (W : Type)
  | idle
  | before (left : Nat)
  | copySeq (left seqBefore : Nat)
  | copy (left seqBefore seqCopy : Nat) (words : List W)
  | returned (seqCopy : Nat) (words : List W)
  | unstable

open Reader

/-- What is left of a read with this many attempts. -/
def Reader.attempts {W : Type} : Nat → Reader W
  | 0 => .unstable
  | left + 1 => .before left

/-- The words, the write under way, the readers, and the contents of every completed
    write, the last one first. -/
structure State (W : Type) (k : Nat) (ρ : Type) where
  seq : Nat
  data : Fin k → W
  writer : Option (Writer W k)
  readers : ρ → Reader W
  completed : List (Fin k → W)

inductive Act (W : Type) (k : Nat) (ρ : Type)
  | call (v : Fin k → W)
  | loadSeq
  | storeMarker
  | storeWord
  | storeEnd
  | abandon
  | beginRead (r : ρ) (budget : Nat)
  | readBefore (r : ρ)
  | copySeq (r : ρ)
  | copyWord (r : ρ)
  | readAfter (r : ρ)

variable {W ρ : Type} {k : Nat}

/-- One word operation. -/
inductive Step [DecidableEq ρ] : State W k ρ → Act W k ρ → State W k ρ → Prop
  | call {s : State W k ρ} (v : Fin k → W) : s.writer = none →
      Step s (.call v) { s with writer := some (.called v) }
  | loadSeq {s : State W k ρ} {v : Fin k → W} : s.writer = some (.called v) →
      Step s .loadSeq { s with writer := some (.marking v (s.seq ||| 1)) }
  | storeMarker {s : State W k ρ} {v : Fin k → W} {m : Nat} : s.writer = some (.marking v m) →
      Step s .storeMarker { s with seq := m, writer := some (.storing v m 0) }
  | storeWord {s : State W k ρ} {v : Fin k → W} {m : Nat} (i : Fin k) :
      s.writer = some (.storing v m i) →
      Step s .storeWord
        { s with data := Function.update s.data i (v i), writer := some (.storing v m (i + 1)) }
  | storeEnd {s : State W k ρ} {v : Fin k → W} {m : Nat} : s.writer = some (.storing v m k) →
      Step s .storeEnd { s with seq := m + 1, writer := none, completed := v :: s.completed }
  | abandon {s : State W k ρ} {w : Writer W k} : s.writer = some w →
      Step s .abandon { s with writer := none }
  | beginRead {s : State W k ρ} (r : ρ) (budget : Nat) :
      Step s (.beginRead r budget)
        { s with readers := Function.update s.readers r (.attempts budget) }
  | readBefore {s : State W k ρ} {r : ρ} {left : Nat} : s.readers r = .before left →
      Step s (.readBefore r)
        { s with
          readers := Function.update s.readers r
            (if s.seq % 2 = 1 then .attempts left else .copySeq left s.seq) }
  | copySeq {s : State W k ρ} {r : ρ} {left e : Nat} : s.readers r = .copySeq left e →
      Step s (.copySeq r)
        { s with readers := Function.update s.readers r (.copy left e s.seq []) }
  | copyWord {s : State W k ρ} {r : ρ} {left e c : Nat} {words : List W} (i : Fin k) :
      s.readers r = .copy left e c words → words.length = i →
      Step s (.copyWord r)
        { s with
          readers := Function.update s.readers r (.copy left e c (words ++ [s.data i])) }
  | readAfter {s : State W k ρ} {r : ρ} {left e c : Nat} {words : List W} :
      s.readers r = .copy left e c words → words.length = k →
      Step s (.readAfter r)
        { s with
          readers := Function.update s.readers r
            (if e = s.seq then .returned c words else .attempts left) }

/-- The words at first: an even sequence, and the contents `base`. -/
def State.initial (base : Fin k → W) : State W k ρ where
  seq := 0
  data := base
  writer := none
  readers _ := .idle
  completed := []

def system [DecidableEq ρ] (base : Fin k → W) : System (State W k ρ) (Act W k ρ) where
  init s := s = State.initial base
  step := Step

/-- How many more words a read may look at. -/
def Reader.fuel (k : Nat) : Reader W → Nat
  | .before left => (left + 1) * (k + 3)
  | .copySeq left _ => left * (k + 3) + (k + 2)
  | .copy left _ _ words => left * (k + 3) + (k + 1 - words.length)
  | _ => 0

/-- The operation is the reader's next one within its read. -/
def Act.continues (r : ρ) : Act W k ρ → Prop
  | .readBefore q | .copySeq q | .copyWord q | .readAfter q => q = r
  | _ => False

/-! ## The invariant -/

/-- The contents of the last completed write. -/
def State.latest (base : Fin k → W) (s : State W k ρ) : Fin k → W := s.completed.headD base

/-- What a completed write stored, or what was there at first. -/
def State.Known (base : Fin k → W) (s : State W k ρ) (v : Fin k → W) : Prop :=
  v = base ∨ v ∈ s.completed

/-- What holds of a read in progress: its sequence was even, and while the sequence
    stands the copy agrees with the data. -/
def ReaderOk (base : Fin k → W) (s : State W k ρ) : Reader W → Prop
  | .copySeq _ e => e % 2 = 0 ∧ e ≤ s.seq
  | .copy _ e c words => e % 2 = 0 ∧ e ≤ s.seq ∧ words.length ≤ k ∧
      (s.seq = e → c = e ∧ words = (List.ofFn s.data).take words.length)
  | .returned _ words => ∃ v, s.Known base v ∧ words = List.ofFn v
  | _ => True

structure Inv (base : Fin k → W) (s : State W k ρ) : Prop where
  quiet : s.seq % 2 = 0 → s.data = s.latest base
  marking : ∀ v m, s.writer = some (.marking v m) → m = s.seq ||| 1
  storing : ∀ v m i, s.writer = some (.storing v m i) →
    s.seq = m ∧ m % 2 = 1 ∧ ∀ j : Fin k, j < i → s.data j = v j
  reader : ∀ r, ReaderOk base s (s.readers r)

theorem Inv.initial (base : Fin k → W) : Inv base (State.initial base : State W k ρ) where
  quiet _ := rfl
  marking _ _ h := by cases h
  storing _ _ _ h := by cases h
  reader _ := trivial

/-! ## Helpers -/

section Helpers

variable {base : Fin k → W} {s t : State W k ρ} (n : Nat)

theorem or_one_odd : (n ||| 1) % 2 = 1 := by simp

theorem le_or_one : n ≤ n ||| 1 := Nat.left_le_or

theorem State.latest_known (base : Fin k → W) (s : State W k ρ) : s.Known base (s.latest base) := by
  unfold State.Known State.latest
  cases s.completed with
  | nil => exact .inl rfl
  | cons v vs => exact .inr (mem_cons_self ..)

/-- A step that lowers no sequence, and changes no data under a standing even sequence,
    keeps every read in order. -/
theorem ReaderOk.mono {r : Reader W} (h : ReaderOk base s r) (hseq : s.seq ≤ t.seq)
    (hdata : t.seq = s.seq → s.seq % 2 = 0 → t.data = s.data)
    (hcmp : ∀ v ∈ s.completed, v ∈ t.completed) : ReaderOk base t r := by
  cases r with
  | copySeq left e => exact ⟨h.1, le_trans h.2 hseq⟩
  | copy left e c words =>
    obtain ⟨he, hle, hlen, hcopy⟩ := h
    refine ⟨he, le_trans hle hseq, hlen, fun heq => ?_⟩
    have hs : s.seq = e := le_antisymm (heq ▸ hseq) hle
    rw [hdata (heq.trans hs.symm) (hs ▸ he)]
    exact hcopy hs
  | returned c words =>
    obtain ⟨v, hv | hv, hwords⟩ := h
    · exact ⟨v, .inl hv, hwords⟩
    · exact ⟨v, .inr (hcmp v hv), hwords⟩
  | idle => trivial
  | before left => trivial
  | unstable => trivial

theorem readerOk_attempts : ReaderOk base s (attempts n) := by
  cases n <;> trivial

theorem take_ofFn_succ (data : Fin k → W) (i : Fin k) :
    (List.ofFn data).take i ++ [data i] = (List.ofFn data).take (i + 1) := by
  rw [take_add_one]
  simp

/-- A full copy whose sequence still stands is the current contents. -/
theorem Inv.copy_latest (hI : Inv base s) {r : ρ} {left e c : Nat} {words : List W}
    (hr : s.readers r = .copy left e c words) (hlen : words.length = k) (heq : e = s.seq) :
    s.seq % 2 = 0 ∧ c = s.seq ∧ words = List.ofFn (s.latest base) := by
  have hok := hI.reader r
  rw [hr] at hok
  obtain ⟨he, _, _, hcopy⟩ := hok
  obtain ⟨hc, hwords⟩ := hcopy heq.symm
  have hfull : words = List.ofFn s.data := by
    rw [hwords, hlen]
    exact take_of_length_le (by simp)
  exact ⟨heq ▸ he, hc.trans heq, hfull.trans (congrArg List.ofFn (hI.quiet (heq ▸ he)))⟩

theorem Inv.update_reader [DecidableEq ρ] (hI : Inv base s) {r : ρ} {x : Reader W}
    (hx : ReaderOk base s x) :
    Inv base { s with readers := update s.readers r x } where
  quiet := hI.quiet
  marking := hI.marking
  storing := hI.storing
  reader q := by
    have hkeep : ∀ y, ReaderOk base s y → ReaderOk base
        { s with readers := update s.readers r x } y :=
      fun y hy => hy.mono le_rfl (fun _ _ => rfl) (fun _ hv => hv)
    by_cases hq : q = r
    · subst hq
      simpa using hkeep x hx
    · simpa [hq] using hkeep _ (hI.reader q)

end Helpers

/-! ## Each word operation keeps the invariant -/

section Steps

variable [DecidableEq ρ] {base : Fin k → W} {s t : State W k ρ}

theorem Inv.step {a : Act W k ρ} (hI : Inv base s) (h : Step s a t) : Inv base t := by
  cases h with
  | call v hw | abandon hw =>
    refine ⟨hI.quiet, ?_, ?_, fun r => ?_⟩
    · intro v m h; cases h
    · intro v m i h; cases h
    · exact (hI.reader r).mono le_rfl (fun _ _ => rfl) (fun _ hv => hv)
  | @loadSeq v hw =>
    refine ⟨hI.quiet, ?_, ?_, fun r => ?_⟩
    · intro v m h; cases h; rfl
    · intro v m i h; cases h
    · exact (hI.reader r).mono le_rfl (fun _ _ => rfl) (fun _ hv => hv)
  | @storeMarker v m hw =>
    obtain rfl := hI.marking v m hw
    have hodd := or_one_odd s.seq
    refine ⟨fun h => ?_, ?_, ?_, fun r => ?_⟩
    · simp only at h
      omega
    · intro v m h; cases h
    · intro v m i h
      cases h
      exact ⟨rfl, hodd, fun j hj => absurd hj (Nat.not_lt_zero _)⟩
    · exact (hI.reader r).mono (le_or_one _) (fun _ _ => rfl) (fun _ hv => hv)
  | @storeWord v m i hw =>
    obtain ⟨hseq, hodd, hdone⟩ := hI.storing v m i hw
    refine ⟨fun h => ?_, ?_, ?_, fun r => ?_⟩
    · simp only at h
      omega
    · intro v m h; cases h
    · intro v' m' i' h
      cases h
      refine ⟨hseq, hodd, fun j hj => ?_⟩
      by_cases hji : j = i
      · subst hji
        simp
      · simp only [update_of_ne hji]
        exact hdone j (Nat.lt_of_le_of_ne (Nat.lt_succ_iff.mp hj) (Fin.val_ne_of_ne hji))
    · -- The sequence is odd, so no read in progress stands.
      exact (hI.reader r).mono le_rfl (fun _ he => by omega) (fun _ hv => hv)
  | @storeEnd v m hw =>
    obtain ⟨hseq, hodd, hdone⟩ := hI.storing v m k hw
    refine ⟨fun _ => ?_, ?_, ?_, fun r => ?_⟩
    · exact funext fun j => hdone j j.isLt
    · intro v m h; cases h
    · intro v m i h; cases h
    · exact (hI.reader r).mono (by simp only; omega) (fun _ _ => rfl)
        (fun _ hv => mem_cons_of_mem _ hv)
  | beginRead r budget => exact hI.update_reader (readerOk_attempts budget)
  | @readBefore r left hr =>
    refine hI.update_reader ?_
    split_ifs with hodd
    · exact readerOk_attempts left
    · exact ⟨by omega, le_rfl⟩
  | @copySeq r left e hr =>
    have hok := hI.reader r
    rw [hr] at hok
    exact hI.update_reader ⟨hok.1, hok.2, Nat.zero_le _, fun heq => ⟨heq, rfl⟩⟩
  | @copyWord r left e c words i hr hlen =>
    have hok := hI.reader r
    rw [hr] at hok
    obtain ⟨he, hle, _, hcopy⟩ := hok
    refine hI.update_reader ⟨he, hle, by simp; omega, fun heq => ?_⟩
    obtain ⟨hc, hwords⟩ := hcopy heq
    refine ⟨hc, ?_⟩
    rw [length_append, length_singleton, hlen, ← take_ofFn_succ, ← hlen, ← hwords]
  | @readAfter r left e c words hr hlen =>
    refine hI.update_reader ?_
    split_ifs with heq
    · exact ⟨s.latest base, s.latest_known base, (hI.copy_latest hr hlen heq).2.2⟩
    · exact readerOk_attempts left

end Steps

variable {s : State W k ρ} {r : ρ}

theorem Inv.of_reachable [DecidableEq ρ] {base : Fin k → W} (h : (system base).Reachable s) :
    Inv base s := by
  refine h.invariant ?_ fun s a t hI hst => hI.step hst
  rintro s rfl
  exact Inv.initial base

/-! ## Reads are never torn -/

/-- What a read returned is what one completed write stored, or what the words held at
    first. -/
theorem returned_known [DecidableEq ρ] {base : Fin k → W} (h : (system base).Reachable s) {c : Nat}
    {words : List W} (hr : s.readers r = .returned c words) :
    ∃ v, s.Known base v ∧ words = List.ofFn v := by
  have hok := (Inv.of_reachable h).reader r
  rw [hr] at hok
  exact hok

theorem attempts_ne_returned {left c : Nat} {words : List W} :
    (attempts left : Reader W) ≠ .returned c words := by
  cases left <;> exact nofun

/-- At the moment a read succeeds the sequence is even, and the copy is the current
    contents. -/
theorem check_latest [DecidableEq ρ] {base : Fin k → W} {t : State W k ρ}
    (h : (system base).Reachable s) {a : Act W k ρ} (hst : Step s a t) (ha : a.continues r)
    {c : Nat} {words : List W} (hr : t.readers r = .returned c words) :
    s.seq % 2 = 0 ∧ c = s.seq ∧ words = List.ofFn (s.latest base) := by
  cases hst with
  | @readAfter q left e c' words' hcopy hlen =>
    obtain rfl : q = r := ha
    simp only [update_self] at hr
    split_ifs at hr with heq
    · cases hr
      exact (Inv.of_reachable h).copy_latest hcopy hlen heq
    · exact absurd hr attempts_ne_returned
  | @readBefore q left _ =>
    obtain rfl : q = r := ha
    simp only [update_self] at hr
    split_ifs at hr
    exact absurd hr attempts_ne_returned
  | @copySeq q left e _ | @copyWord q left e c words i _ _ =>
    obtain rfl : q = r := ha
    simp only [update_self] at hr
    cases hr
  | call | loadSeq | storeMarker | storeWord | storeEnd | abandon | beginRead => exact ha.elim

/-! ## Reads end -/

theorem fuel_attempts (left : Nat) : (Reader.attempts left : Reader W).fuel k = left * (k + 3) := by
  cases left with
  | zero => simp [attempts, Reader.fuel]
  | succ left => rfl

/-- Every operation of a read uses up fuel. -/
theorem Step.fuel_lt [DecidableEq ρ] {t : State W k ρ} {a : Act W k ρ} (h : Step s a t)
    (ha : a.continues r) : (t.readers r).fuel k < (s.readers r).fuel k := by
  cases h with
  | @readBefore q left hq =>
    obtain rfl : q = r := ha
    simp only [update_self, hq]
    split_ifs
    · rw [fuel_attempts]
      simp only [fuel, Nat.succ_mul]
      omega
    · simp only [fuel, Nat.succ_mul]
      omega
  | @copySeq q left e hq =>
    obtain rfl : q = r := ha
    simp only [update_self, hq, fuel, length_nil]
    omega
  | @copyWord q left e c words i hq hlen =>
    obtain rfl : q = r := ha
    have := i.isLt
    simp only [update_self, hq, fuel, length_append, length_singleton]
    omega
  | @readAfter q left e c words hq hlen =>
    obtain rfl : q = r := ha
    simp only [update_self, hq]
    split_ifs
    · simp only [fuel]
      omega
    · rw [fuel_attempts]
      simp only [fuel]
      omega
  | call | loadSeq | storeMarker | storeWord | storeEnd | abandon | beginRead => exact ha.elim

/-- A read in progress can always go on, until it has returned or failed. -/
theorem exists_continues [DecidableEq ρ] {base : Fin k → W} (h : (system base).Reachable s)
    (hfuel : 0 < (s.readers r).fuel k) : ∃ a t, Step s a t ∧ a.continues r := by
  cases hr : s.readers r with
  | before left => exact ⟨_, _, .readBefore hr, rfl⟩
  | copySeq left e => exact ⟨_, _, .copySeq hr, rfl⟩
  | copy left e c words =>
    have hok := (Inv.of_reachable h).reader r
    rw [hr] at hok
    rcases Nat.lt_or_eq_of_le hok.2.2.1 with hlt | heq
    · exact ⟨_, _, .copyWord ⟨words.length, hlt⟩ hr rfl, rfl⟩
    · exact ⟨_, _, .readAfter hr heq, rfl⟩
  | idle | returned c words | unstable => rw [hr] at hfuel; exact absurd hfuel (Nat.lt_irrefl 0)

/-! ## Undisturbed reads -/

def ReadStep [DecidableEq ρ] (r : ρ) (s t : State W k ρ) : Prop :=
  ∃ a, a.continues r ∧ Step s a t

section Solo

variable [DecidableEq ρ]

def State.setReader (s : State W k ρ) (r : ρ) (x : Reader W) : State W k ρ :=
  { s with readers := Function.update s.readers r x }

@[simp] theorem setReader_readers (s : State W k ρ) (r : ρ) (x : Reader W) :
    (s.setReader r x).readers r = x := by simp [State.setReader]

@[simp] theorem setReader_setReader (s : State W k ρ) (r : ρ) (x y : Reader W) :
    (s.setReader r x).setReader r y = s.setReader r y := by
  simp [State.setReader]

theorem setReader_self {r : ρ} {x : Reader W} (h : s.readers r = x) : s.setReader r x = s := by
  subst h
  simp [State.setReader]

/-- Nobody disturbing, the rest of the words is copied. -/
theorem copy_rest {r : ρ} {left e c n : Nat} {words : List W}
    (hr : s.readers r = .copy left e c words) (hlen : words.length + n = k)
    (hwords : words = (List.ofFn s.data).take words.length) :
    Relation.ReflTransGen (ReadStep r) s (s.setReader r (.copy left e c (List.ofFn s.data))) := by
  induction n generalizing s words with
  | zero =>
    have hfull : words = List.ofFn s.data := by
      rw [hwords]
      exact take_of_length_le (by simp; omega)
    rw [setReader_self (hfull ▸ hr)]
  | succ n ih =>
    have hlt : words.length < k := by omega
    have hnext := take_ofFn_succ s.data ⟨words.length, hlt⟩
    have hstep : ReadStep r s (s.setReader r (.copy left e c
        (words ++ [s.data ⟨words.length, hlt⟩]))) :=
      ⟨.copyWord r, rfl, .copyWord ⟨words.length, hlt⟩ hr rfl⟩
    have hrest := ih (setReader_readers s r _) (by simp; omega)
      (show words ++ [s.data ⟨words.length, hlt⟩] = (List.ofFn s.data).take _ by
        rw [length_append, length_singleton, ← hnext, ← hwords])
    rw [setReader_setReader] at hrest
    exact .head hstep hrest

theorem solo_read {r : ρ} {left : Nat} (hr : s.readers r = .before left) (he : s.seq % 2 = 0) :
    Relation.ReflTransGen (ReadStep r) s (s.setReader r (.returned s.seq (List.ofFn s.data))) := by
  have hbef : ReadStep r s (s.setReader r (.copySeq left s.seq)) := by
    refine ⟨.readBefore r, rfl, ?_⟩
    have := Step.readBefore hr
    rwa [if_neg (by omega)] at this
  have hseq : ReadStep r (s.setReader r (.copySeq left s.seq))
      (s.setReader r (.copy left s.seq s.seq [])) := by
    refine ⟨.copySeq r, rfl, ?_⟩
    rw [← setReader_setReader s r (.copySeq left s.seq) (.copy left s.seq s.seq [])]
    exact .copySeq (setReader_readers s r _)
  have hcopy := copy_rest (setReader_readers s r (.copy left s.seq s.seq [])) (Nat.zero_add k) rfl
  rw [setReader_setReader] at hcopy
  have hafter : ReadStep r (s.setReader r (.copy left s.seq s.seq (List.ofFn s.data)))
      (s.setReader r (.returned s.seq (List.ofFn s.data))) := by
    have hcheck := Step.readAfter (setReader_readers s r (.copy left s.seq s.seq (List.ofFn s.data)))
      (by simp)
    have hsame : s.seq = (s.setReader r (.copy left s.seq s.seq (List.ofFn s.data))).seq := rfl
    rw [if_pos hsame] at hcheck
    refine ⟨.readAfter r, rfl, ?_⟩
    rw [← setReader_setReader s r (.copy left s.seq s.seq (List.ofFn s.data))
      (.returned s.seq (List.ofFn s.data))]
    exact hcheck
  exact .head hbef (.head hseq (hcopy.tail hafter))

end Solo

end Seqlock

end OmniRealtime
