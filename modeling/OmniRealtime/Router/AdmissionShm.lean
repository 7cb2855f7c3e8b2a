import OmniRealtime.Lib.Seqlock

/-!
# Admission slots in shared memory

`admission_shm.py`: one slot per data plane in a file every process maps. `SlotCodec`
reads and writes a slot under a seqlock, over its words (`Lib/Seqlock`): the sequence
word, six fields and one word of padding. The owner of a slot may die at any moment;
the supervisor then reclaims the slot, and a new owner may be spawned.

1. `SlotView.ofWords_words`: the words of a slot decode to its fields.
2. `SlotInv.step`: the completed writes of the seqlock are the publishes and reclaims.
3. `slot_read_untorn`: a successful read returns the fields of one completed publish or
   reclaim, or of the slot file as created.
4. `slot_read_before_publish`: the last alternative does occur.
-/

namespace OmniRealtime

open Seqlock

/-! ## The layout of a slot -/

/-- The fields of a slot; `τ` is the type of clock readings. -/
structure SlotFields (τ : Type) where
  inflight : Int
  peakSum : Int
  rejectedTotal : Int
  generation : Int
  pid : Int
  heartbeatTs : τ
  deriving DecidableEq, Repr

structure SlotView (τ : Type) where
  seq : Nat
  fields : SlotFields τ
  deriving DecidableEq, Repr

/-- A word of a slot: `q` or `d` in the `struct` format. -/
inductive SlotWord (τ : Type)
  | q (value : Int)
  | d (value : τ)
  deriving DecidableEq, Repr

/-- The words of `_FIELDS_FORMAT`. -/
abbrev slotWords : Nat := 7

variable {τ ρ : Type}

/-- The words `write_fields` packs, with the padding. -/
def SlotFields.words (f : SlotFields τ) : Fin slotWords → SlotWord τ :=
  ![.q f.inflight, .q f.peakSum, .q f.rejectedTotal, .q f.generation, .q f.pid,
    .d f.heartbeatTs, .q 0]

/-- `SlotView(*fields[:7])`. -/
def SlotView.ofWords (seq : Nat) : List (SlotWord τ) → Option (SlotView τ)
  | [.q inflight, .q peakSum, .q rejectedTotal, .q generation, .q pid, .d heartbeatTs, _] =>
    some ⟨seq, ⟨inflight, peakSum, rejectedTotal, generation, pid, heartbeatTs⟩⟩
  | _ => none

/-- A slot of zero bytes, as `create_admission_file` writes it; `zeroTs` is the clock
    reading of a zero word. -/
def SlotFields.zero (zeroTs : τ) : SlotFields τ := ⟨0, 0, 0, 0, 0, zeroTs⟩

/-- `_READ_SPIN_LIMIT` attempts, and `_READ_BACKOFF_LIMIT` more for a read that may
    sleep. -/
def readBudget (failFast : Bool) : Nat := if failFast then 1000 else 1000 + 20000

theorem SlotView.ofWords_words (seq : Nat) (f : SlotFields τ) :
    SlotView.ofWords seq (List.ofFn f.words) = some ⟨seq, f⟩ := rfl

/-! ## The life of a slot -/

/-- A call of `write`: by the owner, or by the supervisor in `reclaim`. -/
inductive SlotWrite (τ : Type)
  | publish (fields : SlotFields τ)
  | reclaim (now : τ)
  deriving DecidableEq, Repr

def SlotWrite.fields : SlotWrite τ → SlotFields τ
  | .publish fields => fields
  | .reclaim now => ⟨0, 0, 0, 0, 0, now⟩

/-- Whether the owner, and not the supervisor, makes the call. -/
def SlotWrite.byOwner : SlotWrite τ → Bool
  | .publish _ => true
  | .reclaim _ => false

/-- The words of a slot, its owner, the call of `write` under way and those completed. -/
structure SlotState (τ ρ : Type) where
  mem : Seqlock.State (SlotWord τ) slotWords ρ
  ownerAlive : Bool
  writing : Option (SlotWrite τ)
  completed : List (SlotWrite τ)

inductive SlotAct (τ ρ : Type)
  | write (w : SlotWrite τ)
  | word
  | finish
  | ownerDies
  | spawn
  | read (a : Seqlock.Act (SlotWord τ) slotWords ρ)

/-- The word operations of a `write` call before its last one. -/
def Seqlock.Act.isInnerStore : Seqlock.Act (SlotWord τ) slotWords ρ → Prop
  | .loadSeq | .storeMarker | .storeWord => True
  | _ => False

/-- A word operation of some reader. -/
def Seqlock.Act.isRead : Seqlock.Act (SlotWord τ) slotWords ρ → Prop
  | .beginRead _ b => b = readBudget true ∨ b = readBudget false
  | .readBefore _ | .copySeq _ | .copyWord _ | .readAfter _ => True
  | _ => False

/-- `SlotStep s a t`:

* `write`: the living owner publishes, or the supervisor reclaims after reaping it;
* `word`, `finish`: the next word operation of the call under way;
* `ownerDies`: at any moment, in the middle of a call too;
* `spawn`: the supervisor starts a new owner;
* `read`: a word operation of a reader. -/
inductive SlotStep [DecidableEq ρ] : SlotState τ ρ → SlotAct τ ρ → SlotState τ ρ → Prop
  | write {s : SlotState τ ρ} {mem' : Seqlock.State (SlotWord τ) slotWords ρ} (w : SlotWrite τ) :
      s.writing = none → s.ownerAlive = w.byOwner →
      Seqlock.Step s.mem (.call w.fields.words) mem' →
      SlotStep s (.write w) { s with mem := mem', writing := some w }
  | word {s : SlotState τ ρ} {mem' : Seqlock.State (SlotWord τ) slotWords ρ}
      {a : Seqlock.Act (SlotWord τ) slotWords ρ} :
      a.isInnerStore → Seqlock.Step s.mem a mem' → SlotStep s .word { s with mem := mem' }
  | finish {s : SlotState τ ρ} {mem' : Seqlock.State (SlotWord τ) slotWords ρ}
      {w : SlotWrite τ} :
      s.writing = some w → Seqlock.Step s.mem .storeEnd mem' →
      SlotStep s .finish
        { s with mem := mem', writing := none, completed := w :: s.completed }
  | diesIdle {s : SlotState τ ρ} : s.ownerAlive = true → s.writing = none →
      SlotStep s .ownerDies { s with ownerAlive := false }
  | diesWriting {s : SlotState τ ρ} {mem' : Seqlock.State (SlotWord τ) slotWords ρ}
      {w : SlotWrite τ} :
      s.ownerAlive = true → s.writing = some w → Seqlock.Step s.mem .abandon mem' →
      SlotStep s .ownerDies { s with mem := mem', ownerAlive := false, writing := none }
  | spawn {s : SlotState τ ρ} : s.ownerAlive = false → s.writing = none →
      SlotStep s .spawn { s with ownerAlive := true }
  | read {s : SlotState τ ρ} {mem' : Seqlock.State (SlotWord τ) slotWords ρ}
      {a : Seqlock.Act (SlotWord τ) slotWords ρ} :
      a.isRead → Seqlock.Step s.mem a mem' → SlotStep s (.read a) { s with mem := mem' }

/-- The slot file as created; no data plane runs yet. -/
def SlotState.initial (zeroTs : τ) : SlotState τ ρ where
  mem := .initial (SlotFields.zero zeroTs).words
  ownerAlive := false
  writing := none
  completed := []

def slotSystem [DecidableEq ρ] (zeroTs : τ) : System (SlotState τ ρ) (SlotAct τ ρ) where
  init s := s = SlotState.initial zeroTs
  step := SlotStep

/-- The fields of the last completed write, or of the file as created. -/
def SlotState.current (zeroTs : τ) (s : SlotState τ ρ) : SlotFields τ :=
  (s.completed.map SlotWrite.fields).headD (SlotFields.zero zeroTs)

/-! ## The seqlock under the slot -/

/-- The contents a seqlock write is storing. -/
def Seqlock.Writer.contents {W : Type} {k : Nat} : Seqlock.Writer W k → Fin k → W
  | .called v => v
  | .marking v _ => v
  | .storing v _ _ => v

/-- The completed writes of the seqlock are the completed calls, and its write under way
    is the call under way. -/
structure SlotInv [DecidableEq ρ] (zeroTs : τ) (s : SlotState τ ρ) : Prop where
  reachable : (Seqlock.system (SlotFields.zero zeroTs).words).Reachable s.mem
  completed : s.mem.completed = s.completed.map fun w => w.fields.words
  writing : ∀ x, s.mem.writer = some x → ∃ w, s.writing = some w ∧ x.contents = w.fields.words

section Slot

variable [DecidableEq ρ] {zeroTs : τ} {s t : SlotState τ ρ}
  {m m' : Seqlock.State (SlotWord τ) slotWords ρ} {a : Seqlock.Act (SlotWord τ) slotWords ρ}

theorem inner_store_keeps (ha : a.isInnerStore) (h : Step m a m') :
    m'.completed = m.completed ∧ ∀ x, m'.writer = some x →
      ∃ y, m.writer = some y ∧ x.contents = y.contents := by
  cases h with
  | loadSeq hw | storeMarker hw | storeWord i hw =>
    exact ⟨rfl, fun x hx => ⟨_, hw, by cases hx; rfl⟩⟩
  | call | storeEnd | abandon | beginRead | readBefore | copySeq | copyWord | readAfter =>
    exact ha.elim

theorem read_keeps (ha : a.isRead) (h : Step m a m') :
    m'.completed = m.completed ∧ m'.writer = m.writer := by
  cases h with
  | beginRead | readBefore | copySeq | copyWord | readAfter => exact ⟨rfl, rfl⟩
  | call | loadSeq | storeMarker | storeWord | storeEnd | abandon => exact ha.elim

theorem SlotInv.step {a : SlotAct τ ρ} (hI : SlotInv zeroTs s) (h : SlotStep s a t) :
    SlotInv zeroTs t := by
  cases h with
  | write w _ _ hmem =>
    refine ⟨hI.reachable.step hmem, ?_, ?_⟩
    · cases hmem
      exact hI.completed
    · cases hmem
      rintro x ⟨⟩
      exact ⟨w, rfl, rfl⟩
  | word ha hmem =>
    obtain ⟨hcmp, hwriter⟩ := inner_store_keeps ha hmem
    refine ⟨hI.reachable.step hmem, hcmp.trans hI.completed, fun x hx => ?_⟩
    obtain ⟨y, hy, hcontents⟩ := hwriter x hx
    obtain ⟨w, hw, hyw⟩ := hI.writing y hy
    exact ⟨w, hw, hcontents.trans hyw⟩
  | @finish mem' w hw hmem =>
    have hreach := hI.reachable.step hmem
    cases hmem with
    | @storeEnd v m hstoring =>
      obtain ⟨w', hw', hcontents⟩ := hI.writing _ hstoring
      obtain rfl : w = w' := Option.some.inj (hw.symm.trans hw')
      have hv : v = w.fields.words := hcontents
      refine ⟨hreach, ?_, ?_⟩
      · simp [hI.completed, hv]
      · rintro x ⟨⟩
  | diesIdle _ hnone | spawn _ hnone => exact ⟨hI.reachable, hI.completed, hI.writing⟩
  | diesWriting _ _ hmem =>
    refine ⟨hI.reachable.step hmem, ?_, ?_⟩
    · cases hmem
      exact hI.completed
    · cases hmem
      rintro x ⟨⟩
  | read ha hmem =>
    obtain ⟨hcmp, hwriter⟩ := read_keeps ha hmem
    exact ⟨hI.reachable.step hmem, hcmp.trans hI.completed,
      fun x hx => hI.writing x (hwriter ▸ hx)⟩

theorem SlotInv.of_reachable (h : (slotSystem zeroTs).Reachable s) : SlotInv zeroTs s := by
  refine h.invariant ?_ fun s a t hI hst => hI.step hst
  rintro s rfl
  exact ⟨.init rfl, rfl, by rintro x ⟨⟩⟩

theorem SlotInv.latest (hI : SlotInv zeroTs s) :
    s.mem.latest (SlotFields.zero zeroTs).words = (s.current zeroTs).words := by
  rw [State.latest, hI.completed, SlotState.current]
  cases s.completed <;> rfl

end Slot

theorem isRead_of_continues {a : Seqlock.Act (SlotWord τ) slotWords ρ} {r : ρ}
    (ha : a.continues r) : a.isRead := by
  cases a with
  | readBefore | copySeq | copyWord | readAfter => trivial
  | call | loadSeq | storeMarker | storeWord | storeEnd | abandon | beginRead => exact ha.elim

/-! ## Slot reads -/

/-- **Slot reads are never torn.** In every reachable state of a slot: a read that
    returned has the fields of one completed publish or reclaim, or those of the file as
    created; a reader's step returns a value only when the sequence is even and the value
    is the slot's current one; and a read in progress always has a next step, each of
    which uses up its budget, so that it ends by returning or failing. -/
theorem slot_read_untorn [DecidableEq ρ] {zeroTs : τ} {s : SlotState τ ρ}
    (h : (slotSystem zeroTs).Reachable s) :
    (∀ r seq words, s.mem.readers r = .returned seq words →
      ∃ f, (f = SlotFields.zero zeroTs ∨ ∃ w ∈ s.completed, w.fields = f) ∧
        SlotView.ofWords seq words = some ⟨seq, f⟩) ∧
    (∀ r a t seq words, SlotStep s (.read a) t → a.continues r →
      t.mem.readers r = .returned seq words →
        s.mem.seq % 2 = 0 ∧ seq = s.mem.seq ∧
        SlotView.ofWords seq words = some ⟨seq, s.current zeroTs⟩) ∧
    (∀ r, 0 < (s.mem.readers r).fuel slotWords →
      (∃ a t, SlotStep s (.read a) t ∧ a.continues r) ∧
      ∀ a t, SlotStep s (.read a) t → a.continues r →
        (t.mem.readers r).fuel slotWords < (s.mem.readers r).fuel slotWords) := by
  have hI := SlotInv.of_reachable h
  refine ⟨fun r seq words hr => ?_, fun r a t seq words hst ha hr => ?_, fun r hfuel => ⟨?_, ?_⟩⟩
  · obtain ⟨v, hv, rfl⟩ := returned_known hI.reachable hr
    rcases hv with rfl | hv
    · exact ⟨_, .inl rfl, SlotView.ofWords_words seq _⟩
    · rw [hI.completed] at hv
      obtain ⟨w, hw, rfl⟩ := List.mem_map.mp hv
      exact ⟨_, .inr ⟨w, hw, rfl⟩, SlotView.ofWords_words seq _⟩
  · cases hst with
    | read _ hmem =>
      obtain ⟨heven, hseq, hwords⟩ := check_latest hI.reachable hmem ha hr
      refine ⟨heven, hseq, ?_⟩
      rw [hwords, hI.latest]
      exact SlotView.ofWords_words seq _
  · obtain ⟨a, mem', hmem, ha⟩ := exists_continues hI.reachable hfuel
    exact ⟨a, _, .read (isRead_of_continues ha) hmem, ha⟩
  · intro a t hst ha
    cases hst with
    | read _ hmem => exact hmem.fuel_lt ha

/-! ## A read before the first publish -/

/-- A reader's own operations are steps of the slot. -/
theorem reachable_of_readSteps [DecidableEq ρ] {zeroTs : τ} {s : SlotState τ ρ} {r : ρ}
    {mem' : Seqlock.State (SlotWord τ) slotWords ρ} (hs : (slotSystem zeroTs).Reachable s)
    (h : Relation.ReflTransGen (ReadStep r) s.mem mem') :
    (slotSystem zeroTs).Reachable { s with mem := mem' } := by
  induction h with
  | refl => exact hs
  | tail _ hlast ih =>
    obtain ⟨a, ha, hst⟩ := hlast
    exact ih.step (SlotStep.read (isRead_of_continues ha) hst)

/-- The file as created, with a fail-fast read begun. -/
def exReading : SlotState Nat Unit where
  mem := (Seqlock.State.initial (SlotFields.zero 0).words).setReader () (.before 999)
  ownerAlive := false
  writing := none
  completed := []

theorem exReading_reachable : (slotSystem 0).Reachable exReading := by
  have hinit : (slotSystem 0).Reachable (SlotState.initial 0 : SlotState Nat Unit) := .init rfl
  refine hinit.step (l := .read (.beginRead () (readBudget true))) ?_
  exact SlotStep.read (.inl rfl) (.beginRead () (readBudget true))

theorem exReading_before : exReading.mem.readers () = .before 999 :=
  setReader_readers _ () _

/-- Without a bound on what was there at first, untorn is not enough: a read of the file
    as created returns zeros although nothing was published or reclaimed. -/
theorem slot_read_before_publish : ¬ ∀ s : SlotState Nat Unit, (slotSystem 0).Reachable s →
    ∀ r seq words, s.mem.readers r = .returned seq words →
      ∃ w ∈ s.completed, SlotView.ofWords seq words = some ⟨seq, w.fields⟩ := by
  intro h
  have hread := solo_read exReading_before rfl
  obtain ⟨w, hw, _⟩ := h _ (reachable_of_readSteps exReading_reachable hread) () _ _
    (setReader_readers _ () _)
  exact absurd hw List.not_mem_nil

/-- The theorem at the state a read of the created file ends in. -/
theorem slot_read_untorn_created : ∃ s : SlotState Nat Unit, (slotSystem 0).Reachable s ∧
    (∃ seq words, s.mem.readers () = .returned seq words) ∧
    ∀ r seq words, s.mem.readers r = .returned seq words →
      ∃ f, (f = SlotFields.zero 0 ∨ ∃ w ∈ s.completed, w.fields = f) ∧
        SlotView.ofWords seq words = some ⟨seq, f⟩ := by
  have hread := solo_read exReading_before rfl
  have hreach := reachable_of_readSteps exReading_reachable hread
  exact ⟨_, hreach, ⟨_, _, setReader_readers _ () _⟩, (slot_read_untorn hreach).1⟩

end OmniRealtime
