import Mathlib

/-!
# The request-to-token table

`kv_layout.py`: the row of a live request holds its encoder slots, then its decoder slots,
then zeros. A layout is read with the committed lengths and installed without moving any
KV tensor. Arguments the types exclude (a table that is not 2-D, a slot that is not an
integer, a negative length) are left out.

1. `MossVLRealtimeKVLayout.make_eq_ok`: which slots make a layout.
2. `ReqToToken.read_eq_ok`: a layout is read exactly from a row that holds it.
3. `ReqToToken.row_write_self`, `ReqToToken.row_write_of_ne`: what a write leaves behind.
-/

namespace OmniRealtime

open List

/-! ## Steps that may raise -/

theorem bind_eq_ok {ε α β : Type} {x : Except ε α} {f : α → Except ε β} {b : β} :
    (x >>= f) = .ok b ↔ ∃ a, x = .ok a ∧ f a = .ok b := by
  cases x with
  | error e | ok a => simp [bind, Except.bind]

theorem map_eq_ok {ε α β : Type} {x : Except ε α} {f : α → β} {b : β} :
    x.map f = .ok b ↔ ∃ a, x = .ok a ∧ f a = b := by
  cases x with
  | error e | ok a => simp [Except.map]

theorem raisedAs_eq_ok {ε ε' α : Type} {x : Except ε α} {wrap : ε → ε'} {a : α} :
    x.mapError wrap = .ok a ↔ x = .ok a := by
  cases x with
  | error e => constructor <;> intro h <;> cases h
  | ok b => constructor <;> intro h <;> cases h <;> rfl

/-! ## Layouts -/

/-- Why a layout is refused, or a row not read or written. -/
inductive KvLayoutError
  | notPositive (name : String)
  | duplicates (name : String)
  | overlap
  | rowOutside
  | doesNotFit
  deriving DecidableEq, Repr

def KvLayoutError.message : KvLayoutError → String
  | .notPositive name => s!"{name} must contain positive KV slot IDs"
  | .duplicates name => s!"{name} contains duplicate KV slot IDs"
  | .overlap => "encoder and decoder slots must not overlap"
  | .rowOutside => "req_pool_index is outside req_to_token"
  | .doesNotFit => "KV layout does not fit in req_to_token row"

def slotTuple (slots : List Int) (name : String) : Except KvLayoutError (List Int) :=
  if slots.any (· ≤ 0) then .error (.notPositive name)
  else if ¬slots.Nodup then .error (.duplicates name)
  else .ok slots

theorem slotTuple_eq_ok {slots vs : List Int} {name : String} :
    slotTuple slots name = .ok vs ↔ vs = slots ∧ (∀ s ∈ slots, 0 < s) ∧ slots.Nodup := by
  unfold slotTuple
  split
  · next h =>
    obtain ⟨s, hs, hle⟩ := List.any_eq_true.1 h
    constructor
    · intro h'; cases h'
    · intro h'; exact absurd (h'.2.1 s hs) (by simpa using hle)
  · next h =>
    have hpos : ∀ s ∈ slots, 0 < s := by simpa using h
    split
    · next hd =>
      constructor
      · intro h'; cases h'
      · intro h'; exact absurd h'.2.2 hd
    · next hd =>
      constructor
      · intro h'; cases h'; exact ⟨rfl, hpos, not_not.1 hd⟩
      · rintro ⟨rfl, -, -⟩; rfl

/-- Positive slots, none twice. -/
structure SlotsOk (slots : List Int) : Prop where
  pos : ∀ s ∈ slots, 0 < s
  nodup : slots.Nodup

/-- The encoder slots of a request and the decoder slots behind them. -/
@[ext]
structure MossVLRealtimeKVLayout where
  encoderSlots : List Int
  decoderSlots : List Int
  ok : SlotsOk (encoderSlots ++ decoderSlots)

open MossVLRealtimeKVLayout

namespace MossVLRealtimeKVLayout

/-- `__post_init__`, in the order of its checks. -/
def make (encoderSlots decoderSlots : List Int) :
    Except KvLayoutError MossVLRealtimeKVLayout :=
  match he : slotTuple encoderSlots "encoder_slots" with
  | .error e => .error e
  | .ok _ =>
    match hd : slotTuple decoderSlots "decoder_slots" with
    | .error e => .error e
    | .ok _ =>
      if h : ∃ s ∈ encoderSlots, s ∈ decoderSlots then .error .overlap
      else
        .ok ⟨encoderSlots, decoderSlots, by
          obtain ⟨-, hep, hen⟩ := slotTuple_eq_ok.1 he
          obtain ⟨-, hdp, hdn⟩ := slotTuple_eq_ok.1 hd
          refine ⟨fun s hs => (List.mem_append.1 hs).elim (hep s) (hdp s), ?_⟩
          exact List.nodup_append.2
            ⟨hen, hdn, fun s hs t ht hst => h ⟨s, hs, hst ▸ ht⟩⟩⟩

/-- A layout is built from exactly the slots that are positive and distinct. -/
theorem make_eq_ok {enc dec : List Int} {l : MossVLRealtimeKVLayout} :
    make enc dec = .ok l ↔ l.encoderSlots = enc ∧ l.decoderSlots = dec := by
  constructor
  · intro h
    unfold make at h
    split at h
    · cases h
    · split at h
      · cases h
      · split at h
        · cases h
        · cases h; exact ⟨rfl, rfl⟩
  · rintro ⟨rfl, rfl⟩
    obtain ⟨hpos, hnd⟩ := l.ok
    obtain ⟨hen, hdn, hne⟩ := nodup_append.1 hnd
    have he : slotTuple l.encoderSlots "encoder_slots" = .ok l.encoderSlots :=
      slotTuple_eq_ok.2 ⟨rfl, fun s hs => hpos s (mem_append_left _ hs), hen⟩
    have hd : slotTuple l.decoderSlots "decoder_slots" = .ok l.decoderSlots :=
      slotTuple_eq_ok.2 ⟨rfl, fun s hs => hpos s (mem_append_right _ hs), hdn⟩
    unfold make
    split
    · next heq => rw [he] at heq; cases heq
    · split
      · next heq => rw [hd] at heq; cases heq
      · split
        · next h =>
          obtain ⟨s, hs, hs'⟩ := h
          exact absurd rfl (hne s hs s hs')
        · rfl

theorem make_of_ok {enc dec : List Int} (h : SlotsOk (enc ++ dec)) :
    make enc dec = .ok ⟨enc, dec, h⟩ :=
  make_eq_ok.2 ⟨rfl, rfl⟩

variable (l : MossVLRealtimeKVLayout)

def encoderLength : Nat := l.encoderSlots.length

def decoderLength : Nat := l.decoderSlots.length

def totalLength : Nat := l.encoderLength + l.decoderLength

def asTuple : List Int := l.encoderSlots ++ l.decoderSlots

@[simp]
theorem length_asTuple : l.asTuple.length = l.totalLength := by
  simp [asTuple, totalLength, encoderLength, decoderLength]

def appendEncoder (slots : List Int) : Except KvLayoutError MossVLRealtimeKVLayout := do
  let newSlots ← slotTuple slots "new encoder slots"
  make (l.encoderSlots ++ newSlots) l.decoderSlots

def appendDecoder (slots : List Int) : Except KvLayoutError MossVLRealtimeKVLayout := do
  let newSlots ← slotTuple slots "new decoder slots"
  make l.encoderSlots (l.decoderSlots ++ newSlots)

variable {l}

/-- New slots pass where the layout with them is one. -/
theorem bind_make_eq_ok {slots : List Int} {field : String} {l' : MossVLRealtimeKVLayout}
    (f g : List Int → List Int) (hsls : slots.Sublist (f slots ++ g slots)) :
    (slotTuple slots field >>= fun vs => make (f vs) (g vs)) = .ok l' ↔
      l'.encoderSlots = f slots ∧ l'.decoderSlots = g slots := by
  rw [bind_eq_ok]
  constructor
  · rintro ⟨vs, hvs, hmake⟩
    obtain ⟨rfl, -, -⟩ := slotTuple_eq_ok.1 hvs
    exact make_eq_ok.1 hmake
  · rintro ⟨henc, hdec⟩
    obtain ⟨hpos, hnd⟩ := l'.ok
    rw [henc, hdec] at hpos hnd
    have hnew : slotTuple slots field = .ok slots :=
      slotTuple_eq_ok.2 ⟨rfl, fun s hs => hpos s (hsls.subset hs), hnd.sublist hsls⟩
    exact ⟨slots, hnew, make_eq_ok.2 ⟨henc, hdec⟩⟩

theorem appendEncoder_eq_ok {slots : List Int} {l' : MossVLRealtimeKVLayout} :
    l.appendEncoder slots = .ok l' ↔
      l'.encoderSlots = l.encoderSlots ++ slots ∧ l'.decoderSlots = l.decoderSlots :=
  bind_make_eq_ok (l.encoderSlots ++ ·) (fun _ => l.decoderSlots)
    ((sublist_append_right _ _).trans (sublist_append_left _ _))

theorem appendDecoder_eq_ok {slots : List Int} {l' : MossVLRealtimeKVLayout} :
    l.appendDecoder slots = .ok l' ↔
      l'.encoderSlots = l.encoderSlots ∧ l'.decoderSlots = l.decoderSlots ++ slots :=
  bind_make_eq_ok (fun _ => l.encoderSlots) (l.decoderSlots ++ ·)
    ((sublist_append_right _ _).trans (sublist_append_right _ _))

end MossVLRealtimeKVLayout

/-! ## The table -/

/-- `req_to_token`: one row for each request, all of one width. -/
structure ReqToToken where
  width : Nat
  rows : List (List Int)
  row_length : ∀ row ∈ rows, row.length = width

open ReqToToken

namespace ReqToToken

variable (t : ReqToToken) (i : Nat)

def row : List Int := t.rows.getD i []

theorem length_row (hi : i < t.rows.length) : (t.row i).length = t.width := by
  unfold row
  rw [getD_eq_getElem _ _ hi]
  exact t.row_length _ (getElem_mem hi)

def validateRowArguments (totalLength : Nat) : Except KvLayoutError Unit :=
  if t.rows.length ≤ i then .error .rowOutside
  else if t.width < totalLength then .error .doesNotFit
  else .ok ()

/-- `read_req_to_token_layout`. -/
def read (encoderLength decoderLength : Nat) :
    Except KvLayoutError MossVLRealtimeKVLayout := do
  t.validateRowArguments i (encoderLength + decoderLength)
  MossVLRealtimeKVLayout.make ((t.row i).take encoderLength)
    (((t.row i).drop encoderLength).take decoderLength)

/-- What a row holds once a layout is written over it. -/
def rowAfter (l : MossVLRealtimeKVLayout) (clearTail : Bool) (old : List Int) : List Int :=
  l.asTuple ++
    if clearTail then List.replicate (old.length - l.totalLength) 0
    else old.drop l.totalLength

/-- `write_req_to_token_layout`. -/
def write (l : MossVLRealtimeKVLayout) (clearTail : Bool) : Except KvLayoutError ReqToToken :=
  if hi : t.rows.length ≤ i then .error .rowOutside
  else if hw : t.width < l.totalLength then .error .doesNotFit
  else
    .ok { t with
      rows := t.rows.set i (rowAfter l clearTail (t.row i))
      row_length := by
        intro row hrow
        rcases List.mem_or_eq_of_mem_set hrow with h | rfl
        · exact t.row_length row h
        · have hold := t.length_row i (Nat.lt_of_not_le hi)
          unfold rowAfter
          split <;> simp [hold] <;> omega }

variable {t i}

theorem validateRowArguments_eq_ok {n : Nat} :
    t.validateRowArguments i n = .ok () ↔ i < t.rows.length ∧ n ≤ t.width := by
  unfold validateRowArguments
  split
  · simp; omega
  · split <;> simp <;> omega

theorem read_eq_ok {enc dec : Nat} {l : MossVLRealtimeKVLayout} :
    t.read i enc dec = .ok l ↔ i < t.rows.length ∧ enc + dec ≤ t.width ∧ l.encoderLength = enc ∧
        l.decoderLength = dec ∧ (t.row i).take (enc + dec) = l.asTuple := by
  have hread : t.read i enc dec = .ok l ↔ t.validateRowArguments i (enc + dec) = .ok () ∧
        make ((t.row i).take enc) (((t.row i).drop enc).take dec) =
          .ok l := by
    unfold read
    rw [bind_eq_ok]
    exact ⟨fun ⟨_, h⟩ => h, fun h => ⟨(), h⟩⟩
  rw [hread, validateRowArguments_eq_ok, make_eq_ok]
  constructor
  · rintro ⟨⟨hi, hw⟩, he, hd⟩
    have hrow := t.length_row i hi
    refine ⟨hi, hw, ?_, ?_, ?_⟩
    · rw [encoderLength, he, length_take]; omega
    · rw [decoderLength, hd, length_take, length_drop]; omega
    · rw [asTuple, he, hd, take_add]
  · rintro ⟨hi, hw, rfl, rfl, hrow⟩
    have htake : (t.row i).take l.encoderLength = l.encoderSlots := by
      have h := congrArg (List.take l.encoderLength) hrow
      rw [take_take, Nat.min_eq_left (Nat.le_add_right _ _)] at h
      rw [h, asTuple]
      exact take_left
    refine ⟨⟨hi, hw⟩, htake.symm, ?_⟩
    rw [take_add, htake, asTuple] at hrow
    exact (append_cancel_left hrow).symm

theorem write_eq_ok {l : MossVLRealtimeKVLayout} {clear : Bool} {t' : ReqToToken}
    (h : t.write i l clear = .ok t') :
    i < t.rows.length ∧ l.totalLength ≤ t.width ∧ t'.width = t.width ∧
      t'.rows = t.rows.set i (rowAfter l clear (t.row i)) := by
  unfold write at h
  split at h
  · cases h
  · split at h
    · cases h
    · cases h; exact ⟨by omega, by omega, rfl, rfl⟩

theorem exists_write {l : MossVLRealtimeKVLayout} (clear : Bool) (hi : i < t.rows.length)
    (hw : l.totalLength ≤ t.width) : ∃ t', t.write i l clear = .ok t' := by
  unfold write
  rw [dif_neg (by omega), dif_neg (by omega)]
  exact ⟨_, rfl⟩

theorem row_write_self {l : MossVLRealtimeKVLayout} {clear : Bool} {t' : ReqToToken}
    (h : t.write i l clear = .ok t') : t'.row i = rowAfter l clear (t.row i) := by
  obtain ⟨hi, -, -, hr⟩ := write_eq_ok h
  unfold row
  rw [hr, getD_eq_getElem _ _ (by simpa using hi), getElem_set_self]
  rfl

theorem row_write_of_ne {l : MossVLRealtimeKVLayout} {clear : Bool} {t' : ReqToToken} {j : Nat}
    (h : t.write i l clear = .ok t') (hj : j ≠ i) : t'.row j = t.row j := by
  obtain ⟨-, -, -, hr⟩ := write_eq_ok h
  unfold ReqToToken.row
  rw [hr, getD_eq_getElem?_getD, getD_eq_getElem?_getD, getElem?_set_ne (Ne.symm hj)]

theorem row_write_clear {l : MossVLRealtimeKVLayout} {t' : ReqToToken}
    (h : t.write i l true = .ok t') :
    t'.row i = l.asTuple ++ List.replicate (t.width - l.totalLength) 0 := by
  rw [row_write_self h, rowAfter, if_pos rfl, t.length_row i (write_eq_ok h).1]

theorem read_write {l : MossVLRealtimeKVLayout} {clear : Bool} {t' : ReqToToken}
    (h : t.write i l clear = .ok t') :
    t'.read i l.encoderLength l.decoderLength = .ok l := by
  obtain ⟨hi, hw, hwd, hr⟩ := write_eq_ok h
  refine read_eq_ok.2 ⟨by rw [hr]; simpa using hi, by rw [hwd]; exact hw, rfl, rfl, ?_⟩
  rw [row_write_self h, rowAfter]
  have hlen : l.encoderLength + l.decoderLength = l.asTuple.length := by
    rw [length_asTuple]; rfl
  rw [hlen]
  exact take_left

theorem length_rows_write {l : MossVLRealtimeKVLayout} {clear : Bool} {t' : ReqToToken}
    (h : t.write i l clear = .ok t') : t'.rows.length = t.rows.length := by
  obtain ⟨-, -, -, hr⟩ := write_eq_ok h
  rw [hr, List.length_set]

/-- `write_req_to_token_layout`, call after call. -/
def writeAll (writes : List (Nat × MossVLRealtimeKVLayout × Bool)) (t : ReqToToken) :
    Except KvLayoutError ReqToToken :=
  writes.foldlM (fun t w => t.write w.1 w.2.1 w.2.2) t

theorem writeAll_frame {writes : List (Nat × MossVLRealtimeKVLayout × Bool)} {t' : ReqToToken}
    (h : t.writeAll writes = .ok t') :
    t'.width = t.width ∧ t'.rows.length = t.rows.length ∧
      ∀ j, (∀ w ∈ writes, w.1 ≠ j) → t'.row j = t.row j := by
  induction writes generalizing t with
  | nil =>
    cases h
    exact ⟨rfl, rfl, fun _ _ => rfl⟩
  | cons w rest ih =>
    rw [writeAll, List.foldlM_cons, bind_eq_ok] at h
    obtain ⟨t₁, hwrite, hrest⟩ := h
    obtain ⟨hwidth, hlength, hrow⟩ := ih hrest
    refine ⟨hwidth.trans (write_eq_ok hwrite).2.2.1, hlength.trans (length_rows_write hwrite), ?_⟩
    intro j hj
    rw [hrow j fun v hv => hj v (mem_cons_of_mem _ hv),
      row_write_of_ne hwrite (hj w mem_cons_self).symm]

/-- Whatever is written before and to other rows after it, the last layout of a row is read back,
    with zeros behind it when the tail was cleared; a row that is not written stays. -/
theorem read_writeAll {before later : List (Nat × MossVLRealtimeKVLayout × Bool)}
    {l : MossVLRealtimeKVLayout} {clear : Bool} {t' : ReqToToken}
    (h : t.writeAll (before ++ (i, l, clear) :: later) = .ok t') (hlater : ∀ w ∈ later, w.1 ≠ i) :
    t'.read i l.encoderLength l.decoderLength = .ok l ∧
      (clear = true → t'.row i = l.asTuple ++ List.replicate (t.width - l.totalLength) 0) ∧
      ∀ j ≠ i, (∀ w ∈ before ++ later, w.1 ≠ j) → t'.row j = t.row j := by
  have hframe := (writeAll_frame h).2.2
  rw [writeAll, List.foldlM_append, bind_eq_ok] at h
  obtain ⟨t₁, hbefore, h⟩ := h
  rw [List.foldlM_cons, bind_eq_ok] at h
  obtain ⟨t₂, hwrite, hrest⟩ := h
  obtain ⟨hwidth, hlength, hrow⟩ := writeAll_frame hrest
  have hsame : t'.row i = t₂.row i := hrow i hlater
  refine ⟨?_, fun hclear => ?_, fun j hj hother => hframe j fun w hw => ?_⟩
  · obtain ⟨hi, hroom, -, -, htake⟩ := read_eq_ok.1 (read_write hwrite)
    exact read_eq_ok.2 ⟨hlength ▸ hi, hwidth ▸ hroom, rfl, rfl, hsame ▸ htake⟩
  · subst hclear
    rw [hsame, row_write_clear hwrite, (writeAll_frame hbefore).1]
  · rcases mem_append.1 hw with hw | hw
    · exact hother w (mem_append_left _ hw)
    · rcases mem_cons.1 hw with rfl | hw
      · exact hj.symm
      · exact hother w (mem_append_right _ hw)

/-- A layout of two slots and one of a single slot, over a table of two rows. -/
def exTwo : MossVLRealtimeKVLayout := ⟨[7], [5], ⟨by decide, by decide⟩⟩

def exOne : MossVLRealtimeKVLayout := ⟨[3], [], ⟨by decide, by decide⟩⟩

def exTable : ReqToToken := ⟨2, [[0, 0], [0, 0]], by decide⟩

theorem read_writeAll_two :
    ∃ t', exTable.writeAll [(0, exTwo, true), (1, exTwo, true), (0, exOne, true),
        (1, exOne, false)] = .ok t' ∧
      t'.read 0 1 0 = .ok exOne ∧ t'.row 0 = [3, 0] ∧ t'.row 1 = [3, 5] := by
  have hwrites : exTable.writeAll ([(0, exTwo, true), (1, exTwo, true)] ++
      (0, exOne, true) :: [(1, exOne, false)]) = .ok ⟨2, [[3, 0], [3, 5]], by decide⟩ := rfl
  obtain ⟨hread, hclear, -⟩ := read_writeAll hwrites (by decide)
  exact ⟨_, hwrites, hread, hclear rfl, rfl⟩

/-- `req_to_token[i, lo:hi] = 0`. -/
def zeroRange (t : ReqToToken) (i lo hi : Nat) : ReqToToken :=
  { t with
    rows := t.rows.modify i fun row => row.mapIdx fun k v => if lo ≤ k ∧ k < hi then 0 else v
    row_length := by
      intro row hrow
      obtain ⟨j, hj, rfl⟩ := List.getElem_of_mem hrow
      rw [List.getElem_modify]
      rw [List.length_modify] at hj
      split
      · rw [List.length_mapIdx]
        exact t.row_length _ (List.getElem_mem hj)
      · exact t.row_length _ (List.getElem_mem hj) }

@[ext]
theorem ext {t t' : ReqToToken} (hwd : t.width = t'.width) (hr : t.rows = t'.rows) :
    t = t' := by
  cases t
  cases t'
  cases hwd
  cases hr
  rfl

theorem rowAfter_clear (l : MossVLRealtimeKVLayout) {old : List Int} {width : Nat}
    (h : old.length = width) :
    (rowAfter l false old).mapIdx
        (fun k v => if l.totalLength ≤ k ∧ k < width then 0 else v) = rowAfter l true old := by
  unfold rowAfter
  rw [if_neg Bool.false_ne_true, if_pos rfl, mapIdx_append]
  congr 1
  · refine ext_getElem (by simp) fun k hk hk' => ?_
    rw [getElem_mapIdx, if_neg]
    rw [length_asTuple] at hk'
    omega
  · refine ext_getElem (by simp) fun k hk hk' => ?_
    rw [getElem_mapIdx, getElem_replicate, if_pos]
    rw [length_asTuple]
    rw [length_replicate] at hk'
    omega

/-- A layout written and the rest of its row zeroed is the layout written with its tail
    cleared. -/
theorem write_then_zero (t : ReqToToken) (i : Nat) (l : MossVLRealtimeKVLayout) :
    t.write i l true = (t.write i l false).map fun t' => t'.zeroRange i l.totalLength t'.width := by
  unfold write
  split
  · rfl
  · next hi =>
    have hlt : i < t.rows.length := Nat.lt_of_not_le hi
    split
    · rfl
    · refine congrArg Except.ok (ReqToToken.ext rfl ?_)
      show t.rows.set i _ = (t.rows.set i _).modify i _
      rw [modify_eq_set_getElem?, getElem?_set_self hlt]
      show _ = (t.rows.set i _).set i _
      rw [set_set, rowAfter_clear l (t.length_row i hlt)]

theorem row_zeroRange_self (t : ReqToToken) (i lo hi : Nat) :
    (t.zeroRange i lo hi).row i = (t.row i).mapIdx fun k v => if lo ≤ k ∧ k < hi then 0 else v := by
  unfold ReqToToken.row
  show (t.rows.modify i _).getD i [] = _
  rw [getD_eq_getElem?_getD, getD_eq_getElem?_getD, getElem?_modify_eq]
  cases t.rows[i]? with
  | none => rfl
  | some row => rfl

theorem row_zeroRange_of_ne (t : ReqToToken) {i j : Nat} (lo hi : Nat) (h : j ≠ i) :
    (t.zeroRange i lo hi).row j = t.row j := by
  unfold row
  show (t.rows.modify i _).getD j [] = _
  rw [getD_eq_getElem?_getD, getD_eq_getElem?_getD, getElem?_modify_ne _ _ (Ne.symm h)]

end ReqToToken

end OmniRealtime
