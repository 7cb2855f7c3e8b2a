import OmniRealtime.Comm.DirectIpcMetadata

/-!
# Payload round trip

What comes back from the codec is the value sent, exactly when the value cannot be misread.

1. `PyValue.Unambiguous`: no dict has the placeholder key, and equal paths name equal tensors.
2. `restore_extract_iff`: the skeleton gives back exactly the unambiguous values.
3. `packTensors_stored`: the packed tensors are aligned, apart and whole.
4. `payload_round_trip_iff`: the payload read is the payload written, exactly then.
-/

namespace OmniRealtime

open List Option

open ByteLayout EquivDict

variable {κ : Type}

section Leaves

variable [PyKey κ]

mutual

/-- The tensors of a value with their paths, in the order they are met. -/
def PyValue.leaves (path : κ) : PyValue κ → List (κ × Tensor)
  | .tensor t => [(path, t)]
  | .dict entries => entries.leaves path
  | .list items => items.leaves path 0
  | .tuple items => items.leaves path 0
  | .scalar _ => []

def PyEntries.leaves (path : κ) : PyEntries κ → List (κ × Tensor)
  | .nil => []
  | .cons key value rest => value.leaves (childPath path key) ++ rest.leaves path

def PyItems.leaves (path : κ) : PyItems κ → ℕ → List (κ × Tensor)
  | .nil, _ => []
  | .cons value rest, idx => value.leaves (indexPath path idx) ++ rest.leaves path (idx + 1)

end

mutual

/-- No dict of the value has the key of a placeholder. -/
def PyValue.Unmarked : PyValue κ → Prop
  | .dict entries => entries.get placeholderKey = none ∧ entries.Unmarked
  | .list items => items.Unmarked
  | .tuple items => items.Unmarked
  | .tensor _ | .scalar _ => True

def PyEntries.Unmarked : PyEntries κ → Prop
  | .nil => True
  | .cons _ value rest => value.Unmarked ∧ rest.Unmarked

def PyItems.Unmarked : PyItems κ → Prop
  | .nil => True
  | .cons value rest => value.Unmarked ∧ rest.Unmarked

end

/-- Nothing in the value reads as a placeholder, and no path names two tensors. -/
structure PyValue.Unambiguous (obj : PyValue κ) : Prop where
  unmarked : obj.Unmarked
  apart : ∀ a ∈ obj.leaves rootPath, ∀ b ∈ obj.leaves rootPath, (a.1 == b.1) = true → a.2 = b.2

/-- Every tensor has a dtype of the reader's table. -/
def PyValue.Readable (obj : PyValue κ) : Prop :=
  ∀ a ∈ obj.leaves rootPath, a.2.dtype ∈ TORCH_DTYPES

end Leaves

section Extracted

variable [PyKey κ]

mutual

theorem PyValue.distinct_extractTensors (path : κ) (obj : PyValue κ) :
    (obj.extractTensors path).2.Distinct := by
  cases obj with
  | tensor t => exact pairwise_singleton _ _
  | dict entries => exact entries.distinct_extractTensors path List.Pairwise.nil
  | list items | tuple items => exact items.distinct_extractTensors path 0 List.Pairwise.nil
  | scalar a => exact List.Pairwise.nil

theorem PyEntries.distinct_extractTensors (path : κ) (entries : PyEntries κ)
    {tensors : EquivDict κ Tensor} (h : tensors.Distinct) :
    (entries.extractTensors path tensors).2.Distinct := by
  cases entries with
  | nil => exact h
  | cons key value rest =>
    exact rest.distinct_extractTensors path (distinct_update h _)

theorem PyItems.distinct_extractTensors (path : κ) (items : PyItems κ) (idx : ℕ)
    {tensors : EquivDict κ Tensor} (h : tensors.Distinct) :
    (items.extractTensors path idx tensors).2.Distinct := by
  cases items with
  | nil => exact h
  | cons value rest =>
    exact rest.distinct_extractTensors path (idx + 1) (distinct_update h _)

end

/-- The dict answers every path of `leaves`, and only with tensors found there. -/
structure Holds (tensors : EquivDict κ Tensor) (leaves : List (κ × Tensor)) : Prop where
  sound : ∀ k t, tensors.get k = some t → ∃ a ∈ leaves, a.2 = t ∧ (k == a.1) = true
  present : ∀ a ∈ leaves, (tensors.get a.1).isSome = true

theorem Holds.update {d e : EquivDict κ Tensor} {ls ms : List (κ × Tensor)} (hd : Holds d ls)
    (he : Holds e ms) (hdist : e.Distinct) : Holds (d.update e) (ls ++ ms) where
  sound k t hget := by
    rw [get_update d hdist, or_eq_some_iff] at hget
    rcases hget with hnew | ⟨-, hold⟩
    · obtain ⟨a, ha, hat⟩ := he.sound k t hnew
      exact ⟨a, mem_append_right ls ha, hat⟩
    · obtain ⟨a, ha, hat⟩ := hd.sound k t hold
      exact ⟨a, mem_append_left ms ha, hat⟩
  present a ha := by
    rw [get_update d hdist, isSome_or, Bool.or_eq_true]
    rcases mem_append.mp ha with hold | hnew
    · exact .inr (hd.present a hold)
    · exact .inl (he.present a hnew)

theorem holds_nil : Holds ([] : EquivDict κ Tensor) [] where
  sound _ _ h := by cases h
  present _ h := by cases h

mutual

theorem PyValue.holds_extractTensors (path : κ) (obj : PyValue κ) :
    Holds (obj.extractTensors path).2 (obj.leaves path) := by
  cases obj with
  | tensor t =>
    constructor
    · intro k t' hget
      obtain ⟨k', hmem, hk⟩ := mem_of_get hget
      cases mem_singleton.mp hmem
      exact ⟨(path, t), mem_singleton_self _, rfl, hk⟩
    · intro a ha
      rw [mem_singleton.mp ha]
      simp [PyValue.extractTensors, EquivDict.get]
  | dict entries => exact entries.holds_extractTensors path holds_nil
  | list items | tuple items => exact items.holds_extractTensors path 0 holds_nil
  | scalar a => exact holds_nil

theorem PyEntries.holds_extractTensors (path : κ) (entries : PyEntries κ)
    {tensors : EquivDict κ Tensor} {ls : List (κ × Tensor)} (h : Holds tensors ls) :
    Holds (entries.extractTensors path tensors).2 (ls ++ entries.leaves path) := by
  cases entries with
  | nil => simpa [PyEntries.extractTensors, PyEntries.leaves] using h
  | cons key value rest =>
    have hv := h.update (value.holds_extractTensors (childPath path key))
      (value.distinct_extractTensors (childPath path key))
    have hr := rest.holds_extractTensors path hv
    rw [append_assoc] at hr
    exact hr

theorem PyItems.holds_extractTensors (path : κ) (items : PyItems κ) (idx : ℕ)
    {tensors : EquivDict κ Tensor} {ls : List (κ × Tensor)} (h : Holds tensors ls) :
    Holds (items.extractTensors path idx tensors).2 (ls ++ items.leaves path idx) := by
  cases items with
  | nil => simpa [PyItems.extractTensors, PyItems.leaves] using h
  | cons value rest =>
    have hv := h.update (value.holds_extractTensors (indexPath path idx))
      (value.distinct_extractTensors (indexPath path idx))
    have hr := rest.holds_extractTensors path (idx + 1) hv
    rw [append_assoc] at hr
    exact hr

end

theorem Holds.get_eq_iff {tensors : EquivDict κ Tensor} {leaves : List (κ × Tensor)}
    (h : Holds tensors leaves) :
    (∀ a ∈ leaves, tensors.get a.1 = some a.2) ↔
      ∀ a ∈ leaves, ∀ b ∈ leaves, (a.1 == b.1) = true → a.2 = b.2 := by
  constructor
  · intro hget a ha b hb hab
    have hsame := hget a ha
    rw [EquivDict.get_congr hab, hget b hb] at hsame
    exact (some.inj hsame).symm
  · intro happart a ha
    obtain ⟨t, ht⟩ := isSome_iff_exists.mp (h.present a ha)
    obtain ⟨b, hb, rfl, hab⟩ := h.sound a.1 t ht
    rw [ht, happart a ha b hb hab]

end Extracted

section Restore

variable [PyKey κ]

theorem map_eq_some_inj {α β : Type} {f : α → β} (hf : Function.Injective f) {o : Option α}
    {a : α} : o.map f = some (f a) ↔ o = some a := by
  rw [← map_some, (map_injective hf).eq_iff]

theorem PyEntries.get_extractTensors (path k : κ) (entries : PyEntries κ)
    (tensors : EquivDict κ Tensor) :
    (entries.extractTensors path tensors).1.get k = none ↔ entries.get k = none := by
  match entries with
  | .nil => exact Iff.rfl
  | .cons key value rest =>
    have ih := rest.get_extractTensors path k
      (tensors.update (value.extractTensors (childPath path key)).2)
    simp only [PyEntries.extractTensors, PyEntries.get]
    split
    · simp
    · exact ih

mutual

/-- A dict of tensors fills the skeleton of an unmarked value with that value exactly when it
answers every path with the tensor found there. -/
theorem PyValue.restore_extract (T : EquivDict κ Tensor) (path : κ) (obj : PyValue κ) :
    (obj.extractTensors path).1.restoreTensors T = some obj ↔
      obj.Unmarked ∧ ∀ a ∈ obj.leaves path, T.get a.1 = some a.2 := by
  cases obj with
  | tensor t =>
    simp [PyValue.extractTensors, placeholder, PyValue.restoreTensors, PyEntries.get,
      PyValue.asKey, PyValue.Unmarked, PyValue.leaves]
  | dict entries =>
    have ih := entries.restore_extract T path []
    have hkey := entries.get_extractTensors path placeholderKey []
    simp only [PyValue.extractTensors, PyValue.restoreTensors, PyValue.Unmarked, PyValue.leaves]
    cases hget : entries.get placeholderKey with
    | none =>
      rw [hkey.mpr hget]
      simp only [true_and]
      rw [← ih]
      exact map_eq_some_inj fun _ _ h => PyValue.dict.inj h
    | some v =>
      -- the placeholder branch answers with a tensor, never with a dict
      cases hmk : (entries.extractTensors path []).1.get placeholderKey with
      | none => rw [hkey.mp hmk] at hget; cases hget
      | some mark => simp [bind_eq_some_iff]
  | list items =>
    simp only [PyValue.extractTensors, PyValue.restoreTensors, PyValue.Unmarked, PyValue.leaves]
    rw [← items.restore_extract T path 0 []]
    exact map_eq_some_inj fun _ _ h => PyValue.list.inj h
  | tuple items =>
    simp only [PyValue.extractTensors, PyValue.restoreTensors, PyValue.Unmarked, PyValue.leaves]
    rw [← items.restore_extract T path 0 []]
    exact map_eq_some_inj fun _ _ h => PyValue.tuple.inj h
  | scalar a => simp [PyValue.extractTensors, PyValue.restoreTensors, PyValue.Unmarked,
      PyValue.leaves]

theorem PyEntries.restore_extract (T : EquivDict κ Tensor) (path : κ) (entries : PyEntries κ)
    (tensors : EquivDict κ Tensor) :
    (entries.extractTensors path tensors).1.restoreTensors T = some entries ↔
      entries.Unmarked ∧ ∀ a ∈ entries.leaves path, T.get a.1 = some a.2 := by
  cases entries with
  | nil => simp [PyEntries.extractTensors, PyEntries.restoreTensors, PyEntries.Unmarked,
      PyEntries.leaves]
  | cons key value rest =>
    have hv := value.restore_extract T (childPath path key)
    have hr := rest.restore_extract T path
      (tensors.update (value.extractTensors (childPath path key)).2)
    simp only [PyEntries.extractTensors, PyEntries.restoreTensors, PyEntries.Unmarked,
      PyEntries.leaves, forall_mem_append, bind_eq_some_iff,
      map_eq_some_iff, PyEntries.cons.injEq, true_and]
    rw [and_and_and_comm, ← hv, ← hr]
    simp

theorem PyItems.restore_extract (T : EquivDict κ Tensor) (path : κ) (items : PyItems κ)
    (idx : ℕ) (tensors : EquivDict κ Tensor) :
    (items.extractTensors path idx tensors).1.restoreTensors T = some items ↔
      items.Unmarked ∧ ∀ a ∈ items.leaves path idx, T.get a.1 = some a.2 := by
  cases items with
  | nil => simp [PyItems.extractTensors, PyItems.restoreTensors, PyItems.Unmarked, PyItems.leaves]
  | cons value rest =>
    have hv := value.restore_extract T (indexPath path idx)
    have hr := rest.restore_extract T path (idx + 1)
      (tensors.update (value.extractTensors (indexPath path idx)).2)
    simp only [PyItems.extractTensors, PyItems.restoreTensors, PyItems.Unmarked,
      PyItems.leaves, forall_mem_append, bind_eq_some_iff,
      map_eq_some_iff, PyItems.cons.injEq]
    rw [and_and_and_comm, ← hv, ← hr]
    simp

end

theorem restore_extract_iff (obj : PyValue κ) :
    (extractTensors obj).1.restoreTensors (extractTensors obj).2 = some obj ↔ obj.Unambiguous := by
  have hheld := (obj.holds_extractTensors rootPath).get_eq_iff
  refine (obj.restore_extract _ rootPath).trans ?_
  constructor
  · intro ⟨hmk, hget⟩
    exact ⟨hmk, hheld.mp hget⟩
  · intro h
    exact ⟨h.unmarked, hheld.mpr h.apart⟩

end Restore

section Packed

variable (dtype : TorchDtype)

theorem dtypeAlignment_pos : 0 < dtypeAlignment dtype :=
  lt_of_lt_of_le one_pos (le_max_right _ _)

theorem dtypeAlignment_eq : dtypeAlignment dtype = dtype.elementSize := by
  cases dtype <;> decide

/-- The name of a dtype of the table finds it, any other name nothing. -/
theorem torchDtype_str :
    torchDtype dtype.str = if dtype ∈ TORCH_DTYPES then some dtype else none := by
  cases dtype <;> decide

/-- What an entry of the packed buffer says about its tensor. -/
structure Describes (entry : TensorMeta κ) (a : κ × Tensor) : Prop where
  path : entry.path = a.1
  shape : entry.shape = a.2.shape
  dtype : entry.dtype = a.2.dtype.str
  size : entry.size = a.2.bytes.length

/-- The spans of the entries, each aligned for its tensor. -/
def packedSpans (entries : List (TensorMeta κ)) (tensors : EquivDict κ Tensor) : List Span :=
  List.zipWith (fun entry a => entry.span a.2.dtype) entries tensors

variable {tensors : EquivDict κ Tensor} {buf : List UInt8} {a : κ × Tensor} {s s' : Packing κ}

theorem packedSpans_snoc {entries : List (TensorMeta κ)} (h : entries.length = tensors.length)
    (entry : TensorMeta κ) (a : κ × Tensor) :
    packedSpans (entries ++ [entry]) (tensors ++ [a]) =
      packedSpans entries tensors ++ [entry.span a.2.dtype] :=
  zipWith_append h

structure Stored (buf : List UInt8) (entry : TensorMeta κ) (a : κ × Tensor) : Prop
    extends Describes entry a where
  aligned : dtypeAlignment a.2.dtype ∣ entry.offset
  stop : entry.offset + entry.size ≤ buf.length
  bytes : slice buf (entry.span a.2.dtype) = a.2.bytes

theorem Stored.append {entry : TensorMeta κ} (h : Stored buf entry a) (more : List UInt8) : Stored
    (buf ++ more) entry a where
  toDescribes := h.toDescribes
  aligned := h.aligned
  stop := by
    rw [length_append]
    exact h.stop.trans (Nat.le_add_right _ _)
  bytes := (slice_append (s := entry.span a.2.dtype) h.stop more).trans h.bytes

/-- What the packing loop keeps: the tensors of `done` lie in the chunks so far. -/
structure Packing.Holds (s : Packing κ) (done : EquivDict κ Tensor) : Prop where
  offset : s.offset = s.chunks.flatten.length
  stored : List.Forall₂ (Stored s.chunks.flatten) s.entries done
  layout : Layout (packedSpans s.entries done) s.offset

theorem Packing.holds_start : Packing.Holds ({} : Packing κ) [] where
  offset := rfl
  stored := List.Forall₂.nil
  layout := Layout.nil 0

theorem Packing.step_holds {done : EquivDict κ Tensor} (h : s.Holds done)
    (hst : s.step a = some s') : s'.Holds (done ++ [a]) := by
  obtain ⟨flat, hflat, rfl⟩ := map_eq_some_iff.mp hst
  have hbytes : flat = a.2.bytes := by
    unfold Tensor.viewUint8 at hflat
    split at hflat
    · cases hflat
    · exact (some.inj hflat).symm
  subst hbytes
  generalize hpad : padOffset s.offset (dtypeAlignment a.2.dtype) = pad
  have halign : dtypeAlignment a.2.dtype ∣ s.offset + pad :=
    hpad ▸ dvd_add_padding (dtypeAlignment_pos a.2.dtype) s.offset
  have hchs : ((if pad = 0 then s.chunks else s.chunks ++ [List.replicate pad 0]) ++
      [a.2.bytes]).flatten = (s.chunks.flatten ++ List.replicate pad 0) ++ a.2.bytes := by
    split
    · next hzero => simp [hzero]
    · simp
  have hlen : (s.chunks.flatten ++ List.replicate pad 0).length = s.offset + pad := by
    simp [h.offset]
  constructor
  · dsimp only
    rw [hchs, length_append, hlen]
  · dsimp only
    rw [hchs]
    refine rel_append (h.stored.imp fun e b hb => ?_) (List.Forall₂.cons ?_ .nil)
    · rw [append_assoc]
      exact hb.append _
    · refine ⟨⟨rfl, rfl, rfl, rfl⟩, halign, ?_, slice_end hlen.symm rfl⟩
      rw [length_append, hlen]
  · dsimp only
    rw [packedSpans_snoc h.stored.length_eq]
    exact h.layout.snoc halign (Nat.le_add_right _ _)

theorem Packing.fold_holds {done : EquivDict κ Tensor} (h : s.Holds done)
    (hfold : tensors.foldlM Packing.step s = some s') : s'.Holds (done ++ tensors) := by
  induction tensors generalizing s done with
  | nil =>
    cases hfold
    rw [append_nil]
    exact h
  | cons a tensors ih =>
    rw [foldlM_cons] at hfold
    obtain ⟨s₁, hst, hr⟩ := bind_eq_some_iff.mp hfold
    have hdone := ih (step_holds h hst) hr
    rw [append_assoc] at hdone
    exact hdone

/-- The packed tensors lie whole in the buffer, one after another, each at its alignment. -/
theorem packTensors_stored {buf : List UInt8} {entries : List (TensorMeta κ)}
    (h : packTensors tensors = some (buf, entries)) :
    List.Forall₂ (Stored buf) entries tensors ∧ Layout (packedSpans entries tensors) buf.length := by
  obtain ⟨s, hfold, heq⟩ := map_eq_some_iff.mp h
  have hs := Packing.fold_holds Packing.holds_start hfold
  rw [nil_append] at hs
  obtain ⟨rfl, rfl⟩ := Prod.mk.inj heq
  split
  · next hnil =>
    -- no chunk: no entry either, and the buffer is one zero byte
    have hoff : s.offset = 0 := by rw [hs.offset, hnil]; rfl
    refine ⟨hs.stored.imp fun e a ha => ?_, hs.layout.mono (by rw [hoff]; exact Nat.zero_le _)⟩
    rw [hnil] at ha
    exact ha.append [0]
  · exact ⟨hs.stored, hs.offset ▸ hs.layout⟩

theorem Stored.read_eq {entry : TensorMeta κ} (h : Stored buf entry a) :
    entry.read buf = if a.2.dtype ∈ TORCH_DTYPES then some a.2 else none := by
  obtain ⟨path, shape, dtype, offset, size⟩ := entry
  obtain ⟨⟨hpath, hshp, hdtype, hsz⟩, haligned, hstop, hbytes⟩ := h
  unfold TensorMeta.read
  rw [hdtype, torchDtype_str]
  split
  · rw [bind_some]
    have hpart : (buf.drop offset).take size = a.2.bytes := hbytes
    rw [if_pos (dtypeAlignment_eq a.2.dtype ▸ haligned)]
    subst hshp
    simp only [hpart]
    rw [dif_pos a.2.sized]
  · rfl

variable [PyKey κ]

theorem readTensors_foldlM {entries : List (TensorMeta κ)}
    (h : List.Forall₂ (Stored buf) entries tensors) (acc : EquivDict κ Tensor) :
    entries.foldlM (fun d (entry : TensorMeta κ) => (entry.read buf).map (d.set entry.path)) acc =
      if ∀ a ∈ tensors, a.2.dtype ∈ TORCH_DTYPES then some (acc.update tensors) else none := by
  induction h generalizing acc with
  | nil => simp
  | @cons entry a entries tensors hstored _ ih =>
    rw [foldlM_cons, hstored.read_eq]
    by_cases hdtype : a.2.dtype ∈ TORCH_DTYPES
    · rw [if_pos hdtype]
      simp only [map_some, bind_eq_bind, bind_some, ih, hstored.path,
        forall_mem_cons, hdtype, true_and, update_cons]
    · simp [hdtype]

theorem readTensors_eq {buf : List UInt8} {entries : List (TensorMeta κ)}
    (h : List.Forall₂ (Stored buf) entries tensors) (hdist : tensors.Distinct) :
    readTensors buf entries =
      if ∀ a ∈ tensors, a.2.dtype ∈ TORCH_DTYPES then some tensors else none := by
  unfold readTensors
  rw [readTensors_foldlM h [], update_nil hdist]

end Packed

section RoundTrip

variable [PyKey κ] {ρ : Type}

/-- The tensors of a payload, each described by its entry, aligned and apart in the buffer. -/
structure DataRef.LaidOut (dataRef : DataRef κ ρ) (tensors : EquivDict κ Tensor) : Prop where
  entries : List.Forall₂ Describes dataRef.tensors tensors
  layout : Layout (packedSpans dataRef.tensors tensors) dataRef.buffer.length
  apart : (packedSpans dataRef.tensors tensors).Pairwise fun a b =>
    ∀ i, ¬ (a.Covers i ∧ b.Covers i)

/-- Of an unambiguous value, the tensors packed are the tensors met. -/
theorem readable_iff_of_unambiguous {obj : PyValue κ} (h : obj.Unambiguous) :
    (∀ a ∈ (extractTensors obj).2, a.2.dtype ∈ TORCH_DTYPES) ↔ obj.Readable := by
  have hheld := obj.holds_extractTensors rootPath
  constructor
  · intro hall a ha
    have hget := hheld.get_eq_iff.mpr h.apart a ha
    obtain ⟨k, hmem, -⟩ := mem_of_get hget
    exact hall (k, a.2) hmem
  · intro hread a ha
    have hget := EquivDict.get_of_mem (obj.distinct_extractTensors rootPath) ha
    obtain ⟨b, hb, hba, -⟩ := hheld.sound _ _ hget
    rw [← hba]
    exact hread b hb

theorem writePayload_laidOut {payload : StagePayload κ ρ} {dataRef : DataRef κ ρ}
    (h : writePayload payload = some dataRef) :
    dataRef.LaidOut (extractTensors payload.data).2 := by
  obtain ⟨⟨packed, entries⟩, hpack, rfl⟩ := map_eq_some_iff.mp h
  obtain ⟨hstored, hlayout⟩ := packTensors_stored hpack
  exact ⟨hstored.imp fun _ _ hs => hs.toDescribes, hlayout, hlayout.disjoint⟩

theorem readPayload_writePayload {payload : StagePayload κ ρ} {dataRef : DataRef κ ρ}
    (h : writePayload payload = some dataRef) :
    readPayload dataRef = some payload ↔ payload.data.Unambiguous ∧ payload.data.Readable := by
  obtain ⟨⟨packed, entries⟩, hpack, rfl⟩ := map_eq_some_iff.mp h
  have hread := readTensors_eq (packTensors_stored hpack).1
    (payload.data.distinct_extractTensors rootPath)
  have hrestore := restore_extract_iff payload.data
  unfold readPayload
  simp only [ne_eq, not_true_eq_false, if_false, bind_some]
  rw [hread]
  split
  · next hall =>
    rw [bind_some, map_eq_some_iff]
    constructor
    · intro ⟨data, hdata, heq⟩
      have hsame : data = payload.data := congrArg StagePayload.data heq
      have hunamb := hrestore.mp (hsame ▸ hdata)
      exact ⟨hunamb, (readable_iff_of_unambiguous hunamb).mp hall⟩
    · intro ⟨hunamb, _⟩
      exact ⟨payload.data, hrestore.mpr hunamb, rfl⟩
  · next hall =>
    constructor
    · intro hnone
      cases hnone
    · intro ⟨hunamb, hreadable⟩
      exact absurd ((readable_iff_of_unambiguous hunamb).mpr hreadable) hall

/-- Every entry written is aligned and apart from the others. The skeleton gives back exactly the
unambiguous values; of those the reader gives back the ones whose dtypes it knows; and the
metadata codec gives back exactly the untagged values. -/
theorem payload_round_trip_iff (payload : StagePayload κ ρ) (pickle : IpcPickle κ)
    (metadata : PyValue κ) :
    ((extractTensors payload.data).1.restoreTensors (extractTensors payload.data).2 =
      some payload.data ↔ payload.data.Unambiguous) ∧
    (∀ dataRef, writePayload payload = some dataRef →
      dataRef.LaidOut (extractTensors payload.data).2 ∧
      (readPayload dataRef = some payload ↔
        payload.data.Unambiguous ∧ payload.data.Readable)) ∧
    ((metadata.serializeDirectIpcMetadataValue pickle).deserializeDirectIpcMetadata pickle =
      some metadata ↔ metadata.Untagged pickle) :=
  ⟨restore_extract_iff payload.data,
    fun _ hwrite => ⟨writePayload_laidOut hwrite, readPayload_writePayload hwrite⟩,
    metadata.deserialize_serialize pickle⟩

def byteTensor (b : UInt8) : Tensor where
  dtype := .uint8
  shape := [1]
  bytes := [b]
  sized := rfl

/-- One tensor under one key comes back. -/
theorem payload_round_trip_one_tensor :
    let payload : StagePayload PyAtom Unit :=
      { requestId := "r", request := (),
        data := .dict (.cons (.str "t") (.tensor (byteTensor 7)) .nil) }
    ∃ dataRef, writePayload payload = some dataRef ∧ readPayload dataRef = some payload := by
  intro payload
  have hleaves : payload.data.leaves rootPath = [(.str "t", byteTensor 7)] := rfl
  have hunamb : payload.data.Unambiguous := by
    refine ⟨⟨rfl, trivial, trivial⟩, ?_⟩
    simp [hleaves]
  have hread : payload.data.Readable := by
    unfold PyValue.Readable
    rw [hleaves]
    decide
  obtain ⟨-, hwire, -⟩ := payload_round_trip_iff payload flatPickle (.scalar .none)
  exact ⟨_, rfl, (hwire _ rfl).2.mpr ⟨hunamb, hread⟩⟩

/-- `{"a": {"b": 1}, "a.b": 2}`, the numbers being tensors. -/
def dottedKeys : PyValue PyAtom :=
  .dict (.cons (.str "a") (.dict (.cons (.str "b") (.tensor (byteTensor 1)) .nil))
    (.cons (.str "a.b") (.tensor (byteTensor 2)) .nil))

/-- Both tensors have the path `a.b`, and the later one comes back for both. -/
theorem dotted_keys_swap_tensors :
    ¬ ∀ obj : PyValue PyAtom,
      (extractTensors obj).1.restoreTensors (extractTensors obj).2 = some obj := by
  intro hall
  have hunamb := (restore_extract_iff dottedKeys).mp (hall dottedKeys)
  have hleaves : dottedKeys.leaves rootPath =
      [(.str "a.b", byteTensor 1), (.str "a.b", byteTensor 2)] := rfl
  have hsame := hunamb.apart (.str "a.b", byteTensor 1) (by simp [hleaves])
    (.str "a.b", byteTensor 2) (by simp [hleaves]) (by decide)
  exact absurd hsame (by decide)

end RoundTrip

end OmniRealtime
