import OmniRealtime.Comm.PayloadCodec

/-!
# Direct-IPC metadata

The codec of stream metadata sent by IPC marks tensors and tuples by dicts of one reserved key.

1. `PyValue.Untagged`: no dict of the value reads as such a mark.
2. `PyValue.deserialize_serialize`: exactly the untagged values come back.
3. `flatPickle`: a pickle of tensors over any keys.
-/

namespace OmniRealtime

open PyEntries

variable {κ : Type} [PyKey κ]

section RoundTrip

variable (pickle : IpcPickle κ)

mutual

/-- No dict is read as a tuple, and one that is read as a pickle is what the pickle holds. -/
def PyValue.Untagged : PyValue κ → Prop
  | .dict entries =>
    if entries.isOnly ipcTensorKey then entries.loadTensor pickle = some (.dict entries)
    else entries.isOnly ipcTupleKey = false ∧ entries.Untagged
  | .list items => items.Untagged
  | .tuple items => items.Untagged
  | .tensor _ | .scalar _ => True

def PyEntries.Untagged : PyEntries κ → Prop
  | .nil => True
  | .cons _ item rest => item.Untagged ∧ rest.Untagged

def PyItems.Untagged : PyItems κ → Prop
  | .nil => True
  | .cons item rest => item.Untagged ∧ rest.Untagged

end

theorem PyEntries.isOnly_serialize (key : κ) (entries : PyEntries κ) :
    (entries.serializeDirectIpcMetadataValue pickle).isOnly key = entries.isOnly key := by
  match entries with
  | .nil => rfl
  | .cons _ _ .nil => rfl
  | .cons _ _ (.cons _ _ _) => rfl

/-- Serializing makes no value bytes that was not. -/
theorem PyEntries.loadTensor_serialize (entries : PyEntries κ) :
    (entries.serializeDirectIpcMetadataValue pickle).loadTensor pickle =
      entries.loadTensor pickle := by
  match entries with
  | .nil => rfl
  | .cons _ item .nil => cases item <;> rfl
  | .cons _ item (.cons _ _ _) => cases item <;> rfl

theorem ipcTupleKey_ne_ipcTensorKey : ((ipcTupleKey : κ) == ipcTensorKey) = false := by
  unfold ipcTupleKey ipcTensorKey
  rw [PyKey.ofString_beq]
  decide

mutual

theorem PyValue.deserialize_serialize (value : PyValue κ) :
    (value.serializeDirectIpcMetadataValue pickle).deserializeDirectIpcMetadata pickle =
      some value ↔ value.Untagged pickle := by
  cases value with
  | tensor t =>
    simp [PyValue.serializeDirectIpcMetadataValue, PyValue.deserializeDirectIpcMetadata,
      isOnly, loadTensor, PyKey.asBytes_ofBytes, pickle.loads_dumps,
      PyValue.Untagged]
  | dict entries =>
    simp only [PyValue.serializeDirectIpcMetadataValue, PyValue.deserializeDirectIpcMetadata,
      PyValue.Untagged, isOnly_serialize, loadTensor_serialize]
    split
    · exact Iff.rfl
    · split
      · next htuple => simp [htuple]
      · next htuple =>
        rw [← entries.deserialize_serialize]
        simp [htuple]
  | list items =>
    simp only [PyValue.serializeDirectIpcMetadataValue, PyValue.deserializeDirectIpcMetadata,
      PyValue.Untagged]
    rw [← items.deserialize_serialize]
    simp
  | tuple items =>
    simp only [PyValue.serializeDirectIpcMetadataValue, PyValue.deserializeDirectIpcMetadata,
      PyValue.Untagged, isOnly, deserializeDirectIpcTuple,
      ipcTupleKey_ne_ipcTensorKey]
    rw [← items.deserialize_serialize]
    simp
  | scalar a =>
    simp [PyValue.serializeDirectIpcMetadataValue, PyValue.deserializeDirectIpcMetadata,
      PyValue.Untagged]

theorem PyEntries.deserialize_serialize (entries : PyEntries κ) :
    (entries.serializeDirectIpcMetadataValue pickle).deserializeDirectIpcMetadata pickle =
      some entries ↔ entries.Untagged pickle := by
  cases entries with
  | nil => simp [serializeDirectIpcMetadataValue,
      deserializeDirectIpcMetadata, Untagged]
  | cons key item rest =>
    simp only [serializeDirectIpcMetadataValue,
      deserializeDirectIpcMetadata, Untagged, Option.bind_eq_some_iff,
      Option.map_eq_some_iff, PyEntries.cons.injEq, true_and]
    rw [← item.deserialize_serialize, ← rest.deserialize_serialize]
    simp

theorem PyItems.deserialize_serialize (items : PyItems κ) :
    (items.serializeDirectIpcMetadataValue pickle).deserializeDirectIpcMetadata pickle =
      some items ↔ items.Untagged pickle := by
  cases items with
  | nil => simp [PyItems.serializeDirectIpcMetadataValue,
      PyItems.deserializeDirectIpcMetadata, PyItems.Untagged]
  | cons item rest =>
    simp only [PyItems.serializeDirectIpcMetadataValue, PyItems.deserializeDirectIpcMetadata,
      PyItems.Untagged, Option.bind_eq_some_iff, Option.map_eq_some_iff, PyItems.cons.injEq]
    rw [← item.deserialize_serialize, ← rest.deserialize_serialize]
    simp

end

end RoundTrip

section FlatPickle

/-- A shape in unary, each dimension closed by a `0` and the whole by a `2`. -/
def shapeBytes : List ℕ → List UInt8
  | [] => [2]
  | dim :: shape => List.replicate dim 1 ++ 0 :: shapeBytes shape

/-- Reads a shape whose first dimension has been counted up to `n`. -/
def readShape : List UInt8 → ℕ → Option (List ℕ × List UInt8)
  | [], _ => none
  | c :: rest, n =>
    if c = 1 then readShape rest (n + 1)
    else if c = 0 then (readShape rest 0).map fun out => (n :: out.1, out.2)
    else some ([], rest)

theorem readShape_replicate (dim n : ℕ) (rest : List UInt8) :
    readShape (List.replicate dim 1 ++ 0 :: rest) n =
      (readShape rest 0).map fun out => ((n + dim) :: out.1, out.2) := by
  induction dim generalizing n with
  | zero => simp [readShape]
  | succ dim ih =>
    rw [List.replicate_succ, List.cons_append, readShape, if_pos rfl, ih, add_right_comm,
      add_assoc]

theorem readShape_shapeBytes (shape : List ℕ) (rest : List UInt8) :
    readShape (shapeBytes shape ++ rest) 0 = some (shape, rest) := by
  induction shape with
  | nil => simp [shapeBytes, readShape]
  | cons dim shape ih =>
    rw [shapeBytes, List.append_assoc, List.cons_append, readShape_replicate, ih]
    simp

def flatDumps (t : Tensor) : List UInt8 :=
  UInt8.ofNat t.dtype.ctorIdx :: (shapeBytes t.shape ++ t.bytes)

def flatLoads : List UInt8 → Option Tensor
  | [] => none
  | c :: rest =>
    (readShape rest 0).bind fun out =>
      let dtype := TorchDtype.ofNat c.toNat
      if h : out.2.length = out.1.prod * dtype.elementSize then
        some { dtype := dtype, shape := out.1, bytes := out.2, sized := h }
      else none

/-- A pickle that holds a dtype, a shape and the bytes. -/
def flatPickle : IpcPickle κ where
  dumps := flatDumps
  loads b := (flatLoads b).map .tensor
  loads_dumps t := by
    obtain ⟨dtype, shape, bytes, sized⟩ := t
    have hcode : TorchDtype.ofNat (dtype.ctorIdx % 256) = dtype := by
      cases dtype <;> decide
    simp [flatLoads, flatDumps, readShape_shapeBytes, hcode, sized]

end FlatPickle

end OmniRealtime
