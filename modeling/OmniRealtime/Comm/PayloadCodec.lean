import OmniRealtime.Lib.ByteLayout
import OmniRealtime.Lib.EquivDict

/-!
# Payload codec

`comm/stage_io.py`: tensors are taken out of a nested value, named by their path in it, packed
into one buffer, and put back on the other side. Where a tensor lies (its device) is left out:
it is the receiver's choice.

1. `extractTensors`, `restoreTensors`: the skeleton and its placeholders.
2. `packTensors`, `writePayload`, `readPayload`: the packed buffer.
3. `serializeDirectIpcMetadataValue`, `deserializeDirectIpcMetadata`: metadata sent by IPC.
-/

namespace OmniRealtime

open ByteLayout

/-- Scalars, which are also the keys of dicts and the paths of tensors. `==` is Python's. -/
class PyKey (κ : Type) extends BEq κ where
  equiv : EquivBEq κ
  /-- `str(key)`, as an f-string writes it. -/
  str : κ → String
  truthy : κ → Bool
  ofString : String → κ
  ofString_beq (s t : String) : (ofString s == ofString t) = decide (s = t)
  ofNat : ℕ → κ
  ofBytes : List UInt8 → κ
  asBytes : κ → Option (List UInt8)
  asBytes_ofBytes (b : List UInt8) : asBytes (ofBytes b) = some b
  /-- The tuple of some keys, where tuples are keys. -/
  ofTuple : List κ → Option κ

attribute [instance] PyKey.equiv

/-- The dtypes of torch, those of the table first. -/
inductive TorchDtype
  | bool | uint8 | int8 | int16 | int32 | int64 | float16 | bfloat16 | float32 | float64
  | complex64 | complex128
  | uint16 | uint32 | uint64 | complex32 | float8E4m3fn | float8E5m2 | float8E4m3fnuz
  | float8E5m2fnuz
  deriving DecidableEq, Repr

namespace TorchDtype

/-- `str(dtype)`. -/
def str : TorchDtype → String
  | bool => "torch.bool"
  | uint8 => "torch.uint8"
  | int8 => "torch.int8"
  | int16 => "torch.int16"
  | int32 => "torch.int32"
  | int64 => "torch.int64"
  | float16 => "torch.float16"
  | bfloat16 => "torch.bfloat16"
  | float32 => "torch.float32"
  | float64 => "torch.float64"
  | complex64 => "torch.complex64"
  | complex128 => "torch.complex128"
  | uint16 => "torch.uint16"
  | uint32 => "torch.uint32"
  | uint64 => "torch.uint64"
  | complex32 => "torch.complex32"
  | float8E4m3fn => "torch.float8_e4m3fn"
  | float8E5m2 => "torch.float8_e5m2"
  | float8E4m3fnuz => "torch.float8_e4m3fnuz"
  | float8E5m2fnuz => "torch.float8_e5m2fnuz"

def elementSize : TorchDtype → ℕ
  | bool | uint8 | int8 | float8E4m3fn | float8E5m2 | float8E4m3fnuz | float8E5m2fnuz => 1
  | int16 | float16 | bfloat16 | uint16 => 2
  | int32 | float32 | uint32 | complex32 => 4
  | int64 | float64 | complex64 | uint64 => 8
  | complex128 => 16

end TorchDtype

/-- `_TORCH_DTYPES`. -/
def TORCH_DTYPES : List TorchDtype :=
  [.bool, .uint8, .int8, .int16, .int32, .int64, .float16, .bfloat16, .float32, .float64,
    .complex64, .complex128]

/-- `_torch_dtype`: `none` is the `ValueError`. -/
def torchDtype (dtypeStr : String) : Option TorchDtype :=
  TORCH_DTYPES.find? fun dtype => dtype.str == dtypeStr

/-- A tensor by its contents, in row-major order. -/
structure Tensor where
  dtype : TorchDtype
  shape : List ℕ
  bytes : List UInt8
  sized : bytes.length = shape.prod * dtype.elementSize
  deriving DecidableEq

mutual

/-- Python values built from scalars, tensors, dicts, lists and tuples. -/
inductive PyValue (κ : Type) where
  | scalar (a : κ)
  | tensor (t : Tensor)
  | dict (entries : PyEntries κ)
  | list (items : PyItems κ)
  | tuple (items : PyItems κ)

/-- The entries of a dict, oldest first. -/
inductive PyEntries (κ : Type) where
  | nil
  | cons (key : κ) (value : PyValue κ) (rest : PyEntries κ)

inductive PyItems (κ : Type) where
  | nil
  | cons (value : PyValue κ) (rest : PyItems κ)

end

variable {κ : Type} [PyKey κ]

/-- `key in d` and `d[key]`. -/
def PyEntries.get : PyEntries κ → κ → Option (PyValue κ)
  | .nil, _ => none
  | .cons key value rest, k => if k == key then some value else rest.get k

mutual

/-- The value as a key of a dict: `none` where it has no hash, or is no scalar. -/
def PyValue.asKey : PyValue κ → Option κ
  | .scalar a => some a
  | .tuple items => items.asKeys.bind PyKey.ofTuple
  | .tensor _ | .dict _ | .list _ => none

def PyItems.asKeys : PyItems κ → Option (List κ)
  | .nil => some []
  | .cons value rest => value.asKey.bind fun a => rest.asKeys.map (a :: ·)

end

section Extract

/-- `list(obj.shape)`. -/
def natItems : List ℕ → PyItems κ
  | [] => .nil
  | n :: rest => .cons (.scalar (PyKey.ofNat n)) (natItems rest)

def placeholderKey : κ := PyKey.ofString "_tensor_placeholder"

/-- What stands for a tensor in the skeleton. -/
def placeholder (path : κ) (t : Tensor) : PyValue κ :=
  .dict (.cons placeholderKey (.scalar path)
    (.cons (PyKey.ofString "shape") (.list (natItems t.shape))
      (.cons (PyKey.ofString "dtype") (.scalar (PyKey.ofString t.dtype.str)) .nil)))

/-- `f"{path}.{key}" if path else key`. -/
def childPath (path key : κ) : κ :=
  if PyKey.truthy path then PyKey.ofString (PyKey.str path ++ "." ++ PyKey.str key) else key

/-- `f"{path}[{idx}]"`. -/
def indexPath (path : κ) (idx : ℕ) : κ :=
  PyKey.ofString (PyKey.str path ++ "[" ++ toString idx ++ "]")

mutual

def PyValue.extractTensors (path : κ) : PyValue κ → PyValue κ × EquivDict κ Tensor
  | .tensor t => (placeholder path t, [(path, t)])
  | .dict entries =>
    let (out, tensors) := entries.extractTensors path []
    (.dict out, tensors)
  | .list items =>
    let (out, tensors) := items.extractTensors path 0 []
    (.list out, tensors)
  | .tuple items =>
    let (out, tensors) := items.extractTensors path 0 []
    (.tuple out, tensors)
  | .scalar a => (.scalar a, [])

/-- The loop over `obj.items()`. The keys of a dict are distinct, so `out` has them in order. -/
def PyEntries.extractTensors (path : κ) :
    PyEntries κ → EquivDict κ Tensor → PyEntries κ × EquivDict κ Tensor
  | .nil, tensors => (.nil, tensors)
  | .cons key value rest, tensors =>
    let (child, childTensors) := value.extractTensors (childPath path key)
    let (out, tensors) := rest.extractTensors path (tensors.update childTensors)
    (.cons key child out, tensors)

/-- The loop over `enumerate(obj)`, from `idx` on. -/
def PyItems.extractTensors (path : κ) :
    PyItems κ → ℕ → EquivDict κ Tensor → PyItems κ × EquivDict κ Tensor
  | .nil, _, tensors => (.nil, tensors)
  | .cons value rest, idx, tensors =>
    let (child, childTensors) := value.extractTensors (indexPath path idx)
    let (out, tensors) := rest.extractTensors path (idx + 1) (tensors.update childTensors)
    (.cons child out, tensors)

end

/-- The path of the value sent. -/
def rootPath : κ := PyKey.ofString ""

def extractTensors (obj : PyValue κ) : PyValue κ × EquivDict κ Tensor :=
  obj.extractTensors rootPath

mutual

/-- `restore_tensors`: `none` is a `KeyError`, or a placeholder without a hash. -/
def PyValue.restoreTensors (tensors : EquivDict κ Tensor) : PyValue κ → Option (PyValue κ)
  | .dict entries =>
    match entries.get placeholderKey with
    | some path => path.asKey.bind fun path => (tensors.get path).map .tensor
    | none => (entries.restoreTensors tensors).map .dict
  | .list items => (items.restoreTensors tensors).map .list
  | .tuple items => (items.restoreTensors tensors).map .tuple
  | .tensor t => some (.tensor t)
  | .scalar a => some (.scalar a)

def PyEntries.restoreTensors (tensors : EquivDict κ Tensor) :
    PyEntries κ → Option (PyEntries κ)
  | .nil => some .nil
  | .cons key value rest =>
    (value.restoreTensors tensors).bind fun value =>
      (rest.restoreTensors tensors).map fun rest => .cons key value rest

def PyItems.restoreTensors (tensors : EquivDict κ Tensor) : PyItems κ → Option (PyItems κ)
  | .nil => some .nil
  | .cons value rest =>
    (value.restoreTensors tensors).bind fun value =>
      (rest.restoreTensors tensors).map fun rest => .cons value rest

end

end Extract

section Pack

structure TensorMeta (κ : Type) where
  path : κ
  shape : List ℕ
  dtype : String
  offset : ℕ
  size : ℕ

def dtypeAlignment (dtype : TorchDtype) : ℕ := max dtype.elementSize 1

def padOffset (offset alignment : ℕ) : ℕ := ((-(offset : ℤ)) % (alignment : ℤ)).toNat

/-- `tensor.contiguous().view(torch.uint8).reshape(-1)`: a tensor of no dimension can be viewed
only at its own element size. -/
def Tensor.viewUint8 (t : Tensor) : Option (List UInt8) :=
  if t.shape = [] ∧ t.dtype.elementSize ≠ TorchDtype.uint8.elementSize then none else some t.bytes

/-- The variables of the loop in `_pack_tensors`. -/
structure Packing (κ : Type) where
  entries : List (TensorMeta κ) := []
  chunks : List (List UInt8) := []
  offset : ℕ := 0

def Packing.step (s : Packing κ) (item : κ × Tensor) : Option (Packing κ) :=
  item.2.viewUint8.map fun flat =>
    let pad := padOffset s.offset (dtypeAlignment item.2.dtype)
    let chunks := if pad = 0 then s.chunks else s.chunks ++ [List.replicate pad 0]
    let offset := s.offset + pad
    { entries := s.entries ++
        [{ path := item.1, shape := item.2.shape, dtype := item.2.dtype.str, offset := offset,
           size := flat.length }],
      chunks := chunks ++ [flat],
      offset := offset + flat.length }

/-- `_pack_tensors`: the buffer and what it holds. -/
def packTensors (tensors : EquivDict κ Tensor) : Option (List UInt8 × List (TensorMeta κ)) :=
  (tensors.foldlM Packing.step ({} : Packing κ)).map fun s =>
    let chunks := if s.chunks = [] then [[0]] else s.chunks
    (chunks.flatten, s.entries)

inductive DataKind
  | stagePayload | streamChunk | streamMetadataTensor | kvPages | weightBucket | moeExpertPayload
  deriving DecidableEq

/-- `StagePayload`; `ρ` is the request it carries along. -/
structure StagePayload (κ ρ : Type) where
  requestId : String
  request : ρ
  data : PyValue κ

/-- `DataRef`, with the header unpickled and the bytes the relay hands over for the buffer. -/
structure DataRef (κ ρ : Type) where
  kind : DataKind
  buffer : List UInt8
  header : Option (StagePayload κ ρ)
  tensors : List (TensorMeta κ)

variable {ρ : Type}

def writePayload (payload : StagePayload κ ρ) : Option (DataRef κ ρ) :=
  let (dataWithoutTensors, tensors) := extractTensors payload.data
  (packTensors tensors).map fun (packed, entries) =>
    { kind := .stagePayload, buffer := packed, tensors := entries,
      header := some { payload with data := dataWithoutTensors } }

/-- `buf[offset:offset + size].view(_torch_dtype(dtype)).reshape(shape)`: the view asks for
whole elements at a multiple of their size, the reshape for their number. -/
def TensorMeta.read (buf : List UInt8) (entry : TensorMeta κ) : Option Tensor :=
  (torchDtype entry.dtype).bind fun dtype =>
    let part := (buf.drop entry.offset).take entry.size
    if dtype.elementSize ∣ entry.offset then
      if h : part.length = entry.shape.prod * dtype.elementSize then
        some { dtype := dtype, shape := entry.shape, bytes := part, sized := h }
      else none
    else none

def readTensors (buf : List UInt8) (entries : List (TensorMeta κ)) :
    Option (EquivDict κ Tensor) :=
  entries.foldlM (fun tensors entry => (entry.read buf).map (tensors.set entry.path)) []

/-- `read_payload`: `none` is an error. -/
def readPayload (dataRef : DataRef κ ρ) : Option (StagePayload κ ρ) :=
  if dataRef.kind ≠ .stagePayload then none
  else
    dataRef.header.bind fun header =>
      (readTensors dataRef.buffer dataRef.tensors).bind fun tensors =>
        (header.data.restoreTensors tensors).map fun data => { header with data := data }

/-- The bytes an entry takes. -/
def TensorMeta.span (dtype : TorchDtype) (entry : TensorMeta κ) : Span where
  offset := entry.offset
  size := entry.size
  align := dtypeAlignment dtype

end Pack

section DirectIpc

/-- Pickles of tensors. A pickle from elsewhere may hold any value. -/
structure IpcPickle (κ : Type) where
  dumps : Tensor → List UInt8
  loads : List UInt8 → Option (PyValue κ)
  loads_dumps (t : Tensor) : loads (dumps t) = some (.tensor t)

def ipcTensorKey : κ := PyKey.ofString "_ipc_tensor"

def ipcTupleKey : κ := PyKey.ofString "_ipc_tuple"

variable (pickle : IpcPickle κ)

mutual

def PyValue.serializeDirectIpcMetadataValue : PyValue κ → PyValue κ
  | .tensor t => .dict (.cons ipcTensorKey (.scalar (PyKey.ofBytes (pickle.dumps t))) .nil)
  | .dict entries => .dict entries.serializeDirectIpcMetadataValue
  | .list items => .list items.serializeDirectIpcMetadataValue
  | .tuple items =>
    .dict (.cons ipcTupleKey (.list items.serializeDirectIpcMetadataValue) .nil)
  | .scalar a => .scalar a

def PyEntries.serializeDirectIpcMetadataValue : PyEntries κ → PyEntries κ
  | .nil => .nil
  | .cons key item rest =>
    .cons key item.serializeDirectIpcMetadataValue rest.serializeDirectIpcMetadataValue

def PyItems.serializeDirectIpcMetadataValue : PyItems κ → PyItems κ
  | .nil => .nil
  | .cons item rest =>
    .cons item.serializeDirectIpcMetadataValue rest.serializeDirectIpcMetadataValue

end

/-- `set(value) == {key}`. -/
def PyEntries.isOnly (key : κ) : PyEntries κ → Bool
  | .cons k _ .nil => k == key
  | _ => false

/-- `pickle.loads` of the one value of a dict, which must be bytes. -/
def PyEntries.loadTensor : PyEntries κ → Option (PyValue κ)
  | .cons _ (.scalar a) .nil => (PyKey.asBytes a).bind pickle.loads
  | _ => none

mutual

/-- `deserialize_direct_ipc_metadata`: `none` is a `TypeError`, or a failed load. -/
def PyValue.deserializeDirectIpcMetadata : PyValue κ → Option (PyValue κ)
  | .dict entries =>
    if entries.isOnly ipcTensorKey then entries.loadTensor pickle
    else if entries.isOnly ipcTupleKey then entries.deserializeDirectIpcTuple.map .tuple
    else entries.deserializeDirectIpcMetadata.map .dict
  | .list items => items.deserializeDirectIpcMetadata.map .list
  | .tuple items => some (.tuple items)
  | .tensor t => some (.tensor t)
  | .scalar a => some (.scalar a)

/-- The items of `value["_ipc_tuple"]`, which must be a list. -/
def PyEntries.deserializeDirectIpcTuple : PyEntries κ → Option (PyItems κ)
  | .cons _ (.list items) .nil => items.deserializeDirectIpcMetadata
  | _ => none

def PyEntries.deserializeDirectIpcMetadata : PyEntries κ → Option (PyEntries κ)
  | .nil => some .nil
  | .cons key item rest =>
    item.deserializeDirectIpcMetadata.bind fun item =>
      rest.deserializeDirectIpcMetadata.map fun rest => .cons key item rest

def PyItems.deserializeDirectIpcMetadata : PyItems κ → Option (PyItems κ)
  | .nil => some .nil
  | .cons item rest =>
    item.deserializeDirectIpcMetadata.bind fun item =>
      rest.deserializeDirectIpcMetadata.map fun rest => .cons item rest

end

end DirectIpc

section Atoms

/-- The scalars `None`, `bool`, `int`, `str` and `bytes`. -/
inductive PyAtom
  | none
  | bool (b : Bool)
  | int (i : ℤ)
  | str (s : String)
  | bytes (b : List UInt8)
  deriving DecidableEq

/-- `True` and `False` are equal to `1` and `0`. -/
def PyAtom.canonical : PyAtom → PyAtom
  | .bool b => .int b.toInt
  | a => a

/-- One byte of `repr(bytes)`, inside the quote given. -/
def escapeByte (quote c : UInt8) : String :=
  if c = 92 then "\\\\"
  else if c = quote then "\\'"
  else if c = 9 then "\\t"
  else if c = 10 then "\\n"
  else if c = 13 then "\\r"
  else if 32 ≤ c ∧ c < 127 then String.singleton (Char.ofNat c.toNat)
  else
    "\\x" ++ String.ofList [Nat.digitChar (c.toNat / 16), Nat.digitChar (c.toNat % 16)]

/-- `repr(bytes)`: in double quotes where the bytes hold a single quote and no double one. -/
def bytesRepr (b : List UInt8) : String :=
  let quote : UInt8 := if 39 ∈ b ∧ 34 ∉ b then 34 else 39
  let mark := String.singleton (Char.ofNat quote.toNat)
  "b" ++ mark ++ String.join (b.map (escapeByte quote)) ++ mark

def PyAtom.toStr : PyAtom → String
  | .none => "None"
  | .bool b => if b then "True" else "False"
  | .int i => toString i
  | .str s => s
  | .bytes b => bytesRepr b

def PyAtom.isTruthy : PyAtom → Bool
  | .none => false
  | .bool b => b
  | .int i => i ≠ 0
  | .str s => s ≠ ""
  | .bytes b => b ≠ []

instance : BEq PyAtom where
  beq a b := decide (a.canonical = b.canonical)

instance : EquivBEq PyAtom where
  rfl := decide_eq_true rfl
  symm h := decide_eq_true (of_decide_eq_true h).symm
  trans h h' := decide_eq_true ((of_decide_eq_true h).trans (of_decide_eq_true h'))

instance : PyKey PyAtom where
  equiv := inferInstance
  str := PyAtom.toStr
  truthy := PyAtom.isTruthy
  ofString := .str
  ofString_beq s t := by
    show decide (PyAtom.str s = PyAtom.str t) = decide (s = t)
    simp
  ofNat n := .int n
  ofBytes := .bytes
  asBytes
    | .bytes b => some b
    | _ => none
  asBytes_ofBytes _ := rfl
  ofTuple _ := none

end Atoms

end OmniRealtime
