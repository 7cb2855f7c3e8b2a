import OmniRealtime.Lib.LittleEndian
import OmniRealtime.Lib.NdArray

/-!
# Typed tensors on the wire

`scheduling/typed_tensor.py`: `encode_typed_tensor` and `decode_typed_tensor`, of integer tensors. A
tensor is packed as bytes, a shape and a dtype; integers are narrowed to `uint16` or to `int32`.

1. `decode_encode_typed_tensor`: what is read back has the values modulo the dtype, and an axis at
   least.
2. `typed_tensor_round_trips`: so a tensor is read back exactly where it has an axis and every value
   fits into 32 bits.
-/

namespace OmniRealtime

namespace TypedTensor

open LittleEndian Int NdArray

/-! ## Encoding -/

inductive Dtype
  | uint16
  | int32
deriving DecidableEq, Repr

def Dtype.itemsize : Dtype → Nat
  | .uint16 => 2
  | .int32 => 4

/-- The value of an integer that is cast to the dtype. -/
def Dtype.cast : Dtype → Int → Int
  | .uint16, v => v % 65536
  | .int32, v => Int.bmod v (2 ^ 32)

/-- The fields `_bytes`, `_shape` and `_dtype`. -/
structure Packed where
  bytes : List UInt8
  shape : List Nat
  dtype : Dtype
deriving DecidableEq, Repr

def Dtype.toBytes (dtype : Dtype) (v : Int) : List UInt8 :=
  leBytes dtype.itemsize (v % (256 ^ dtype.itemsize : Nat)).toNat

def narrowDtype (values : List Int) : Dtype :=
  if values = [] then .uint16
  else if values.min?.any (0 ≤ ·) ∧ values.max?.any (· ≤ 65535) then .uint16
  else .int32

/-- `ascontiguousarray`: an array of one axis at least. -/
def ascontiguousarray (array : NdArray Int) : NdArray Int :=
  NdArray.ofValues (if array.shape = [] then [1] else array.shape) array.values

def encodeTypedTensor (value : NdArray Int) : Packed :=
  let dtype := narrowDtype value.values
  let contiguous := ascontiguousarray (value.map dtype.cast)
  ⟨contiguous.values.flatMap dtype.toBytes, contiguous.shape, dtype⟩

/-! ## Decoding -/

/-- The value of the bytes of one element. -/
def Dtype.ofBytes (dtype : Dtype) (bytes : List UInt8) : Int :=
  match dtype with
  | .uint16 => ofLeBytes bytes
  | .int32 => Int.bmod (ofLeBytes bytes) (2 ^ 32)

/-- `decode_typed_tensor`, where all fields are there; `none` where the bytes are not a whole number
    of elements, or not as many as the shape has. -/
def decodeTypedTensor (data : Packed) : Option (NdArray Int) :=
  let size := data.dtype.itemsize
  if data.bytes.length % size ≠ 0 then none
  else
    let values := (blocks size (data.bytes.length / size) data.bytes).map data.dtype.ofBytes
    if values.length = data.shape.prod then some (NdArray.ofValues data.shape values) else none

/-- The tensor is read back with its shape and its values. -/
def RoundTrips (value : NdArray Int) : Prop :=
  ∃ restored, decodeTypedTensor (encodeTypedTensor value) = some restored ∧
    restored.shape = value.shape ∧ restored.values = value.values

/-! ## One element -/

@[simp] theorem Dtype.length_toBytes (dtype : Dtype) (v : Int) :
    (dtype.toBytes v).length = dtype.itemsize := length_leBytes _ _

variable (dtype : Dtype)

theorem Dtype.itemsize_pos : 0 < dtype.itemsize := by
  cases dtype <;> decide

theorem Dtype.ofLeBytes_toBytes (w : Int) :
    ((ofLeBytes (dtype.toBytes w) : Nat) : Int) = w % (256 ^ dtype.itemsize : Nat) := by
  have hpos : (0 : Int) < (256 ^ dtype.itemsize : Nat) :=
    natCast_pos.mpr (Nat.pow_pos (by decide))
  have hnonneg := emod_nonneg w (Int.ne_of_gt hpos)
  have hlt : (w % (256 ^ dtype.itemsize : Nat)).toNat < 256 ^ dtype.itemsize :=
    (toNat_lt hnonneg).mpr (emod_lt_of_pos w hpos)
  rw [Dtype.toBytes, ofLeBytes_leBytes hlt, toNat_of_nonneg hnonneg]

theorem Dtype.ofBytes_toBytes (v : Int) :
    dtype.ofBytes (dtype.toBytes (dtype.cast v)) = dtype.cast v := by
  have hbytes := dtype.ofLeBytes_toBytes (dtype.cast v)
  unfold Dtype.ofBytes
  cases dtype with
  | uint16 =>
    have hsz : ((256 ^ Dtype.uint16.itemsize : Nat) : Int) = 65536 := by decide
    rw [hsz] at hbytes
    exact hbytes.trans (emod_emod_of_dvd v (dvd_refl _))
  | int32 =>
    have hsz : 256 ^ Dtype.int32.itemsize = 2 ^ 32 := by decide
    rw [hsz] at hbytes
    exact (congrArg (bmod · (2 ^ 32)) hbytes).trans ((emod_bmod _ _).trans bmod_bmod)

/-- A value is its own cast exactly where the dtype holds it. -/
theorem cast_uint16_eq {v : Int} (h : 0 ≤ v ∧ v ≤ 65535) : Dtype.uint16.cast v = v :=
  emod_eq_of_lt h.1 (by omega)

theorem cast_int32_eq_iff (v : Int) : Dtype.int32.cast v = v ↔ -(2 ^ 31) ≤ v ∧ v < 2 ^ 31 := by
  constructor
  · intro h
    have hlow : -((2 ^ 32 : Nat) / 2 : Int) ≤ bmod v (2 ^ 32) := le_bmod (by decide)
    have hhigh : bmod v (2 ^ 32) < ((2 ^ 32 : Nat) + 1) / 2 := bmod_lt (by decide)
    rw [show bmod v (2 ^ 32) = v from h] at hlow hhigh
    exact ⟨by omega, by omega⟩
  · rintro ⟨hlow, hhigh⟩
    exact bmod_eq_of_le (by omega) (by omega)

theorem range_of_narrow {values : List Int} (hmin : values.min?.any (0 ≤ ·) = true)
    (hmax : values.max?.any (· ≤ 65535) = true) : ∀ v ∈ values, 0 ≤ v ∧ v ≤ 65535 := by
  obtain ⟨least, hleast, hlow⟩ := Option.any_eq_true _ _ |>.mp hmin
  obtain ⟨greatest, hgreatest, hhigh⟩ := Option.any_eq_true _ _ |>.mp hmax
  intro v hv
  exact ⟨Int.le_trans (of_decide_eq_true hlow) ((List.min?_eq_some_iff.mp hleast).2 v hv),
    Int.le_trans ((List.max?_eq_some_iff.mp hgreatest).2 v hv) (of_decide_eq_true hhigh)⟩

/-- The dtype of some values holds them unless one of them needs more than 32 bits. -/
theorem cast_narrowDtype (values : List Int) :
    values.map (narrowDtype values).cast = values ↔ ∀ v ∈ values, -(2 ^ 31) ≤ v ∧ v < 2 ^ 31 := by
  have hmap : values.map (narrowDtype values).cast = values.map id ↔
      ∀ v ∈ values, (narrowDtype values).cast v = v := List.map_inj_left
  rw [List.map_id] at hmap
  rw [hmap]
  unfold narrowDtype
  split_ifs with hnil hrange
  · simp [hnil]
  · have hvalues := range_of_narrow hrange.1 hrange.2
    refine forall₂_congr fun v hv => ?_
    obtain ⟨hlow, hhigh⟩ := hvalues v hv
    exact iff_of_true (cast_uint16_eq ⟨hlow, hhigh⟩) ⟨by omega, by omega⟩
  · simp only [cast_int32_eq_iff]

/-! ## Tensors -/

/-- The bytes of values of the dtype are taken apart into what they were put together from. -/
theorem decode_cast {shape : List Nat} {values : List Int} (hl : values.length = shape.prod) :
    decodeTypedTensor ⟨(values.map dtype.cast).flatMap dtype.toBytes, shape, dtype⟩ =
      some (ofValues shape (values.map dtype.cast)) := by
  have hwords : ∀ word ∈ (values.map dtype.cast).map dtype.toBytes,
      word.length = dtype.itemsize := by
    intro word hword
    obtain ⟨v, -, rfl⟩ := List.mem_map.mp hword
    exact dtype.length_toBytes v
  have hbytes := length_flatten_words hwords
  have hdecoded : (blocks dtype.itemsize ((values.map dtype.cast).map dtype.toBytes).length
      ((values.map dtype.cast).map dtype.toBytes).flatten).map dtype.ofBytes =
        values.map dtype.cast := by
    rw [blocks_flatten hwords, List.map_map, List.map_map]
    exact List.map_congr_left fun v _ => dtype.ofBytes_toBytes v
  dsimp only [decodeTypedTensor]
  rw [List.flatMap_def, hbytes, Nat.mul_mod_left, Nat.mul_div_cancel _ dtype.itemsize_pos,
    hdecoded, if_neg (not_not.mpr rfl), if_pos (by rw [List.length_map, hl])]

theorem encode_typed_tensor_eq (value : NdArray Int) :
    encodeTypedTensor value = ⟨(value.values.map (narrowDtype value.values).cast).flatMap
          (narrowDtype value.values).toBytes,
        if value.shape = [] then [1] else value.shape, narrowDtype value.values⟩ ∧
      value.values.length = (if value.shape = [] then [1] else value.shape).prod := by
  have hcast := values_map (narrowDtype value.values).cast value
  have hl : value.values.length = (if value.shape = [] then [1] else value.shape).prod := by
    rw [length_values]
    split
    next hnil => rw [hnil]; rfl
    · rfl
  have hvalues : (ascontiguousarray (value.map (narrowDtype value.values).cast)).values =
      value.values.map (narrowDtype value.values).cast := by
    rw [ascontiguousarray, values_ofValues, hcast]
    rw [hcast, List.length_map]
    exact hl
  have hshape : (ascontiguousarray (value.map (narrowDtype value.values).cast)).shape =
      if value.shape = [] then [1] else value.shape := shape_ofValues _ _
  refine ⟨?_, hl⟩
  rw [encodeTypedTensor, hvalues, hshape]

/-- What is read back has an axis at least, and the values modulo the dtype. -/
theorem decode_encode_typed_tensor (value : NdArray Int) :
    ∃ restored, decodeTypedTensor (encodeTypedTensor value) = some restored ∧
      restored.shape = (if value.shape = [] then [1] else value.shape) ∧
      restored.values = value.values.map (narrowDtype value.values).cast := by
  obtain ⟨hencode, hl⟩ := encode_typed_tensor_eq value
  refine ⟨_, by rw [hencode, decode_cast _ hl], shape_ofValues _ _, ?_⟩
  exact values_ofValues (by rw [List.length_map, hl])

/-- A tensor is read back with its shape and its values exactly where it has an axis, and no value
    needs more than 32 bits. -/
theorem typed_tensor_round_trips (value : NdArray Int) :
    RoundTrips value ↔
      value.shape ≠ [] ∧ ∀ v ∈ value.values, -(2 ^ 31) ≤ v ∧ v < 2 ^ 31 := by
  obtain ⟨restored, hrestored, hshape, hvalues⟩ := decode_encode_typed_tensor value
  rw [← cast_narrowDtype]
  constructor
  · rintro ⟨other, hother, hsame, hequal⟩
    cases hrestored.symm.trans hother
    refine ⟨fun hnil => ?_, hvalues.symm.trans hequal⟩
    rw [if_pos hnil, hsame, hnil] at hshape
    cases hshape
  · rintro ⟨haxis, hcast⟩
    exact ⟨restored, hrestored, hshape.trans (if_neg haxis), hvalues.trans hcast⟩

/-- A tensor of no axis is read back with one, and a value of 33 bits comes back negative. -/
theorem typed_tensor_not_exact :
    ¬RoundTrips (NdArray.ofValues [] [7]) ∧ ¬RoundTrips (NdArray.ofValues [1] [2 ^ 31]) := by
  constructor
  · rintro ⟨restored, hrestored, hsame, -⟩
    obtain ⟨other, hother, hshape, -⟩ := decode_encode_typed_tensor (ofValues [] [7])
    cases hrestored.symm.trans hother
    exact absurd (hsame.symm.trans hshape) (by decide)
  · rintro ⟨restored, hrestored, -, hequal⟩
    obtain ⟨other, hother, -, hvalues⟩ :=
      decode_encode_typed_tensor (ofValues [1] [2 ^ 31])
    cases hrestored.symm.trans hother
    exact absurd (hequal.symm.trans hvalues) (by decide)

end TypedTensor

end OmniRealtime
