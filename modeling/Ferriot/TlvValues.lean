import Ferriot.TlvForest
import Mathlib.Tactic.IntervalCases

/-!
# Typed values

The value serializers and deserializers of the codec, and the encoders for a
resource, a multi-instance resource and an object instance.
-/
namespace Ferriot.Tlv
open Framing

/-- `static_cast<uint8_t>((value >> shift) & 0xFF)`. For the shifts used, a sign
    shifted in from the left stays above the byte that is kept, so a signed value
    may be read through its bit pattern. -/
def byteAt (value : UInt64) (shift : UInt64) : UInt8 := (value >>> shift &&& 0xFF).toUInt8

def serializeBool (value : Bool) : Bytes := [if value then 1 else 0]

def serializeInt (value : Int64) : Bytes :=
  let bits := value.toUInt64
  if -128 ≤ value ∧ value ≤ 127 then [bits.toUInt8]
  else if -32768 ≤ value ∧ value ≤ 32767 then [byteAt bits 8, byteAt bits 0]
  else if -8388608 ≤ value ∧ value ≤ 8388607 then [byteAt bits 24, byteAt bits 16, byteAt bits 8, byteAt bits 0]
  else [byteAt bits 56, byteAt bits 48, byteAt bits 40, byteAt bits 32, byteAt bits 24, byteAt bits 16,
    byteAt bits 8, byteAt bits 0]

def serializeUint (value : UInt64) : Bytes :=
  if value ≤ 255 then [value.toUInt8]
  else if value ≤ 65535 then [byteAt value 8, byteAt value 0]
  else if value ≤ 16777215 then [byteAt value 24, byteAt value 16, byteAt value 8, byteAt value 0]
  else [byteAt value 56, byteAt value 48, byteAt value 40, byteAt value 32, byteAt value 24, byteAt value 16,
    byteAt value 8, byteAt value 0]

def serializeFloat (value : Double) : Bytes :=
  [byteAt value.bits 56, byteAt value.bits 48, byteAt value.bits 40, byteAt value.bits 32, byteAt value.bits 24,
    byteAt value.bits 16, byteAt value.bits 8, byteAt value.bits 0]

def serializeString (value : Bytes) : Bytes := value

/-- Nanoseconds in a second. -/
def nsPerSecond : Int64 := 1000000000

/-- Whole seconds since the epoch, cut toward zero as `duration_cast` does. -/
def serializeTime (value : TimePoint) : Bytes := serializeInt (value.ns / nsPerSecond)

def serializeObjlink (value : ObjectPath) : Bytes :=
  let oid := value.objectId
  let iid := value.instanceId.getD 0
  [(oid >>> 8 &&& 0xFF).toUInt8, (oid &&& 0xFF).toUInt8, (iid >>> 8 &&& 0xFF).toUInt8, (iid &&& 0xFF).toUInt8]

/-- The `std::visit` of `encode_resource`. -/
def serialize : ResourceValue → Bytes
  | .monostate => []
  | .bool v => serializeBool v
  | .int v => serializeInt v
  | .uint v => serializeUint v
  | .double v => serializeFloat v
  | .string v => serializeString v
  | .opaqueBytes v => v
  | .time v => serializeTime v
  | .objlink v => serializeObjlink v

/-- `TlvEncoder::encode_resource`. -/
def encodeResource (rid : UInt16) (value : ResourceValue) : Result Bytes :=
  .ok (encodeRecord .Resource rid (serialize value))

/-- The type bits of an encoded record changed to `ResourceInstance`. -/
def asResourceInstance : Bytes → Bytes
  | [] => []
  | first :: rest =>
    let keptBits : UInt8 := first &&& 0x3F
    (keptBits ||| (TlvType.ResourceInstance.toBits <<< 6)) :: rest

/-- The loop of `encode_multi_resource`. -/
def encodeResourceInstances : List (UInt16 × ResourceValue) → Result Bytes
  | [] => .ok []
  | (riid,value) :: more => do
    let data ← encodeResource riid value
    let others ← encodeResourceInstances more
    .ok (asResourceInstance data ++ others)

/-- `TlvEncoder::encode_multi_resource`. -/
def encodeMultiResource (rid : UInt16) (instances : List (UInt16 × ResourceValue)) : Result Bytes := do
  let inner ← encodeResourceInstances instances
  .ok (encodeRecord .MultiResource rid inner)

/-- The loop of `encode_instance`. -/
def encodeResources : List (UInt16 × ResourceValue) → Result Bytes
  | [] => .ok []
  | (rid,value) :: more => do
    let data ← encodeResource rid value
    let others ← encodeResources more
    .ok (data ++ others)

/-- `TlvEncoder::encode_instance`. -/
def encodeInstance (iid : UInt16) (resources : List (UInt16 × ResourceValue)) : Result Bytes := do
  let inner ← encodeResources resources
  .ok (encodeRecord .ObjectInstance iid inner)

def deserializeBool : Bytes → Result Bool
  | [] => err .DecodingError "Empty boolean value"
  | b :: _ => .ok (b != 0)

/-- The shift-and-or loop runs on the bit pattern; a set sign bit of a short value
    is extended through the mask of the bits above it. -/
def deserializeInt (data : Bytes) : Result Int64 :=
  if data.length = 0 ∨ 8 < data.length then err .DecodingError "Invalid integer length"
  else
    let negative := (data.headD 0 &&& 0x80) != 0
    let value := data.foldl BigEndian.shiftIn 0
    if negative && data.length < 8 then
      let mask := ~~~((1 <<< UInt64.ofNat (data.length * 8)) - 1)
      .ok (value ||| mask).toInt64
    else .ok value.toInt64

def deserializeUint (data : Bytes) : Result UInt64 :=
  if data.length = 0 ∨ 8 < data.length then err .DecodingError "Invalid integer length"
  else .ok (data.foldl BigEndian.shiftIn 0)

/-- `static_cast<double>` of a `float`, on bit patterns: the exponent is rebiased,
    the fraction moves up 29 bits, a subnormal is normalised and a NaN turned quiet. -/
def floatToDouble (bits : Nat) : Nat :=
  let sign := bits / 2 ^ 31
  let exponent := bits / 2 ^ 23 % 2 ^ 8
  let fraction := bits % 2 ^ 23
  let magnitude :=
    if exponent = 255 then
      2047 * 2 ^ 52 + (if fraction = 0 then 0 else 2 ^ 51 + fraction % 2 ^ 22 * 2 ^ 29)
    else if exponent = 0 then
      if fraction = 0 then 0
      else (Nat.log2 fraction + 874) * 2 ^ 52 + (fraction - 2 ^ Nat.log2 fraction) * 2 ^ (52 - Nat.log2 fraction)
    else (exponent + 896) * 2 ^ 52 + fraction * 2 ^ 29
  sign * 2 ^ 63 + magnitude

def deserializeFloat (data : Bytes) : Result Double :=
  if data.length = 4 then .ok ⟨UInt64.ofNat (floatToDouble (BigEndian.value data))⟩
  else if data.length = 8 then .ok ⟨data.foldl BigEndian.shiftIn 0⟩
  else err .DecodingError "Invalid float length"

def deserializeString (data : Bytes) : Result Bytes := .ok data

/-- The seconds are converted to the clock's nanoseconds in 64 bits; a product that
    does not fit wraps around, where C++ leaves the result undefined. -/
def deserializeTime (data : Bytes) : Result TimePoint :=
  match deserializeInt data with
  | .error e => .error e
  | .ok seconds => .ok ⟨seconds * nsPerSecond⟩

def deserializeObjlink : Bytes → Result ObjectPath
  | [o1, o0, i1, i0] =>
    let oid := (o1.toUInt16 <<< 8) ||| o0.toUInt16
    let iid := (i1.toUInt16 <<< 8) ||| i0.toUInt16
    .ok { objectId := oid, instanceId := some iid }
  | _ => err .DecodingError "Invalid object link length"

/-- `TlvDecoder::decode_resource`. -/
def decodeResource (data : Bytes) : ResourceType → Result ResourceValue
  | .Boolean => (deserializeBool data).map .bool
  | .Integer => (deserializeInt data).map .int
  | .UnsignedInteger => (deserializeUint data).map .uint
  | .Float => (deserializeFloat data).map .double
  | .String => (deserializeString data).map .string
  | .Opaque => .ok (.opaqueBytes data)
  | .Time => (deserializeTime data).map .time
  | .ObjectLink => (deserializeObjlink data).map .objlink
  | .None => .ok .monostate

theorem byteAt_toNat (value : UInt64) {shift : UInt64} (inside : shift.toNat < 64) :
    (byteAt value shift).toNat = value.toNat / 2 ^ shift.toNat % 256 := by
  simp only [byteAt]
  rw [UInt64.toNat_toUInt8, UInt64.toNat_and, UInt64.toNat_shiftRight]
  show (value.toNat >>> (shift.toNat % 64) &&& 2 ^ 8 - 1) % 2 ^ 8 = _
  rw [Nat.mod_eq_of_lt inside, Nat.and_two_pow_sub_one_eq_mod, Nat.mod_mod, Nat.shiftRight_eq_div_pow]

/-- A byte taken at a shift is a base-256 digit. -/
theorem byteAt_digit (value : UInt64) (k : Nat) (shift : UInt64) (at_k : shift.toNat = 8 * k) (inside : k < 8) :
    byteAt value shift = UInt8.ofNat (value.toNat / 256 ^ k) := by
  apply UInt8.toNat_inj.mp
  rw [byteAt_toNat value (by omega), at_k, UInt8.toNat_ofNat', Nat.pow_mul]

theorem low_digit (value : UInt64) : value.toUInt8 = UInt8.ofNat (value.toNat / 256 ^ 0) := by
  apply UInt8.toNat_inj.mp
  simp

theorem digits_one (value : UInt64) : [value.toUInt8] = BigEndian.digits 1 value.toNat := by
  rw [BigEndian.digits, BigEndian.digits, low_digit]

theorem digits_two (value : UInt64) : [byteAt value 8, byteAt value 0] = BigEndian.digits 2 value.toNat := by
  simp only [BigEndian.digits, byteAt_digit value 1 8 rfl (by decide), byteAt_digit value 0 0 rfl (by decide)]

theorem digits_four (value : UInt64) :
    [byteAt value 24, byteAt value 16, byteAt value 8, byteAt value 0] = BigEndian.digits 4 value.toNat := by
  simp only [BigEndian.digits, byteAt_digit value 3 24 rfl (by decide), byteAt_digit value 2 16 rfl (by decide),
    byteAt_digit value 1 8 rfl (by decide), byteAt_digit value 0 0 rfl (by decide)]

theorem digits_eight (value : UInt64) :
    [byteAt value 56, byteAt value 48, byteAt value 40, byteAt value 32, byteAt value 24, byteAt value 16,
      byteAt value 8, byteAt value 0] = BigEndian.digits 8 value.toNat := by
  simp only [BigEndian.digits, byteAt_digit value 7 56 rfl (by decide), byteAt_digit value 6 48 rfl (by decide),
    byteAt_digit value 5 40 rfl (by decide), byteAt_digit value 4 32 rfl (by decide),
    byteAt_digit value 3 24 rfl (by decide), byteAt_digit value 2 16 rfl (by decide),
    byteAt_digit value 1 8 rfl (by decide), byteAt_digit value 0 0 rfl (by decide)]

/-- The big-endian digits of an unsigned number, in the width that `serialize_uint` picks. -/
def uintWidth (value : UInt64) : Nat :=
  if value ≤ 255 then 1 else if value ≤ 65535 then 2 else if value ≤ 16777215 then 4 else 8

/-- The width that `serialize_int` picks. -/
def intWidth (value : Int64) : Nat :=
  if -128 ≤ value ∧ value ≤ 127 then 1 else if -32768 ≤ value ∧ value ≤ 32767 then 2
  else if -8388608 ≤ value ∧ value ≤ 8388607 then 4 else 8

theorem serializeUint_eq (value : UInt64) :
    serializeUint value = BigEndian.digits (uintWidth value) value.toNat := by
  simp only [serializeUint, uintWidth]
  split_ifs
  · exact digits_one value
  · exact digits_two value
  · exact digits_four value
  · exact digits_eight value

theorem serializeInt_eq (value : Int64) :
    serializeInt value = BigEndian.digits (intWidth value) value.toUInt64.toNat := by
  simp only [serializeInt, intWidth]
  split_ifs
  · exact digits_one _
  · exact digits_two _
  · exact digits_four _
  · exact digits_eight _

theorem uintWidth_fits (value : UInt64) : value.toNat < 256 ^ uintWidth value := by
  have bound := value.toNat_lt
  simp only [uintWidth]
  simp only [UInt64.le_iff_toNat_le]
  split_ifs with one two four
  · exact Nat.lt_succ_of_le one
  · exact Nat.lt_succ_of_le two
  · exact Nat.lt_of_le_of_lt four (by decide)
  · exact bound

theorem deserializeUint_serialize (value : UInt64) : deserializeUint (serializeUint value) = .ok value := by
  have widths : uintWidth value ≠ 0 ∧ uintWidth value ≤ 8 := by
    simp only [uintWidth]
    split_ifs <;> decide
  have size : (serializeUint value).length = uintWidth value := by rw [serializeUint_eq, BigEndian.digits_length]
  simp only [deserializeUint]
  rw [size, if_neg (by omega)]
  congr 1
  apply UInt64.toNat_inj.mp
  rw [BigEndian.foldl_shiftIn_exact (by omega), serializeUint_eq, BigEndian.value_digits_of_lt (uintWidth_fits value)]

theorem toInt_of_bits (bits : UInt64) :
    bits.toInt64.toInt = if 2 * bits.toNat < 2 ^ 64 then (bits.toNat : Int) else bits.toNat - 2 ^ 64 := by
  show bits.toBitVec.toInt = _
  rw [BitVec.toInt_eq_toNat_cond]
  rfl

theorem sign_bit (b : UInt8) : ((b &&& 0x80) != 0) = decide (128 ≤ b.toNat) := by
  have byByte : ∀ b : Fin 256, ((UInt8.ofFin b &&& 0x80) != 0) = decide (128 ≤ (UInt8.ofFin b).toNat) := by
    decide +kernel
  exact byByte b.toFin

/-- The mask sets every bit above the `n` bytes read. -/
theorem extend_sign {word : UInt64} {n : Nat} (some : n ≠ 0) (short : n < 8) (inside : word.toNat < 256 ^ n) :
    (word ||| ~~~((1 <<< UInt64.ofNat (n * 8)) - 1)).toNat = word.toNat + (2 ^ 64 - 256 ^ n) := by
  have mask : (~~~(((1 : UInt64) <<< UInt64.ofNat (n * 8)) - 1)).toNat = (2 ^ (64 - 8 * n) - 1) <<< (8 * n) := by
    have cases : n = 1 ∨ n = 2 ∨ n = 3 ∨ n = 4 ∨ n = 5 ∨ n = 6 ∨ n = 7 := by omega
    rcases cases with rfl | rfl | rfl | rfl | rfl | rfl | rfl <;> rfl
  have bits : 256 ^ n = 2 ^ (8 * n) := (Nat.pow_mul 2 8 n).symm
  rw [bits] at inside ⊢
  rw [UInt64.toNat_or, mask, Nat.or_comm, ← Nat.shiftLeft_add_eq_or_of_lt inside, Nat.shiftLeft_eq, Nat.sub_mul,
    ← Nat.pow_add, Nat.one_mul, show 64 - 8 * n + 8 * n = 64 by omega, Nat.add_comm]

/-- `deserialize_int` reads one to eight bytes as a two's-complement number. -/
theorem deserializeInt_signed {data : Bytes} (some : data.length ≠ 0) (short : data.length ≤ 8) :
    ∃ v, deserializeInt data = .ok v ∧ v.toInt = BigEndian.signed data := by
  have word : (data.foldl BigEndian.shiftIn 0).toNat = BigEndian.value data := BigEndian.foldl_shiftIn_exact short
  have bound := BigEndian.value_lt data
  have sign : ((data.headD 0 &&& 0x80) != 0) = decide (256 ^ data.length ≤ 2 * BigEndian.value data) := by
    cases data with
    | nil => exact absurd rfl some
    | cons b rest => simp only [List.headD_cons, sign_bit, List.length_cons, BigEndian.signed_head]
  simp only [deserializeInt, BigEndian.signed]
  rw [if_neg (by omega), sign]
  simp only [Bool.and_eq_true, decide_eq_true_eq]
  by_cases full : data.length = 8
  · refine ⟨_,by rw [if_neg (by omega)],?_⟩
    rw [toInt_of_bits, word, full]
    norm_num
  · have room : 256 ^ data.length * 256 ≤ 2 ^ 64 := by
      rw [← Nat.pow_succ]
      calc 256 ^ (data.length + 1) ≤ 256 ^ 8 := Nat.pow_le_pow_right (by decide) (by omega)
        _ = 2 ^ 64 := by decide
    by_cases negative : 256 ^ data.length ≤ 2 * BigEndian.value data
    · refine ⟨_,by rw [if_pos ⟨negative,by omega⟩],?_⟩
      rw [toInt_of_bits, extend_sign some (by omega) (by rw [word]; exact bound), word, if_neg (by omega),
        if_neg (by omega)]
      omega
    · refine ⟨_,by rw [if_neg (by omega)],?_⟩
      rw [toInt_of_bits, word, if_pos (by omega), if_pos (by omega)]

/-- The division of `duration_cast` stays within the word. -/
theorem seconds_toInt (ns : Int64) : (ns / nsPerSecond).toInt = ns.toInt.tdiv 1000000000 := by
  have unit : nsPerSecond.toInt = 1000000000 := by decide
  rw [Int64.toInt_div_of_ne_right _ _ (by decide), unit]

theorem intWidth_eq (value : Int64) :
    intWidth value =
      if -128 ≤ value.toInt ∧ value.toInt ≤ 127 then 1 else if -32768 ≤ value.toInt ∧ value.toInt ≤ 32767 then 2
      else if -8388608 ≤ value.toInt ∧ value.toInt ≤ 8388607 then 4 else 8 := by
  have one : (-128 : Int64).toInt = -128 ∧ (127 : Int64).toInt = 127 := by decide
  have two : (-32768 : Int64).toInt = -32768 ∧ (32767 : Int64).toInt = 32767 := by decide
  have four : (-8388608 : Int64).toInt = -8388608 ∧ (8388607 : Int64).toInt = 8388607 := by decide
  simp only [intWidth]
  simp only [Int64.le_iff_toInt_le, one, two, four]

/-- The width of `serialize_int` holds the number. -/
theorem intWidth_fits (value : Int64) :
    -(256 ^ intWidth value : Nat) ≤ 2 * value.toInt ∧ 2 * value.toInt < (256 ^ intWidth value : Nat) := by
  have low := value.le_toInt
  have high := value.toInt_lt
  rw [intWidth_eq]
  split_ifs
  all_goals constructor <;> omega

/-- A word and its number are the same up to any width of at most eight bytes. -/
theorem toInt_emod (value : Int64) {width : Nat} (short : width ≤ 8) :
    value.toInt % (256 ^ width : Nat) = (value.toUInt64.toNat % 256 ^ width : Nat) := by
  obtain ⟨k,whole⟩ : 256 ^ width ∣ 2 ^ 64 := Nat.pow_dvd_pow 256 short
  have wraps : (2 : Int) ^ 64 = (256 ^ width : Nat) * k := by exact_mod_cast whole
  have bits := toInt_of_bits value.toUInt64
  rw [Int64.toInt64_toUInt64] at bits
  rw [bits, Int.natCast_mod]
  split_ifs
  · rfl
  · rw [wraps, Int.sub_mul_emod_self_left]

theorem deserializeInt_serialize (value : Int64) : deserializeInt (serializeInt value) = .ok value := by
  have widths : intWidth value ≠ 0 ∧ intWidth value ≤ 8 := by
    simp only [intWidth]
    split_ifs <;> decide
  have size : (serializeInt value).length = intWidth value := by rw [serializeInt_eq, BigEndian.digits_length]
  obtain ⟨v,done,same⟩ := deserializeInt_signed (by rw [size]; exact widths.1) (by rw [size]; exact widths.2)
  obtain ⟨low,high⟩ := intWidth_fits value
  rw [done]
  congr 1
  apply Int64.toInt_inj.mp
  rw [same, serializeInt_eq, BigEndian.signed_digits (toInt_emod value widths.2) low high]

end Ferriot.Tlv
