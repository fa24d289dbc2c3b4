import Ferriot.Types
import Ferriot.BigEndian
import Ferriot.Framing

/-!
TLV records: `encode_record`, `parse_record` and the depth-bounded decoder.
-/
namespace Ferriot.Tlv
open Framing

/-- `TlvType`, bits 7-6 of the type byte. -/
inductive TlvType where
  | ObjectInstance | ResourceInstance | MultiResource | Resource
deriving DecidableEq, Repr

def TlvType.toBits : TlvType → UInt8
  | .ObjectInstance => 0
  | .ResourceInstance => 1
  | .MultiResource => 2
  | .Resource => 3

/-- `static_cast<TlvType>` of a two-bit value. -/
def TlvType.ofBits (bits : UInt8) : TlvType :=
  if bits = 0 then .ObjectInstance else if bits = 1 then .ResourceInstance
  else if bits = 2 then .MultiResource else .Resource

/-- The types whose value is parsed again: `ObjectInstance` and `MultiResource`. -/
def TlvType.isContainer : TlvType → Bool
  | .ObjectInstance => true
  | .MultiResource => true
  | _ => false

structure TlvRecord where
  type : TlvType
  id : UInt16
  value : Bytes
  children : List TlvRecord

/-! ### Encoder -/

/-- Bits 7-6: type; bit 5: id width; bits 4-3: length width; bits 2-0: inline length. -/
def typeByte (type : TlvType) (id : UInt16) (len : Nat) : UInt8 :=
  (type.toBits <<< 6) ||| (if 255 < id then 0x20 else 0) |||
    (if len < 8 then UInt8.ofNat len &&& 0x07 else if len < 256 then 0x08 else if len < 65536 then 0x10 else 0x18)

def idField (id : UInt16) : Bytes :=
  if 255 < id then [(id >>> 8 &&& 0xFF).toUInt8, (id &&& 0xFF).toUInt8] else [id.toUInt8]

/-- The length field, absent when the length is inline; a length past 24 bits is cut. -/
def lengthField (len : Nat) : Bytes :=
  if len < 8 then []
  else if len < 256 then [UInt8.ofNat len]
  else if len < 65536 then [UInt8.ofNat (len >>> 8 &&& 0xFF), UInt8.ofNat (len &&& 0xFF)]
  else [UInt8.ofNat (len >>> 16 &&& 0xFF), UInt8.ofNat (len >>> 8 &&& 0xFF), UInt8.ofNat (len &&& 0xFF)]

/-- `TlvEncoder::encode_record`. -/
def encodeRecord (type : TlvType) (id : UInt16) (value : Bytes) : Bytes :=
  typeByte type id value.length :: (idField id ++ lengthField value.length ++ value)

/-- `encode_record` of each record, joined: a container's value holds its children so. -/
def encodeRecords (records : List TlvRecord) : Bytes :=
  records.flatMap (fun r => encodeRecord r.type r.id r.value)

/-! ### Decoder -/

/-- The id after the type byte, and the bytes it takes. -/
def parseId (id16bit : Bool) (data : Bytes) : Result (UInt16 × Nat) :=
  if id16bit then
    match data with
    | hi :: lo :: _ => .ok ((hi.toUInt16 <<< 8) ||| lo.toUInt16,2)
    | _ => err .DecodingError "Truncated TLV"
  else
    match data with
    | b :: _ => .ok (b.toUInt16,1)
    | _ => err .DecodingError "Truncated TLV"

/-- The length after the id, and the bytes it takes. -/
def parseLength (lengthType typeByte : UInt8) (data : Bytes) : Result (Nat × Nat) :=
  if lengthType = 0 then .ok ((typeByte &&& 0x07).toNat,0)
  else if lengthType = 1 then
    match data with
    | b :: _ => .ok (b.toNat,1)
    | _ => err .DecodingError "Truncated TLV"
  else if lengthType = 2 then
    match data with
    | hi :: lo :: _ => .ok ((hi.toNat <<< 8) ||| lo.toNat,2)
    | _ => err .DecodingError "Truncated TLV"
  else
    match data with
    | hi :: mid :: lo :: _ => .ok ((hi.toNat <<< 16) ||| (mid.toNat <<< 8) ||| lo.toNat,3)
    | _ => err .DecodingError "Truncated TLV"

/-- The nested records of a container. A nested decoding error is dropped, and
    the record keeps no children. -/
def nestedChildren (nested : Bytes → Result (List TlvRecord)) (type : TlvType) (value : Bytes) : List TlvRecord :=
  if type.isContainer then
    match nested value with
    | .ok children => children
    | .error _ => []
  else []

/-- `TlvDecoder::parse_record`: the record at the front and the bytes consumed.
    `nested` is `decode_impl` one level further down. -/
def parseRecord (nested : Bytes → Result (List TlvRecord)) : Bytes → Result (TlvRecord × Nat)
  | [] => err .DecodingError "Empty TLV data"
  | typeByte :: afterType => do
    let type := TlvType.ofBits ((typeByte >>> 6) &&& 0x03)
    let id16bit := (typeByte &&& 0x20) != 0
    let lengthType := (typeByte >>> 3) &&& 0x03
    let (id,idBytes) ← parseId id16bit afterType
    let afterId := afterType.drop idBytes
    let (valueLength,lengthBytes) ← parseLength lengthType typeByte afterId
    let afterLength := afterId.drop lengthBytes
    if afterLength.length < valueLength then err .DecodingError "Truncated TLV value"
    else
      let value := afterLength.take valueLength
      .ok (⟨type,id,value,nestedChildren nested type value⟩,1 + idBytes + lengthBytes + valueLength)

theorem parseRecord_progress {nested : Bytes → Result (List TlvRecord)} {data : Bytes} {record : TlvRecord}
    {used : Nat} (parsed : parseRecord nested data = .ok (record,used)) : 0 < used := by
  cases data with
  | nil => cases parsed
  | cons typeByte afterType =>
    simp only [parseRecord, bind, Except.bind] at parsed
    split at parsed
    · cases parsed
    · split at parsed
      · cases parsed
      · split at parsed
        · cases parsed
        · cases parsed
          omega

def recordReader (nested : Bytes → Result (List TlvRecord)) : Reader UInt8 TlvRecord Error :=
  ⟨parseRecord nested,parseRecord_progress⟩

def kMaxTlvDepth : Nat := 8

/-- `TlvDecoder::decode_impl` with `levels` levels of nesting left to open. -/
def decodeLevels : Nat → Bytes → Result (List TlvRecord)
  | 0, _ => err .DecodingError "TLV nesting too deep"
  | levels+1, data => (recordReader (decodeLevels levels)).readAll data

/-- `TlvDecoder::decode_impl(data, depth)`. -/
def decodeImpl (data : Bytes) (depth : Nat) : Result (List TlvRecord) := decodeLevels (kMaxTlvDepth + 1 - depth) data

/-- `TlvDecoder::decode`. -/
def decode (data : Bytes) : Result (List TlvRecord) := decodeImpl data 0

/-- `decode_impl` as the source spells it: the depth guard, then the loop over
    `parse_record`, which decodes nested values one level further down. -/
theorem decodeImpl_eq (data : Bytes) (depth : Nat) :
    decodeImpl data depth =
      if kMaxTlvDepth < depth then err .DecodingError "TLV nesting too deep"
      else (recordReader (fun value => decodeImpl value (depth+1))).readAll data := by
  simp only [decodeImpl]
  split
  · next deep => rw [Nat.sub_eq_zero_of_le (by omega)]; rfl
  · next shallow =>
    have open_level : kMaxTlvDepth + 1 - depth = kMaxTlvDepth + 1 - (depth+1) + 1 := by omega
    rw [open_level]
    rfl

example : (decode [0xC1]).isOk = false := rfl
example : decode [0xE1, 0x03, 0xE8, 0x2A] = .ok [⟨.Resource,1000,[0x2A],[]⟩] := rfl

end Ferriot.Tlv
