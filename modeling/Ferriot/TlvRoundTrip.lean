import Ferriot.TlvValues

/-!
# Typed values come back

What `encode_resource`, `encode_instance` and `encode_multi_resource` write is
decoded to the records written, and their values to the values written; only a
time loses the part below a second.
-/
namespace Ferriot.Tlv
open Framing

/-- A time cut toward zero to whole seconds. -/
def wholeSeconds (t : TimePoint) : TimePoint := ⟨Int64.ofInt (t.ns.toInt.tdiv 1000000000 * 1000000000)⟩

/-- What comes back of a value. -/
def settled : ResourceValue → ResourceValue
  | .time t => .time (wholeSeconds t)
  | v => v

/-- An object link is written with its object and instance only; every other value is written whole. -/
def Storable : ResourceValue → Prop
  | .objlink path => path.instanceId.isSome = true ∧ path.resourceId = none ∧ path.resourceInstanceId = none
  | _ => True

/-- Cutting to whole seconds stays within the clock's range: nothing wraps around. -/
theorem wholeSeconds_exact (t : TimePoint) :
    (wholeSeconds t).ns.toInt = t.ns.toInt.tdiv 1000000000 * 1000000000 := by
  have low := t.ns.le_toInt
  have high := t.ns.toInt_lt
  have shorter := Int.natAbs_tdiv t.ns.toInt 1000000000
  have product : t.ns.toInt.natAbs / 1000000000 * 1000000000 ≤ t.ns.toInt.natAbs := Nat.div_mul_le_self _ _
  change _ = t.ns.toInt.natAbs / 1000000000 at shorter
  rw [← shorter] at product
  exact Int64.toInt_ofInt_of_le (by omega) (by omega)

/-- The 64-bit conversion to seconds and back is that cut. -/
theorem wholeSeconds_eq (t : TimePoint) : wholeSeconds t = ⟨t.ns / nsPerSecond * nsPerSecond⟩ := by
  have unit : nsPerSecond.toInt = 1000000000 := by decide
  simp only [wholeSeconds]
  congr 1
  apply Int64.toInt_inj.mp
  rw [Int64.toInt_mul, seconds_toInt, unit, Int64.toInt_ofInt]

theorem deserializeTime_serialize (t : TimePoint) : deserializeTime (serializeTime t) = .ok (wholeSeconds t) := by
  simp only [deserializeTime, serializeTime]
  rw [deserializeInt_serialize, wholeSeconds_eq]

theorem deserializeFloat_serialize (v : Double) : deserializeFloat (serializeFloat v) = .ok v := by
  have bytes : serializeFloat v = BigEndian.digits 8 v.bits.toNat := digits_eight v.bits
  have size : (serializeFloat v).length = 8 := rfl
  have word : (serializeFloat v).foldl BigEndian.shiftIn 0 = v.bits := by
    apply UInt64.toNat_inj.mp
    rw [BigEndian.foldl_shiftIn_exact (by omega), bytes, BigEndian.value_digits_of_lt v.bits.toNat_lt]
  simp only [deserializeFloat]
  rw [size, if_neg (by decide), if_pos rfl, word]

theorem split_word (id : UInt16) :
    (((id >>> 8 &&& 0xFF).toUInt8).toUInt16 <<< 8) ||| ((id &&& 0xFF).toUInt8).toUInt16 = id := by
  apply UInt16.toNat_inj.mp
  have parts := idField_value id
  rw [pair_word]
  have bound := id.toNat_lt
  simp only [UInt16.toNat_toUInt8, UInt16.toNat_and, UInt16.toNat_shiftRight]
  show (id.toNat >>> 8 &&& 2 ^ 8 - 1) % 2 ^ 8 * 256 + (id.toNat &&& 2 ^ 8 - 1) % 2 ^ 8 = id.toNat
  rw [Nat.and_two_pow_sub_one_eq_mod, Nat.and_two_pow_sub_one_eq_mod, Nat.shiftRight_eq_div_pow]
  omega

theorem deserializeObjlink_serialize {path : ObjectPath} (storable : Storable (.objlink path)) :
    deserializeObjlink (serializeObjlink path) = .ok path := by
  obtain ⟨oid,iid,rid,riid⟩ := path
  obtain ⟨some,rfl,rfl⟩ := storable
  obtain ⟨iid,rfl⟩ := Option.isSome_iff_exists.mp some
  simp only [serializeObjlink, deserializeObjlink, Option.getD_some, split_word]

/-- Every value comes back from its own bytes under its own type. -/
theorem decodeResource_serialize {v : ResourceValue} (storable : Storable v) :
    decodeResource (serialize v) (getResourceType v) = .ok (settled v) := by
  cases v with
  | monostate => rfl
  | bool v => cases v <;> rfl
  | int v => simp [decodeResource,getResourceType,serialize,settled,deserializeInt_serialize,Except.map]
  | uint v => simp [decodeResource,getResourceType,serialize,settled,deserializeUint_serialize,Except.map]
  | double v => simp [decodeResource,getResourceType,serialize,settled,deserializeFloat_serialize,Except.map]
  | string v => rfl
  | opaqueBytes v => rfl
  | time v => simp [decodeResource,getResourceType,serialize,settled,deserializeTime_serialize,Except.map]
  | objlink v =>
    simp [decodeResource,getResourceType,serialize,settled,deserializeObjlink_serialize storable,Except.map]

/-- The records that a list of values is written as. -/
def valueRecords (type : TlvType) (list : List (UInt16 × ResourceValue)) : List TlvRecord :=
  list.map (fun entry => ⟨type,entry.1,serialize entry.2,[]⟩)

/-- The records have the type and the ids of the list, in order, and their values
    decode to the listed ones. -/
def ValuesRead (type : TlvType) (records : List TlvRecord) (list : List (UInt16 × ResourceValue)) : Prop :=
  List.Forall₂ (fun r entry => r.type = type ∧ r.id = entry.1 ∧
    decodeResource r.value (getResourceType entry.2) = .ok (settled entry.2)) records list

theorem valuesRead_valueRecords (type : TlvType) {list : List (UInt16 × ResourceValue)}
    (storable : ∀ entry ∈ list, Storable entry.2) : ValuesRead type (valueRecords type list) list := by
  simp only [ValuesRead, valueRecords]
  rw [List.forall₂_map_left_iff, List.forall₂_same]
  intro entry member
  exact ⟨rfl,rfl,decodeResource_serialize (storable entry member)⟩

theorem asResourceInstance_encodeRecord (id : UInt16) (value : Bytes) :
    asResourceInstance (encodeRecord .Resource id value) = encodeRecord .ResourceInstance id value := by
  have patched : ∀ (wide : Bool) (low : Fin 32),
      let fields (type : TlvType) : UInt8 := (type.toBits <<< 6) ||| (if wide then 0x20 else 0) ||| UInt8.ofNat low.val
      let keptBits : UInt8 := fields .Resource &&& 0x3F
      keptBits ||| (TlvType.ResourceInstance.toBits <<< 6) = fields .ResourceInstance := by decide +kernel
  have here := patched (decide (255 < id)) ⟨lengthBits value.length,lengthBits_lt _⟩
  simp only [asResourceInstance, encodeRecord]
  congr 1
  simpa [typeByte_eq] using here

theorem encodeResources_eq (list : List (UInt16 × ResourceValue)) :
    encodeResources list = .ok (encodeRecords (valueRecords .Resource list)) := by
  induction list with
  | nil => rfl
  | cons entry more ih => simp [encodeResources,ih,encodeResource,valueRecords,encodeRecords,bind,Except.bind]

theorem encodeResourceInstances_eq (list : List (UInt16 × ResourceValue)) :
    encodeResourceInstances list = .ok (encodeRecords (valueRecords .ResourceInstance list)) := by
  induction list with
  | nil => rfl
  | cons entry more ih =>
    simp [encodeResourceInstances,ih,encodeResource,valueRecords,encodeRecords,bind,Except.bind,
      asResourceInstance_encodeRecord]

theorem encodeRecord_length_ge (type : TlvType) (id : UInt16) (value : Bytes) :
    value.length ≤ (encodeRecord type id value).length := by
  simp only [encodeRecord, List.length_cons, List.length_append]
  omega

theorem encodeRecords_member {records : List TlvRecord} {r : TlvRecord} (member : r ∈ records) :
    r.value.length ≤ (encodeRecords records).length := by
  induction records with
  | nil => simp at member
  | cons s records ih =>
    simp only [encodeRecords, List.flatMap_cons, List.length_append]
    rcases List.mem_cons.mp member with rfl | later
    · exact Nat.le_add_right_of_le (encodeRecord_length_ge _ _ _)
    · have := ih later
      simp only [encodeRecords] at this
      omega

/-- A record that is no container is decoded to itself. -/
theorem decode_leaf {type : TlvType} (leaf : type.isContainer = false) (id : UInt16) {value : Bytes}
    (fits : value.length < 2 ^ 24) : decode (encodeRecord type id value) = .ok [⟨type,id,value,[]⟩] := by
  have single : IsForest 1 [⟨type,id,value,[]⟩] := by
    intro r member
    obtain rfl := List.mem_singleton.mp member
    rw [if_neg (by simp [leaf])]
    exact ⟨fits,rfl⟩
  have done : decode (encodeRecords [⟨type,id,value,[]⟩]) = _ :=
    decodeLevels_forest single (by decide : 1 ≤ kMaxTlvDepth + 1)
  simpa [encodeRecords] using done

/-- A container of values is decoded to one record with the values as its children. -/
theorem decode_container {outer inner : TlvType} (container : outer.isContainer = true)
    (leaf : inner.isContainer = false) (id : UInt16) (list : List (UInt16 × ResourceValue))
    (fits : (encodeRecords (valueRecords inner list)).length < 2 ^ 24) :
    decode (encodeRecord outer id (encodeRecords (valueRecords inner list))) =
      .ok [⟨outer,id,encodeRecords (valueRecords inner list),valueRecords inner list⟩] := by
  have below : IsForest 1 (valueRecords inner list) := by
    intro r member
    have short := encodeRecords_member member
    obtain ⟨entry,_,rfl⟩ := List.mem_map.mp member
    rw [if_neg (by simp [leaf])]
    exact ⟨Nat.lt_of_le_of_lt short fits,rfl⟩
  have whole : IsForest 2 [⟨outer,id,encodeRecords (valueRecords inner list),valueRecords inner list⟩] := by
    intro r member
    obtain rfl := List.mem_singleton.mp member
    rw [if_pos container]
    exact ⟨fits,rfl,below⟩
  have shallow : 2 ≤ kMaxTlvDepth + 1 := by decide
  have done : decode (encodeRecords [⟨outer,id,encodeRecords (valueRecords inner list),valueRecords inner list⟩]) = _ :=
    decodeLevels_forest whole shallow
  simpa [encodeRecords] using done

/-- Single resources, object instances and multi-instance resources are decoded to
    the records and the values they were written from. -/
theorem typed_roundTrip :
    (∀ (rid : UInt16) (v : ResourceValue), Storable v → (serialize v).length < 2 ^ 24 →
      ∃ data r, encodeResource rid v = .ok data ∧ decode data = .ok [r] ∧ r.type = .Resource ∧ r.id = rid ∧
        decodeResource r.value (getResourceType v) = .ok (settled v)) ∧
    (∀ (iid : UInt16) (list : List (UInt16 × ResourceValue)) (payload : Bytes), (∀ entry ∈ list, Storable entry.2) →
      encodeResources list = .ok payload → payload.length < 2 ^ 24 →
      ∃ data r, encodeInstance iid list = .ok data ∧ decode data = .ok [r] ∧ r.type = .ObjectInstance ∧ r.id = iid ∧
        ValuesRead .Resource r.children list) ∧
    (∀ (rid : UInt16) (list : List (UInt16 × ResourceValue)) (payload : Bytes), (∀ entry ∈ list, Storable entry.2) →
      encodeResourceInstances list = .ok payload → payload.length < 2 ^ 24 →
      ∃ data r, encodeMultiResource rid list = .ok data ∧ decode data = .ok [r] ∧ r.type = .MultiResource ∧
        r.id = rid ∧ ValuesRead .ResourceInstance r.children list) := by
  refine ⟨?_,?_,?_⟩
  · intro rid v storable fits
    exact ⟨_,_,rfl,decode_leaf rfl rid fits,rfl,rfl,decodeResource_serialize storable⟩
  · intro iid list payload storable encoded fits
    rw [encodeResources_eq] at encoded
    cases encoded
    refine ⟨_,_,?_,decode_container rfl rfl iid list fits,rfl,rfl,valuesRead_valueRecords .Resource storable⟩
    simp [encodeInstance,encodeResources_eq,bind,Except.bind]
  · intro rid list payload storable encoded fits
    rw [encodeResourceInstances_eq] at encoded
    cases encoded
    refine ⟨_,_,?_,decode_container rfl rfl rid list fits,rfl,rfl,valuesRead_valueRecords .ResourceInstance storable⟩
    simp [encodeMultiResource,encodeResourceInstances_eq,bind,Except.bind]

/-- A time, an instance with two resources, and a resource with two instances. -/
theorem typed_roundTrip_sample :
    (∃ data r, encodeResource 13 (.time ⟨1500000000⟩) = .ok data ∧ decode data = .ok [r] ∧ r.type = .Resource ∧
      r.id = 13 ∧ decodeResource r.value .Time = .ok (settled (.time ⟨1500000000⟩))) ∧
    (∃ data r, encodeInstance 0 [(1,.int (-42)), (300,.string [0x55])] = .ok data ∧ decode data = .ok [r] ∧
      r.type = .ObjectInstance ∧ r.id = 0 ∧ ValuesRead .Resource r.children [(1,.int (-42)), (300,.string [0x55])]) ∧
    (∃ data r, encodeMultiResource 6 [(0,.int 1), (1,.int 5)] = .ok data ∧ decode data = .ok [r] ∧
      r.type = .MultiResource ∧ r.id = 6 ∧ ValuesRead .ResourceInstance r.children [(0,.int 1), (1,.int 5)]) :=
  ⟨typed_roundTrip.1 13 (.time ⟨1500000000⟩) trivial (by decide),
    typed_roundTrip.2.1 0 _ _ (by simp [Storable]) rfl (by decide),
    typed_roundTrip.2.2 6 _ _ (by simp [Storable]) rfl (by decide)⟩

/-- The bytes announce a length that is not the value's, and are not decoded to the record. -/
structure Corrupt (h : Head) (data : Bytes) : Prop where
  announced : ∃ field, data = typeByte h.type h.id h.value.length :: (idField h.id ++ field ++ h.value) ∧
    field.length = 3 ∧ BigEndian.value field ≠ h.value.length
  misread : ∀ records, decode data = .ok records → records.map TlvRecord.head ≠ [h]

/-- From 2^24 on, only the low 24 bits of a length are written. -/
theorem lengthField_cut {len : Nat} (long : 65536 ≤ len) : BigEndian.value (lengthField len) = len % 2 ^ 24 := by
  simp only [lengthField]
  rw [if_neg (by omega), if_neg (by omega), if_neg (by omega), BigEndian.value_triple, low_byte, low_byte, low_byte,
    Nat.shiftRight_eq_div_pow, Nat.shiftRight_eq_div_pow]
  omega

theorem encodeRecord_corrupt (h : Head) (oversize : 2 ^ 24 ≤ h.value.length) :
    Corrupt h (encodeRecord h.type h.id h.value) := by
  refine ⟨⟨lengthField h.value.length,rfl,?_,?_⟩,?_⟩
  · rw [lengthField_length]
    simp only [lengthBits]
    rw [if_neg (by omega), if_neg (by omega), if_neg (by omega)]
  · rw [lengthField_cut (by omega)]
    have cut := Nat.mod_lt h.value.length (by decide : 0 < 2 ^ 24)
    omega
  · intro records done same
    obtain ⟨⟨frames,-,all⟩,-⟩ := (decodeLevels_succ_iff 8 _ _).mp done
    rw [same] at all
    cases all with
    | cons one _ => exact absurd one.value_lt (by omega)

/-- The encoders accept every value and every list of values that does not fit, and write a corrupt record. -/
theorem oversize_corrupt (id : UInt16) (v : ResourceValue) (list : List (UInt16 × ResourceValue)) (inner : Bytes) :
    (2 ^ 24 ≤ (serialize v).length →
      ∃ data, encodeResource id v = .ok data ∧ Corrupt ⟨.Resource,id,serialize v⟩ data) ∧
    (encodeResourceInstances list = .ok inner → 2 ^ 24 ≤ inner.length →
      ∃ data, encodeMultiResource id list = .ok data ∧ Corrupt ⟨.MultiResource,id,inner⟩ data) ∧
    (encodeResources list = .ok inner → 2 ^ 24 ≤ inner.length →
      ∃ data, encodeInstance id list = .ok data ∧ Corrupt ⟨.ObjectInstance,id,inner⟩ data) := by
  refine ⟨?_,?_,?_⟩
  · intro oversize
    exact ⟨_,rfl,encodeRecord_corrupt ⟨.Resource,id,serialize v⟩ oversize⟩
  · intro encoded oversize
    refine ⟨_,?_,encodeRecord_corrupt ⟨.MultiResource,id,inner⟩ oversize⟩
    simp [encodeMultiResource,encoded,bind,Except.bind]
  · intro encoded oversize
    refine ⟨_,?_,encodeRecord_corrupt ⟨.ObjectInstance,id,inner⟩ oversize⟩
    simp [encodeInstance,encoded,bind,Except.bind]

/-- A package of 16 MiB. -/
def largePackage : ResourceValue := .opaqueBytes (List.replicate 16777216 0)

theorem largePackage_length : (serialize largePackage).length = 2 ^ 24 := List.length_replicate

/-- In a list, the package makes the sum of the records too long. -/
theorem largePackage_inner (type : TlvType) : 2 ^ 24 ≤ (encodeRecords (valueRecords type [(0,largePackage)])).length := by
  have member : (⟨type,0,serialize largePackage,[]⟩ : TlvRecord) ∈ valueRecords type [(0,largePackage)] := by
    simp [valueRecords]
  have longer := encodeRecords_member member
  rwa [largePackage_length] at longer

theorem oversize_corrupt_package :
    (∃ data, encodeResource 0 largePackage = .ok data ∧ Corrupt ⟨.Resource,0,serialize largePackage⟩ data) ∧
    (∃ inner data, encodeMultiResource 0 [(0,largePackage)] = .ok data ∧ Corrupt ⟨.MultiResource,0,inner⟩ data) ∧
    (∃ inner data, encodeInstance 0 [(0,largePackage)] = .ok data ∧ Corrupt ⟨.ObjectInstance,0,inner⟩ data) :=
  ⟨(oversize_corrupt 0 largePackage [] []).1 largePackage_length.ge,
    ⟨_,(oversize_corrupt 0 largePackage [(0,largePackage)] _).2.1 (encodeResourceInstances_eq _) (largePackage_inner _)⟩,
    ⟨_,(oversize_corrupt 0 largePackage [(0,largePackage)] _).2.2 (encodeResources_eq _) (largePackage_inner _)⟩⟩

/-- The package is encoded without an error. -/
theorem largePackage_accepted : ¬ ∃ e, encodeResource 0 largePackage = .error e := by
  rintro ⟨e,refused⟩
  cases refused

end Ferriot.Tlv
