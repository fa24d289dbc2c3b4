import Ferriot.TlvRecords
import Mathlib.Tactic.SplitIfs

/-!
# The TLV format

What a record looks like on the wire, in numbers and lengths rather than in
shifts and masks, and that `parse_record` and `decode` accept exactly this.
-/
namespace Ferriot.Tlv
open Framing

/-- What a record says of itself, its children aside. -/
structure Head where
  type : TlvType
  id : UInt16
  value : Bytes

def TlvRecord.head (r : TlvRecord) : Head := ⟨r.type,r.id,r.value⟩

@[simp] theorem TlvRecord.head_type (r : TlvRecord) : r.head.type = r.type := rfl
@[simp] theorem TlvRecord.head_id (r : TlvRecord) : r.head.id = r.id := rfl
@[simp] theorem TlvRecord.head_value (r : TlvRecord) : r.head.value = r.value := rfl

/-- One record on the wire: a type byte, one or two id bytes (bit 5), zero to
    three length bytes (bits 4-3, the length in bits 2-0 when there are none) and
    exactly that many value bytes. -/
def Frame (h : Head) (frame : Bytes) : Prop :=
  ∃ (t : UInt8) (id length : Bytes),
    frame = t :: (id ++ length ++ h.value) ∧
    t.toNat / 64 = h.type.toBits.toNat ∧
    id.length = t.toNat / 32 % 2 + 1 ∧ BigEndian.value id = h.id.toNat ∧
    length.length = t.toNat / 8 % 4 ∧
    h.value.length = if length = [] then t.toNat % 8 else BigEndian.value length

/-- The input is cut into records with the given heads. -/
abbrev Records (data : Bytes) (heads : List Head) (frames : List Bytes) : Prop := Splits Frame data heads frames

theorem type_bits (t : UInt8) : ((t >>> 6) &&& 0x03).toNat = t.toNat / 64 := by
  have bound := t.toNat_lt
  simp only [UInt8.toNat_and, UInt8.toNat_shiftRight]
  show t.toNat >>> 6 &&& 2 ^ 2 - 1 = _
  rw [Nat.and_two_pow_sub_one_eq_mod, Nat.shiftRight_eq_div_pow]
  omega

theorem length_type_bits (t : UInt8) : ((t >>> 3) &&& 0x03).toNat = t.toNat / 8 % 4 := by
  simp only [UInt8.toNat_and, UInt8.toNat_shiftRight]
  show t.toNat >>> 3 &&& 2 ^ 2 - 1 = _
  rw [Nat.and_two_pow_sub_one_eq_mod, Nat.shiftRight_eq_div_pow]

theorem inline_length_bits (t : UInt8) : (t &&& 0x07).toNat = t.toNat % 8 := by
  rw [UInt8.toNat_and]
  show t.toNat &&& 2 ^ 3 - 1 = _
  rw [Nat.and_two_pow_sub_one_eq_mod]

theorem id_16bit (t : UInt8) : ((t &&& 0x20) != 0).toNat = t.toNat / 32 % 2 := by
  have byByte : ∀ b : Fin 256, ((UInt8.ofFin b &&& 0x20) != 0).toNat = (UInt8.ofFin b).toNat / 32 % 2 := by
    decide +kernel
  exact byByte t.toFin

theorem ofBits_toBits (type : TlvType) : TlvType.ofBits type.toBits = type := by cases type <;> rfl

theorem toBits_ofBits {bits : UInt8} (two : bits.toNat < 4) : (TlvType.ofBits bits).toBits = bits := by
  have byByte : ∀ b : Fin 256, (UInt8.ofFin b).toNat < 4 →
      (TlvType.ofBits (UInt8.ofFin b)).toBits = UInt8.ofFin b := by decide +kernel
  exact byByte bits.toFin two

/-- The type read off a type byte is the type whose bits it carries. -/
theorem ofBits_iff (t : UInt8) (type : TlvType) :
    TlvType.ofBits ((t >>> 6) &&& 0x03) = type ↔ t.toNat / 64 = type.toBits.toNat := by
  have bound := t.toNat_lt
  constructor
  · rintro rfl
    rw [toBits_ofBits (by rw [type_bits]; omega), type_bits]
  · intro bits
    rw [← type_bits] at bits
    rw [UInt8.toNat_inj.mp bits, ofBits_toBits]

theorem pair_word (hi lo : UInt8) : ((hi.toUInt16 <<< 8) ||| lo.toUInt16).toNat = hi.toNat * 256 + lo.toNat := by
  have high := hi.toNat_lt
  have low := lo.toNat_lt
  simp only [UInt16.toNat_or, UInt16.toNat_shiftLeft, UInt8.toNat_toUInt16]
  show hi.toNat <<< 8 % 2 ^ 16 ||| lo.toNat = _
  have whole : hi.toNat <<< 8 % 2 ^ 16 = hi.toNat <<< 8 := by
    rw [Nat.shiftLeft_eq]
    omega
  rw [whole, ← Nat.shiftLeft_add_eq_or_of_lt (by simpa using low), Nat.shiftLeft_eq]

theorem pair_length (hi lo : UInt8) : (hi.toNat <<< 8) ||| lo.toNat = hi.toNat * 256 + lo.toNat := by
  rw [← Nat.shiftLeft_add_eq_or_of_lt (by simpa using lo.toNat_lt), Nat.shiftLeft_eq]

theorem triple_length (hi mid lo : UInt8) :
    (hi.toNat <<< 16) ||| (mid.toNat <<< 8) ||| lo.toNat = (hi.toNat * 256 + mid.toNat) * 256 + lo.toNat := by
  have low := mid.toNat_lt
  have inner : mid.toNat <<< 8 < 2 ^ 16 := by
    rw [Nat.shiftLeft_eq]
    omega
  rw [← Nat.shiftLeft_add_eq_or_of_lt inner]
  have front : hi.toNat <<< 16 + mid.toNat <<< 8 = (hi.toNat * 256 + mid.toNat) <<< 8 := by
    simp only [Nat.shiftLeft_eq]
    omega
  rw [front, ← Nat.shiftLeft_add_eq_or_of_lt (by simpa using lo.toNat_lt), Nat.shiftLeft_eq]

/-- A field of a fixed width is read off the front exactly where there is room for it. -/
theorem field_iff {β : Type} {n : Nat} (read : Bytes → Result (β × Nat)) (Spells : Bytes → β → Prop)
    (whole : ∀ field rest, field.length = n → ∃ x, read (field ++ rest) = .ok (x,n) ∧ ∀ y, Spells field y ↔ y = x)
    (short : ∀ data, data.length < n → ∃ e, read data = .error e) (data : Bytes) (y : β) (used : Nat) :
    read data = .ok (y,used) ↔
      ∃ field rest, data = field ++ rest ∧ used = field.length ∧ field.length = n ∧ Spells field y := by
  constructor
  · intro parsed
    by_cases room : n ≤ data.length
    · have size : (data.take n).length = n := List.length_take_of_le room
      obtain ⟨x,done,only⟩ := whole (data.take n) (data.drop n) size
      rw [List.take_append_drop, parsed] at done
      cases done
      exact ⟨_,_,(List.take_append_drop n data).symm,size.symm,size,(only y).mpr rfl⟩
    · obtain ⟨e,failed⟩ := short data (by omega)
      rw [failed] at parsed
      cases parsed
  · rintro ⟨field,rest,rfl,rfl,size,spells⟩
    obtain ⟨x,done,only⟩ := whole field rest size
    rw [done, (only y).mp spells, size]

/-- `parse_record` reads an id exactly where there is one. -/
theorem parseId_iff (id16bit : Bool) (data : Bytes) (id : UInt16) (used : Nat) :
    parseId id16bit data = .ok (id,used) ↔
      ∃ field rest, data = field ++ rest ∧ used = field.length ∧ field.length = id16bit.toNat + 1 ∧
        BigEndian.value field = id.toNat := by
  refine field_iff (parseId id16bit) (fun field id => BigEndian.value field = id.toNat) ?_ ?_ data id used
  · intro field rest width
    cases id16bit with
    | true =>
      match field, width with
      | [hi,lo], _ =>
        refine ⟨_,rfl,?_⟩
        intro y
        rw [BigEndian.value_pair, ← pair_word, UInt16.toNat_inj, eq_comm]
    | false =>
      match field, width with
      | [b], _ =>
        refine ⟨_,rfl,?_⟩
        intro y
        rw [BigEndian.value_singleton, ← UInt8.toNat_toUInt16, UInt16.toNat_inj, eq_comm]
  · intro data small
    cases id16bit with
    | true =>
      match data, small with
      | [], _ => exact ⟨_,rfl⟩
      | [_], _ => exact ⟨_,rfl⟩
    | false =>
      match data, small with
      | [], _ => exact ⟨_,rfl⟩

/-- `parse_record` reads a length exactly where there is one. -/
theorem parseLength_iff (t : UInt8) (data : Bytes) (len used : Nat) :
    parseLength ((t >>> 3) &&& 0x03) t data = .ok (len,used) ↔
      ∃ field rest, data = field ++ rest ∧ used = field.length ∧ field.length = t.toNat / 8 % 4 ∧
        len = if field = [] then t.toNat % 8 else BigEndian.value field := by
  have kinds := length_type_bits t
  rw [← kinds]
  generalize ((t >>> 3) &&& 0x03) = kind at kinds
  have known : kind = 0 ∨ kind = 1 ∨ kind = 2 ∨ kind = 3 := by
    simp only [← UInt8.toNat_inj]
    show kind.toNat = 0 ∨ kind.toNat = 1 ∨ kind.toNat = 2 ∨ kind.toNat = 3
    omega
  clear kinds
  refine field_iff (parseLength kind t) (fun field len => len = if field = [] then t.toNat % 8 else BigEndian.value field)
    ?_ ?_ data len used
  · intro field rest width
    rcases known with rfl | rfl | rfl | rfl
    · match field, width with
      | [], _ => exact ⟨_,rfl,fun y => by rw [if_pos rfl, inline_length_bits]⟩
    · match field, width with
      | [b], _ => exact ⟨_,rfl,fun y => by rw [if_neg (by simp), BigEndian.value_singleton]⟩
    · match field, width with
      | [hi,lo], _ => exact ⟨_,rfl,fun y => by rw [if_neg (by simp), BigEndian.value_pair, pair_length]⟩
    · match field, width with
      | [hi,mid,lo], _ => exact ⟨_,rfl,fun y => by rw [if_neg (by simp), BigEndian.value_triple, triple_length]⟩
  · intro data small
    rcases known with rfl | rfl | rfl | rfl
    · exact absurd small (Nat.not_lt_zero _)
    · match data, small with
      | [], _ => exact ⟨_,rfl⟩
    · match data, small with
      | [], _ => exact ⟨_,rfl⟩
      | [_], _ => exact ⟨_,rfl⟩
    · match data, small with
      | [], _ => exact ⟨_,rfl⟩
      | [_], _ => exact ⟨_,rfl⟩
      | [_,_], _ => exact ⟨_,rfl⟩

/-- A record on the wire whose container value has been decoded by `nested`. -/
def RecordFrame (nested : Bytes → Result (List TlvRecord)) (r : TlvRecord) (frame : Bytes) : Prop :=
  Frame r.head frame ∧ r.children = nestedChildren nested r.type r.value

/-- `parse_record` accepts exactly the records of the format. -/
theorem parseRecord_exact (nested : Bytes → Result (List TlvRecord)) :
    Exact (recordReader nested) (RecordFrame nested) := by
  intro data r used
  show parseRecord nested data = .ok (r,used) ↔ _
  constructor
  · intro parsed
    match data, parsed with
    | t :: afterType, parsed =>
      simp only [parseRecord, bind, Except.bind] at parsed
      split at parsed
      · cases parsed
      next idPair idParsed =>
      obtain ⟨id,idBytes⟩ := idPair
      obtain ⟨idField,afterId,rfl,rfl,idWidth,idValue⟩ := (parseId_iff _ _ _ _).mp idParsed
      simp only [List.drop_left] at parsed
      split at parsed
      · cases parsed
      next lengthPair lengthParsed =>
      obtain ⟨len,lengthBytes⟩ := lengthPair
      obtain ⟨field,afterLength,rfl,rfl,fieldWidth,lenValue⟩ := (parseLength_iff _ _ _ _).mp lengthParsed
      simp only [List.drop_left] at parsed
      split at parsed
      · cases parsed
      next inside =>
      cases parsed
      have taken : (afterLength.take len).length = len := by
        rw [List.length_take]
        omega
      refine ⟨t :: (idField ++ field ++ afterLength.take len),afterLength.drop len,?_,?_,?_,rfl⟩
      · simp [List.append_assoc]
      · simp only [List.length_cons, List.length_append, taken]
        omega
      · rw [id_16bit] at idWidth
        exact ⟨t,idField,field,rfl,(ofBits_iff t _).mp rfl,idWidth,idValue,fieldWidth,taken.trans lenValue⟩
  · rintro ⟨frame,rest,rfl,rfl,⟨t,idField,field,rfl,type,idWidth,idValue,fieldWidth,size⟩,children⟩
    obtain ⟨rtype,rid,rvalue,rchildren⟩ := r
    simp only [TlvRecord.head_type, TlvRecord.head_id, TlvRecord.head_value] at *
    have idParsed : parseId ((t &&& 0x20) != 0) (idField ++ (field ++ (rvalue ++ rest))) =
        .ok (rid,idField.length) := by
      rw [← id_16bit] at idWidth
      exact (parseId_iff _ _ _ _).mpr ⟨idField,_,rfl,rfl,idWidth,idValue⟩
    have lengthParsed : parseLength ((t >>> 3) &&& 0x03) t (field ++ (rvalue ++ rest)) =
        .ok (rvalue.length,field.length) :=
      (parseLength_iff _ _ _ _).mpr ⟨field,_,rfl,rfl,fieldWidth,size⟩
    have enough : ¬ rvalue.length + rest.length < rvalue.length := by omega
    simp only [List.cons_append, List.append_assoc, parseRecord, bind, Except.bind, idParsed, List.drop_left,
      lengthParsed, enough, ↓reduceIte, List.take_left, (ofBits_iff t rtype).mpr type, ← children,
      List.length_cons, List.length_append]
    rw [show 1 + idField.length + field.length + rvalue.length =
      idField.length + (field.length + rvalue.length) + 1 by omega]

theorem recordFrames_iff {nested : Bytes → Result (List TlvRecord)} {records : List TlvRecord} {frames : List Bytes} :
    List.Forall₂ (RecordFrame nested) records frames ↔
      List.Forall₂ Frame (records.map TlvRecord.head) frames ∧
        ∀ r ∈ records, r.children = nestedChildren nested r.type r.value := by
  induction records generalizing frames with
  | nil =>
    cases frames with
    | nil => simp
    | cons frame frames => simp
  | cons r records ih =>
    cases frames with
    | nil => simp
    | cons frame frames =>
      simp only [List.forall₂_cons, List.map_cons, ih, RecordFrame, List.mem_cons, forall_eq_or_imp]
      tauto

/-- The loop of `decode_impl` accepts exactly the sequences of records; the
    children of each container are what `nested` makes of its value. -/
theorem readRecords_iff (nested : Bytes → Result (List TlvRecord)) (data : Bytes) (records : List TlvRecord) :
    (recordReader nested).readAll data = .ok records ↔
      (∃ frames, Records data (records.map TlvRecord.head) frames) ∧
        ∀ r ∈ records, r.children = nestedChildren nested r.type r.value := by
  rw [(parseRecord_exact nested).readAll_iff]
  constructor
  · rintro ⟨frames,whole,all⟩
    obtain ⟨heads,children⟩ := recordFrames_iff.mp all
    exact ⟨⟨frames,whole,heads⟩,children⟩
  · rintro ⟨⟨frames,whole,heads⟩,children⟩
    exact ⟨frames,whole,recordFrames_iff.mpr ⟨heads,children⟩⟩

/-- Every level above the bound decodes a sequence of records. -/
theorem decodeLevels_succ_iff (levels : Nat) (data : Bytes) (records : List TlvRecord) :
    decodeLevels (levels+1) data = .ok records ↔
      (∃ frames, Records data (records.map TlvRecord.head) frames) ∧
        ∀ r ∈ records, r.children = nestedChildren (decodeLevels levels) r.type r.value :=
  readRecords_iff _ data records

/-- Every sequence of records is accepted at every level above the bound. -/
theorem decodeLevels_accepts (levels : Nat) {data : Bytes} {heads : List Head} {frames : List Bytes}
    (cut : Records data heads frames) :
    ∃ records, decodeLevels (levels+1) data = .ok records ∧ records.map TlvRecord.head = heads := by
  let withChildren (h : Head) : TlvRecord :=
    ⟨h.type,h.id,h.value,nestedChildren (decodeLevels levels) h.type h.value⟩
  have sameHeads : (heads.map withChildren).map TlvRecord.head = heads := by
    rw [List.map_map]
    exact List.map_id heads
  refine ⟨heads.map withChildren,(decodeLevels_succ_iff _ _ _).mpr ⟨⟨frames,?_⟩,?_⟩,sameHeads⟩
  · rwa [sameHeads]
  · intro r member
    obtain ⟨h,_,rfl⟩ := List.mem_map.mp member
    rfl

/-! ### What the encoder writes -/

/-- The low five bits of the type byte: how the length is written. -/
def lengthBits (len : Nat) : Nat := if len < 8 then len else if len < 256 then 8 else if len < 65536 then 16 else 24

theorem typeByte_parts (type : TlvType) (wide : Bool) (low : Fin 32) :
    let b := (type.toBits <<< 6) ||| (if wide then 0x20 else 0) ||| UInt8.ofNat low.val
    b.toNat / 64 = type.toBits.toNat ∧ b.toNat / 32 % 2 = wide.toNat ∧ b.toNat % 32 = low.val := by
  revert low
  cases type <;> cases wide <;> decide +kernel

theorem lengthBits_lt (len : Nat) : lengthBits len < 32 := by
  simp only [lengthBits]
  split_ifs <;> omega

theorem typeByte_eq (type : TlvType) (id : UInt16) (len : Nat) :
    typeByte type id len =
      (type.toBits <<< 6) ||| (if decide (255 < id) = true then 0x20 else 0) ||| UInt8.ofNat (lengthBits len) := by
  have lowBits : (if len < 8 then UInt8.ofNat len &&& 0x07 else if len < 256 then 0x08 else if len < 65536 then 0x10
      else 0x18) = UInt8.ofNat (lengthBits len) := by
    simp only [lengthBits]
    split_ifs with inline
    · apply UInt8.toNat_inj.mp
      rw [inline_length_bits, UInt8.toNat_ofNat']
      omega
    all_goals rfl
  simp only [typeByte]
  simp only [lowBits, decide_eq_true_eq]

theorem typeByte_fields (type : TlvType) (id : UInt16) (len : Nat) :
    (typeByte type id len).toNat / 64 = type.toBits.toNat ∧
    (typeByte type id len).toNat / 32 % 2 = (decide (255 < id)).toNat ∧
    (typeByte type id len).toNat % 32 = lengthBits len := by
  rw [typeByte_eq]
  exact typeByte_parts type (decide (255 < id)) ⟨lengthBits len,lengthBits_lt len⟩

theorem idField_length (id : UInt16) : (idField id).length = (decide (255 < id)).toNat + 1 := by
  simp only [idField]
  split_ifs with wide <;> simp [wide]

theorem byte_of_word (id : UInt16) : id.toUInt8.toNat = id.toNat % 256 := UInt16.toNat_toUInt8 id

theorem low_byte (n : Nat) : (UInt8.ofNat (n &&& 0xFF)).toNat = n % 256 := by
  rw [UInt8.toNat_ofNat']
  show (n &&& 2 ^ 8 - 1) % 2 ^ 8 = _
  rw [Nat.and_two_pow_sub_one_eq_mod]
  omega

theorem idField_value (id : UInt16) : BigEndian.value (idField id) = id.toNat := by
  have bound := id.toNat_lt
  simp only [idField]
  split_ifs with wide
  · have high : ((id >>> 8 &&& 0xFF).toUInt8).toNat = id.toNat / 256 := by
      rw [byte_of_word, UInt16.toNat_and, UInt16.toNat_shiftRight]
      show (id.toNat >>> 8 &&& 2 ^ 8 - 1) % 256 = _
      rw [Nat.and_two_pow_sub_one_eq_mod, Nat.shiftRight_eq_div_pow]
      omega
    have low : ((id &&& 0xFF).toUInt8).toNat = id.toNat % 256 := by
      rw [byte_of_word, UInt16.toNat_and]
      show (id.toNat &&& 2 ^ 8 - 1) % 256 = _
      rw [Nat.and_two_pow_sub_one_eq_mod]
      omega
    rw [BigEndian.value_pair, high, low]
    omega
  · have small : id.toNat ≤ 255 := by
      rw [UInt16.lt_iff_toNat_lt] at wide
      simpa using wide
    rw [BigEndian.value_singleton, byte_of_word]
    omega

theorem lengthField_length (len : Nat) : (lengthField len).length = lengthBits len / 8 := by
  simp only [lengthField, lengthBits]
  split_ifs
  all_goals simp
  omega

theorem lengthField_value {len : Nat} (inline : ¬ len < 8) (fits : len < 2 ^ 24) :
    BigEndian.value (lengthField len) = len := by
  simp only [lengthField]
  rw [if_neg inline]
  split_ifs with one two
  · rw [BigEndian.value_singleton, UInt8.toNat_ofNat']
    omega
  · rw [BigEndian.value_pair, low_byte, low_byte, Nat.shiftRight_eq_div_pow]
    omega
  · rw [BigEndian.value_triple, low_byte, low_byte, low_byte, Nat.shiftRight_eq_div_pow, Nat.shiftRight_eq_div_pow]
    omega

/-- What the encoder writes for a value of less than 2^24 bytes is a record. -/
theorem encodeRecord_frame (h : Head) (fits : h.value.length < 2 ^ 24) : Frame h (encodeRecord h.type h.id h.value) := by
  obtain ⟨type,wide,low⟩ := typeByte_fields h.type h.id h.value.length
  refine ⟨_,idField h.id,lengthField h.value.length,rfl,type,?_,idField_value _,?_,?_⟩
  · rw [idField_length, wide]
  · rw [lengthField_length, ← low]
    omega
  · split_ifs with none
    · have inline : h.value.length < 8 := by
        have size := lengthField_length h.value.length
        rw [none] at size
        simp only [lengthBits, List.length_nil] at size
        split_ifs at size with inline
        exact inline
      rw [lengthBits, if_pos inline] at low
      omega
    · have long : ¬ h.value.length < 8 := by
        intro inline
        apply none
        rw [lengthField, if_pos inline]
      rw [lengthField_value long fits]

/-- A record on the wire holds a value of less than 2^24 bytes. -/
theorem Frame.value_lt {h : Head} {frame : Bytes} (one : Frame h frame) : h.value.length < 2 ^ 24 := by
  obtain ⟨t,_,length,-,-,-,-,width,size⟩ := one
  rw [size]
  split_ifs
  · omega
  · calc BigEndian.value length < 256 ^ length.length := BigEndian.value_lt length
      _ ≤ 256 ^ 3 := Nat.pow_le_pow_right (by decide) (by omega)
      _ = 2 ^ 24 := by decide

/-- No record of the same head is shorter than what the encoder writes. -/
theorem encodeRecord_shortest {h : Head} {frame : Bytes} (one : Frame h frame) :
    (encodeRecord h.type h.id h.value).length ≤ frame.length := by
  obtain ⟨t,id,length,rfl,-,idWidth,idValue,width,size⟩ := one
  have idShort : (idField h.id).length ≤ id.length := by
    rw [idField_length]
    by_cases wide : 255 < h.id
    · -- A two-byte id does not fit into one byte.
      have big : 256 ≤ h.id.toNat := UInt16.lt_iff_toNat_lt.mp wide
      have bound := BigEndian.value_lt id
      rcases Nat.mod_two_eq_zero_or_one (t.toNat / 32) with one | two
      · rw [idWidth, one, idValue] at bound
        omega
      · simp [wide,idWidth,two]
    · simp [wide,idWidth]
  have lengthShort : (lengthField h.value.length).length ≤ length.length := by
    rw [lengthField_length]
    by_cases none : length = []
    · rw [if_pos none] at size
      have inline : h.value.length < 8 := by omega
      rw [lengthBits, if_pos inline]
      omega
    · -- The length is spelled by the bytes of the field, so they are enough for it.
      rw [if_neg none] at size
      have bound := BigEndian.value_lt length
      rw [← size] at bound
      have some : length.length ≠ 0 := fun empty => none (List.length_eq_zero_iff.mp empty)
      have cases : length.length = 1 ∨ length.length = 2 ∨ length.length = 3 := by omega
      simp only [lengthBits]
      rcases cases with one | two | three
      · rw [one] at bound ⊢
        split_ifs <;> omega
      · rw [two] at bound ⊢
        split_ifs <;> omega
      · rw [three]
        split_ifs <;> omega
  simp only [encodeRecord, List.length_cons, List.length_append]
  omega

end Ferriot.Tlv
