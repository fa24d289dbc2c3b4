import Ferriot.TlvFormat
import Mathlib.Tactic.Tauto

/-!
# What `decode` accepts, and what it does with nested values

`decode` accepts exactly the sequences of records, each in one way. A container
whose value is no such sequence, or that lies too deep, does not make it fail:
`parse_record` drops the nested error and the record keeps no children.
-/
namespace Ferriot.Tlv
open Framing

theorem parseId_error {id16bit : Bool} {data : Bytes} {e : Error} (failed : parseId id16bit data = .error e) :
    e.code = .DecodingError := by
  revert failed
  simp only [parseId]
  split
  · split <;> intro failed <;> cases failed
    rfl
  · split <;> intro failed <;> cases failed
    rfl

theorem parseLength_error {kind t : UInt8} {data : Bytes} {e : Error} (failed : parseLength kind t data = .error e) :
    e.code = .DecodingError := by
  revert failed
  simp only [parseLength]
  split_ifs
  · intro failed
    cases failed
  all_goals
    split <;> intro failed <;> cases failed
    rfl

theorem parseRecord_error (nested : Bytes → Result (List TlvRecord)) (data : Bytes) (e : Error)
    (failed : parseRecord nested data = .error e) : e.code = .DecodingError := by
  match data, failed with
  | [], failed => cases failed; rfl
  | t :: afterType, failed =>
    simp only [parseRecord, bind, Except.bind] at failed
    split at failed
    · next idFailed => cases failed; exact parseId_error idFailed
    · split at failed
      · next lengthFailed => cases failed; exact parseLength_error lengthFailed
      · split at failed
        · cases failed; rfl
        · cases failed

/-- Whatever `decode_impl` refuses, it refuses with a decoding error. -/
theorem decodeLevels_error {levels : Nat} {data : Bytes} {e : Error} (failed : decodeLevels levels data = .error e) :
    e.code = .DecodingError := by
  cases levels with
  | zero => cases failed; rfl
  | succ levels => exact readAll_error (recordReader _) (parseRecord_error _) failed

theorem parseId_total (id16bit : Bool) {data : Bytes} (room : 2 ≤ data.length) :
    ∃ id used, parseId id16bit data = .ok (id,used) ∧ used ≤ 2 := by
  match data, room with
  | hi :: lo :: rest, _ =>
    cases id16bit with
    | true => exact ⟨_,_,rfl,le_refl 2⟩
    | false => exact ⟨_,_,rfl,Nat.le_succ 1⟩

theorem parseLength_total (t : UInt8) {data : Bytes} (room : 3 ≤ data.length) :
    ∃ len used, parseLength ((t >>> 3) &&& 0x03) t data = .ok (len,used) ∧ used ≤ 3 ∧ len < 16777216 := by
  match data, room with
  | hi :: mid :: lo :: rest, _ =>
    have inline : (t &&& 0x07).toNat < 8 := by
      rw [inline_length_bits]
      omega
    have bytes := And.intro hi.toNat_lt (And.intro mid.toNat_lt lo.toNat_lt)
    unfold parseLength
    split_ifs
    · exact ⟨_,_,rfl,by omega,by omega⟩
    · exact ⟨_,_,rfl,by omega,by omega⟩
    · refine ⟨_,_,rfl,by omega,?_⟩
      rw [pair_length]
      omega
    · refine ⟨_,_,rfl,by omega,?_⟩
      rw [triple_length]
      omega

/-- With enough after it, every first byte begins a record. -/
theorem parseRecord_total (nested : Bytes → Result (List TlvRecord)) (t : UInt8) {data : Bytes} (room : 16777221 ≤ data.length) :
    ∃ r used, parseRecord nested (t :: data) = .ok (r,used) := by
  have idRoom : 2 ≤ data.length := by omega
  obtain ⟨id,idBytes,idParsed,idShort⟩ := parseId_total ((t &&& 0x20) != 0) idRoom
  have lengthRoom : 3 ≤ (data.drop idBytes).length := by
    rw [List.length_drop]
    omega
  obtain ⟨len,lengthBytes,lengthParsed,lengthShort,small⟩ := parseLength_total t lengthRoom
  have inside : ¬ ((data.drop idBytes).drop lengthBytes).length < len := by
    rw [List.length_drop, List.length_drop]
    omega
  simp only [parseRecord, bind, Except.bind, idParsed, lengthParsed, inside, ↓reduceIte]
  exact ⟨_,_,rfl⟩

/-- The input ends inside a record: records, and the front of another. -/
def EndsInside (data : Bytes) : Prop :=
  ∃ whole heads frames part rest head,
    data = whole ++ part ∧ Records whole heads frames ∧ part ≠ [] ∧ rest ≠ [] ∧ Frame head (part ++ rest)

/-- What is refused ends inside a record. -/
theorem decodeLevels_refused {levels : Nat} {data : Bytes} {e : Error} (failed : decodeLevels (levels+1) data = .error e) :
    EndsInside data := by
  have exact := parseRecord_exact (decodeLevels levels)
  obtain ⟨whole,records,frames,part,split,⟨joined,all⟩,more,e',stuck⟩ := exact.readAll_stuck failed
  obtain ⟨t,tail,rfl⟩ := List.exists_cons_of_ne_nil more
  have room : 16777221 ≤ (tail ++ List.replicate 16777221 0).length := by
    rw [List.length_append, List.length_replicate]
    omega
  obtain ⟨r,used,parsed⟩ := parseRecord_total (decodeLevels levels) t room
  have read : (recordReader (decodeLevels levels)).read ((t :: tail) ++ List.replicate 16777221 0) = .ok (r,used) := parsed
  obtain ⟨rest,missing,frame,-⟩ := exact.read_inside stuck read
  exact ⟨whole,_,frames,t :: tail,rest,r.head,split,⟨joined,(recordFrames_iff.mp all).1⟩,more,missing,frame⟩

/-- An input is cut into records in at most one way. -/
theorem records_unique {data : Bytes} {heads heads' : List Head} {frames frames' : List Bytes}
    (left : Records data heads frames) (right : Records data heads' frames') : heads = heads' ∧ frames = frames' := by
  -- Any record reader will do; its records are the heads with the children it finds.
  obtain ⟨records,read,rfl⟩ := decodeLevels_accepts 0 left
  obtain ⟨records',read',rfl⟩ := decodeLevels_accepts 0 right
  obtain ⟨-,children⟩ := (readRecords_iff _ _ _).mp read
  obtain ⟨-,children'⟩ := (readRecords_iff _ _ _).mp read'
  obtain ⟨records,cut⟩ := (parseRecord_exact (decodeLevels 0)).splits_unique
    ⟨left.1,recordFrames_iff.mpr ⟨left.2,children⟩⟩ ⟨right.1,recordFrames_iff.mpr ⟨right.2,children'⟩⟩
  exact ⟨by rw [records],cut⟩

/-- Encoding the heads of a cut input gives an input cut the same way. -/
theorem records_encode {data : Bytes} {records : List TlvRecord} {frames : List Bytes}
    (cut : Records data (records.map TlvRecord.head) frames) :
    Records (encodeRecords records) (records.map TlvRecord.head)
        (records.map (fun r => encodeRecord r.type r.id r.value)) ∧
      (encodeRecords records).length ≤ data.length := by
  obtain ⟨rfl,all⟩ := cut
  simp only [encodeRecords]
  induction records generalizing frames with
  | nil => exact ⟨splits_nil Frame,Nat.zero_le _⟩
  | cons r records ih =>
    cases all with
    | cons first others =>
      obtain ⟨again,short⟩ := ih others
      have front : Frame r.head (encodeRecord r.type r.id r.value) := encodeRecord_frame r.head first.value_lt
      have frontShort := encodeRecord_shortest first
      simp only [TlvRecord.head_type, TlvRecord.head_id, TlvRecord.head_value] at frontShort
      simp only [List.flatMap_cons, List.map_cons, List.flatten_cons, List.length_append]
      exact ⟨Splits.cons front again,Nat.add_le_add frontShort short⟩

/-- `decode` accepts exactly the sequences of records, reports their heads in
    order, and each input is such a sequence in one way only; encoding the roots
    again gives nothing longer that decodes to the same records, children included. -/
theorem decode_accepts_exactly (data : Bytes) :
    (∀ heads, (∃ records, decode data = .ok records ∧ records.map TlvRecord.head = heads) ↔
      ∃ frames, Records data heads frames) ∧
    (∀ heads frames heads' frames', Records data heads frames → Records data heads' frames' →
      heads = heads' ∧ frames = frames') ∧
    (∀ records, decode data = .ok records →
      (encodeRecords records).length ≤ data.length ∧ decode (encodeRecords records) = .ok records) := by
  refine ⟨?_,fun _ _ _ _ => records_unique,?_⟩
  · intro heads
    constructor
    · rintro ⟨records,done,rfl⟩
      exact ((decodeLevels_succ_iff 8 _ _).mp done).1
    · rintro ⟨frames,cut⟩
      exact decodeLevels_accepts 8 cut
  · intro records done
    obtain ⟨⟨frames,cut⟩,children⟩ := (decodeLevels_succ_iff 8 _ _).mp done
    obtain ⟨again,short⟩ := records_encode cut
    exact ⟨short,(decodeLevels_succ_iff 8 _ _).mpr ⟨⟨_,again⟩,children⟩⟩

/-! ### Nested values -/

/-- At most `levels` levels of records, and the value of every container on them
    is again a sequence of records. -/
def WellNested : Nat → Bytes → Prop
  | 0, data => data = []
  | levels+1, data =>
    ∃ heads frames, Records data heads frames ∧ ∀ h ∈ heads, h.type.isContainer = true → WellNested levels h.value

/-- The children of the record, and of every record below it, are exactly the
    records of the container's value. -/
inductive Complete : TlvRecord → Prop
  | intro {r : TlvRecord} (opened : r.type.isContainer = true → ∃ frames, Records r.value (r.children.map TlvRecord.head) frames)
      (below : ∀ child ∈ r.children, Complete child) : Complete r

/-- Nested errors reach the caller: what is accepted is complete at every level,
    and a malformed or too deep nested value is answered with a decoding error. -/
def NestedErrorsReported (data : Bytes) : Prop :=
  (∀ records, decode data = .ok records → ∀ r ∈ records, Complete r) ∧
  (¬ WellNested (kMaxTlvDepth + 1) data → ∃ e, decode data = .error e ∧ e.code = .DecodingError)

/-- Where the nesting is sound, the decoder keeps every child of a container. -/
theorem nestedChildren_complete {levels : Nat} {type : TlvType} {value : Bytes} (container : type.isContainer = true)
    (sound : WellNested levels value) :
    (∃ frames, Records value ((nestedChildren (decodeLevels levels) type value).map TlvRecord.head) frames) ∧
      ∀ child ∈ nestedChildren (decodeLevels levels) type value, Complete child := by
  induction levels generalizing type value with
  | zero =>
    -- The depth guard refuses even an empty value, whose records are the children kept: none.
    cases sound
    simp only [nestedChildren, container, ↓reduceIte, decodeLevels]
    exact ⟨⟨[],splits_nil Frame⟩,by simp⟩
  | succ levels ih =>
    obtain ⟨heads,frames,cut,deeper⟩ := sound
    obtain ⟨records,done,rfl⟩ := decodeLevels_accepts levels cut
    obtain ⟨-,children⟩ := (decodeLevels_succ_iff _ _ _).mp done
    simp only [nestedChildren, container, ↓reduceIte, done]
    refine ⟨⟨frames,cut⟩,?_⟩
    intro child member
    rw [List.forall_mem_map] at deeper
    refine .intro ?_ ?_
    · intro inner
      rw [children child member]
      exact (ih inner (deeper child member inner)).1
    · cases inner : child.type.isContainer with
      | false =>
        rw [children child member]
        simp [nestedChildren,inner]
      | true =>
        rw [children child member]
        exact (ih inner (deeper child member inner)).2

theorem decode_complete {data : Bytes} (sound : WellNested (kMaxTlvDepth + 1) data) :
    ∃ records, decode data = .ok records ∧ ∀ r ∈ records, Complete r := by
  obtain ⟨heads,frames,cut,-⟩ := id sound
  obtain ⟨records,done,-⟩ := decodeLevels_accepts kMaxTlvDepth cut
  have container : TlvType.ObjectInstance.isContainer = true := rfl
  have kept := (nestedChildren_complete container sound).2
  simp only [nestedChildren, container, ↓reduceIte, done] at kept
  exact ⟨records,done,kept⟩

/-- Nested errors reach the caller exactly when there is none to report: the
    input is no sequence of records to begin with, or every container on the
    (at most nine) levels holds one. -/
theorem nestedErrorsReported_iff (data : Bytes) :
    NestedErrorsReported data ↔
      (¬ ∃ heads frames, Records data heads frames) ∨ WellNested (kMaxTlvDepth + 1) data := by
  constructor
  · rintro ⟨-,reported⟩
    by_cases sequence : ∃ heads frames, Records data heads frames
    · right
      by_contra unsound
      obtain ⟨heads,frames,cut⟩ := sequence
      obtain ⟨records,done,-⟩ := decodeLevels_accepts kMaxTlvDepth cut
      obtain ⟨e,failed,-⟩ := reported unsound
      change decode data = _ at done
      rw [done] at failed
      cases failed
    · exact .inl sequence
  · rintro (malformed | sound)
    · have refused : ∀ records, decode data ≠ .ok records := by
        intro records done
        obtain ⟨⟨frames,cut⟩,-⟩ := (decodeLevels_succ_iff 8 _ _).mp done
        exact malformed ⟨_,frames,cut⟩
      refine ⟨fun records done => absurd done (refused records),?_⟩
      intro _
      cases failed : decode data with
      | ok records => exact absurd failed (refused records)
      | error e => exact ⟨e,rfl,decodeLevels_error failed⟩
    · refine ⟨?_,fun unsound => absurd sound unsound⟩
      intro records done
      obtain ⟨kept,again,complete⟩ := decode_complete sound
      rw [done] at again
      cases again
      exact complete

/-- An object instance whose one value byte starts no record: accepted, with no children. -/
theorem malformed_child_dropped : ¬ NestedErrorsReported [0x01, 0x00, 0xC1] := by
  rintro ⟨complete,-⟩
  have accepted : decode [0x01, 0x00, 0xC1] = .ok [⟨.ObjectInstance,0,[0xC1],[]⟩] := rfl
  obtain ⟨opened,-⟩ := complete _ accepted _ (List.mem_singleton.mpr rfl)
  obtain ⟨frames,whole,all⟩ := opened rfl
  cases all
  cases whole

end Ferriot.Tlv
