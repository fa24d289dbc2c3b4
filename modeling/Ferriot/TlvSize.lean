import Ferriot.TlvFormat
import Mathlib.Tactic.Ring

/-!
# The size of what is decoded

A container's bytes are kept as its value and decoded again one level down. Each
level spends at least two bytes of its input on a record besides the record's
value, so a level holds no more than its input, and there are nine of them.
-/
namespace Ferriot.Tlv
open Framing

mutual

/-- A record and every record below it. -/
def TlvRecord.subtree : TlvRecord → List TlvRecord
  | ⟨type,id,value,children⟩ => ⟨type,id,value,children⟩ :: allRecords children

/-- The records of a list and every record below them. -/
def allRecords : List TlvRecord → List TlvRecord
  | [] => []
  | r :: records => r.subtree ++ allRecords records

end

mutual

/-- The levels of records from a record down, itself included. -/
def TlvRecord.height : TlvRecord → Nat
  | ⟨_,_,_,children⟩ => forestHeight children + 1

/-- The levels of records in a list and below it. -/
def forestHeight : List TlvRecord → Nat
  | [] => 0
  | r :: records => max r.height (forestHeight records)

end

/-- The value bytes of a list of records, added up. -/
def valueBytes (records : List TlvRecord) : Nat := (records.map (fun r => r.value.length)).sum

/-- The bytes that a list of records takes up at least: a type byte and an id
    byte for each, and its value. -/
def leastBytes (records : List TlvRecord) : Nat := (records.map (fun r => r.value.length + 2)).sum

@[simp] theorem leastBytes_nil : leastBytes [] = 0 := rfl

@[simp] theorem leastBytes_cons (r : TlvRecord) (records : List TlvRecord) :
    leastBytes (r :: records) = r.value.length + 2 + leastBytes records := by simp [leastBytes]

@[simp] theorem leastBytes_append (front back : List TlvRecord) :
    leastBytes (front ++ back) = leastBytes front + leastBytes back := by simp [leastBytes]

/-- The least number of bytes counts each record twice, and its value once. -/
theorem leastBytes_eq (records : List TlvRecord) :
    leastBytes records = valueBytes records + 2 * records.length := by
  induction records with
  | nil => rfl
  | cons r records ih =>
    have front : valueBytes (r :: records) = r.value.length + valueBytes records := by simp [valueBytes]
    rw [leastBytes_cons, front, ih, List.length_cons]
    ring

theorem allRecords_nil : allRecords [] = [] := by rw [allRecords]

theorem allRecords_cons (r : TlvRecord) (records : List TlvRecord) :
    allRecords (r :: records) = r :: allRecords r.children ++ allRecords records := by
  obtain ⟨type,id,value,children⟩ := r
  rw [allRecords, TlvRecord.subtree]

theorem forestHeight_nil : forestHeight [] = 0 := by rw [forestHeight]

theorem forestHeight_cons (r : TlvRecord) (records : List TlvRecord) :
    forestHeight (r :: records) = max (forestHeight r.children + 1) (forestHeight records) := by
  obtain ⟨type,id,value,children⟩ := r
  rw [forestHeight, TlvRecord.height]

/-- A frame holds a type byte and at least one id byte besides the value. -/
theorem Frame.length_ge {h : Head} {frame : Bytes} (one : Frame h frame) : h.value.length + 2 ≤ frame.length := by
  obtain ⟨t,id,length,rfl,-,width,-⟩ := one
  simp only [List.length_cons, List.length_append]
  omega

/-- The records of one level fit into its input. -/
theorem level_fits {data : Bytes} {records : List TlvRecord} {frames : List Bytes}
    (cut : Records data (records.map TlvRecord.head) frames) : leastBytes records ≤ data.length := by
  have paid := cut.sum_le (fun h frame (one : Frame h frame) => one.length_ge)
  rwa [List.map_map] at paid

/-- What is bounded for each accepted value is bounded for the children kept of it:
    a value that is refused, or that is not decoded, leaves none. -/
theorem nestedChildren_bounded {nested : Bytes → Result (List TlvRecord)} {P : Bytes → List TlvRecord → Prop}
    (none : ∀ value, P value []) (accepted : ∀ value children, nested value = .ok children → P value children)
    (type : TlvType) (value : Bytes) : P value (nestedChildren nested type value) := by
  simp only [nestedChildren]
  split_ifs with container
  · split
    · next children done => exact accepted value children done
    · exact none value
  · exact none value

theorem forestHeight_le {records : List TlvRecord} {levels : Nat}
    (below : ∀ r ∈ records, forestHeight r.children ≤ levels) : forestHeight records ≤ levels+1 := by
  induction records with
  | nil =>
    rw [forestHeight_nil]
    exact Nat.zero_le _
  | cons r records ih =>
    have deeper := below r (List.mem_cons_self ..)
    have others := ih (fun s member => below s (List.mem_cons_of_mem r member))
    rw [forestHeight_cons]
    omega

/-- The depth guard bounds the levels. -/
theorem decodeLevels_height {levels : Nat} {data : Bytes} {records : List TlvRecord}
    (accepted : decodeLevels levels data = .ok records) : forestHeight records ≤ levels := by
  induction levels generalizing data records with
  | zero => cases accepted
  | succ levels ih =>
    obtain ⟨-,children⟩ := (decodeLevels_succ_iff _ _ _).mp accepted
    refine forestHeight_le ?_
    intro r member
    rw [children r member]
    refine nestedChildren_bounded (P := fun _ children => forestHeight children ≤ levels) ?_ ?_ _ _
    · intro _
      rw [forestHeight_nil]
      exact Nat.zero_le _
    · intro _ _ nested
      exact ih nested

/-- Records whose children take up at most `levels` times their value take up,
    with all that is below them, one time more than they do by themselves. -/
theorem allRecords_le {records : List TlvRecord} {levels : Nat}
    (below : ∀ r ∈ records, leastBytes (allRecords r.children) ≤ levels * r.value.length) :
    leastBytes (allRecords records) ≤ (levels+1) * leastBytes records := by
  induction records with
  | nil =>
    rw [allRecords_nil]
    exact Nat.zero_le _
  | cons r records ih =>
    have deeper := below r (List.mem_cons_self ..)
    have others := ih (fun s member => below s (List.mem_cons_of_mem r member))
    rw [allRecords_cons, leastBytes_append, leastBytes_cons, leastBytes_cons]
    calc r.value.length + 2 + leastBytes (allRecords r.children) + leastBytes (allRecords records)
        ≤ r.value.length + 2 + levels * r.value.length + (levels+1) * leastBytes records := by omega
      _ ≤ r.value.length + 2 + levels * (r.value.length + 2) + (levels+1) * leastBytes records := by
        have wider : levels * r.value.length ≤ levels * (r.value.length + 2) := Nat.mul_le_mul_left _ (by omega)
        omega
      _ = (levels+1) * (r.value.length + 2 + leastBytes records) := by ring

/-- Every level takes up no more than the whole input. -/
theorem decodeLevels_bytes {levels : Nat} {data : Bytes} {records : List TlvRecord}
    (accepted : decodeLevels levels data = .ok records) : leastBytes (allRecords records) ≤ levels * data.length := by
  induction levels generalizing data records with
  | zero => cases accepted
  | succ levels ih =>
    obtain ⟨⟨frames,cut⟩,children⟩ := (decodeLevels_succ_iff _ _ _).mp accepted
    have below : ∀ r ∈ records, leastBytes (allRecords r.children) ≤ levels * r.value.length := by
      intro r member
      rw [children r member]
      refine nestedChildren_bounded
        (P := fun value children => leastBytes (allRecords children) ≤ levels * value.length) ?_ ?_ _ _
      · intro _
        rw [allRecords_nil]
        exact Nat.zero_le _
      · intro _ _ nested
        exact ih nested
    calc leastBytes (allRecords records) ≤ (levels+1) * leastBytes records := allRecords_le below
      _ ≤ (levels+1) * data.length := Nat.mul_le_mul_left _ (level_fits cut)

/-- Nesting does not amplify: an accepted input of `n` bytes gives at most nine
    levels of records, `9 * n / 2` records and `9 * n` value bytes in all. -/
theorem decode_size (data : Bytes) (records : List TlvRecord) (accepted : decode data = .ok records) :
    forestHeight records ≤ 9 ∧ 2 * (allRecords records).length ≤ 9 * data.length ∧
      valueBytes (allRecords records) ≤ 9 * data.length := by
  have bytes : leastBytes (allRecords records) ≤ 9 * data.length := decodeLevels_bytes accepted
  rw [leastBytes_eq] at bytes
  exact ⟨decodeLevels_height accepted,by omega,by omega⟩

/-- An object instance of four bytes that holds an empty resource. -/
theorem decode_size_nested :
    let records : List TlvRecord := [⟨.ObjectInstance,0,[0xC0,0x01],[⟨.Resource,1,[],[]⟩]⟩]
    decode [0x02,0x00,0xC0,0x01] = .ok records ∧ forestHeight records ≤ 9 ∧
      2 * (allRecords records).length ≤ 9 * 4 ∧ valueBytes (allRecords records) ≤ 9 * 4 :=
  ⟨rfl,decode_size [0x02,0x00,0xC0,0x01] _ rfl⟩

end Ferriot.Tlv
