import Ferriot.TlvDecode

/-!
# Forests of records

A forest of records, nested as deep as the decoder opens them, comes back from
the concatenation of its encoded roots.
-/
namespace Ferriot.Tlv
open Framing

/-- A forest of at most `levels` levels: the leaves hold any bytes, a container
    holds the encoding of its children, and no value reaches 2^24 bytes. -/
def IsForest : Nat → List TlvRecord → Prop
  | 0, forest => forest = []
  | levels+1, forest => ∀ r ∈ forest, r.value.length < 2 ^ 24 ∧
      if r.type.isContainer = true then r.value = encodeRecords r.children ∧ IsForest levels r.children
      else r.children = []

/-- The encoded roots of a forest are the frames of its records. -/
theorem records_of_encoded {records : List TlvRecord} (fits : ∀ r ∈ records, r.value.length < 2 ^ 24) :
    Records (encodeRecords records) (records.map TlvRecord.head)
      (records.map (fun r => encodeRecord r.type r.id r.value)) := by
  induction records with
  | nil => exact splits_nil Frame
  | cons r records ih =>
    have front : Frame r.head (encodeRecord r.type r.id r.value) := encodeRecord_frame r.head (fits r (by simp))
    have others := ih (fun s member => fits s (by simp [member]))
    simp only [encodeRecords, List.flatMap_cons, List.map_cons]
    exact Splits.cons front others

/-- Every level decodes the forests that are no deeper, with all their children. -/
theorem decodeLevels_forest {levels bound : Nat} {forest : List TlvRecord} (nested : IsForest levels forest)
    (shallow : levels ≤ bound+1) : decodeLevels (bound+1) (encodeRecords forest) = .ok forest := by
  induction levels generalizing bound forest with
  | zero =>
    cases nested
    rfl
  | succ levels ih =>
    have cut := records_of_encoded (fun r member => (nested r member).1)
    refine (decodeLevels_succ_iff _ _ _).mpr ⟨⟨_,cut⟩,?_⟩
    intro r member
    obtain ⟨-,shape⟩ := nested r member
    simp only [nestedChildren]
    split_ifs at shape ⊢ with container
    · obtain ⟨whole,below⟩ := shape
      rw [whole]
      cases bound with
      | zero =>
        -- On the deepest level a container is empty; the depth guard's error leaves it so.
        obtain rfl : levels = 0 := by omega
        exact below
      | succ bound => rw [ih below (by omega)]
    · exact shape

/-- The decoder gives back every forest of at most nine levels from its encoding. -/
theorem decode_forest {forest : List TlvRecord} (nested : IsForest 9 forest) :
    decode (encodeRecords forest) = .ok forest :=
  decodeLevels_forest nested (Nat.le_refl 9)

/-- An object instance with a plain resource and a resource of two instances. -/
def sampleForest : List TlvRecord :=
  let instances : List TlvRecord := [⟨.ResourceInstance,0,[0x01],[]⟩,⟨.ResourceInstance,300,[],[]⟩]
  let resources : List TlvRecord := [⟨.Resource,9,[0x64],[]⟩,⟨.MultiResource,6,encodeRecords instances,instances⟩]
  [⟨.ObjectInstance,0,encodeRecords resources,resources⟩]

theorem decode_sampleForest : decode (encodeRecords sampleForest) = .ok sampleForest :=
  decode_forest (by simp [sampleForest,IsForest,TlvType.isContainer,encodeRecords,encodeRecord,idField,lengthField])

end Ferriot.Tlv
