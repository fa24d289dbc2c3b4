import Ferriot.Types

/-!
Paths as strings: `ObjectPath::parse` and the shapes of what it accepts.
-/
namespace Ferriot

namespace ObjectPath

def slash : UInt8 := 47

def isDigit (b : UInt8) : Bool := 48 ≤ b && b ≤ 57

/-- `std::from_chars` into a `uint16_t`, required to use the whole segment: digits
    only, and a value in range. -/
def parseNumber (segment : Bytes) : Option UInt16 :=
  if segment ≠ [] ∧ segment.all isDigit then
    let value := segment.foldl (fun n b => 10 * n + (b.toNat - 48)) 0
    if value ≤ 65535 then some (UInt16.ofNat value) else none
  else none

/-- The loop over the segments, with room for so many components: it ends with the
    text or with the room. -/
def parseComponents : Nat → Bytes → Option (List UInt16)
  | 0, _ => some []
  | _, [] => some []
  | room+1, text =>
    let segment := text.takeWhile (· ≠ slash)
    if segment = [] then none
    else
      match parseNumber segment with
      | none => none
      | some value => (parseComponents room (text.drop (segment.length + 1))).map (value :: ·)

/-- The components in their places. -/
def ofComponents : List UInt16 → Option ObjectPath
  | [] => none
  | [o] => some ⟨o,none,none,none⟩
  | [o, i] => some ⟨o,some i,none,none⟩
  | [o, i, r] => some ⟨o,some i,some r,none⟩
  | o :: i :: r :: ri :: _ => some ⟨o,some i,some r,some ri⟩

/-- `ObjectPath::parse`. -/
def parse : Bytes → Option ObjectPath
  | [] => none
  | first :: rest =>
    if first ≠ slash then none
    else if rest.getLast? = some slash then none
    else (parseComponents 4 rest).bind ofComponents

/-- A path of one to four components, with no gaps. -/
inductive Shape : ObjectPath → Prop
  | object (o : UInt16) : Shape ⟨o,none,none,none⟩
  | instance (o i : UInt16) : Shape ⟨o,some i,none,none⟩
  | resource (o i r : UInt16) : Shape ⟨o,some i,some r,none⟩
  | resourceInstance (o i r ri : UInt16) : Shape ⟨o,some i,some r,some ri⟩

theorem ofComponents_shape {components : List UInt16} {path : ObjectPath}
    (made : ofComponents components = some path) : Shape path := by
  match components, made with
  | [_], made => cases made; exact .object _
  | [_, _], made => cases made; exact .instance _ _
  | [_, _, _], made => cases made; exact .resource _ _ _
  | _ :: _ :: _ :: _ :: _, made => cases made; exact .resourceInstance _ _ _ _

theorem parse_shape {text : Bytes} {path : ObjectPath} (parsed : parse text = some path) : Shape path := by
  cases text with
  | nil => cases parsed
  | cons first rest =>
    simp only [parse] at parsed
    split at parsed
    · cases parsed
    · split at parsed
      · cases parsed
      · obtain ⟨components,-,made⟩ := Option.bind_eq_some_iff.mp parsed
        exact ofComponents_shape made

end ObjectPath

end Ferriot
