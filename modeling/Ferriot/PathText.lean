import Ferriot.Client
import Ferriot.Delimited
import Mathlib.Data.List.Induction
import Mathlib.Data.Nat.Digits.Defs

/-!
# The text of a path

`ObjectPath::parse` against the grammar of a path, one to four numbers that each
follow a slash, and against `ObjectPath::to_string`. The loop of `parse` ends after
four components, whatever is left of the text.
-/
namespace Ferriot.ObjectPath

/-- The number that decimal digits stand for. -/
def digitsValue (segment : Bytes) : Nat := Nat.ofDigits 10 (segment.reverse.map (fun b => b.toNat - 48))

/-- The segment is a number of 16 bits, in decimal digits. -/
structure Number (segment : Bytes) (value : UInt16) : Prop where
  written : segment ≠ []
  digits : ∀ b ∈ segment, 48 ≤ b.toNat ∧ b.toNat ≤ 57
  value : digitsValue segment = value.toNat

/-- The text is made of the numbers, each after a slash, and nothing else. -/
inductive Spells : Bytes → List UInt16 → Prop
  | nil : Spells [] []
  | cons {segment rest : Bytes} {value : UInt16} {values : List UInt16} (number : Number segment value)
      (more : Spells rest values) : Spells (slash :: (segment ++ rest)) (value :: values)

/-- The numbers are the components of the path in order, and it has no others. -/
structure Denotes (values : List UInt16) (path : ObjectPath) : Prop where
  object : values[0]? = some path.objectId
  inst : values[1]? = path.instanceId
  resource : values[2]? = path.resourceId
  resourceInstance : values[3]? = path.resourceInstanceId

/-- `parse` accepts the text exactly if it is the text of a path, with the components of that path. -/
def ParsedExactly (text : Bytes) : Prop :=
  ∀ path, parse text = some path ↔ ∃ values, values.length ≤ 4 ∧ Spells text values ∧ Denotes values path

/-- After four numbers the text goes on, and does not end in a slash. -/
def GoesOn (text : Bytes) (values : List UInt16) : Prop :=
  values.length = 4 ∧ ∃ front rest, text = front ++ slash :: rest ∧ Spells front values ∧ rest ≠ [] ∧
    rest.getLast? ≠ some slash

theorem foldl_digits (segment : Bytes) : segment.foldl (fun n b => 10 * n + (b.toNat - 48)) 0 = digitsValue segment := by
  induction segment using List.reverseRecOn with
  | nil => rfl
  | append_singleton front b ih =>
    unfold digitsValue at ih ⊢
    rw [List.foldl_concat, ih, List.reverse_concat, List.map_cons, Nat.ofDigits_cons]
    omega

theorem isDigit_iff (b : UInt8) : isDigit b = true ↔ 48 ≤ b.toNat ∧ b.toNat ≤ 57 := by
  unfold isDigit
  rw [Bool.and_eq_true, decide_eq_true_iff, decide_eq_true_iff]
  rfl

theorem parseNumber_iff (segment : Bytes) (value : UInt16) : parseNumber segment = some value ↔ Number segment value := by
  unfold parseNumber
  rw [foldl_digits]
  have all : segment.all isDigit = true ↔ ∀ b ∈ segment, 48 ≤ b.toNat ∧ b.toNat ≤ 57 := by
    rw [List.all_eq_true]
    exact forall₂_congr (fun b _ => isDigit_iff b)
  constructor
  · intro parsed
    by_cases number : segment ≠ [] ∧ segment.all isDigit = true
    · rw [if_pos number] at parsed
      by_cases fits : digitsValue segment ≤ 65535
      · dsimp only at parsed
        rw [if_pos fits, Option.some.injEq] at parsed
        refine ⟨number.1,all.mp number.2,?_⟩
        rw [← parsed, UInt16.toNat_ofNat']
        omega
      · dsimp only at parsed
        rw [if_neg fits] at parsed
        cases parsed
    · rw [if_neg number] at parsed
      cases parsed
  · rintro ⟨written,digits,same⟩
    have fits := value.toNat_lt
    rw [if_pos ⟨written,all.mpr digits⟩]
    dsimp only
    rw [if_pos (by omega), same, UInt16.ofNat_toNat]

theorem Number.unslashed {segment : Bytes} {value : UInt16} (number : Number segment value) : ∀ b ∈ segment, b ≠ slash := by
  rintro b member rfl
  exact absurd (number.digits slash member).1 (by decide)

/-- The first segment of a text is what stands before the first slash. -/
theorem Number.takeWhile {segment : Bytes} {value : UInt16} (number : Number segment value) {rest : Bytes}
    (ends : rest = [] ∨ ∃ more, rest = slash :: more) : (segment ++ rest).takeWhile (· ≠ slash) = segment := by
  have passes : ∀ b ∈ segment, decide (b ≠ slash) = true := fun b member => decide_eq_true (number.unslashed b member)
  rw [List.takeWhile_append_of_pos passes]
  rcases ends with rfl | ⟨more,rfl⟩
  · rw [List.takeWhile_nil, List.append_nil]
  · rw [List.takeWhile_cons_of_neg (by simp), List.append_nil]

theorem Spells.ends {text : Bytes} {values : List UInt16} (spells : Spells text values) :
    text = [] ∨ ∃ more, text = slash :: more := by
  cases spells with
  | nil => exact .inl rfl
  | cons number more => exact .inr ⟨_,rfl⟩

theorem Spells.last {text : Bytes} {values : List UInt16} (spells : Spells text values) (written : values ≠ []) :
    text.getLast? ≠ some slash := by
  induction spells with
  | nil => exact absurd rfl written
  | @cons segment rest value values number more ih =>
    intro last
    cases more with
    | nil =>
      rw [List.append_nil, List.getLast?_cons_of_ne_nil number.written] at last
      exact number.unslashed slash (List.mem_of_getLast? last) rfl
    | @cons next after _ _ _ _ =>
      have some : slash :: (next ++ after) ≠ [] := List.cons_ne_nil _ _
      rw [List.getLast?_cons_of_ne_nil (by simp), List.getLast?_append_of_ne_nil _ some] at last
      exact ih (List.cons_ne_nil _ _) last

/-- The numbers that a text begins with are the first of its numbers. -/
theorem Spells.split {front tail : Bytes} {first all : List UInt16} (begins : Spells front first)
    (spells : Spells (front ++ tail) all) (ends : tail = [] ∨ ∃ more, tail = slash :: more) :
    ∃ later, all = first ++ later ∧ Spells tail later := by
  induction begins generalizing all with
  | nil => exact ⟨all,rfl,spells⟩
  | @cons segment rest value values number more ih =>
    have after : rest ++ tail = [] ∨ ∃ more, rest ++ tail = slash :: more := by
      rcases more.ends with rfl | ⟨text,rfl⟩
      · exact ends
      · exact .inr ⟨text ++ tail,rfl⟩
    generalize whole : slash :: (segment ++ rest) ++ tail = text at spells
    cases spells with
    | nil => cases whole
    | @cons segment' rest' value' values' number' more' =>
      rw [List.cons_append, List.append_assoc, List.cons.injEq] at whole
      have same : segment = segment' := by
        rw [← number.takeWhile after, whole.2, number'.takeWhile more'.ends]
      subst same
      have value := UInt16.toNat_inj.mp (number.value.symm.trans number'.value)
      subst value
      obtain ⟨later,rfl,left⟩ := ih (List.append_cancel_left whole.2 ▸ more')
      exact ⟨later,rfl,left⟩

/-! ### Parsing -/

/-- One round of the loop: a number up to the next slash or the end. -/
theorem parseComponents_succ (room : Nat) {text : Bytes} (written : text ≠ []) (values : List UInt16) :
    parseComponents (room+1) text = some values ↔
      ∃ value later, values = value :: later ∧ Number (text.takeWhile (· ≠ slash)) value ∧
        parseComponents room (text.drop ((text.takeWhile (· ≠ slash)).length + 1)) = some later := by
  cases text with
  | nil => exact absurd rfl written
  | cons b text =>
    conv_lhs => unfold parseComponents
    dsimp only
    by_cases empty : (b :: text).takeWhile (· ≠ slash) = []
    · rw [if_pos empty]
      refine iff_of_false (by rintro ⟨⟩) ?_
      rintro ⟨value,later,-,number,-⟩
      exact number.written empty
    · rw [if_neg empty]
      cases parsed : parseNumber ((b :: text).takeWhile (· ≠ slash)) with
      | none =>
        refine iff_of_false (by rintro ⟨⟩) ?_
        rintro ⟨value,later,-,number,-⟩
        rw [(parseNumber_iff _ value).mpr number] at parsed
        cases parsed
      | some value =>
        rw [Option.map_eq_some_iff]
        constructor
        · rintro ⟨later,rest,rfl⟩
          exact ⟨value,later,rfl,(parseNumber_iff _ value).mp parsed,rest⟩
        · rintro ⟨value',later,rfl,number,rest⟩
          rw [(parseNumber_iff _ value').mpr number] at parsed
          cases parsed
          exact ⟨later,rest,rfl⟩

/-- What is left of a text that has been read so far: nothing, a slash at the end, or, when there
    is no room, a slash and more. -/
def Left (full : Prop) (tail : Bytes) : Prop := tail = [] ∨ ∃ more, tail = slash :: more ∧ (more = [] ∨ full)

theorem parseComponents_sound {room : Nat} {text : Bytes} {values : List UInt16}
    (parsed : parseComponents room text = some values) :
    ∃ front tail, slash :: text = front ++ tail ∧ Spells front values ∧ values.length ≤ room ∧
      Left (values.length = room) tail := by
  induction room generalizing text values with
  | zero =>
    cases parsed
    exact ⟨[],slash :: text,rfl,.nil,le_rfl,.inr ⟨text,rfl,.inr rfl⟩⟩
  | succ room ih =>
    by_cases written : text = []
    · subst written
      cases parsed
      exact ⟨[],[slash],rfl,.nil,Nat.zero_le _,.inr ⟨[],rfl,.inl rfl⟩⟩
    · obtain ⟨value,later,rfl,number,rest⟩ := (parseComponents_succ room written values).mp parsed
      obtain ⟨front,tail,same,spells,bound,left⟩ := ih rest
      have whole := List.takeWhile_append_dropWhile (p := (· ≠ slash)) (l := text)
      have after := Delimited.dropWhile_cases slash text
      generalize text.takeWhile (· ≠ slash) = segment at number same whole
      generalize text.dropWhile (· ≠ slash) = remaining at whole after
      subst whole
      rw [← List.drop_drop, List.drop_left] at same
      rcases after with rfl | ⟨more,rfl⟩
      · cases spells with
        | nil =>
          refine ⟨slash :: (segment ++ []),[],by simp,.cons number .nil,by simp,.inl rfl⟩
        | cons next more =>
          simp only [List.drop_nil, List.cons_append, List.append_assoc, List.cons.injEq, true_and] at same
          exact absurd (List.append_eq_nil_iff.mp same.symm).1 next.written
      · rw [List.drop_one, List.tail_cons] at same
        refine ⟨slash :: (segment ++ front),tail,?_,.cons number spells,by simpa using bound,?_⟩
        · rw [same, List.cons_append, List.append_assoc]
        · simpa [Left] using left

theorem parseComponents_complete {room : Nat} {text front tail : Bytes} {values : List UInt16}
    (same : slash :: text = front ++ tail) (spells : Spells front values) (bound : values.length ≤ room)
    (left : Left (values.length = room) tail) : parseComponents room text = some values := by
  induction room generalizing text front values with
  | zero =>
    rw [List.eq_nil_of_length_eq_zero (Nat.le_zero.mp bound)]
    rfl
  | succ room ih =>
    cases spells with
    | nil =>
      rcases left with rfl | ⟨more,rfl,rfl | full⟩
      · cases same
      · cases same
        rfl
      · cases full
    | @cons segment rest value later number more =>
      rw [List.cons_append, List.append_assoc, List.cons.injEq] at same
      obtain ⟨-,rfl⟩ := same
      have after : rest ++ tail = [] ∨ ∃ text, rest ++ tail = slash :: text := by
        rcases more.ends with rfl | ⟨text,rfl⟩
        · rcases left with rfl | ⟨text,rfl,-⟩
          · exact .inl rfl
          · exact .inr ⟨text,rfl⟩
        · exact .inr ⟨text ++ tail,rfl⟩
      have cut := number.takeWhile after
      refine (parseComponents_succ room (fun empty => number.written (List.append_eq_nil_iff.mp empty).1) _).mpr
        ⟨value,later,rfl,by rwa [cut],?_⟩
      rw [cut, ← List.drop_drop, List.drop_left]
      rcases after with none | ⟨text,some⟩
      · obtain ⟨rfl,rfl⟩ := List.append_eq_nil_iff.mp none
        cases more
        cases room <;> rfl
      · rw [some, List.drop_one, List.tail_cons]
        refine ih some.symm more (by simpa using bound) ?_
        simpa [Left] using left

theorem ofComponents_iff {values : List UInt16} (bound : values.length ≤ 4) (path : ObjectPath) :
    ofComponents values = some path ↔ Denotes values path := by
  obtain ⟨object,inst,resource,resourceInstance⟩ := path
  match values, bound with
  | [], _ =>
    refine iff_of_false (by rintro ⟨⟩) ?_
    rintro ⟨⟨⟩,-,-,-⟩
  | [_], _ | [_, _], _ | [_, _, _], _ | [_, _, _, _], _ =>
    constructor
    · rintro ⟨⟩
      exact ⟨rfl,rfl,rfl,rfl⟩
    · rintro ⟨⟨⟩,⟨⟩,⟨⟩,⟨⟩⟩
      rfl

/-- What `parse` checks around the loop. -/
theorem parse_eq_some (text : Bytes) (path : ObjectPath) :
    parse text = some path ↔
      ∃ rest values, text = slash :: rest ∧ rest.getLast? ≠ some slash ∧ parseComponents 4 rest = some values ∧
        ofComponents values = some path := by
  cases text with
  | nil => simp [parse]
  | cons first rest =>
    unfold parse
    dsimp only
    by_cases starts : first = slash
    · subst starts
      by_cases last : rest.getLast? = some slash
      · simp [last]
      · rw [if_neg (fun other => other rfl), if_neg last, Option.bind_eq_some_iff]
        constructor
        · rintro ⟨values,read,made⟩
          exact ⟨rest,values,rfl,last,read,made⟩
        · rintro ⟨_,values,⟨⟩,-,read,made⟩
          exact ⟨values,read,made⟩
    · simp [starts]

/-- Numbers, and then a slash and more: the last byte is that of what follows. -/
theorem last_after {front rest after : Bytes} {values : List UInt16} (spells : Spells front values) (some : values ≠ [])
    (written : after ≠ []) (same : slash :: rest = front ++ slash :: after) : rest.getLast? = after.getLast? := by
  cases spells with
  | nil => exact absurd rfl some
  | cons number more =>
    rw [List.cons_append, List.cons.injEq] at same
    rw [same.2, List.getLast?_append_of_ne_nil _ (List.cons_ne_nil _ _), List.getLast?_cons_of_ne_nil written]

theorem parse_sound {text : Bytes} {path : ObjectPath} (parsed : parse text = some path) :
    ∃ values, Denotes values path ∧ (values.length ≤ 4 ∧ Spells text values ∨ GoesOn text values) := by
  obtain ⟨rest,values,rfl,last,read,made⟩ := (parse_eq_some text path).mp parsed
  obtain ⟨front,tail,same,spells,bound,left⟩ := parseComponents_sound read
  have some : values ≠ [] := by
    rintro rfl
    cases made
  refine ⟨values,(ofComponents_iff bound path).mp made,?_⟩
  rcases left with rfl | ⟨more,rfl,stops⟩
  · rw [List.append_nil] at same
    exact .inl ⟨bound,same ▸ spells⟩
  · by_cases ended : more = []
    · -- the text would end in the slash that `parse` refuses
      subst ended
      cases spells with
      | nil => exact absurd rfl some
      | cons number more =>
        rw [List.cons_append, List.cons.injEq] at same
        rw [same.2, List.getLast?_concat] at last
        exact absurd rfl last
    · exact .inr ⟨stops.resolve_left ended,front,more,same,spells,ended,last_after spells some ended same ▸ last⟩

theorem parse_complete {text : Bytes} {path : ObjectPath} {values : List UInt16} (denotes : Denotes values path)
    (spelled : values.length ≤ 4 ∧ Spells text values ∨ GoesOn text values) : parse text = some path := by
  have some : values ≠ [] := by
    rintro rfl
    cases denotes.object
  rcases spelled with ⟨bound,spells⟩ | ⟨four,front,rest,rfl,spells,written,last⟩
  · have ends := spells.last some
    rcases spells.ends with rfl | ⟨rest,rfl⟩
    · cases spells
      exact absurd rfl some
    · refine (parse_eq_some _ path).mpr ⟨rest,values,rfl,?_,?_,(ofComponents_iff bound path).mpr denotes⟩
      · intro last
        have written : rest ≠ [] := by
          rintro rfl
          cases last
        rw [List.getLast?_cons_of_ne_nil written] at ends
        exact ends last
      · exact parseComponents_complete (List.append_nil _).symm spells bound (.inl rfl)
  · obtain ⟨text,same⟩ : ∃ text, slash :: text = front ++ slash :: rest := by
      cases spells with
      | nil => exact ⟨_,rfl⟩
      | cons number more => exact ⟨_,rfl⟩
    rw [← same]
    refine (parse_eq_some _ path).mpr ⟨text,values,rfl,?_,?_,(ofComponents_iff (le_of_eq four) path).mpr denotes⟩
    · rw [last_after spells some written same]
      exact last
    · exact parseComponents_complete same spells (le_of_eq four) (.inr ⟨rest,rfl,.inr four⟩)

theorem GoesOn.inexact {text : Bytes} {values : List UInt16} (goesOn : GoesOn text values) : ¬ ParsedExactly text := by
  intro exact
  obtain ⟨path,made⟩ : ∃ path, ofComponents values = some path := by
    match values, goesOn.1 with
    | [_, _, _, _], _ => exact ⟨_,rfl⟩
  have denotes := (ofComponents_iff (le_of_eq goesOn.1) path).mp made
  obtain ⟨all,bound,whole,-⟩ := (exact path).mp (parse_complete denotes (.inr goesOn))
  obtain ⟨four,front,rest,rfl,spells,-,-⟩ := goesOn
  obtain ⟨later,rfl,left⟩ := spells.split whole (.inr ⟨rest,rfl⟩)
  cases left with
  | cons number more =>
    rw [List.length_append, List.length_cons] at bound
    omega

/-- `parse` is exact on a text unless four components are followed by a slash and more. -/
theorem parsedExactly_iff (text : Bytes) : ParsedExactly text ↔ ¬ ∃ values, GoesOn text values := by
  constructor
  · rintro exact ⟨values,goesOn⟩
    exact goesOn.inexact exact
  · intro stops path
    constructor
    · intro parsed
      obtain ⟨values,denotes,⟨bound,spells⟩ | goesOn⟩ := parse_sound parsed
      · exact ⟨values,bound,spells,denotes⟩
      · exact absurd ⟨values,goesOn⟩ stops
    · rintro ⟨values,bound,spells,denotes⟩
      exact parse_complete denotes (.inl ⟨bound,spells⟩)

/-- `/3/0/1/2/x` is taken for `/3/0/1/2`. -/
theorem fifth_segment_ignored : ¬ ParsedExactly (lit ['/','3','/','0','/','1','/','2','/','x']) := by
  have digit (b : UInt8) (value : UInt16) (is : 48 ≤ b.toNat ∧ b.toNat ≤ 57 ∧ b.toNat - 48 = value.toNat) : Number [b] value :=
    ⟨by simp,by simpa using ⟨is.1,is.2.1⟩,by simpa [digitsValue] using is.2.2⟩
  have spells : Spells (lit ['/','3','/','0','/','1','/','2']) [3, 0, 1, 2] :=
    .cons (digit 51 3 (by decide)) (.cons (digit 48 0 (by decide)) (.cons (digit 49 1 (by decide)) (.cons (digit 50 2 (by decide)) .nil)))
  have goesOn : GoesOn (lit ['/','3','/','0','/','1','/','2','/','x']) [3, 0, 1, 2] :=
    ⟨rfl,_,lit ['x'],rfl,spells,by decide,by decide⟩
  exact goesOn.inexact

/-! ### Printing -/

/-- `ObjectPath::to_string`. -/
def toString (path : ObjectPath) : Bytes :=
  slash :: Client.decimal path.objectId.toNat ++
    match path.instanceId with
    | none => []
    | some iid =>
      slash :: Client.decimal iid.toNat ++
        match path.resourceId with
        | none => []
        | some rid =>
          slash :: Client.decimal rid.toNat ++
            match path.resourceInstanceId with
            | none => []
            | some riid => slash :: Client.decimal riid.toNat

/-- A resource only with an instance, and a resource instance only with a resource. -/
structure Gapless (path : ObjectPath) : Prop where
  resource : path.resourceId ≠ none → path.instanceId ≠ none
  resourceInstance : path.resourceInstanceId ≠ none → path.resourceId ≠ none

theorem Gapless.shape {path : ObjectPath} (gapless : Gapless path) : Shape path := by
  obtain ⟨object,inst,resource,resourceInstance⟩ := path
  obtain ⟨upper,lower⟩ := gapless
  cases resourceInstance with
  | some riid =>
    obtain ⟨rid,rfl⟩ := Option.ne_none_iff_exists'.mp (lower (by simp))
    obtain ⟨iid,rfl⟩ := Option.ne_none_iff_exists'.mp (upper (by simp))
    exact .resourceInstance object iid rid riid
  | none =>
    cases resource with
    | some rid =>
      obtain ⟨iid,rfl⟩ := Option.ne_none_iff_exists'.mp (upper (by simp))
      exact .resource object iid rid
    | none =>
      cases inst with
      | some iid => exact .instance object iid
      | none => exact .object object

/-- A digit is one byte. -/
theorem digit_byte {n : Nat} {digit : Char} (member : digit ∈ Nat.toDigits 10 n) :
    (UInt8.ofNat digit.toNat).toNat = digit.toNat ∧ 48 ≤ digit.toNat ∧ digit.toNat ≤ 57 := by
  have isDigit := Nat.isDigit_of_mem_toDigits (by decide) (by decide) member
  unfold Char.isDigit at isDigit
  simp only [Bool.and_eq_true, decide_eq_true_eq, ge_iff_le] at isDigit
  obtain ⟨low,high⟩ := isDigit
  have low : 48 ≤ digit.toNat := low
  have high : digit.toNat ≤ 57 := high
  refine ⟨?_,low,high⟩
  rw [UInt8.toNat_ofNat']
  omega

/-- The decimal text of a number is read back as the number. -/
theorem decimal_number (value : UInt16) : Number (Client.decimal value.toNat) value := by
  unfold Client.decimal lit
  refine ⟨?_,?_,?_⟩
  · rw [ne_eq, List.map_eq_nil_iff]
    exact Nat.toDigits_ne_nil
  · intro b member
    obtain ⟨digit,inside,rfl⟩ := List.mem_map.mp member
    obtain ⟨byte,range⟩ := digit_byte inside
    rwa [byte]
  · rw [← foldl_digits, List.foldl_map]
    refine Eq.trans ?_ (Nat.ofDigitChars_ten_toDigits (n := value.toNat))
    rw [Nat.ofDigitChars_eq_foldl]
    refine List.foldl_ext _ _ 0 ?_
    intro n digit member
    rw [(digit_byte member).1]
    rfl

/-- A path without gaps is printed as the text of its components. -/
theorem toString_spells {path : ObjectPath} (shape : Shape path) :
    ∃ values, values.length ≤ 4 ∧ Spells path.toString values ∧ Denotes values path := by
  have number (value : UInt16) {rest : Bytes} {values : List UInt16} (more : Spells rest values) :
      Spells (slash :: Client.decimal value.toNat ++ rest) (value :: values) := .cons (decimal_number value) more
  have last (value : UInt16) : Spells (slash :: Client.decimal value.toNat) [value] := by
    have spells := number value .nil
    rwa [List.append_nil] at spells
  cases shape with
  | object o => exact ⟨[o],by simp,number o .nil,⟨rfl,rfl,rfl,rfl⟩⟩
  | «instance» o i => exact ⟨[o, i],by simp,number o (number i .nil),⟨rfl,rfl,rfl,rfl⟩⟩
  | resource o i r => exact ⟨[o, i, r],by simp,number o (number i (number r .nil)),⟨rfl,rfl,rfl,rfl⟩⟩
  | resourceInstance o i r ri =>
    exact ⟨[o, i, r, ri],by simp,number o (number i (number r (last ri))),⟨rfl,rfl,rfl,rfl⟩⟩

theorem parse_printed {path : ObjectPath} (gapless : Gapless path) : parse path.toString = some path := by
  obtain ⟨values,bound,spells,denotes⟩ := toString_spells gapless.shape
  exact parse_complete denotes (.inl ⟨bound,spells⟩)

/-- A path without gaps is what its text is parsed to, and no other such path has that text. -/
theorem toString_parses (path : ObjectPath) (gapless : Gapless path) :
    parse path.toString = some path ∧ ∀ other, Gapless other → other ≠ path → other.toString ≠ path.toString := by
  have printed := parse_printed gapless
  refine ⟨printed,?_⟩
  intro other gapless' different same
  have printed' := parse_printed gapless'
  rw [same, printed] at printed'
  exact different (Option.some.inj printed').symm

theorem toString_parses_resource :
    parse (toString ⟨3,some 0,some 1,none⟩) = some ⟨3,some 0,some 1,none⟩ :=
  (toString_parses ⟨3,some 0,some 1,none⟩ ⟨by simp,by simp⟩).1

end Ferriot.ObjectPath
