import Mathlib.Data.List.AList
import Mathlib.Data.List.Find
import Mathlib.Tactic.Common

/-!
# Tables

An `std::unordered_map` as an association list with distinct keys, whose order is
the order of iteration.
-/
namespace Ferriot.Tables
universe u v

/-- A finite map from keys to values. -/
abbrev Table (Key : Type u) (Value : Type v) := AList (fun _ : Key => Value)

variable {Key : Type u} {Value : Type v} [DecidableEq Key]

/-- `table[key] = value`: a key that is present keeps its place. -/
def set (t : Table Key Value) (key : Key) (value : Value) : Table Key Value :=
  if key ∈ t then t.replace key value else t.insert key value

/-- Changes the value of a key that is present. -/
def modify (t : Table Key Value) (key : Key) (f : Value → Value) : Table Key Value :=
  match t.lookup key with
  | some value => t.replace key (f value)
  | none => t

/-- The first entry, in the order of iteration, whose value satisfies the test. -/
def findEntry (t : Table Key Value) (test : Value → Bool) : Option (Key × Value) :=
  (t.entries.find? (fun e => test e.2)).map (fun e => (e.1,e.2))

theorem kreplace_map (key : Key) (value : Value) (l : List (Sigma (fun _ : Key => Value))) (distinct : l.NodupKeys) :
    List.kreplace key value l = l.map (fun e => if key = e.1 then ⟨key,value⟩ else e) := by
  induction l with
  | nil => rfl
  | cons e l ih =>
    rw [List.nodupKeys_cons] at distinct
    obtain ⟨fresh,distinct⟩ := distinct
    simp only [List.kreplace] at ih ⊢
    by_cases same : key = e.1
    · rw [List.lookmap_cons_some _ (b := ⟨key,value⟩) _ (by rw [if_pos same]), List.map_cons, if_pos same]
      congr 1
      symm
      refine (List.map_congr_left ?_).trans (List.map_id l)
      intro x member
      rw [if_neg]
      · rfl
      · rintro rfl
        exact fresh (same ▸ List.mem_keys_of_mem member)
    · rw [List.lookmap_cons_none _ _ (by rw [if_neg same]), List.map_cons, if_neg same, ih distinct]

theorem entries_replace (t : Table Key Value) (key : Key) (value : Value) :
    (t.replace key value).entries = t.entries.map (fun e => if key = e.1 then ⟨key,value⟩ else e) :=
  kreplace_map key value t.entries t.nodupKeys

theorem lookup_replace {t : Table Key Value} {key : Key} (present : key ∈ t) (value : Value) :
    (t.replace key value).lookup key = some value := by
  obtain ⟨old,found⟩ := Option.isSome_iff_exists.mp (AList.lookup_isSome.mpr present)
  refine AList.mem_lookup_iff.mpr ?_
  rw [entries_replace, List.mem_map]
  exact ⟨⟨key,old⟩,AList.mem_lookup_iff.mp found,by simp⟩

theorem lookup_replace_ne (t : Table Key Value) {key other : Key} (ne : other ≠ key) (value : Value) :
    (t.replace key value).lookup other = t.lookup other := by
  ext v
  rw [← Option.mem_def, ← Option.mem_def, AList.mem_lookup_iff, AList.mem_lookup_iff, entries_replace, List.mem_map]
  constructor
  · rintro ⟨e,member,same⟩
    by_cases here : key = e.1
    · rw [if_pos here] at same
      cases same
      exact absurd rfl ne
    · rw [if_neg here] at same
      exact same ▸ member
  · intro member
    exact ⟨⟨other,v⟩,member,if_neg (Ne.symm ne)⟩

/-- Of two values for one key, the later counts. -/
theorem replace_replace (t : Table Key Value) (key : Key) (value later : Value) :
    (t.replace key value).replace key later = t.replace key later := by
  apply AList.ext
  rw [entries_replace, entries_replace, entries_replace, List.map_map]
  refine List.map_congr_left ?_
  intro e _
  by_cases same : key = e.1
  · simp [same]
  · simp [same]

theorem lookup_set (t : Table Key Value) (key other : Key) (value : Value) :
    (set t key value).lookup other = if other = key then some value else t.lookup other := by
  simp only [set]
  by_cases same : other = key
  · subst same
    rw [if_pos rfl]
    split
    · next present => exact lookup_replace present value
    · exact AList.lookup_insert t
  · rw [if_neg same]
    split
    · exact lookup_replace_ne t same value
    · exact AList.lookup_insert_ne same

theorem mem_set (t : Table Key Value) (key other : Key) (value : Value) :
    other ∈ set t key value ↔ other = key ∨ other ∈ t := by
  rw [← AList.lookup_isSome, ← AList.lookup_isSome, lookup_set]
  by_cases same : other = key <;> simp [same]

/-- Setting a key to the value that it has changes nothing. -/
theorem set_same {t : Table Key Value} {key : Key} {value : Value} (found : t.lookup key = some value) :
    set t key value = t := by
  have present : key ∈ t := AList.lookup_isSome.mp (by rw [found]; rfl)
  unfold set
  rw [if_pos present]
  apply AList.ext
  rw [entries_replace]
  refine (List.map_congr_left ?_).trans (List.map_id t.entries)
  rintro ⟨other,value'⟩ member
  by_cases same : key = other
  · subst same
    rw [if_pos rfl, Option.some.inj (found.symm.trans (AList.mem_lookup_iff.mpr member))]
    rfl
  · rw [if_neg same]
    rfl

theorem set_set {t : Table Key Value} {key : Key} (present : key ∈ t) (value later : Value) :
    set (set t key value) key later = set t key later := by
  have still : key ∈ set t key value := (mem_set t key key value).mpr (.inl rfl)
  unfold set at still ⊢
  rw [if_pos present] at still ⊢
  rw [if_pos still, if_pos present, replace_replace]

theorem lookup_modify (t : Table Key Value) (key other : Key) (f : Value → Value) :
    (modify t key f).lookup other = if other = key then (t.lookup key).map f else t.lookup other := by
  simp only [modify]
  cases found : t.lookup key with
  | none =>
    by_cases same : other = key
    · rw [if_pos same, same, found]; rfl
    · rw [if_neg same]
  | some value =>
    have present : key ∈ t := AList.lookup_isSome.mp (by rw [found]; rfl)
    by_cases same : other = key
    · rw [if_pos same, same]; exact lookup_replace present (f value)
    · rw [if_neg same]; exact lookup_replace_ne t same (f value)

theorem mem_modify (t : Table Key Value) (key other : Key) (f : Value → Value) : other ∈ modify t key f ↔ other ∈ t := by
  simp only [modify]
  split
  · exact AList.mem_replace
  · exact Iff.rfl

theorem findEntry_some {t : Table Key Value} {test : Value → Bool} {key : Key} {value : Value}
    (found : findEntry t test = some (key,value)) : t.lookup key = some value ∧ test value = true := by
  obtain ⟨⟨key',value'⟩,first,same⟩ := Option.map_eq_some_iff.mp found
  cases same
  have passes := List.find?_some first
  exact ⟨AList.mem_lookup_iff.mpr (List.mem_of_find?_eq_some first),passes⟩

/-- A search that finds nothing has tested every value. -/
theorem findEntry_none {t : Table Key Value} {test : Value → Bool} {key : Key} {value : Value}
    (missing : findEntry t test = none) (found : t.lookup key = some value) : test value = false := by
  have entry : (⟨key,value⟩ : Sigma (fun _ : Key => Value)) ∈ t.entries := AList.mem_lookup_iff.mp found
  simpa using List.find?_eq_none.mp (Option.map_eq_none_iff.mp missing) _ entry

/-- A change that the test does not see leaves the search where it was. -/
theorem findEntry_modify {t : Table Key Value} {test : Value → Bool} (key : Key) {f : Value → Value}
    (unseen : ∀ value, test (f value) = test value) :
    findEntry (modify t key f) test =
      (findEntry t test).map (fun e => (e.1,if key = e.1 then f e.2 else e.2)) := by
  simp only [modify]
  split
  · next value found =>
    have old : ∀ e ∈ t.entries, key = e.1 → e.2 = value := by
      rintro ⟨k,v⟩ member rfl
      exact Option.some.inj ((AList.mem_lookup_iff.mpr member).symm.trans found)
    simp only [findEntry]
    rw [entries_replace, List.find?_map]
    have same : ∀ e ∈ t.entries,
        (((fun e : Sigma (fun _ : Key => Value) => test e.2) ∘ fun e => if key = e.1 then ⟨key,f value⟩ else e) e) =
          test e.2 := by
      intro e member
      by_cases here : key = e.1
      · simp only [Function.comp_apply, if_pos here, old e member here, unseen]
      · simp only [Function.comp_apply, if_neg here]
    rw [List.find?_congr same]
    cases first : t.entries.find? (fun e => test e.2) with
    | none => rfl
    | some e =>
      have member := List.mem_of_find?_eq_some first
      by_cases here : key = e.1
      · simp [here, old e member here]
      · simp [here]
  · next absent =>
    cases first : findEntry t test with
    | none => rfl
    | some e =>
      have found := (findEntry_some first).1
      have here : key ≠ e.1 := by
        rintro rfl
        rw [absent] at found
        cases found
      simp [here]

theorem entries_erase (t : Table Key Value) (key : Key) :
    (t.erase key).entries = t.entries.filterMap (fun e => if e.1 = key then none else some e) := by
  show t.entries.kerase key = _
  have distinct := t.nodupKeys
  generalize t.entries = entries at distinct
  induction entries with
  | nil => rfl
  | cons e l ih =>
    rw [List.nodupKeys_cons] at distinct
    obtain ⟨fresh,distinct⟩ := distinct
    rw [List.filterMap_cons]
    by_cases same : key = e.1
    · rw [List.kerase_cons_eq same, if_pos same.symm]
      symm
      refine (List.filterMap_congr (fun x member => ?_)).trans List.filterMap_some
      have differs : x.1 ≠ key := by
        rintro rfl
        exact fresh (same ▸ List.mem_keys_of_mem member)
      exact if_neg differs
    · rw [List.kerase_cons_ne same, if_neg (Ne.symm same), ih distinct]

/-- A value that is changed where it stands. -/
theorem entries_modify (t : Table Key Value) (key : Key) (f : Value → Value) :
    (modify t key f).entries = t.entries.filterMap (fun e => some (if e.1 = key then ⟨e.1,f e.2⟩ else e)) := by
  rw [List.filterMap_eq_map']
  unfold modify
  cases found : t.lookup key with
  | none =>
    refine ((List.map_congr_left ?_).trans (List.map_id t.entries)).symm
    intro e member
    have differs : e.1 ≠ key := by
      rintro rfl
      rw [AList.mem_lookup_iff.mpr member] at found
      cases found
    exact if_neg differs
  | some value =>
    dsimp only
    rw [entries_replace]
    refine List.map_congr_left ?_
    rintro ⟨k,v⟩ member
    by_cases same : key = k
    · subst same
      rw [if_pos rfl, if_pos rfl, Option.some.inj (found.symm.trans (AList.mem_lookup_iff.mpr member))]
    · rw [if_neg same, if_neg (Ne.symm same)]

section
variable {Value' : Type v}

omit [DecidableEq Key] in
theorem keys_map (f : Value → Value') (l : List (Sigma (fun _ : Key => Value))) :
    (l.map (fun e => (⟨e.1,f e.2⟩ : Sigma (fun _ : Key => Value')))).keys = l.keys := by
  unfold List.keys
  rw [List.map_map]
  rfl

/-- Every value is changed, and no key. -/
def mapValues (f : Value → Value') (t : Table Key Value) : Table Key Value' where
  entries := t.entries.map (fun e => ⟨e.1,f e.2⟩)
  nodupKeys := by
    have distinct := t.nodupKeys
    unfold List.NodupKeys at distinct ⊢
    rwa [keys_map]

variable (f : Value → Value') (t : Table Key Value) (key : Key)

omit [DecidableEq Key] in
theorem keys_mapValues : (mapValues f t).keys = t.keys := keys_map f t.entries

omit [DecidableEq Key] in
theorem mem_mapValues : key ∈ mapValues f t ↔ key ∈ t := by
  rw [AList.mem_keys, AList.mem_keys, keys_mapValues]

theorem lookup_mapValues : (mapValues f t).lookup key = (t.lookup key).map f := by
  show List.dlookup key (t.entries.map (fun e => (⟨e.1,f e.2⟩ : Sigma (fun _ : Key => Value')))) = (List.dlookup key t.entries).map f
  induction t.entries with
  | nil => rfl
  | cons e l ih =>
    obtain ⟨first,value⟩ := e
    rw [List.map_cons]
    by_cases here : key = first
    · subst here
      rw [List.dlookup_cons_eq, List.dlookup_cons_eq]
      rfl
    · have passed := List.dlookup_cons_ne l (⟨first,value⟩ : Sigma (fun _ : Key => Value)) here
      rw [passed, ← ih]
      exact List.dlookup_cons_ne _ _ here

omit [DecidableEq Key] in
theorem entries_mapValues :
    (mapValues f t).entries = t.entries.map (fun e => (⟨e.1,f e.2⟩ : Sigma (fun _ : Key => Value'))) := rfl

theorem mapValues_replace (value : Value) : mapValues f (t.replace key value) = (mapValues f t).replace key (f value) := by
  apply AList.ext
  rw [entries_replace, entries_mapValues, entries_mapValues, entries_replace, List.map_map, List.map_map]
  refine List.map_congr_left ?_
  intro e _
  by_cases here : key = e.1
  · simp [here]
  · simp [here]

theorem kerase_map (l : List (Sigma (fun _ : Key => Value))) :
    (l.map (fun e => (⟨e.1,f e.2⟩ : Sigma (fun _ : Key => Value')))).kerase key =
      (l.kerase key).map (fun e => ⟨e.1,f e.2⟩) := by
  unfold List.kerase
  rw [List.eraseP_map]
  rfl

theorem mapValues_erase : mapValues f (t.erase key) = (mapValues f t).erase key :=
  AList.ext (kerase_map f key t.entries).symm

theorem mapValues_insert (value : Value) : mapValues f (t.insert key value) = (mapValues f t).insert key (f value) := by
  apply AList.ext
  rw [AList.entries_insert, entries_mapValues, entries_mapValues, AList.entries_insert, List.map_cons, kerase_map]

theorem mapValues_set (value : Value) : mapValues f (set t key value) = set (mapValues f t) key (f value) := by
  unfold set
  by_cases present : key ∈ t
  · rw [if_pos present, if_pos ((mem_mapValues f t key).mpr present), mapValues_replace]
  · rw [if_neg present, if_neg (fun member => present ((mem_mapValues f t key).mp member)), mapValues_insert]
end

end Ferriot.Tables
