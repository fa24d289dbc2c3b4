import Mathlib.Tactic.Common

/-!
# Histories of entries

What a history of creations, deletions and changes says of every key by itself: an entry
lives from its latest creation until it is deleted, and holds what it was created with, as
the changes since then have left it. A table that follows its history entry by entry keeps
the entries apart.
-/
namespace Ferriot.Histories
universe u v w
variable {Key : Type u} {Value : Type v} {Change : Type w}

inductive Event (Key : Type u) (Value : Type v) (Change : Type w) where
  | created (key : Key) (initial : Value)
  | deleted (key : Key)
  | changed (key : Key) (change : Change)

namespace Event

/-- The event begins or ends a life of the key. -/
def Settles (key : Key) : Event Key Value Change → Prop
  | .created other _ => other = key
  | .deleted other => other = key
  | .changed _ _ => False

/-- The change that the event makes to the key. -/
def changeOf [DecidableEq Key] (key : Key) : Event Key Value Change → Option Change
  | .changed other change => if other = key then some change else none
  | _ => none

end Event

section
variable [DecidableEq Key] {key : Key} {event : Event Key Value Change} {history : List (Event Key Value Change)}

/-- The key has been created with the value and not deleted since; the changes are those made
    to it since then, latest first. -/
def Lives (key : Key) (history : List (Event Key Value Change)) (initial : Value) (changes : List Change) : Prop :=
  ∃ later earlier, history = later ++ .created key initial :: earlier ∧ (∀ event ∈ later, ¬ event.Settles key) ∧
    changes = later.filterMap (Event.changeOf key)

/-- The key lives, and has the value that the changes since its creation have left. -/
def Holds (apply : Change → Value → Value) (key : Key) (history : List (Event Key Value Change)) (value : Value) : Prop :=
  ∃ initial changes, Lives key history initial changes ∧ value = changes.foldr apply initial

theorem not_lives_nil (key : Key) (initial : Value) (changes : List Change) : ¬ Lives key [] initial changes := by
  rintro ⟨later,earlier,empty,-⟩
  cases later <;> cases empty

theorem lives_created (key : Key) (value initial : Value) (changes : List Change) :
    Lives key (.created key value :: history) initial changes ↔ initial = value ∧ changes = [] := by
  constructor
  · rintro ⟨later,earlier,split,quiet,rfl⟩
    cases later with
    | nil =>
      cases split
      exact ⟨rfl,rfl⟩
    | cons first later =>
      cases split
      exact absurd rfl (quiet _ List.mem_cons_self)
  · rintro ⟨rfl,rfl⟩
    exact ⟨[],history,rfl,by simp,rfl⟩

theorem not_lives_deleted (key : Key) (initial : Value) (changes : List Change) :
    ¬ Lives key (.deleted key :: history) initial changes := by
  rintro ⟨later,earlier,split,quiet,-⟩
  cases later with
  | nil => cases split
  | cons first later =>
    cases split
    exact quiet _ List.mem_cons_self rfl

/-- Any other event leaves the key alive or not, and may change it. -/
theorem lives_cons (other : ¬ event.Settles key) (initial : Value) (changes : List Change) :
    Lives key (event :: history) initial changes ↔
      ∃ before, Lives key history initial before ∧ changes = (event.changeOf key).toList ++ before := by
  constructor
  · rintro ⟨later,earlier,split,quiet,rfl⟩
    cases later with
    | nil =>
      cases split
      exact absurd rfl other
    | cons first later =>
      cases split
      refine ⟨_,⟨later,earlier,rfl,fun e member => quiet e (List.mem_cons_of_mem _ member),rfl⟩,?_⟩
      rw [List.filterMap_cons]
      cases event.changeOf key <;> rfl
  · rintro ⟨before,⟨later,earlier,rfl,quiet,rfl⟩,rfl⟩
    refine ⟨event :: later,earlier,rfl,List.forall_mem_cons.mpr ⟨other,quiet⟩,?_⟩
    rw [List.filterMap_cons]
    cases event.changeOf key <;> rfl

variable (apply : Change → Value → Value)

theorem holds_created (key created : Key) (initial value : Value) :
    Holds apply key (.created created initial :: history) value ↔
      if key = created then initial = value else Holds apply key history value := by
  by_cases same : key = created
  · subst same
    rw [if_pos rfl]
    simp only [Holds, lives_created]
    constructor
    · rintro ⟨-,-,⟨rfl,rfl⟩,rfl⟩
      rfl
    · rintro rfl
      exact ⟨initial,[],⟨rfl,rfl⟩,rfl⟩
  · rw [if_neg same]
    have other : ¬ (Event.created created initial : Event Key Value Change).Settles key := Ne.symm same
    simp only [Holds, lives_cons other, Event.changeOf, Option.toList_none, List.nil_append, exists_eq_right']

theorem holds_deleted (key deleted : Key) (value : Value) :
    Holds apply key (.deleted deleted :: history) value ↔ key ≠ deleted ∧ Holds apply key history value := by
  by_cases same : key = deleted
  · subst same
    simp [Holds, not_lives_deleted]
  · have other : ¬ (Event.deleted deleted : Event Key Value Change).Settles key := Ne.symm same
    simp only [Holds, lives_cons other, Event.changeOf, Option.toList_none, List.nil_append, exists_eq_right', ne_eq, same,
      not_false_eq_true, true_and]

theorem holds_changed (key changed : Key) (change : Change) (value : Value) :
    Holds apply key (.changed changed change :: history) value ↔
      if key = changed then ∃ old, Holds apply key history old ∧ apply change old = value else Holds apply key history value := by
  have other : ¬ (Event.changed changed change : Event Key Value Change).Settles key := id
  simp only [Holds, lives_cons other, Event.changeOf]
  by_cases same : key = changed
  · rw [if_pos same, if_pos same.symm]
    constructor
    · rintro ⟨initial,-,⟨before,lives,rfl⟩,rfl⟩
      exact ⟨_,⟨initial,before,lives,rfl⟩,rfl⟩
    · rintro ⟨-,⟨initial,before,lives,rfl⟩,rfl⟩
      exact ⟨initial,_,⟨before,lives,rfl⟩,rfl⟩
  · rw [if_neg same, if_neg (Ne.symm same)]
    simp

/-- The table has exactly what the history says. -/
def Follows (lookup : Key → Option Value) (history : List (Event Key Value Change)) : Prop :=
  ∀ key value, lookup key = some value ↔ Holds apply key history value

variable {apply} {lookup lookup' : Key → Option Value}

theorem follows_nil (empty : ∀ key, lookup key = none) : Follows apply lookup [] := by
  intro key value
  rw [empty]
  refine iff_of_false (by simp) ?_
  rintro ⟨initial,changes,lives,-⟩
  exact not_lives_nil key initial changes lives

theorem Follows.created (follows : Follows apply lookup history) {created : Key} {initial : Value}
    (after : ∀ key, lookup' key = if key = created then some initial else lookup key) :
    Follows apply lookup' (.created created initial :: history) := by
  intro key value
  rw [after, holds_created]
  split
  · exact Option.some_inj
  · exact follows key value

theorem Follows.deleted (follows : Follows apply lookup history) {deleted : Key}
    (after : ∀ key, lookup' key = if key = deleted then none else lookup key) :
    Follows apply lookup' (.deleted deleted :: history) := by
  intro key value
  rw [after, holds_deleted]
  split
  · next same => exact iff_of_false (by simp) (fun holds => holds.1 same)
  · next other => exact (follows key value).trans (and_iff_right other).symm

theorem Follows.changed (follows : Follows apply lookup history) {changed : Key} {change : Change} {old : Value}
    (found : lookup changed = some old) (after : ∀ key, lookup' key = if key = changed then some (apply change old) else lookup key) :
    Follows apply lookup' (.changed changed change :: history) := by
  intro key value
  rw [after, holds_changed]
  split
  · next same =>
    subst same
    rw [Option.some_inj]
    constructor
    · rintro rfl
      exact ⟨old,(follows key old).mp found,rfl⟩
    · rintro ⟨old',holds,rfl⟩
      rw [(follows key old').mpr holds] at found
      cases found
      rfl
  · exact follows key value

/-- The keys of the table are those that live. -/
theorem Follows.isSome_iff (follows : Follows apply lookup history) (key : Key) :
    (lookup key).isSome = true ↔ ∃ initial changes, Lives key history initial changes := by
  rw [Option.isSome_iff_exists]
  constructor
  · rintro ⟨value,found⟩
    obtain ⟨initial,changes,lives,-⟩ := (follows key value).mp found
    exact ⟨initial,changes,lives⟩
  · rintro ⟨initial,changes,lives⟩
    exact ⟨_,(follows key _).mpr ⟨initial,changes,lives,rfl⟩⟩

end

end Ferriot.Histories
