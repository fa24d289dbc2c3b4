import Mathlib.Logic.Function.Basic
import Mathlib.Logic.Relation
import Mathlib.Tactic.Common

/-!
# Iterators

The entries of a container by number: each entry that comes gets the next number, and
keeps it until it is erased. An iterator is a key with the number of the entry that it
was made at. What comes back under a key is another entry, and an iterator at the one
before stays a stale one.
-/
namespace Ferriot.Iterators
universe u

/-- Which keys have an entry, and the number of each. -/
structure Entries (Key : Type u) where
  number : Key → Option Nat
  next : Nat
  below : ∀ key k, number key = some k → k < next

structure Iterator (Key : Type u) where
  key : Key
  number : Nat
deriving DecidableEq

namespace Entries
variable {Key : Type u} [DecidableEq Key]

/-- The entries of a container with these keys. -/
def ofKeys (present : Key → Bool) : Entries Key where
  number key := if present key = true then some 0 else none
  next := 1
  below := by
    intro key k found
    split at found
    · cases found
      decide
    · cases found

/-- The key gets an entry, unless it has one. -/
def insert (key : Key) (n : Entries Key) : Entries Key :=
  if (n.number key).isSome then n
  else
    { number := Function.update n.number key (some n.next)
      next := n.next + 1
      below := by
        intro other k found
        by_cases same : other = key
        · subst same
          rw [Function.update_self] at found
          cases found
          exact Nat.lt_succ_self _
        · rw [Function.update_of_ne same] at found
          exact Nat.lt_succ_of_lt (n.below other k found) }

def erase (key : Key) (n : Entries Key) : Entries Key where
  number := Function.update n.number key none
  next := n.next
  below := by
    intro other k found
    by_cases same : other = key
    · subst same
      rw [Function.update_self] at found
      cases found
    · rw [Function.update_of_ne same] at found
      exact n.below other k found

def clear (n : Entries Key) : Entries Key := ⟨fun _ => none,n.next,by rintro _ _ ⟨⟩⟩

def Has (n : Entries Key) (key : Key) : Prop := (n.number key).isSome = true

/-- An iterator at the entry of a key that has one. -/
def find (n : Entries Key) (key : Key) : Iterator Key := ⟨key,(n.number key).getD 0⟩

/-- The entry that the iterator was made at is still there. -/
def Live (n : Entries Key) (it : Iterator Key) : Prop := n.number it.key = some it.number

instance (n : Entries Key) (it : Iterator Key) : Decidable (n.Live it) := inferInstanceAs (Decidable (_ = _))

/-- One entry comes or goes, or all go. -/
inductive Change : Entries Key → Entries Key → Prop
  | insert (key : Key) (n : Entries Key) : Change n (n.insert key)
  | erase (key : Key) (n : Entries Key) : Change n (n.erase key)
  | clear (n : Entries Key) : Change n n.clear

variable {n m : Entries Key} {key other : Key} {it : Iterator Key}

omit [DecidableEq Key] in
@[simp] theorem has_ofKeys (present : Key → Bool) : (ofKeys present).Has key ↔ present key = true := by
  unfold Has ofKeys
  by_cases here : present key = true <;> simp [here]

theorem insert_has (there : n.Has key) : n.insert key = n := if_pos there

theorem number_insert (absent : ¬ n.Has key) (other : Key) :
    (n.insert key).number other = if other = key then some n.next else n.number other := by
  unfold Has at absent
  unfold insert
  rw [if_neg absent]
  exact Function.update_apply _ _ _ _

theorem next_insert (absent : ¬ n.Has key) : (n.insert key).next = n.next + 1 := by
  unfold Has at absent
  unfold insert
  rw [if_neg absent]

theorem number_erase (n : Entries Key) (key other : Key) :
    (n.erase key).number other = if other = key then none else n.number other :=
  Function.update_apply _ _ _ _

@[simp] theorem has_insert : (n.insert key).Has other ↔ other = key ∨ n.Has other := by
  by_cases there : n.Has key
  · rw [insert_has there]
    refine ⟨.inr,?_⟩
    rintro (rfl | there')
    · exact there
    · exact there'
  · unfold Has at there ⊢
    rw [number_insert there]
    by_cases same : other = key
    · simp [same]
    · simp [same]

@[simp] theorem has_erase : (n.erase key).Has other ↔ other ≠ key ∧ n.Has other := by
  unfold Has
  rw [number_erase]
  by_cases same : other = key
  · simp [same]
  · simp [same]

omit [DecidableEq Key] in
@[simp] theorem has_clear : ¬ n.clear.Has key := by simp [Has, clear]

omit [DecidableEq Key] in
theorem Live.has (live : n.Live it) : n.Has it.key := by
  unfold Has
  rw [live]
  rfl

omit [DecidableEq Key] in
theorem live_find (there : n.Has key) : n.Live (n.find key) := by
  obtain ⟨k,found⟩ := Option.isSome_iff_exists.mp there
  simp [Live, find, found]

/-- An insertion leaves the iterators alone. -/
theorem Live.insert (live : n.Live it) (key : Key) : (n.insert key).Live it := by
  by_cases there : n.Has key
  · rwa [insert_has there]
  · have other : it.key ≠ key := by
      rintro rfl
      exact there live.has
    unfold Live
    rw [number_insert there, if_neg other]
    exact live

/-- An erasure leaves the iterators at other keys alone. -/
theorem Live.erase (live : n.Live it) (other : it.key ≠ key) : (n.erase key).Live it := by
  unfold Live
  rw [number_erase, if_neg other]
  exact live

/-- What comes or goes does not bring back the entry of a stale iterator. -/
theorem Change.stale (changed : Change n m) (old : it.number < n.next) (stale : ¬ n.Live it) :
    it.number < m.next ∧ ¬ m.Live it := by
  cases changed with
  | insert key =>
    by_cases there : n.Has key
    · rw [insert_has there]
      exact ⟨old,stale⟩
    · unfold Live
      rw [number_insert there, next_insert there]
      refine ⟨Nat.lt_succ_of_lt old,?_⟩
      by_cases same : it.key = key
      · rw [if_pos same]
        intro again
        exact Nat.lt_irrefl _ (Option.some.inj again ▸ old)
      · rw [if_neg same]
        exact stale
  | erase key =>
    refine ⟨old,?_⟩
    unfold Live
    rw [number_erase]
    by_cases same : it.key = key
    · simp [same]
    · rw [if_neg same]
      exact stale
  | clear => exact ⟨old,by rintro ⟨⟩⟩

/-- An iterator that is live was so through all changes since. -/
theorem live_back (changes : Relation.ReflTransGen Change n m) (old : it.number < n.next) (live : m.Live it) : n.Live it := by
  by_contra stale
  have after : it.number < m.next ∧ ¬ m.Live it := by
    clear live
    induction changes with
    | refl => exact ⟨old,stale⟩
    | tail _ last ih => exact last.stale ih.1 ih.2
  exact after.2 live

end Entries

end Ferriot.Iterators
