import Mathlib.Data.List.Dedup
import Mathlib.Tactic.Common

/-!
# Overwriting

Changes that put values in places and read nothing of what they find there: of a change
that is made more than once, with whatever between, only the last time counts.
-/
namespace Ferriot.Overwriting
universe u v w
variable {Change : Type u} {State : Type v}

/-- Makes the changes, one after the other. -/
def applyAll (apply : Change → State → State) (changes : List Change) (s : State) : State :=
  changes.foldl (fun s change => apply change s) s

/-- A change that is made again is as if it had not been made before. -/
structure Overwrites (apply : Change → State → State) : Prop where
  twice (a : Change) (s : State) : apply a (apply a s) = apply a s
  between (a b : Change) (s : State) : apply a (apply b (apply a s)) = apply a (apply b s)

theorem applyAll_append (apply : Change → State → State) (first later : List Change) (s : State) :
    applyAll apply (first ++ later) s = applyAll apply later (applyAll apply first s) :=
  List.foldl_append

namespace Overwrites
variable {apply : Change → State → State}

/-- Any changes may come between. -/
theorem again (overwrites : Overwrites apply) (a : Change) (changes : List Change) (s : State) :
    apply a (applyAll apply changes (apply a s)) = apply a (applyAll apply changes s) := by
  induction changes generalizing s with
  | nil => exact overwrites.twice a s
  | cons b changes ih =>
    show apply a (applyAll apply changes (apply b (apply a s))) = apply a (applyAll apply changes (apply b s))
    calc apply a (applyAll apply changes (apply b (apply a s)))
      _ = apply a (applyAll apply changes (apply a (apply b (apply a s)))) := (ih _).symm
      _ = apply a (applyAll apply changes (apply a (apply b s))) := by rw [overwrites.between]
      _ = apply a (applyAll apply changes (apply b s)) := ih _

/-- Of each change, the last time is enough. -/
theorem dedup [DecidableEq Change] (overwrites : Overwrites apply) (changes : List Change) (s : State) :
    applyAll apply changes.dedup s = applyAll apply changes s := by
  induction changes generalizing s with
  | nil => rfl
  | cons a changes ih =>
    show applyAll apply (a :: changes).dedup s = applyAll apply changes (apply a s)
    by_cases later : a ∈ changes
    · rw [List.dedup_cons_of_mem later, ih]
      obtain ⟨before,after,rfl⟩ := List.append_of_mem later
      rw [applyAll_append, applyAll_append]
      exact congrArg (applyAll apply after) (overwrites.again a before s).symm
    · rw [List.dedup_cons_of_notMem later]
      exact ih (apply a s)

theorem absorb (overwrites : Overwrites apply) (changes between : List Change) (s : State) :
    applyAll apply changes (applyAll apply between (applyAll apply changes s)) =
      applyAll apply changes (applyAll apply between s) := by
  induction changes generalizing between s with
  | nil => rfl
  | cons a changes ih =>
    have moved := ih (between ++ [a]) s
    rw [applyAll_append, applyAll_append] at moved
    refine Eq.trans ?_ moved
    have once := overwrites.again a (changes ++ between) s
    rw [applyAll_append, applyAll_append] at once
    exact congrArg (applyAll apply changes) once

/-- Sequences of changes overwrite as the changes do. -/
theorem sequences (overwrites : Overwrites apply) : Overwrites (applyAll apply) where
  twice changes s := overwrites.absorb changes [] s
  between changes others s := overwrites.absorb changes others s

theorem comap {Request : Type w} (overwrites : Overwrites apply) (changeOf : Request → Change) :
    Overwrites (fun request => apply (changeOf request)) where
  twice request := overwrites.twice (changeOf request)
  between request other := overwrites.between (changeOf request) (changeOf other)

/-- What a state shows says what it is, and each change leaves or puts each thing that it shows. -/
theorem of_shown {Place : Type w} {Value : Type*} (shown : Place → State → Value)
    (ext : ∀ s t, (∀ place, shown place s = shown place t) → s = t)
    (leavesOrPuts : ∀ a place,
      (∀ s, shown place (apply a s) = shown place s) ∨ ∀ s t, shown place (apply a s) = shown place (apply a t)) :
    Overwrites apply where
  twice a s := by
    refine ext _ _ fun place => ?_
    rcases leavesOrPuts a place with leaves | puts
    · exact leaves _
    · exact puts _ _
  between a b s := by
    refine ext _ _ fun place => ?_
    rcases leavesOrPuts a place with leaves | puts
    · rw [leaves, leaves]
      rcases leavesOrPuts b place with leaves' | puts'
      · rw [leaves', leaves', leaves]
      · exact puts' _ _
    · exact puts _ _

/-- Changes of a part of the state. -/
theorem within {Whole : Type w} (overwrites : Overwrites apply) (part : Whole → State) (exchange : Whole → State → Whole)
    (taken : ∀ whole s, part (exchange whole s) = s)
    (exchanged : ∀ whole s t, exchange (exchange whole s) t = exchange whole t) :
    Overwrites (fun a whole => exchange whole (apply a (part whole))) where
  twice a whole := by rw [exchanged, taken, overwrites.twice]
  between a b whole := by simp only [exchanged, taken, overwrites.between]

/-- Changes that another state shows as changes of its own. -/
theorem of_injective {Other : Type w} {apply' : Change → Other → Other} (overwrites : Overwrites apply)
    (view : Other → State) (injective : Function.Injective view)
    (shows : ∀ a other, view (apply' a other) = apply a (view other)) : Overwrites apply' where
  twice a other := injective (by rw [shows, shows, overwrites.twice])
  between a b other := injective (by simp only [shows, overwrites.between])

/-- Changes of the elements of a list, each of which may also be dropped. -/
theorem elements {Element : Type w} {change : Change → Element → Option Element}
    (overwrites : Overwrites (fun a (element : Option Element) => element.bind (change a))) :
    Overwrites (fun a (elements : List Element) => elements.filterMap (change a)) where
  twice a elements := by
    rw [List.filterMap_filterMap]
    exact List.filterMap_congr (fun element _ => overwrites.twice a (some element))
  between a b elements := by
    rw [List.filterMap_filterMap, List.filterMap_filterMap, List.filterMap_filterMap]
    refine List.filterMap_congr (fun element _ => ?_)
    have same := overwrites.between a b (some element)
    rwa [Option.bind_assoc] at same

/-- Changes of the values under a key each, which may also be dropped. -/
theorem keyed {Key Value : Type w} [DecidableEq Key] (key : Change → Key) {change : Change → Value → Option Value}
    (overwrites : Overwrites (fun a (value : Option Value) => value.bind (change a))) :
    Overwrites (fun a (entry : Option (Sigma (fun _ : Key => Value))) =>
      entry.bind (fun e => if e.1 = key a then (change a e.2).map (fun v => ⟨e.1,v⟩) else some e)) := by
  let under (k : Key) (a : Change) (value : Option Value) : Option Value := if k = key a then value.bind (change a) else value
  have here (k : Key) : Overwrites (under k) := by
    refine ⟨fun a value => ?_,fun a b value => ?_⟩
    · by_cases first : k = key a
      · simpa [under, first] using overwrites.twice a value
      · simp [under, first]
    · by_cases first : k = key a
      · by_cases second : k = key b
        · simpa only [under, if_pos first, if_pos second] using overwrites.between a b value
        · simpa only [under, if_pos first, if_neg second] using overwrites.twice a value
      · simp [under, first]
  have shown (k : Key) (a : Change) (value : Option Value) :
      (value.map (Sigma.mk (β := fun _ => Value) k)).bind
          (fun e => if e.1 = key a then (change a e.2).map (fun v => ⟨e.1,v⟩) else some e) =
        (under k a value).map (Sigma.mk k) := by
    cases value with
    | none => simp [under]
    | some v => by_cases same : k = key a <;> simp [under, same]
  constructor
  · rintro a (_ | ⟨k,v⟩)
    · rfl
    · have once := congrArg (Option.map (Sigma.mk (β := fun _ => Value) k)) ((here k).twice a (some v))
      rwa [← shown, ← shown] at once
  · rintro a b (_ | ⟨k,v⟩)
    · rfl
    · have once := congrArg (Option.map (Sigma.mk (β := fun _ => Value) k)) ((here k).between a b (some v))
      rwa [← shown, ← shown, ← shown, ← shown, ← shown] at once

end Overwrites

end Ferriot.Overwriting
