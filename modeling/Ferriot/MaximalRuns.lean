import Ferriot.Delimited

/-!
# Maximal runs

The places of the pieces that a list is cut into: the runs without a delimiter that
are not empty and end at delimiters or at the ends of the list. A scan from left to
right finds them one after the other.
-/
namespace Ferriot.Delimited
universe u
variable {α : Type u}

/-- A stretch of a list. -/
structure Slice where
  start : Nat
  length : Nat
deriving DecidableEq, Repr

/-- The items of the stretch. -/
def Slice.of (l : List α) (s : Slice) : List α := (l.drop s.start).take s.length

/-- No delimiter in so many items from a place on, which are there. -/
structure Free (sep : α) (l : List α) (start length : Nat) : Prop where
  inside : start + length ≤ l.length
  free : ∀ i, start ≤ i → i < start + length → l[i]? ≠ some sep

/-- A place is the end of the list or holds a delimiter. -/
def Ends (sep : α) (l : List α) (i : Nat) : Prop := i = l.length ∨ l[i]? = some sep

/-- A place is the front of the list or stands after a delimiter. -/
def Begins (sep : α) (l : List α) (i : Nat) : Prop := i = 0 ∨ l[i-1]? = some sep

/-- A run without a delimiter that is not empty and cannot be made longer. -/
structure MaximalRun (sep : α) (l : List α) (s : Slice) : Prop where
  some : 0 < s.length
  within : Free sep l s.start s.length
  begins : Begins sep l s.start
  ends : Ends sep l (s.start + s.length)

/-- The slices are the maximal runs from a place on, in order, and hold the pieces of what is
    left of the list there. -/
structure Scanned [DecidableEq α] (sep : α) (l : List α) (place : Nat) (slices : List Slice) : Prop where
  ordered : slices.Pairwise (fun s t => s.start + s.length ≤ t.start)
  exact : ∀ s, s ∈ slices ↔ MaximalRun sep l s ∧ place ≤ s.start
  pieces : slices.map (Slice.of l) = pieces sep (l.drop place)

theorem free_zero {sep : α} {l : List α} {start : Nat} (inside : start ≤ l.length) : Free sep l start 0 :=
  ⟨inside,fun i low high => by omega⟩

theorem Free.succ {sep b : α} {l : List α} {start length : Nat} (stretch : Free sep l start length)
    (next : l[start + length]? = some b) (other : b ≠ sep) : Free sep l start (length + 1) := by
  obtain ⟨inside,-⟩ := List.getElem?_eq_some_iff.mp next
  refine ⟨by omega,?_⟩
  intro i low high same
  by_cases last : i = start + length
  · rw [last, next] at same
    exact other (Option.some.inj same)
  · exact stretch.free i low (by omega) same

/-- A stretch does not end at any other item. -/
theorem not_ends {sep : α} {l : List α} {i : Nat} (inside : i < l.length) (other : l[i] ≠ sep) : ¬ Ends sep l i := by
  rintro (last | delimiter)
  · omega
  · obtain ⟨_,same⟩ := List.getElem?_eq_some_iff.mp delimiter
    exact other same

/-- The items of a free stretch. -/
theorem Free.not_mem {sep : α} {l : List α} {start length : Nat} (stretch : Free sep l start length) :
    sep ∉ Slice.of l ⟨start,length⟩ := by
  intro member
  obtain ⟨i,at_i⟩ := List.mem_iff_getElem?.mp member
  dsimp only [Slice.of] at at_i
  rw [List.getElem?_take] at at_i
  split_ifs at at_i with short
  rw [List.getElem?_drop] at at_i
  exact stretch.free (start + i) (by omega) (by omega) at_i

theorem Slice.of_ne_nil {l : List α} {s : Slice} (some : 0 < s.length) (inside : s.start + s.length ≤ l.length) :
    Slice.of l s ≠ [] := by
  apply List.length_pos_iff.mp
  unfold Slice.of
  rw [List.length_take, List.length_drop]
  omega

/-- A free stretch that ends where it does is the only one from its place on. -/
theorem Free.unique {sep : α} {l : List α} {start m n : Nat} (left : Free sep l start m) (leftEnds : Ends sep l (start + m))
    (right : Free sep l start n) (rightEnds : Ends sep l (start + n)) : m = n := by
  have bounded {m n : Nat} (ends : Ends sep l (start + m)) (longer : Free sep l start n) : n ≤ m := by
    by_contra more
    have inside := longer.inside
    rcases ends with last | delimiter
    · omega
    · exact longer.free _ (by omega) (by omega) delimiter
  exact Nat.le_antisymm (bounded rightEnds left) (bounded leftEnds right)

variable [DecidableEq α]

/-- A free stretch is the first piece of what is left. -/
theorem Free.pieces_drop {sep : α} {l : List α} {start length : Nat} (stretch : Free sep l start length)
    (ends : Ends sep l (start + length)) (some : 0 < length) :
    pieces sep (l.drop start) = Slice.of l ⟨start,length⟩ :: pieces sep (l.drop (start + length)) := by
  have whole : l.drop start = Slice.of l ⟨start,length⟩ ++ l.drop (start + length) := by
    unfold Slice.of
    rw [← List.drop_drop, List.take_append_drop]
  have first := pieces_free stretch.not_mem (Slice.of_ne_nil (s := ⟨start,length⟩) some stretch.inside)
  rw [whole]
  rcases ends with last | delimiter
  · rw [last, List.drop_length, List.append_nil, first, pieces_nil]
  · obtain ⟨inside,same⟩ := List.getElem?_eq_some_iff.mp delimiter
    rw [List.drop_eq_getElem_cons inside, same, pieces_append, first, pieces_sep]
    rfl

/-- At the end nothing is left. -/
theorem scanned_end (sep : α) (l : List α) : Scanned sep l l.length [] := by
  refine ⟨.nil,?_,?_⟩
  · intro s
    refine iff_of_false (List.not_mem_nil) ?_
    rintro ⟨run,late⟩
    have some := run.some
    have inside := run.within.inside
    omega
  · rw [List.drop_length, pieces_nil]
    rfl

/-- A delimiter may be skipped. -/
theorem Scanned.skip {sep : α} {l : List α} {place : Nat} {slices : List Slice} (delimiter : l[place]? = some sep)
    (later : Scanned sep l (place + 1) slices) : Scanned sep l place slices := by
  refine ⟨later.ordered,?_,?_⟩
  · intro s
    rw [later.exact]
    refine and_congr_right ?_
    intro run
    constructor
    · omega
    · intro late
      by_contra here
      have same : s.start = place := by omega
      have some := run.some
      exact run.within.free place (by omega) (by omega) delimiter
  · obtain ⟨inside,same⟩ := List.getElem?_eq_some_iff.mp delimiter
    rw [later.pieces, List.drop_eq_getElem_cons inside, same, pieces_sep]

/-- A free stretch between delimiters is a run, and the others come after it. -/
theorem Scanned.take {sep : α} {l : List α} {place length : Nat} {slices : List Slice} (begins : Begins sep l place)
    (stretch : Free sep l place length) (ends : Ends sep l (place + length)) (some : 0 < length)
    (later : Scanned sep l (place + length) slices) : Scanned sep l place (⟨place,length⟩ :: slices) := by
  refine ⟨List.pairwise_cons.mpr ⟨fun t member => ((later.exact t).mp member).2,later.ordered⟩,?_,?_⟩
  · intro s
    rw [List.mem_cons, later.exact]
    constructor
    · rintro (rfl | ⟨run,late⟩)
      · exact ⟨⟨some,stretch,begins,ends⟩,Nat.le_refl _⟩
      · exact ⟨run,by omega⟩
    · rintro ⟨run,late⟩
      by_cases after : place + length ≤ s.start
      · exact .inr ⟨run,after⟩
      · -- A run that starts inside the stretch would follow one of its items.
        have first : s.start = place := by
          by_contra apart
          rcases run.begins with front | delimiter
          · omega
          · exact stretch.free _ (by omega) (by omega) delimiter
        obtain ⟨start,size⟩ := s
        obtain rfl : start = place := first
        exact .inl (congrArg (Slice.mk start) (run.within.unique run.ends stretch ends))
  · rw [List.map_cons, later.pieces, stretch.pieces_drop ends some]

/-- Past an empty stretch nothing changes; past a run there is one more. -/
theorem Scanned.step {sep : α} {l : List α} {place length : Nat} {slices : List Slice}
    (begins : 0 < length → Begins sep l place) (stretch : Free sep l place length) (ends : Ends sep l (place + length))
    (later : Scanned sep l (place + length) slices) :
    Scanned sep l place (if 0 < length then ⟨place,length⟩ :: slices else slices) := by
  split_ifs with some
  · exact later.take (begins some) stretch ends some
  · obtain rfl : length = 0 := by omega
    exact later

end Ferriot.Delimited
