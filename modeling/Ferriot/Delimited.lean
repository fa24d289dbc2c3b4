import Mathlib.Data.List.TakeWhile
import Mathlib.Tactic.Common

/-!
# Delimited pieces

A list is cut at every delimiter, and the pieces that are not empty are kept.
Pieces that are joined by delimiters come back exactly if none of them is empty
or holds a delimiter.
-/
namespace Ferriot.Delimited
universe u
variable {α : Type u}

/-- What joined values hold besides delimiters, one of them holds. -/
theorem mem_intercalate {sep x : α} (other : x ≠ sep) (values : List (List α)) :
    x ∈ [sep].intercalate values ↔ ∃ v ∈ values, x ∈ v := by
  induction values with
  | nil => simp
  | cons v values ih =>
    cases values with
    | nil => simp
    | cons w values =>
      rw [List.intercalate_cons_cons, List.mem_append, List.mem_append, List.mem_singleton, ih]
      simp [other]

/-- Values joined one after the other. -/
theorem intercalate_snoc (sep : α) (first second : List α) (values : List (List α)) :
    [sep].intercalate ((first ++ [sep] ++ second) :: values) = [sep].intercalate (first :: second :: values) := by
  cases values with
  | nil => simp
  | cons w values => simp

/-- A loop that writes a delimiter before every piece but the first. -/
def writeNext (sep : α) (written : List α × Bool) (piece : List α) : List α × Bool :=
  ((if written.2 then written.1 else written.1 ++ [sep]) ++ piece,false)

theorem foldl_writeNext_later (sep : α) (values : List (List α)) (written : List α) :
    (values.foldl (writeNext sep) (written,false)).1 = written ++ values.flatMap (sep :: ·) := by
  induction values generalizing written with
  | nil => simp
  | cons v values ih =>
    rw [List.foldl_cons, List.flatMap_cons]
    unfold writeNext at ih ⊢
    rw [ih]
    simp

theorem intercalate_eq_flatMap (sep : α) (v : List α) (values : List (List α)) :
    [sep].intercalate (v :: values) = v ++ values.flatMap (sep :: ·) := by
  induction values generalizing v with
  | nil => simp
  | cons w values ih =>
    rw [List.intercalate_cons_cons, ih, List.flatMap_cons]
    simp

/-- The loop joins the pieces. -/
theorem foldl_writeNext (sep : α) (values : List (List α)) :
    (values.foldl (writeNext sep) ([],true)).1 = [sep].intercalate values := by
  cases values with
  | nil => rfl
  | cons v values =>
    rw [List.foldl_cons, intercalate_eq_flatMap]
    exact foldl_writeNext_later sep values v

/-- A loop that writes a delimiter unless nothing has been written yet. -/
def joinNext (sep : α) (joined piece : List α) : List α := (if joined.isEmpty then joined else joined ++ [sep]) ++ piece

/-- The loop joins the pieces from the first one that is not empty. -/
theorem foldl_joinNext (sep : α) (values : List (List α)) :
    values.foldl (joinNext sep) [] = [sep].intercalate (values.dropWhile List.isEmpty) := by
  have joined (values : List (List α)) (first : List α) (some : first ≠ []) :
      values.foldl (joinNext sep) first = [sep].intercalate (first :: values) := by
    induction values generalizing first with
    | nil => simp
    | cons v values ih =>
      have step : joinNext sep first v = first ++ [sep] ++ v := by simp [joinNext, some]
      rw [List.foldl_cons, step, ih _ (by simp), intercalate_snoc]
  induction values with
  | nil => rfl
  | cons v values ih =>
    rw [List.foldl_cons]
    have start : joinNext sep [] v = v := rfl
    rw [start]
    cases v with
    | nil => exact ih
    | cons b v => exact joined values (b :: v) (List.cons_ne_nil b v)

variable [DecidableEq α]

/-- What is joined is cut where its values are. -/
theorem splitOn_joined (sep : α) (v : List α) (values : List (List α)) :
    ([sep].intercalate (v :: values)).splitOn sep = (v :: values).flatMap (·.splitOn sep) := by
  induction values generalizing v with
  | nil => simp
  | cons w values ih =>
    rw [List.intercalate_cons_cons, List.append_assoc, List.singleton_append, List.splitOn_append_cons_self, ih]
    exact List.flatMap_cons.symm

/-- The pieces of a list, each after a delimiter. -/
theorem flatMap_splitOn (sep : α) (l : List α) : (l.splitOn sep).flatMap (sep :: ·) = sep :: l := by
  obtain ⟨first,others,cut⟩ := List.exists_cons_of_ne_nil (List.splitOn_ne_nil sep l)
  have joined : [sep].intercalate (l.splitOn sep) = l := List.intercalate_splitOn sep
  rw [cut, intercalate_eq_flatMap] at joined
  rw [cut, List.flatMap_cons, ← joined]
  rfl

/-- The last piece is empty if there is nothing to cut, or a delimiter at the end. -/
theorem getLast?_splitOn (sep : α) (l : List α) :
    (l.splitOn sep).getLast? = some [] ↔ l = [] ∨ l.getLast? = some sep := by
  by_cases cut : sep ∈ l.reverse
  · obtain ⟨after,before,same,free⟩ := List.eq_append_cons_of_mem cut
    have whole : l = before.reverse ++ sep :: after.reverse := by
      have back := congrArg List.reverse same
      simpa using back
    have last : after.reverse.splitOn sep = [after.reverse] := List.splitOn_eq_singleton (by simpa using free)
    rw [whole, List.splitOn_append_cons_self, last, List.getLast?_concat]
    cases after with
    | nil => simp
    | cons b after =>
      have other : b ≠ sep := fun same => free (same ▸ List.mem_cons_self)
      simp [List.getLast?_cons, other]
  · have free : sep ∉ l := by simpa using cut
    rw [List.splitOn_eq_singleton free]
    constructor
    · intro empty
      exact .inl (by simpa using empty)
    · rintro (rfl | last)
      · rfl
      · exact absurd (List.mem_of_getLast? last) free

/-- The pieces between delimiters that are not empty. -/
def pieces (sep : α) (l : List α) : List (List α) := (l.splitOn sep).filter (· ≠ [])

@[simp] theorem pieces_nil (sep : α) : pieces sep [] = [] := by
  unfold pieces
  rw [List.splitOn_nil]
  rfl

/-- At a delimiter the pieces before and after it are apart. -/
theorem pieces_append (sep : α) (before after : List α) :
    pieces sep (before ++ sep :: after) = pieces sep before ++ pieces sep after := by
  unfold pieces
  rw [List.splitOn_append_cons_self, List.filter_append]

@[simp] theorem pieces_sep (sep : α) (after : List α) : pieces sep (sep :: after) = pieces sep after := by
  have apart := pieces_append sep [] after
  rwa [pieces_nil, List.nil_append, List.nil_append] at apart

/-- Without a delimiter there is one piece. -/
theorem pieces_free {sep : α} {piece : List α} (free : sep ∉ piece) (some : piece ≠ []) : pieces sep piece = [piece] := by
  unfold pieces
  rw [List.splitOn_eq_singleton free, List.filter_cons_of_pos (by simpa using some), List.filter_nil]

/-- What is left after the first piece begins with the delimiter, unless it is empty. -/
theorem dropWhile_cases (sep : α) (l : List α) :
    l.dropWhile (· ≠ sep) = [] ∨ ∃ after, l.dropWhile (· ≠ sep) = sep :: after := by
  have stops := List.head?_dropWhile_not (· ≠ sep) l
  cases rest : l.dropWhile (· ≠ sep) with
  | nil => exact .inl rfl
  | cons b after =>
    rw [rest] at stops
    obtain rfl : b = sep := by simpa using stops
    exact .inr ⟨after,rfl⟩

theorem pieces_dropWhile (sep : α) (l : List α) :
    pieces sep ((l.dropWhile (· ≠ sep)).drop 1) = pieces sep (l.dropWhile (· ≠ sep)) := by
  rcases dropWhile_cases sep l with rest | ⟨after,rest⟩
  · rw [rest, List.drop_nil]
  · rw [rest, pieces_sep, List.drop_one, List.tail_cons]

/-- The first piece, which may be empty, and the rest from the delimiter that ends it. -/
theorem pieces_cut (sep : α) (l : List α) :
    pieces sep l =
      (if l.takeWhile (· ≠ sep) = [] then [] else [l.takeWhile (· ≠ sep)]) ++ pieces sep (l.dropWhile (· ≠ sep)) := by
  have free : sep ∉ l.takeWhile (· ≠ sep) := by
    intro member
    simpa using List.mem_takeWhile_imp member
  have first : pieces sep (l.takeWhile (· ≠ sep)) = if l.takeWhile (· ≠ sep) = [] then [] else [l.takeWhile (· ≠ sep)] := by
    by_cases empty : l.takeWhile (· ≠ sep) = []
    · rw [if_pos empty, empty, pieces_nil]
    · rw [if_neg empty, pieces_free free empty]
  have whole := List.takeWhile_append_dropWhile (p := (· ≠ sep)) (l := l)
  rw [← first]
  rcases dropWhile_cases sep l with rest | ⟨after,rest⟩
  · rw [rest, List.append_nil] at whole
    rw [rest, whole, pieces_nil, List.append_nil]
  · rw [rest] at whole
    rw [rest, pieces_sep, ← pieces_append, whole]

/-- A piece holds no delimiter, and nothing that the list does not hold. -/
theorem mem_pieces {sep : α} {l piece : List α} (member : piece ∈ pieces sep l) :
    piece ≠ [] ∧ sep ∉ piece ∧ ∀ x ∈ piece, x ∈ l := by
  unfold pieces at member
  obtain ⟨split,some⟩ := List.mem_filter.mp member
  refine ⟨by simpa using some,?_⟩
  clear some member
  induction l generalizing piece with
  | nil =>
    rw [List.splitOn_nil, List.mem_singleton] at split
    subst split
    simp
  | cons b l ih =>
    rw [List.splitOn_cons_eq_if_modifyHead] at split
    by_cases here : b = sep
    · rw [if_pos (by simpa using here)] at split
      rcases List.mem_cons.mp split with rfl | later
      · simp
      · obtain ⟨free,kept⟩ := ih later
        exact ⟨free,fun x inside => List.mem_cons_of_mem b (kept x inside)⟩
    · rw [if_neg (by simpa using here)] at split
      obtain ⟨first,others,cut⟩ := List.exists_cons_of_ne_nil (List.splitOn_ne_nil sep l)
      rw [cut] at ih split
      rcases List.mem_cons.mp split with rfl | later
      · obtain ⟨free,kept⟩ := ih List.mem_cons_self
        refine ⟨?_,?_⟩
        · intro inside
          rcases List.mem_cons.mp inside with same | deeper
          · exact here same.symm
          · exact free deeper
        · intro x inside
          rcases List.mem_cons.mp inside with rfl | deeper
          · exact List.mem_cons_self
          · exact List.mem_cons_of_mem b (kept x deeper)
      · obtain ⟨free,kept⟩ := ih (List.mem_cons_of_mem first later)
        exact ⟨free,fun x inside => List.mem_cons_of_mem b (kept x inside)⟩

/-- Values that are joined by delimiters come back exactly if none is empty or holds one. -/
theorem pieces_intercalate (sep : α) (values : List (List α)) :
    pieces sep ([sep].intercalate values) = values ↔ ∀ v ∈ values, v ≠ [] ∧ sep ∉ v := by
  constructor
  · intro back v member
    rw [← back] at member
    obtain ⟨some,free,-⟩ := mem_pieces member
    exact ⟨some,free⟩
  · intro whole
    by_cases none : values = []
    · subst none
      rw [List.intercalate_nil, pieces_nil]
    · unfold pieces
      rw [List.splitOn_intercalate sep (fun v member => (whole v member).2) none]
      refine List.filter_eq_self.mpr ?_
      intro v member
      simpa using (whole v member).1

end Ferriot.Delimited
