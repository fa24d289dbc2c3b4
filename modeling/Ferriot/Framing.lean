import Mathlib.Algebra.GroupWithZero.Nat
import Mathlib.Data.List.Forall2
import Mathlib.Tactic.Common

/-!
# Self-delimiting items

A reader takes one item off the front of its input and says how much of the
input the item took. Reading until the input is used up then cuts the input
into the frames of its items. When the reader is exact for a relation between
items and frames, the inputs that are read are exactly the concatenations of
frames, each of them in one way only.
-/
namespace Ferriot.Framing
universe u v w
variable {α : Type u} {ρ : Type v} {ε : Type w}

/-- A reader of one item; every item takes something of the input. -/
structure Reader (α : Type u) (ρ : Type v) (ε : Type w) where
  read : List α → Except ε (ρ × Nat)
  progress : ∀ {input : List α} {item : ρ} {used : Nat}, read input = .ok (item,used) → 0 < used

/-- At most `fuel` items are read. -/
def Reader.loop (R : Reader α ρ ε) : Nat → List α → Except ε (List ρ)
  | 0, _ => .ok []
  | _+1, [] => .ok []
  | fuel+1, a :: rest =>
    match R.read (a :: rest) with
    | .error e => .error e
    | .ok (item,used) =>
      match R.loop fuel ((a :: rest).drop used) with
      | .error e => .error e
      | .ok items => .ok (item :: items)

/-- Reads items until the input is used up; as every item takes something, the
    length of the input bounds their number. -/
def Reader.readAll (R : Reader α ρ ε) (input : List α) : Except ε (List ρ) := R.loop input.length input

/-- More fuel than there is input changes nothing. -/
theorem loop_fuel (R : Reader α ρ ε) {fuel more : Nat} {input : List α} (enough : input.length ≤ fuel)
    (le : fuel ≤ more) : R.loop more input = R.loop fuel input := by
  induction fuel generalizing more input with
  | zero =>
    have empty : input = [] := List.length_eq_zero_iff.mp (by omega)
    subst empty
    cases more <;> rfl
  | succ fuel ih =>
    obtain ⟨more,rfl⟩ : ∃ m, more = m+1 := ⟨more-1,by omega⟩
    cases input with
    | nil => rfl
    | cons a rest =>
      simp only [Reader.loop]
      cases one : R.read (a :: rest) with
      | error e => rfl
      | ok pair =>
        obtain ⟨item,used⟩ := pair
        have taken := R.progress one
        have shorter : ((a :: rest).drop used).length ≤ fuel := by
          simp only [List.length_drop, List.length_cons] at enough ⊢
          omega
        have same : R.loop more ((a :: rest).drop used) = R.loop fuel ((a :: rest).drop used) :=
          ih shorter (Nat.le_of_succ_le_succ le)
        simp only [same]

@[simp] theorem readAll_nil (R : Reader α ρ ε) : R.readAll [] = .ok [] := rfl

/-- One turn of the reading loop. -/
theorem readAll_step (R : Reader α ρ ε) {input : List α} (more : input ≠ []) :
    R.readAll input =
      match R.read input with
      | .error e => .error e
      | .ok (item,used) =>
        match R.readAll (input.drop used) with
        | .error e => .error e
        | .ok items => .ok (item :: items) := by
  obtain ⟨a,rest,rfl⟩ := List.exists_cons_of_ne_nil more
  rw [Reader.readAll, List.length_cons, Reader.loop]
  cases one : R.read (a :: rest) with
  | error e => rfl
  | ok pair =>
    obtain ⟨item,used⟩ := pair
    have taken := R.progress one
    have shorter : ((a :: rest).drop used).length ≤ rest.length := by
      simp only [List.length_drop, List.length_cons]
      omega
    simp only [Reader.readAll, loop_fuel R (Nat.le_refl _) shorter]

theorem readAll_cons_ok (R : Reader α ρ ε) {input : List α} {item : ρ} {used : Nat} {items : List ρ}
    (first : R.read input = .ok (item,used)) (more : input ≠ []) (others : R.readAll (input.drop used) = .ok items) :
    R.readAll input = .ok (item :: items) := by
  rw [readAll_step R more, first]
  simp only [others]

/-- Whatever the loop reports as an error, some single read reported. -/
theorem readAll_error (R : Reader α ρ ε) {P : ε → Prop} (each : ∀ input e, R.read input = .error e → P e) :
    ∀ {input : List α} {e : ε}, R.readAll input = .error e → P e := by
  intro input
  induction size : input.length using Nat.strongRecOn generalizing input with
  | ind n ih =>
    intro e failed
    by_cases empty : input = []
    · subst empty
      cases failed
    · rw [readAll_step R empty] at failed
      cases one : R.read input with
      | error e' =>
        rw [one] at failed
        cases failed
        exact each _ _ one
      | ok pair =>
        obtain ⟨item,used⟩ := pair
        rw [one] at failed
        have taken := R.progress one
        have positive := List.length_pos_iff.mpr empty
        cases later : R.readAll (input.drop used) with
        | error e' =>
          simp only [later] at failed
          cases failed
          exact ih _ (by rw [List.length_drop]; omega) rfl later
        | ok items => simp only [later] at failed; cases failed

/-- The reader accepts exactly the frames of its items, whatever follows them. -/
def Exact (R : Reader α ρ ε) (Frame : ρ → List α → Prop) : Prop :=
  ∀ (input : List α) (item : ρ) (used : Nat),
    R.read input = .ok (item,used) ↔ ∃ frame rest, input = frame ++ rest ∧ used = frame.length ∧ Frame item frame

/-- The input is cut into the frames of the items, in order. -/
def Splits (Frame : ρ → List α → Prop) (input : List α) (items : List ρ) (frames : List (List α)) : Prop :=
  input = frames.flatten ∧ List.Forall₂ Frame items frames

theorem splits_nil (Frame : ρ → List α → Prop) : Splits Frame [] [] [] := ⟨rfl,.nil⟩

theorem Splits.cons {Frame : ρ → List α → Prop} {frame rest : List α} {item : ρ} {items : List ρ}
    {frames : List (List α)} (first : Frame item frame) (others : Splits Frame rest items frames) :
    Splits Frame (frame ++ rest) (item :: items) (frame :: frames) := by
  obtain ⟨rfl,all⟩ := others
  exact ⟨rfl,.cons first all⟩

/-- What each frame pays for, the input pays for: frames do not overlap. -/
theorem Splits.sum_le {Frame : ρ → List α → Prop} {weight : ρ → Nat} {input : List α} {items : List ρ}
    {frames : List (List α)} (paid : ∀ item frame, Frame item frame → weight item ≤ frame.length)
    (cut : Splits Frame input items frames) : (items.map weight).sum ≤ input.length := by
  obtain ⟨rfl,all⟩ := cut
  induction all with
  | nil => exact Nat.le_refl 0
  | cons first _ ih =>
    simp only [List.map_cons, List.sum_cons, List.flatten_cons, List.length_append]
    exact Nat.add_le_add (paid _ _ first) ih

section
variable {R : Reader α ρ ε} {Frame : ρ → List α → Prop} (exact : Exact R Frame)
include exact

theorem Exact.read_frame {item : ρ} {frame : List α} (first : Frame item frame) (rest : List α) :
    R.read (frame ++ rest) = .ok (item,frame.length) :=
  (exact _ _ _).mpr ⟨frame,rest,rfl,rfl,first⟩

theorem Exact.nonempty {item : ρ} {frame : List α} (first : Frame item frame) : frame ≠ [] := by
  have taken := R.progress (exact.read_frame first [])
  exact List.length_pos_iff.mp taken

/-- No frame is a proper prefix of another: what a frame starts is settled. -/
theorem Exact.unique_front {item item' : ρ} {frame frame' rest rest' : List α} (left : Frame item frame)
    (right : Frame item' frame') (same : frame ++ rest = frame' ++ rest') :
    item = item' ∧ frame = frame' ∧ rest = rest' := by
  have leftRead := exact.read_frame left rest
  rw [same, exact.read_frame right rest'] at leftRead
  injection leftRead with pair
  injection pair with items sizes
  obtain ⟨frames,rests⟩ := List.append_inj same sizes.symm
  exact ⟨items.symm,frames,rests⟩

/-- An input is cut into frames in at most one way. -/
theorem Exact.splits_unique {input : List α} {items items' : List ρ} {frames frames' : List (List α)}
    (left : Splits Frame input items frames) (right : Splits Frame input items' frames') :
    items = items' ∧ frames = frames' := by
  obtain ⟨whole,all⟩ := left
  induction all generalizing input items' frames' with
  | nil =>
    obtain ⟨whole',all'⟩ := right
    cases all' with
    | nil => exact ⟨rfl,rfl⟩
    | cons first' _ =>
      rw [whole] at whole'
      simp only [List.flatten_nil, List.flatten_cons] at whole'
      exact absurd (List.append_eq_nil_iff.mp whole'.symm).1 (exact.nonempty first')
  | cons first _ ih =>
    obtain ⟨whole',all'⟩ := right
    cases all' with
    | nil =>
      rw [whole] at whole'
      simp only [List.flatten_nil, List.flatten_cons] at whole'
      exact absurd (List.append_eq_nil_iff.mp whole').1 (exact.nonempty first)
    | cons first' others' =>
      rw [whole, List.flatten_cons, List.flatten_cons] at whole'
      obtain ⟨rfl,rfl,rest⟩ := exact.unique_front first first' whole'
      obtain ⟨rfl,rfl⟩ := ih ⟨rest,others'⟩ rfl
      exact ⟨rfl,rfl⟩

/-- The loop reads exactly the inputs that are cut into frames. -/
theorem Exact.readAll_iff (input : List α) (items : List ρ) :
    R.readAll input = .ok items ↔ ∃ frames, Splits Frame input items frames := by
  constructor
  · intro done
    induction size : input.length using Nat.strongRecOn generalizing input items with
    | ind n ih =>
      by_cases empty : input = []
      · subst empty
        cases done
        exact ⟨[],splits_nil Frame⟩
      · rw [readAll_step R empty] at done
        cases one : R.read input with
        | error e => rw [one] at done; cases done
        | ok pair =>
          obtain ⟨item,used⟩ := pair
          have taken := R.progress one
          have positive := List.length_pos_iff.mpr empty
          rw [one] at done
          cases later : R.readAll (input.drop used) with
          | error e => simp only [later] at done; cases done
          | ok others =>
            simp only [later] at done
            cases done
            obtain ⟨frames,cut⟩ := ih _ (by rw [List.length_drop]; omega) _ _ later rfl
            obtain ⟨frame,rest,rfl,rfl,first⟩ := (exact _ _ _).mp one
            rw [List.drop_left] at cut
            exact ⟨frame :: frames,cut.cons first⟩
  · rintro ⟨frames,rfl,all⟩
    induction all with
    | nil => rfl
    | @cons item frame items frames first _ ih =>
      rw [List.flatten_cons]
      have more : frame ++ frames.flatten ≠ [] := by simp [exact.nonempty first]
      exact readAll_cons_ok R (exact.read_frame first _) more (by rw [List.drop_left]; exact ih)

/-- What follows an input that is read is read after it. -/
theorem Exact.readAll_append {front : List α} {first : List ρ} (done : R.readAll front = .ok first) (back : List α) :
    R.readAll (front ++ back) = (R.readAll back).map (first ++ ·) := by
  obtain ⟨frames,rfl,all⟩ := (exact.readAll_iff _ _).mp done
  clear done
  induction all with
  | nil =>
    rw [List.flatten_nil, List.nil_append]
    cases R.readAll back <;> rfl
  | @cons item frame items frames one _ ih =>
    have more : frame ++ (frames.flatten ++ back) ≠ [] := by simp [exact.nonempty one]
    rw [List.flatten_cons, List.append_assoc, readAll_step R more, exact.read_frame one]
    dsimp only
    rw [List.drop_left, ih]
    cases R.readAll back <;> rfl

/-- An input that is not read is made of frames up to where a read fails. -/
theorem Exact.readAll_stuck {input : List α} {e : ε} (failed : R.readAll input = .error e) :
    ∃ whole items frames part, input = whole ++ part ∧ Splits Frame whole items frames ∧ part ≠ [] ∧
      ∃ e', R.read part = .error e' := by
  induction size : input.length using Nat.strongRecOn generalizing input with
  | ind n ih =>
    by_cases empty : input = []
    · subst empty
      cases failed
    · rw [readAll_step R empty] at failed
      cases one : R.read input with
      | error e' => exact ⟨[],[],[],input,rfl,splits_nil Frame,empty,e',one⟩
      | ok pair =>
        obtain ⟨item,used⟩ := pair
        rw [one] at failed
        have taken := R.progress one
        have positive := List.length_pos_iff.mpr empty
        cases later : R.readAll (input.drop used) with
        | ok items => simp only [later] at failed; cases failed
        | error e' =>
          simp only [later] at failed
          cases failed
          obtain ⟨whole,items,frames,part,split,cut,more,stuck⟩ := ih _ (by rw [List.length_drop]; omega) later rfl
          obtain ⟨frame,rest,rfl,rfl,first⟩ := (exact _ _ _).mp one
          rw [List.drop_left] at split
          exact ⟨frame ++ whole,item :: items,frame :: frames,part,by rw [split, List.append_assoc],cut.cons first,more,stuck⟩

/-- What is not read, but would be with something after it, is the front of a frame. -/
theorem Exact.read_inside {part more : List α} {e : ε} {item : ρ} {used : Nat} (failed : R.read part = .error e)
    (longer : R.read (part ++ more) = .ok (item,used)) : ∃ rest, rest ≠ [] ∧ Frame item (part ++ rest) := by
  obtain ⟨frame,tail,split,-,first⟩ := (exact _ _ _).mp longer
  have unread (rest : List α) : part ≠ frame ++ rest := by
    rintro rfl
    rw [exact.read_frame first rest] at failed
    cases failed
  rcases List.append_eq_append_iff.mp split with ⟨rest,rfl,-⟩ | ⟨rest,same,-⟩
  · refine ⟨rest,?_,first⟩
    rintro rfl
    exact unread [] (by rw [List.append_nil, List.append_nil])
  · exact absurd same (unread rest)

end

end Ferriot.Framing
