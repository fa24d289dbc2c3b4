import Mathlib.Tactic.Common

/-!
# Runs

Runs of a labelled step relation, the rule that carries an invariant along a
run, and the rule for runs whose every step meets a condition.
-/
namespace Ferriot.Runs
universe u v

variable {State : Type u} {Label : Type v}

/-- The relation steps from the first state through the labels to the last. -/
inductive Run (step : State → Label → State → Prop) : State → List Label → State → Prop
  | nil (s : State) : Run step s [] s
  | cons {s t u : State} {l : Label} {ls : List Label} (first : step s l t) (rest : Run step t ls u) :
      Run step s (l :: ls) u

variable {step : State → Label → State → Prop}

/-- What every step keeps, every run keeps. -/
theorem Run.keeps {Inv : State → Prop} (keep : ∀ s l t, Inv s → step s l t → Inv t) {s u : State} {ls : List Label}
    (run : Run step s ls u) (start : Inv s) : Inv u := by
  induction run with
  | nil => exact start
  | cons first _ ih => exact ih (keep _ _ _ start first)

/-- One run after the other. -/
theorem Run.append {s t u : State} {ls ms : List Label} (first : Run step s ls t) (second : Run step t ms u) :
    Run step s (ls ++ ms) u := by
  induction first with
  | nil => exact second
  | cons one _ ih => exact .cons one (ih second)

/-- The run that takes the step of a function at each label. -/
theorem run_foldl {f : State → Label → State} (steps : ∀ s l, step s l (f s l)) (s : State) (ls : List Label) :
    Run step s ls (ls.foldl f s) := by
  induction ls generalizing s with
  | nil => exact .nil s
  | cons l ls ih => exact .cons (steps s l) (ih (f s l))

/-- The steps that a condition on the state before them allows. -/
def Guarded (allowed : State → Label → Prop) (step : State → Label → State → Prop) :
    State → Label → State → Prop :=
  fun s l t => allowed s l ∧ step s l t

/-- What the latest label tells of those that tell anything. -/
def latest {Value : Type*} (tells : Label → Option Value) (labels : List Label) : Option Value := (labels.filterMap tells).getLast?

theorem latest_concat {Value : Type*} (tells : Label → Option Value) (labels : List Label) (l : Label) :
    latest tells (labels ++ [l]) = (tells l).or (latest tells labels) := by
  unfold latest
  rw [List.filterMap_append]
  cases told : tells l with
  | none => simp [told]
  | some value => simp [told]

/-- The run of a step function that may refuse a label. -/
def runPartial (f : State → Label → Option State) (s : State) (labels : List Label) : Option State :=
  match labels with
  | [] => some s
  | l :: ls => (f s l).bind (fun t => runPartial f t ls)

@[simp] theorem runPartial_nil (f : State → Label → Option State) (s : State) : runPartial f s [] = some s := rfl

theorem runPartial_cons (f : State → Label → Option State) (s : State) (l : Label) (ls : List Label) :
    runPartial f s (l :: ls) = (f s l).bind (fun t => runPartial f t ls) := rfl

/-- A run of some labels, and then of others. -/
theorem runPartial_append {f : State → Label → Option State} {s t u : State} {ls ms : List Label}
    (first : runPartial f s ls = some t) (second : runPartial f t ms = some u) : runPartial f s (ls ++ ms) = some u := by
  induction ls generalizing s with
  | nil =>
    cases first
    exact second
  | cons l ls ih =>
    obtain ⟨r,one,rest⟩ := Option.bind_eq_some_iff.mp first
    rw [List.cons_append, runPartial_cons, one]
    exact ih rest

/-- The run of a step function is a run of its graph. -/
theorem runPartial_iff (f : State → Label → Option State) (s u : State) (ls : List Label) :
    runPartial f s ls = some u ↔ Run (fun s l t => f s l = some t) s ls u := by
  constructor
  · induction ls generalizing s with
    | nil =>
      intro ran
      cases ran
      exact .nil _
    | cons l ls ih =>
      intro ran
      obtain ⟨t,first,rest⟩ := Option.bind_eq_some_iff.mp ran
      exact .cons first (ih t rest)
  · intro ran
    induction ran with
    | nil => rfl
    | cons first _ ih => rw [runPartial_cons, first]; exact ih

/-- What every accepted step keeps, the run of a step function keeps. -/
theorem runPartial_keeps {f : State → Label → Option State} {Inv : State → Prop}
    (keep : ∀ s l t, Inv s → f s l = some t → Inv t) {s u : State} {ls : List Label}
    (ran : runPartial f s ls = some u) (start : Inv s) : Inv u :=
  ((runPartial_iff f s u ls).mp ran).keeps keep start

/-- The property holds of every state on the way. -/
def Always (f : State → Label → Option State) (P : State → Prop) (s : State) (labels : List Label) : Prop :=
  ∀ before after t, labels = before ++ after → runPartial f s before = some t → P t

theorem always_nil {f : State → Label → Option State} {P : State → Prop} {s : State} : Always f P s [] ↔ P s := by
  constructor
  · intro always
    exact always [] [] s rfl rfl
  · intro holds before after t split ran
    obtain ⟨rfl,-⟩ := List.append_eq_nil_iff.mp split.symm
    cases ran
    exact holds

theorem always_cons {f : State → Label → Option State} {P : State → Prop} {s t : State} {l : Label} {ls : List Label}
    (first : f s l = some t) : Always f P s (l :: ls) ↔ P s ∧ Always f P t ls := by
  constructor
  · intro always
    refine ⟨always [] _ s rfl rfl,?_⟩
    intro before after u split ran
    exact always (l :: before) after u (by rw [split]; rfl) (by rw [runPartial_cons, first]; exact ran)
  · rintro ⟨here,later⟩ before after u split ran
    cases before with
    | nil =>
      cases ran
      exact here
    | cons x before =>
      cases split
      rw [runPartial_cons, first] at ran
      exact later before after u rfl ran

/-- What every accepted step carries back, a run carries back. -/
theorem runPartial_back {f : State → Label → Option State} {Inv Condition : State → Prop}
    (keep : ∀ s l t, Inv s → f s l = some t → Inv t)
    (back : ∀ s l t, Inv s → f s l = some t → Condition t → Condition s)
    {s u : State} {ls : List Label} (ran : runPartial f s ls = some u) (start : Inv s) (last : Condition u) : Condition s := by
  induction ls generalizing s with
  | nil =>
    cases ran
    exact last
  | cons l ls ih =>
    obtain ⟨t,first,rest⟩ := Option.bind_eq_some_iff.mp ran
    exact back s l t start first (ih rest (keep s l t start first))

/-- A property of every state on the way, decided by a condition on the last one: the condition
    suffices for the property, a step carries it back, and a step to a state with the property
    keeps it. -/
theorem always_iff {f : State → Label → Option State} {Inv P Condition : State → Prop}
    (keep : ∀ s l t, Inv s → f s l = some t → Inv t) (enough : ∀ s, Inv s → Condition s → P s)
    (back : ∀ s l t, Inv s → f s l = some t → Condition t → Condition s)
    (forth : ∀ s l t, Inv s → f s l = some t → Condition s → P t → Condition t)
    {s u : State} {ls : List Label} (ran : runPartial f s ls = some u) (start : Inv s) (initial : Condition s) :
    Always f P s ls ↔ Condition u := by
  induction ls generalizing s with
  | nil =>
    cases ran
    rw [always_nil]
    exact ⟨fun _ => initial,enough _ start⟩
  | cons l ls ih =>
    obtain ⟨t,first,rest⟩ := Option.bind_eq_some_iff.mp ran
    have next := keep s l t start first
    rw [always_cons first]
    constructor
    · rintro ⟨-,always⟩
      have here : P t := always [] ls t rfl rfl
      exact (ih rest next (forth s l t start first initial here)).mp always
    · intro last
      exact ⟨enough s start initial,(ih rest next (runPartial_back keep back rest next last)).mpr last⟩

/-- A property that a step keeps exactly if the step is allowed holds of every state on the way
    exactly if every step is. -/
theorem always_iff_guarded {f : State → Label → Option State} {P : State → Prop} {allowed : State → Label → Prop}
    (decides : ∀ s l t, P s → f s l = some t → (P t ↔ allowed s l)) {s u : State} {ls : List Label}
    (ran : runPartial f s ls = some u) (start : P s) :
    Always f P s ls ↔ Run (Guarded allowed (fun s l t => f s l = some t)) s ls u := by
  induction ls generalizing s with
  | nil =>
    cases ran
    rw [always_nil]
    exact ⟨fun _ => .nil _,fun _ => start⟩
  | cons l ls ih =>
    obtain ⟨t,first,rest⟩ := Option.bind_eq_some_iff.mp ran
    rw [always_cons first]
    constructor
    · rintro ⟨-,always⟩
      have here : P t := always [] ls t rfl rfl
      exact .cons ⟨(decides s l t start first).mp here,first⟩ ((ih rest here).mp always)
    · intro run
      cases run with
      | cons one later =>
        obtain ⟨may,same⟩ := one
        rw [first] at same
        cases same
        exact ⟨start,(ih rest ((decides s l t start first).mpr may)).mpr later⟩

/-! ### Histories -/

section
variable {Event : Type u} {P Q : Event → List Event → Prop}

/-- Every event of a history, latest first, stands in the relation to the events before it. -/
def Throughout (P : Event → List Event → Prop) : List Event → Prop
  | [] => True
  | e :: older => P e older ∧ Throughout P older

def decidableThroughout [∀ e older, Decidable (P e older)] : (history : List Event) → Decidable (Throughout P history)
  | [] => .isTrue trivial
  | e :: older =>
    haveI := decidableThroughout older
    inferInstanceAs (Decidable (P e older ∧ Throughout P older))

instance [∀ e older, Decidable (P e older)] (history : List Event) : Decidable (Throughout P history) :=
  decidableThroughout history

/-- Events that may stand anywhere extend a history. -/
theorem throughout_append {new old : List Event} (free : ∀ e ∈ new, ∀ older, P e older) (before : Throughout P old) :
    Throughout P (new ++ old) := by
  induction new with
  | nil => exact before
  | cons e new ih =>
    exact ⟨free e List.mem_cons_self _,ih (fun x member => free x (List.mem_cons_of_mem _ member))⟩

/-- Two relations that agree on every event of a history hold throughout it together. -/
theorem throughout_congr {R : Event → List Event → Prop} (same : ∀ e older, R e older → (P e older ↔ Q e older))
    {history : List Event} (known : Throughout R history) : Throughout P history ↔ Throughout Q history := by
  induction history with
  | nil => exact Iff.rfl
  | cons e history ih => exact and_congr (same e history known.1) (ih known.2)

end

/-! ### Two runs of one machine -/

section
variable {Input : Type u} {Answer : Type v} {Machine : Type u}

/-- The answers to the inputs, one after the other, and the state after them. -/
def answers (respond : Input → Machine → Answer × Machine) : List Input → Machine → List Answer × Machine
  | [], s => ([],s)
  | i :: inputs, s =>
    let (first,s) := respond i s
    let (others,s) := answers respond inputs s
    (first :: others,s)

/-- States from which each of the inputs gets the same answer, and that it leaves related, answer
    all of them alike. -/
theorem answers_alike {respond : Input → Machine → Answer × Machine} {R : Machine → Machine → Prop} {inputs : List Input}
    (alike : ∀ i ∈ inputs, ∀ s t, R s t → (respond i s).1 = (respond i t).1 ∧ R (respond i s).2 (respond i t).2)
    {s t : Machine} (related : R s t) :
    (answers respond inputs s).1 = (answers respond inputs t).1 ∧ R (answers respond inputs s).2 (answers respond inputs t).2 := by
  induction inputs generalizing s t with
  | nil => exact ⟨rfl,related⟩
  | cons i inputs ih =>
    obtain ⟨same,after⟩ := alike i List.mem_cons_self s t related
    obtain ⟨sameOthers,afterOthers⟩ := ih (fun j member => alike j (List.mem_cons_of_mem i member)) after
    unfold answers
    dsimp only
    rw [same, sameOthers]
    exact ⟨rfl,afterOthers⟩

/-- The answers to the inputs that count. -/
def answersTo (counts : Input → Bool) (inputs : List Input) (all : List Answer) : List Answer :=
  ((inputs.zip all).filter (fun p => counts p.1)).map Prod.snd

/-- Inputs that leave a state related to what it was related to can be left out: the others get the
    same answers. -/
theorem answers_without {respond : Input → Machine → Answer × Machine} {R : Machine → Machine → Prop} {counts : Input → Bool}
    (alike : ∀ i s t, counts i = true → R s t → (respond i s).1 = (respond i t).1 ∧ R (respond i s).2 (respond i t).2)
    (unseen : ∀ i s t, counts i = false → R s t → R (respond i s).2 t) (inputs : List Input) {s t : Machine} (related : R s t) :
    answersTo counts inputs (answers respond inputs s).1 = (answers respond (inputs.filter counts) t).1 ∧
      R (answers respond inputs s).2 (answers respond (inputs.filter counts) t).2 := by
  induction inputs generalizing s t with
  | nil => exact ⟨rfl,related⟩
  | cons i inputs ih =>
    cases count : counts i with
    | true =>
      obtain ⟨same,after⟩ := alike i s t count related
      obtain ⟨sameOthers,afterOthers⟩ := ih after
      rw [List.filter_cons_of_pos count]
      refine ⟨?_,afterOthers⟩
      simp only [answers, answersTo, List.zip_cons_cons]
      rw [List.filter_cons_of_pos (by simpa using count), List.map_cons, same]
      exact congrArg _ sameOthers
    | false =>
      obtain ⟨sameOthers,afterOthers⟩ := ih (unseen i s t count related)
      rw [List.filter_cons_of_neg (by simp [count])]
      refine ⟨?_,afterOthers⟩
      simp only [answers, answersTo, List.zip_cons_cons]
      rw [List.filter_cons_of_neg (by simp [count])]
      exact sameOthers

end

end Ferriot.Runs
