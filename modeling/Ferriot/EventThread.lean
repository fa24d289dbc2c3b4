import Ferriot.Client

/-!
# The event thread

`start` and `stop` hold the lifecycle lock, set the flag that the event loop reads, and
keep the thread that runs it. On the event thread `stop` clears the flag and leaves
the thread where it is, as a thread cannot join itself; the next `start` puts a new
thread in its place, and the process is terminated.
-/
namespace Ferriot
open Runs

/-- Who calls `start` or `stop`: a thread of the application, or a callback on the thread of an
    event loop. -/
inductive Caller where
  | application
  | loop (id : Nat)
deriving DecidableEq, Repr

inductive LifecycleCall where
  | start (caller : Caller)
  | stop (caller : Caller)
  /-- A `stop` that is not on the event thread has joined it, and runs to its end. -/
  | finish (answers : UInt16 → Answer)
  /-- An event loop sees that the flag is cleared, and its thread is over. -/
  | ends (id : Nat)

structure Lifecycle (U : Type) where
  client : Client U
  /-- The thread in `event_thread_`, which has not been joined. -/
  eventThread : Option Nat := none
  /-- The threads in an event loop. -/
  loops : List Nat := []
  /-- The number of threads that have been made. -/
  made : Nat := 0
  /-- A `stop` that is not on the event thread holds the lifecycle lock. -/
  stopping : Bool := false
  terminated : Bool := false

namespace Lifecycle
variable {U : Type}

/-- A callback on an event thread runs in its loop. -/
def Present (t : Lifecycle U) : Caller → Prop
  | .application => True
  | .loop id => id ∈ t.loops

instance (t : Lifecycle U) (caller : Caller) : Decidable (t.Present caller) :=
  match caller with
  | .application => .isTrue trivial
  | .loop id => inferInstanceAs (Decidable (id ∈ t.loops))

/-- The call is on the thread in `event_thread_`. -/
def OnEventThread (t : Lifecycle U) : Caller → Prop
  | .application => False
  | .loop id => t.eventThread = some id

instance (t : Lifecycle U) (caller : Caller) : Decidable (t.OnEventThread caller) :=
  match caller with
  | .application => .isFalse id
  | .loop id => inferInstanceAs (Decidable (t.eventThread = some id))

/-- The thread in `event_thread_` is over, or there is none. -/
def Joinable (t : Lifecycle U) : Prop := ∀ id ∈ t.eventThread, id ∉ t.loops

instance (t : Lifecycle U) : Decidable t.Joinable := inferInstanceAs (Decidable (∀ id ∈ t.eventThread, id ∉ t.loops))

/-- `start`: a new thread is made for `event_thread_`. Where the old one has not been joined, its
    destructor terminates the process. -/
def spawn (t : Lifecycle U) (c : Client U) : Lifecycle U :=
  { t with
    client := c
    eventThread := some t.made
    loops := t.made :: t.loops
    made := t.made + 1
    terminated := t.eventThread.isSome }

section
variable [Object U]

/-- One step, if it can be taken: the lifecycle lock is free for a call, and the process is alive. -/
def step (t : Lifecycle U) (call : LifecycleCall) : Option (Lifecycle U) :=
  if t.terminated then none
  else
    match call with
    | .start caller =>
      if t.stopping ∨ ¬ t.Present caller then none
      else
        match t.client.start with
        | (.error _,_) => some t
        | (.ok (),c) => some (t.spawn c)
    | .stop caller =>
      if t.stopping ∨ ¬ t.Present caller then none
      else if t.OnEventThread caller then some { t with client := t.client.stop true (fun _ => { outcome := err .Timeout "" }) }
      else some { t with client := { t.client with running := false }, stopping := true }
    | .finish answers =>
      if t.stopping ∧ t.Joinable then
        some { t with client := t.client.stop false answers, eventThread := none, stopping := false }
      else none
    | .ends id =>
      if id ∈ t.loops ∧ t.client.running = false then some { t with loops := t.loops.erase id } else none

/-- The steps as a relation. -/
def Step (t : Lifecycle U) (call : LifecycleCall) (u : Lifecycle U) : Prop := t.step call = some u

end

/-- The process has not been terminated, and there is no more than one event loop. -/
def Sound (t : Lifecycle U) : Prop := t.terminated = false ∧ t.loops.length ≤ 1

/-- No `start` follows a `stop` that was made on the event thread, unless a `stop` of the
    application comes between. `left` says that the latest `stop` was made on the event thread. -/
def Orderly : (left : Bool) → List LifecycleCall → Prop
  | _, [] => True
  | left, .start _ :: later => left = false ∧ Orderly left later
  | _, .stop (.loop _) :: later => Orderly true later
  | _, .stop .application :: later => Orderly false later
  | left, .finish _ :: later => Orderly left later
  | left, .ends _ :: later => Orderly left later

/-- What holds as long as the calls are orderly: the only loop is that of the thread in
    `event_thread_`, and a thread is kept there while the flag is set, while `stop` waits for it,
    or after a `stop` that was made on it. -/
structure Kept (left : Bool) (t : Lifecycle U) : Prop where
  alive : t.terminated = false
  loops : ∀ id ∈ t.loops, t.eventThread = some id
  single : t.loops.length ≤ 1
  thread : t.eventThread ≠ none → t.client.running = true ∨ t.stopping = true ∨ left = true
  left : left = true → t.client.running = false ∧ t.eventThread ≠ none ∧ t.stopping = false

section
variable [Object U]

/-- A process that has been terminated takes no step. -/
theorem step_alive {t u : Lifecycle U} {call : LifecycleCall} (stepped : Step t call u) : ¬ t.terminated = true := by
  intro terminated
  unfold Step step at stepped
  rw [if_pos terminated] at stepped
  cases stepped

/-- `start` fails while the flag is set, and makes a thread otherwise. -/
theorem step_start {t u : Lifecycle U} {caller : Caller} (stepped : Step t (.start caller) u) :
    t.stopping = false ∧
      (t.client.running = true ∧ u = t ∨ t.client.running = false ∧ ∃ c : Client U, c.running = true ∧ u = t.spawn c) := by
  have alive := step_alive stepped
  unfold Step step at stepped
  rw [if_neg alive] at stepped
  dsimp only at stepped
  by_cases blocked : t.stopping = true ∨ ¬ t.Present caller
  · rw [if_pos blocked] at stepped
    cases stepped
  · rw [if_neg blocked] at stepped
    rw [not_or, Bool.not_eq_true] at blocked
    refine ⟨blocked.1,?_⟩
    unfold Client.start at stepped
    by_cases running : t.client.running = true
    · rw [if_pos running] at stepped
      cases stepped
      exact .inl ⟨running,rfl⟩
    · rw [if_neg running] at stepped
      cases stepped
      refine .inr ⟨by simpa using running,_,?_,rfl⟩
      unfold Client.setState
      split <;> rfl

/-- `stop` clears the flag; it holds the lifecycle lock from then on unless it is on the event thread. -/
theorem step_stop {t u : Lifecycle U} {caller : Caller} (stepped : Step t (.stop caller) u) :
    t.stopping = false ∧ t.Present caller ∧
      (t.OnEventThread caller ∧ u = { t with client := { t.client with running := false } } ∨
        ¬ t.OnEventThread caller ∧ u = { t with client := { t.client with running := false }, stopping := true }) := by
  have alive := step_alive stepped
  unfold Step step at stepped
  rw [if_neg alive] at stepped
  dsimp only at stepped
  by_cases blocked : t.stopping = true ∨ ¬ t.Present caller
  · rw [if_pos blocked] at stepped
    cases stepped
  · rw [if_neg blocked] at stepped
    rw [not_or, not_not, Bool.not_eq_true] at blocked
    refine ⟨blocked.1,blocked.2,?_⟩
    by_cases here : t.OnEventThread caller
    · rw [if_pos here] at stepped
      cases stepped
      exact .inl ⟨here,rfl⟩
    · rw [if_neg here] at stepped
      cases stepped
      exact .inr ⟨here,rfl⟩

theorem step_finish {t u : Lifecycle U} {answers : UInt16 → Answer} (stepped : Step t (.finish answers) u) :
    t.stopping = true ∧ t.Joinable ∧
      u = { t with client := t.client.stop false answers, eventThread := none, stopping := false } := by
  have alive := step_alive stepped
  unfold Step step at stepped
  rw [if_neg alive] at stepped
  dsimp only at stepped
  by_cases joined : t.stopping = true ∧ t.Joinable
  · rw [if_pos joined] at stepped
    cases stepped
    exact ⟨joined.1,joined.2,rfl⟩
  · rw [if_neg joined] at stepped
    cases stepped

theorem step_ends {t u : Lifecycle U} {id : Nat} (stepped : Step t (.ends id) u) :
    u = { t with loops := t.loops.erase id } := by
  have alive := step_alive stepped
  unfold Step step at stepped
  rw [if_neg alive] at stepped
  dsimp only at stepped
  by_cases ended : id ∈ t.loops ∧ t.client.running = false
  · rw [if_pos ended] at stepped
    cases stepped
    rfl
  · rw [if_neg ended] at stepped
    cases stepped

/-- A thread that is kept is kept for a reason, so that `start` finds none. -/
theorem Kept.start {t u : Lifecycle U} {caller : Caller} (kept : Kept false t) (stepped : Step t (.start caller) u) :
    Kept false u := by
  obtain ⟨free,⟨-,rfl⟩ | ⟨idle,c,running,rfl⟩⟩ := step_start stepped
  · exact kept
  · have none : t.eventThread = none := by
      by_contra there
      rcases kept.thread there with set | held | left
      · rw [idle] at set
        cases set
      · rw [free] at held
        cases held
      · cases left
    have quiet : t.loops = [] := by
      refine List.eq_nil_iff_forall_not_mem.mpr ?_
      intro id member
      have there := kept.loops id member
      rw [none] at there
      cases there
    refine ⟨?_,?_,?_,?_,?_⟩
    · show t.eventThread.isSome = false
      rw [none]
      rfl
    · intro id member
      show some t.made = some id
      have same : id ∈ [t.made] := quiet ▸ member
      rw [List.mem_singleton.mp same]
    · show (t.made :: t.loops).length ≤ 1
      rw [quiet]
      simp
    · intro _
      exact .inl running
    · rintro ⟨⟩

/-- A `start` after a `stop` on the event thread terminates the process. -/
theorem Kept.terminates {t u : Lifecycle U} {caller : Caller} (kept : Kept true t) (stepped : Step t (.start caller) u) :
    u.terminated = true := by
  obtain ⟨idle,there,-⟩ := kept.left rfl
  obtain ⟨-,⟨running,-⟩ | ⟨-,c,-,rfl⟩⟩ := step_start stepped
  · rw [idle] at running
    cases running
  · exact Option.isSome_iff_ne_none.mpr there

theorem Kept.stop_loop {t u : Lifecycle U} {left : Bool} {id : Nat} (kept : Kept left t) (stepped : Step t (.stop (.loop id)) u) :
    Kept true u := by
  obtain ⟨free,present,⟨here,rfl⟩ | ⟨other,-⟩⟩ := step_stop stepped
  · refine ⟨kept.alive,kept.loops,kept.single,fun _ => .inr (.inr rfl),fun _ => ⟨rfl,?_,free⟩⟩
    intro none
    have there := kept.loops id present
    rw [none] at there
    cases there
  · exact absurd (kept.loops id present) other

theorem Kept.stop_application {t u : Lifecycle U} {left : Bool} (kept : Kept left t)
    (stepped : Step t (.stop .application) u) : Kept false u := by
  obtain ⟨-,-,⟨here,-⟩ | ⟨-,rfl⟩⟩ := step_stop stepped
  · exact here.elim
  · exact ⟨kept.alive,kept.loops,kept.single,fun _ => .inr (.inl rfl),by rintro ⟨⟩⟩

/-- The thread that is joined was the one with a loop. -/
theorem Kept.finish {t u : Lifecycle U} {left : Bool} {answers : UInt16 → Answer} (kept : Kept left t)
    (stepped : Step t (.finish answers) u) : Kept left u := by
  obtain ⟨stopping,joined,rfl⟩ := step_finish stepped
  refine ⟨kept.alive,?_,kept.single,fun there => absurd rfl there,?_⟩
  · intro id member
    exact absurd member (joined id (kept.loops id member))
  · intro leaves
    obtain ⟨-,-,free⟩ := kept.left leaves
    rw [stopping] at free
    cases free

theorem Kept.ends {t u : Lifecycle U} {left : Bool} {id : Nat} (kept : Kept left t) (stepped : Step t (.ends id) u) :
    Kept left u := by
  obtain rfl := step_ends stepped
  refine ⟨kept.alive,?_,?_,kept.thread,kept.left⟩
  · intro other member
    exact kept.loops other (List.mem_of_mem_erase member)
  · show (t.loops.erase id).length ≤ 1
    have shorter := List.length_erase_le (l := t.loops) (a := id)
    have single := kept.single
    omega

theorem run_terminated {t u : Lifecycle U} {calls : List LifecycleCall} (terminated : t.terminated = true)
    (run : Run Step t calls u) : u = t := by
  cases run with
  | nil => rfl
  | cons first rest => exact absurd terminated (step_alive first)

theorem Kept.sound_iff {t u : Lifecycle U} {left : Bool} {calls : List LifecycleCall} (kept : Kept left t)
    (run : Run Step t calls u) : u.Sound ↔ Orderly left calls := by
  induction run generalizing left with
  | nil => exact ⟨fun _ => trivial,fun _ => ⟨kept.alive,kept.single⟩⟩
  | @cons t next u call later first rest ih =>
    cases call with
    | start caller =>
      unfold Orderly
      cases left with
      | false => exact (ih (kept.start first)).trans (by simp)
      | true =>
        have terminated := kept.terminates first
        rw [run_terminated terminated rest]
        constructor
        · rintro ⟨alive,-⟩
          rw [terminated] at alive
          cases alive
        · rintro ⟨⟨⟩,-⟩
    | stop caller =>
      cases caller with
      | application => exact ih (kept.stop_application first)
      | loop id => exact ih (kept.stop_loop first)
    | finish answers => exact ih (kept.finish first)
    | ends id => exact ih (kept.ends first)

/-- From any client without an event thread, and for every sequence of calls, the process is not
    terminated and no more than one event loop runs, exactly if the calls are orderly. -/
theorem sound_run_iff {c : Client U} {calls : List LifecycleCall} {t : Lifecycle U} (run : Run Step { client := c } calls t) :
    t.Sound ↔ Orderly false calls := by
  refine Kept.sound_iff ⟨rfl,?_,?_,?_,?_⟩ run
  · rintro id ⟨⟩
  · exact Nat.zero_le 1
  · intro there
    exact absurd rfl there
  · rintro ⟨⟩

end

/-- The application starts the client, a callback on the event thread stops it, and the
    application starts it again when the loop is over. -/
def restartRun : List LifecycleCall := [.start .application, .stop (.loop 0), .ends 0, .start .application]

theorem restart_terminated : ∃ t, Run Step { client := sampleClient } restartRun t ∧ ¬ t.Sound := by
  refine ⟨_,(runPartial_iff step _ _ restartRun).mp rfl,?_⟩
  rintro ⟨⟨⟩,-⟩

/-- The same with a `stop` of the application before the second start. -/
def joinedRun : List LifecycleCall :=
  [.start .application, .stop (.loop 0), .ends 0, .stop .application, .finish (fun _ => { outcome := err .Timeout "" }),
    .start .application]

theorem joined_sound : ∃ t, runPartial step { client := sampleClient } joinedRun = some t ∧ (t.Sound ↔ Orderly false joinedRun) := by
  obtain ⟨t,ran⟩ : ∃ t, runPartial step { client := sampleClient } joinedRun = some t := ⟨_,rfl⟩
  exact ⟨t,ran,sound_run_iff ((runPartial_iff step _ _ _).mp ran)⟩

end Lifecycle

end Ferriot
