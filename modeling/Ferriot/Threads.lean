import Ferriot.Runs
import Mathlib.Data.List.Count
import Mathlib.Logic.Function.Basic

/-!
# Threads and locks

What the threads of the application and the event thread do with the two locks of the
client: `lifecycle_mtx_`, which `start` and `stop` hold, and the recursive `mtx_`, which
the other calls hold, also while they call back. A thread is the stack of what it is
in the middle of, innermost first.
-/
namespace Ferriot
open Runs

/-- The threads of the application, and those that `start` makes. -/
inductive ClientThread where
  | application (id : Nat)
  | event (id : Nat)
deriving DecidableEq, Repr

/-- The calls that hold `mtx_`; `access` only looks at the tables or changes them, without a callback. -/
inductive LockedCall where
  | register
  | update
  | deregister
  | poll
  | access
deriving DecidableEq, Repr

inductive ThreadCall where
  | start
  | stop
  | locked (call : LockedCall)
deriving DecidableEq, Repr

/-- A place in the code. -/
inductive Frame where
  /-- In `run_event_loop`, about to read the flag. -/
  | loop
  /-- In a callback of the application. -/
  | callback
  /-- At the lock of `mtx_`. -/
  | entering (call : LockedCall)
  | inside (call : LockedCall)
  /-- At the lock of `lifecycle_mtx_`. -/
  | startWaits
  /-- In `start`, which changes the state and then makes a thread. -/
  | starting
  | started
  | stopWaits
  /-- In `stop`, at the join of the event thread. -/
  | joining (id : Nat)
  /-- In `stop` after the join. -/
  | closing
deriving DecidableEq, Repr

def ThreadCall.frame : ThreadCall → Frame
  | .start => .startWaits
  | .stop => .stopWaits
  | .locked call => .entering call

namespace Frame

/-- The code that holds `lifecycle_mtx_`. -/
def holds : Frame → Bool
  | .starting | .started | .joining _ | .closing => true
  | _ => false

/-- The thread can be held up here. -/
def waits : Frame → Bool
  | .entering _ | .startWaits | .stopWaits | .joining _ => true
  | _ => false

/-- In a call of `stop`. -/
def stops : Frame → Bool
  | .stopWaits | .joining _ | .closing => true
  | _ => false

/-- Code that may call back: a change of the state, or anything else the application is told of. -/
def callsBack : Frame → Bool
  | .inside call => call ≠ .access
  | .starting | .closing => true
  | _ => false

end Frame

/-- The calls that a call makes itself: a request of a server, answered while the client waits or
    polls, may update a registration; a poll updates, and registers when it reconnects. -/
def Nests (outer inner : LockedCall) : Prop :=
  outer ≠ .access ∧ inner = .update ∨ outer = .poll ∧ inner = .register

structure Threads where
  running : Bool := false
  /-- The thread in `event_thread_`. -/
  eventThread : Option Nat := none
  made : Nat := 0
  /-- Who holds `lifecycle_mtx_`, and `mtx_`, and how often. -/
  lifecycle : Option ClientThread := none
  mutex : Option ClientThread := none
  depth : Nat := 0
  frames : ClientThread → List Frame := fun _ => []
  terminated : Bool := false

namespace Threads

/-- The thread goes on with another stack. -/
def put (t : Threads) (thread : ClientThread) (stack : List Frame) : Threads :=
  { t with frames := Function.update t.frames thread stack }

/-- A call comes from a thread of the application that is in no other, or from a callback. -/
def MayCall (thread : ClientThread) : List Frame → Prop
  | [] => ∃ id, thread = .application id
  | frame :: _ => frame = .callback

inductive Move where
  | call (call : ThreadCall)
  | nest (call : LockedCall)
  | callBack
  | resume
  | lock
  | unlock
  | startLock
  | stopLock
  | spawn
  | join
  | part (call : LockedCall)
  | finish
  | turn
deriving DecidableEq, Repr

/-- One move of a thread. -/
inductive Step : Threads → ClientThread × Move → Threads → Prop
  | call {t thread} (call : ThreadCall) (may : MayCall thread (t.frames thread)) (alive : t.terminated = false) :
      Step t (thread,.call call) (t.put thread (call.frame :: t.frames thread))
  | nest {t thread outer inner rest} (here : t.frames thread = .inside outer :: rest) (nests : Nests outer inner) :
      Step t (thread,.nest inner) (t.put thread (.entering inner :: .inside outer :: rest))
  | callBack {t thread frame rest} (here : t.frames thread = frame :: rest) (may : frame.callsBack = true) :
      Step t (thread,.callBack) (t.put thread (.callback :: frame :: rest))
  | resume {t thread rest} (here : t.frames thread = .callback :: rest) : Step t (thread,.resume) (t.put thread rest)
  | lock {t thread call rest} (here : t.frames thread = .entering call :: rest)
      (free : t.mutex = none ∨ t.mutex = some thread) :
      Step t (thread,.lock) { t.put thread (.inside call :: rest) with mutex := some thread, depth := t.depth + 1 }
  | unlock {t thread call rest} (here : t.frames thread = .inside call :: rest) :
      Step t (thread,.unlock)
        { t.put thread rest with mutex := if t.depth ≤ 1 then none else t.mutex, depth := t.depth - 1 }
  /-- `start` while the client is running. -/
  | refuse {t thread rest} (here : t.frames thread = .startWaits :: rest) (free : t.lifecycle = none)
      (running : t.running = true) : Step t (thread,.startLock) (t.put thread rest)
  | start {t thread rest} (here : t.frames thread = .startWaits :: rest) (free : t.lifecycle = none)
      (idle : t.running = false) :
      Step t (thread,.startLock) { t.put thread (.starting :: rest) with running := true, lifecycle := some thread }
  | spawn {t thread rest} (here : t.frames thread = .starting :: rest) (unmade : t.eventThread = none) :
      Step t (thread,.spawn)
        { (t.put thread (.started :: rest)).put (.event t.made) [.loop] with
          eventThread := some t.made
          made := t.made + 1 }
  /-- A thread that has not been joined is overwritten: the process is gone. -/
  | terminate {t thread rest id} (here : t.frames thread = .starting :: rest) (there : t.eventThread = some id) :
      Step t (thread,.spawn)
        { t with lifecycle := none, mutex := none, depth := 0, frames := fun _ => [], terminated := true }
  /-- `stop` on the event thread returns at once. -/
  | leave {t id rest} (here : t.frames (.event id) = .stopWaits :: rest) (free : t.lifecycle = none)
      (own : t.eventThread = some id) : Step t (.event id,.stopLock) { t.put (.event id) rest with running := false }
  | stop {t thread rest id} (here : t.frames thread = .stopWaits :: rest) (free : t.lifecycle = none)
      (there : t.eventThread = some id) (other : thread ≠ .event id) :
      Step t (thread,.stopLock)
        { t.put thread (.joining id :: rest) with running := false, lifecycle := some thread }
  /-- There is no thread to join. -/
  | close {t thread rest} (here : t.frames thread = .stopWaits :: rest) (free : t.lifecycle = none)
      (unmade : t.eventThread = none) :
      Step t (thread,.stopLock) { t.put thread (.closing :: rest) with running := false, lifecycle := some thread }
  | join {t thread rest id} (here : t.frames thread = .joining id :: rest) (ended : t.frames (.event id) = []) :
      Step t (thread,.join) { t.put thread (.closing :: rest) with eventThread := none }
  /-- `stop` looks at the tables, deregisters, or clears the tables. -/
  | part {t thread rest call} (here : t.frames thread = .closing :: rest) (may : call = .access ∨ call = .deregister) :
      Step t (thread,.part call) (t.put thread (.entering call :: .closing :: rest))
  | finish {t thread frame rest} (here : t.frames thread = frame :: rest) (last : frame = .started ∨ frame = .closing) :
      Step t (thread,.finish) { t.put thread rest with lifecycle := none }
  | poll {t thread} (here : t.frames thread = [.loop]) (running : t.running = true) :
      Step t (thread,.turn) (t.put thread [.entering .poll, .loop])
  | exit {t thread} (here : t.frames thread = [.loop]) (idle : t.running = false) :
      Step t (thread,.turn) (t.put thread [])

/-- The one thread waits for a lock that the other holds. -/
def Waits (t : Threads) (waiter holder : ClientThread) : Prop :=
  match t.frames waiter with
  | .entering _ :: _ => t.mutex = some holder
  | .startWaits :: _ | .stopWaits :: _ => t.lifecycle = some holder
  | _ => False

/-- A thread waits in the join of the event thread, which waits for a lock that it holds. -/
def Deadlocked (t : Threads) : Prop :=
  ∃ joiner id rest, t.frames joiner = .joining id :: rest ∧ t.Waits (.event id) joiner

/-- The thread is at the lock of `lifecycle_mtx_`. -/
def Asks (t : Threads) (thread : ClientThread) : Prop :=
  ∃ rest, t.frames thread = .startWaits :: rest ∨ t.frames thread = .stopWaits :: rest

/-- No thread of the application calls `stop` while it holds `mtx_`, or while a callback on the event
    thread is at the lifecycle lock; and no callback on the event thread calls `start` or `stop`
    while another thread is in `stop`. -/
def Allowed (t : Threads) : ClientThread × Move → Prop
  | (.application id,.call .stop) => t.mutex ≠ some (.application id) ∧ ∀ event, ¬ t.Asks (.event event)
  | (.event id,.call .stop) | (.event id,.call .start) =>
    ∀ other, other ≠ .event id → ∀ frame ∈ t.frames other, frame.stops = false
  | _ => True

/-- What comes with a place that a thread is held up at. -/
def Top (t : Threads) (thread : ClientThread) : Frame → Prop
  | .joining id => t.eventThread = some id ∧ t.mutex ≠ some thread
  | .stopWaits => (∃ id, thread = .application id) → t.mutex ≠ some thread
  | _ => True

/-- What holds of the stack of a thread: it is held up in the innermost place only, it is once in
    the code that holds `lifecycle_mtx_` or not at all, and an event thread that is
    not over is the one in `event_thread_`. -/
structure Fits (t : Threads) (thread : ClientThread) (stack : List Frame) : Prop where
  below : ∀ frame ∈ stack.tail, frame.waits = false
  held : stack.countP Frame.holds = if t.lifecycle = some thread then 1 else 0
  live : ∀ id, thread = .event id → stack ≠ [] → t.eventThread = some id
  top : ∀ frame rest, stack = frame :: rest → t.Top thread frame

structure Ordered (t : Threads) : Prop where
  fits : ∀ thread, t.Fits thread (t.frames thread)
  quiet : ∀ id, t.Asks (.event id) → ∀ other, other ≠ .event id → ∀ frame ∈ t.frames other, frame.stops = false

theorem top_passing {t : Threads} {thread : ClientThread} {frame : Frame} (passing : frame.waits = false) : t.Top thread frame := by
  cases frame with
  | stopWaits => cases passing
  | joining id => cases passing
  | _ => trivial

/-- With the innermost place left, the thread is not held up. -/
theorem Fits.pop {t u : Threads} {thread : ClientThread} {frame : Frame} {rest : List Frame}
    (fits : t.Fits thread (frame :: rest)) (eventThread : u.eventThread = t.eventThread)
    (held : rest.countP Frame.holds = if u.lifecycle = some thread then 1 else 0) : u.Fits thread rest := by
  refine ⟨?_,held,?_,?_⟩
  · intro inner member
    exact fits.below inner (List.mem_of_mem_tail member)
  · intro id same _
    rw [eventThread]
    exact fits.live id same (List.cons_ne_nil _ _)
  · rintro inner below rfl
    exact top_passing (fits.below inner List.mem_cons_self)

/-- Another innermost place. -/
theorem Fits.swap {t u : Threads} {thread : ClientThread} {frame next : Frame} {rest : List Frame}
    (fits : t.Fits thread (frame :: rest)) (eventThread : u.eventThread = t.eventThread)
    (held : (next :: rest).countP Frame.holds = if u.lifecycle = some thread then 1 else 0) (top : u.Top thread next) :
    u.Fits thread (next :: rest) := by
  refine ⟨fits.below,held,?_,?_⟩
  · intro id same _
    rw [eventThread]
    exact fits.live id same (List.cons_ne_nil _ _)
  · rintro inner below ⟨⟩
    exact top

/-- A place further in, which does not hold `lifecycle_mtx_`. -/
theorem Fits.push {t : Threads} {thread : ClientThread} {frame next : Frame} {rest : List Frame}
    (fits : t.Fits thread (frame :: rest)) (passing : frame.waits = false) (outside : next.holds = false)
    (top : t.Top thread next) : t.Fits thread (next :: frame :: rest) := by
  refine ⟨?_,?_,fun id same _ => fits.live id same (List.cons_ne_nil _ _),?_⟩
  · intro inner member
    rcases List.mem_cons.mp member with rfl | member
    · exact passing
    · exact fits.below inner member
  · rw [List.countP_cons_of_neg (by simp [outside])]
    exact fits.held
  · rintro inner below ⟨⟩
    exact top

/-- One thread goes on, and the event thread is the same. -/
theorem Ordered.put {t u : Threads} {thread : ClientThread} {stack : List Frame} (ordered : Ordered t)
    (frames : u.frames = Function.update t.frames thread stack) (eventThread : u.eventThread = t.eventThread)
    (lifecycle : ∀ other, other ≠ thread → (u.lifecycle = some other ↔ t.lifecycle = some other))
    (mutex : ∀ other, other ≠ thread → u.mutex = some other → t.mutex = some other) (fits : u.Fits thread stack)
    (asks : ∀ id, thread = .event id → u.Asks thread → ∀ other, other ≠ thread → ∀ frame ∈ t.frames other, frame.stops = false)
    (stops : (∃ frame ∈ stack, frame.stops = true) →
      (∃ frame ∈ t.frames thread, frame.stops = true) ∨ ∀ id, .event id ≠ thread → ¬ t.Asks (.event id)) : Ordered u := by
  have own : u.frames thread = stack := by rw [frames, Function.update_self]
  have others : ∀ other, other ≠ thread → u.frames other = t.frames other := by
    intro other ne
    rw [frames, Function.update_of_ne ne]
  refine ⟨?_,?_⟩
  · intro other
    by_cases same : other = thread
    · subst same
      rw [own]
      exact fits
    · obtain ⟨below,held,live,top⟩ := ordered.fits other
      rw [others other same]
      refine ⟨below,?_,?_,?_⟩
      · rw [held]
        exact if_congr (lifecycle other same).symm rfl rfl
      · rw [eventThread]
        exact live
      · intro frame rest here
        have before := top frame rest here
        cases frame with
        | joining id => exact ⟨eventThread.trans before.1,fun holds => before.2 (mutex other same holds)⟩
        | stopWaits => exact fun application holds => before application (mutex other same holds)
        | _ => trivial
  · intro id asking other ne frame member
    by_cases event : thread = .event id
    · subst event
      rw [others other ne] at member
      exact asks id rfl asking other ne frame member
    · have before : t.Asks (.event id) := by
        unfold Asks at asking ⊢
        rwa [others _ (Ne.symm event)] at asking
      by_cases same : other = thread
      · subst same
        rw [own] at member
        by_contra calls
        rw [Bool.not_eq_false] at calls
        rcases stops ⟨frame,member,calls⟩ with ⟨old,was,stopped⟩ | none
        · have quiet := ordered.quiet id before other ne old was
          rw [stopped] at quiet
          cases quiet
        · exact none id (Ne.symm event) before
      · rw [others other same] at member
        exact ordered.quiet id before other ne frame member

/-- The innermost place is none of those that wait for `lifecycle_mtx_`. -/
theorem not_asks {t : Threads} {thread : ClientThread} {stack : List Frame} (here : t.frames thread = stack)
    (other : ∀ frame rest, stack = frame :: rest → frame ≠ .startWaits ∧ frame ≠ .stopWaits) : ¬ t.Asks thread := by
  rintro ⟨rest,start | stop⟩
  · exact (other _ rest (here.symm.trans start)).1 rfl
  · exact (other _ rest (here.symm.trans stop)).2 rfl

/-! ### The moves -/

section
variable {t u : Threads} {thread : ClientThread} {frame next : Frame} {rest : List Frame}

theorem Ordered.pop (ordered : Ordered t) (here : t.frames thread = frame :: rest)
    (frames : u.frames = Function.update t.frames thread rest) (eventThread : u.eventThread = t.eventThread)
    (lifecycle : ∀ other, other ≠ thread → (u.lifecycle = some other ↔ t.lifecycle = some other))
    (mutex : ∀ other, other ≠ thread → u.mutex = some other → t.mutex = some other)
    (held : rest.countP Frame.holds = if u.lifecycle = some thread then 1 else 0) : Ordered u := by
  have fits : t.Fits thread (frame :: rest) := here ▸ ordered.fits thread
  refine ordered.put frames eventThread lifecycle mutex (fits.pop eventThread held) ?_ ?_
  · intro id _ asks
    refine absurd asks (not_asks (by rw [frames, Function.update_self]) ?_)
    rintro inner below rfl
    have passing := fits.below inner List.mem_cons_self
    constructor <;> rintro rfl <;> cases passing
  · rintro ⟨inner,member,stops⟩
    exact .inl ⟨inner,here ▸ List.mem_cons_of_mem _ member,stops⟩

theorem Ordered.swap (ordered : Ordered t) (here : t.frames thread = frame :: rest)
    (frames : u.frames = Function.update t.frames thread (next :: rest)) (eventThread : u.eventThread = t.eventThread)
    (lifecycle : ∀ other, other ≠ thread → (u.lifecycle = some other ↔ t.lifecycle = some other))
    (mutex : ∀ other, other ≠ thread → u.mutex = some other → t.mutex = some other)
    (held : (next :: rest).countP Frame.holds = if u.lifecycle = some thread then 1 else 0) (top : u.Top thread next)
    (asks : next ≠ .startWaits ∧ next ≠ .stopWaits) (stops : next.stops = true → frame.stops = true) : Ordered u := by
  have fits : t.Fits thread (frame :: rest) := here ▸ ordered.fits thread
  refine ordered.put frames eventThread lifecycle mutex (fits.swap eventThread held top) ?_ ?_
  · intro id _ asking
    refine absurd asking (not_asks (by rw [frames, Function.update_self]) ?_)
    rintro inner below ⟨⟩
    exact asks
  · rintro ⟨inner,member,stopping⟩
    rcases List.mem_cons.mp member with rfl | member
    · exact .inl ⟨frame,here ▸ List.mem_cons_self,stops stopping⟩
    · exact .inl ⟨inner,here ▸ List.mem_cons_of_mem _ member,stopping⟩

theorem Ordered.push (ordered : Ordered t) (here : t.frames thread = frame :: rest) (passing : frame.waits = false)
    (inner : next = .callback ∨ ∃ call, next = .entering call) : Ordered (t.put thread (next :: frame :: rest)) := by
  have fits : t.Fits thread (frame :: rest) := here ▸ ordered.fits thread
  have pushed : t.Fits thread (next :: frame :: rest) := by
    rcases inner with rfl | ⟨call,rfl⟩
    · exact fits.push passing rfl trivial
    · exact fits.push passing rfl trivial
  refine ordered.put rfl rfl (fun _ _ => Iff.rfl) (fun _ _ => id) ⟨pushed.below,pushed.held,pushed.live,pushed.top⟩ ?_ ?_
  · intro id _ asking
    refine absurd asking (not_asks (Function.update_self _ _ _) ?_)
    rintro first below ⟨⟩
    rcases inner with rfl | ⟨call,rfl⟩
    · exact ⟨by rintro ⟨⟩,by rintro ⟨⟩⟩
    · exact ⟨by rintro ⟨⟩,by rintro ⟨⟩⟩
  · rintro ⟨first,member,stops⟩
    rcases List.mem_cons.mp member with rfl | member
    · rcases inner with rfl | ⟨call,rfl⟩
      · cases stops
      · cases stops
    · exact .inl ⟨first,here ▸ member,stops⟩

end

/-- Another thread is not in the code that holds `lifecycle_mtx_`. -/
theorem Ordered.outside {t : Threads} (ordered : Ordered t) {thread other : ClientThread}
    (holder : t.lifecycle = some thread) (ne : other ≠ thread) : (t.frames other).countP Frame.holds = 0 := by
  rw [(ordered.fits other).held, holder, if_neg]
  intro same
  exact ne (Option.some.inj same).symm

/-- A thread in the code that holds `lifecycle_mtx_` is its holder. -/
theorem Ordered.holder {t : Threads} (ordered : Ordered t) {thread : ClientThread} {frame : Frame} {rest : List Frame}
    (here : t.frames thread = frame :: rest) (holds : frame.holds = true) :
    t.lifecycle = some thread ∧ rest.countP Frame.holds = 0 := by
  have held := (ordered.fits thread).held
  rw [here, List.countP_cons_of_pos holds] at held
  by_cases own : t.lifecycle = some thread
  · rw [if_pos own] at held
    exact ⟨own,by omega⟩
  · rw [if_neg own] at held
    omega

/-- Without a thread in `event_thread_` every event thread is over. -/
theorem Ordered.all_ended {t : Threads} (ordered : Ordered t) (unmade : t.eventThread = none) (id : Nat) : t.frames (.event id) = [] := by
  by_contra alive
  have there := (ordered.fits (.event id)).live id rfl alive
  rw [unmade] at there
  cases there

/-- A thread that does not hold `lifecycle_mtx_` fits another thread in `event_thread_` as well, when
    every event thread has ended. -/
theorem Ordered.bystander {t u : Threads} (ordered : Ordered t) {thread other : ClientThread}
    (holder : t.lifecycle = some thread) (ne : other ≠ thread) (ended : ∀ id, t.frames (.event id) = [])
    (lifecycle : u.lifecycle = t.lifecycle) (mutex : u.mutex = t.mutex) : u.Fits other (t.frames other) := by
  obtain ⟨below,held,-,top⟩ := ordered.fits other
  refine ⟨below,by rw [lifecycle]; exact held,?_,?_⟩
  · rintro id rfl alive
    exact absurd (ended id) alive
  · intro frame rest here
    cases frame with
    | joining id =>
      have none := ordered.outside holder ne
      rw [here, List.countP_cons_of_pos rfl] at none
      omega
    | stopWaits =>
      intro application
      rw [mutex]
      exact top _ rest here application
    | _ => trivial

/-- Two event threads that have not ended are one. -/
theorem Ordered.same_event {t : Threads} (ordered : Ordered t) {id id' : Nat} (alive : t.frames (.event id) ≠ [])
    (alive' : t.frames (.event id') ≠ []) : id = id' := by
  have first := (ordered.fits (.event id)).live id rfl alive
  have second := (ordered.fits (.event id')).live id' rfl alive'
  exact Option.some.inj (first.symm.trans second)

/-- With `lifecycle_mtx_` free no thread is in the code that holds it. -/
theorem Ordered.none_holds {t : Threads} (ordered : Ordered t) (free : t.lifecycle = none) {thread : ClientThread}
    {frame : Frame} {rest : List Frame} (here : t.frames thread = frame :: rest) : rest.countP Frame.holds = 0 := by
  have held := (ordered.fits thread).held
  rw [here, free, if_neg (by rintro ⟨⟩)] at held
  rw [List.countP_eq_zero] at held ⊢
  intro inner member
  exact held inner (List.mem_cons_of_mem _ member)

/-- The code around a place that does not hold `lifecycle_mtx_`. -/
theorem Ordered.around {t : Threads} (ordered : Ordered t) {thread : ClientThread} {frame : Frame} {rest : List Frame}
    (here : t.frames thread = frame :: rest) (outside : frame.holds = false) :
    rest.countP Frame.holds = if t.lifecycle = some thread then 1 else 0 := by
  have held := (ordered.fits thread).held
  rwa [here, List.countP_cons_of_neg (by rw [outside]; decide)] at held

/-- A thread comes to hold `lifecycle_mtx_` once. -/
theorem Ordered.taking {t : Threads} (ordered : Ordered t) (free : t.lifecycle = none) {thread : ClientThread}
    {frame next : Frame} {rest : List Frame} (here : t.frames thread = frame :: rest) (holds : next.holds = true) :
    (next :: rest).countP Frame.holds = if some thread = some thread then 1 else 0 := by
  rw [List.countP_cons_of_pos holds, ordered.none_holds free here, if_pos rfl]

theorem others_taken {t : Threads} (free : t.lifecycle = none) {thread other : ClientThread} (ne : other ≠ thread) :
    some thread = some other ↔ t.lifecycle = some other := by
  rw [free]
  constructor
  · intro same
    exact absurd (Option.some.inj same).symm ne
  · rintro ⟨⟩

theorem others_left {t : Threads} {thread other : ClientThread} (holder : t.lifecycle = some thread) (ne : other ≠ thread) :
    none = some other ↔ t.lifecycle = some other := by
  rw [holder]
  constructor
  · rintro ⟨⟩
  · intro same
    exact absurd (Option.some.inj same).symm ne

theorem mayCall_cases {thread : ClientThread} {stack : List Frame} (may : MayCall thread stack) :
    (∃ id, thread = .application id) ∧ stack = [] ∨ ∃ rest, stack = .callback :: rest := by
  cases stack with
  | nil => exact .inl ⟨may,rfl⟩
  | cons frame rest => exact .inr ⟨rest,congrArg (· :: rest) may⟩

/-- A thread that may call is not held up. -/
theorem Ordered.mayCall_passing {t : Threads} {thread : ClientThread} (ordered : Ordered t)
    (may : MayCall thread (t.frames thread)) : ∀ frame ∈ t.frames thread, frame.waits = false := by
  intro frame member
  have below := (ordered.fits thread).below
  rcases mayCall_cases may with ⟨-,empty⟩ | ⟨rest,back⟩
  · rw [empty] at member
    cases member
  · rw [back] at below member
    rcases List.mem_cons.mp member with rfl | member
    · rfl
    · exact below frame member

/-- No other event thread is at the lock of `lifecycle_mtx_` when a thread calls `stop` as allowed. -/
theorem Ordered.stop_alone {t : Threads} {thread : ClientThread} (ordered : Ordered t)
    (may : MayCall thread (t.frames thread)) (allowed : t.Allowed (thread,.call .stop)) :
    ∀ id, .event id ≠ thread → ¬ t.Asks (.event id) := by
  intro id ne asks
  cases thread with
  | application caller => exact allowed.2 id asks
  | event caller =>
    have asking : t.frames (.event id) ≠ [] := by
      obtain ⟨rest,here | here⟩ := asks
      · rw [here]
        exact List.cons_ne_nil _ _
      · rw [here]
        exact List.cons_ne_nil _ _
    have calling : t.frames (.event caller) ≠ [] := by
      intro empty
      rw [empty] at may
      obtain ⟨_,⟨⟩⟩ := may
    rw [ordered.same_event asking calling] at ne
    exact ne rfl

/-- A call that is allowed. -/
theorem Ordered.call {t : Threads} {thread : ClientThread} (ordered : Ordered t) (call : ThreadCall)
    (may : MayCall thread (t.frames thread)) (allowed : t.Allowed (thread,.call call)) :
    Ordered (t.put thread (call.frame :: t.frames thread)) := by
  obtain ⟨-,held,live,-⟩ := ordered.fits thread
  have outside : call.frame.holds = false := by cases call <;> rfl
  have top : t.Top thread call.frame := by
    cases call with
    | stop =>
      rintro ⟨id,rfl⟩
      exact allowed.1
    | _ => trivial
  refine ordered.put rfl rfl (fun _ _ => Iff.rfl) (fun _ _ => id) ⟨ordered.mayCall_passing may,?_,?_,?_⟩ ?_ ?_
  · rw [List.countP_cons_of_neg (by simp [outside])]
    exact held
  · rintro id rfl _
    rcases mayCall_cases may with ⟨⟨_,⟨⟩⟩,-⟩ | ⟨rest,back⟩
    exact live id rfl (by rw [back]; exact List.cons_ne_nil _ _)
  · rintro frame rest ⟨⟩
    cases call with
    | stop => exact top
    | _ => trivial
  · rintro id rfl asks
    cases call with
    | locked call =>
      refine absurd asks (not_asks (Function.update_self _ _ _) ?_)
      rintro frame rest ⟨⟩
      exact ⟨by rintro ⟨⟩,by rintro ⟨⟩⟩
    | start => exact allowed
    | stop => exact allowed
  · rintro ⟨frame,member,stops⟩
    rcases List.mem_cons.mp member with rfl | member
    · cases call with
      | start => cases stops
      | locked call => cases stops
      | stop => exact .inr (ordered.stop_alone may allowed)
    · exact .inl ⟨frame,member,stops⟩

/-- A thread is made when there is none. -/
theorem Ordered.spawn {t : Threads} {thread : ClientThread} {rest : List Frame} (ordered : Ordered t)
    (here : t.frames thread = .starting :: rest) (unmade : t.eventThread = none) :
    Ordered
      { (t.put thread (.started :: rest)).put (.event t.made) [.loop] with
        eventThread := some t.made
        made := t.made + 1 } := by
  obtain ⟨holder,-⟩ := ordered.holder here rfl
  obtain ⟨below,held,-,-⟩ := here ▸ ordered.fits thread
  have events := ordered.all_ended unmade
  have application : ∀ id, thread ≠ .event id := by
    rintro id rfl
    rw [events id] at here
    cases here
  have stack (other : ClientThread) :
      Function.update (Function.update t.frames thread (.started :: rest)) (.event t.made) [.loop] other =
        if other = .event t.made then [.loop] else if other = thread then .started :: rest else t.frames other := by
    rw [Function.update_apply, Function.update_apply]
  refine ⟨?_,?_⟩
  · intro other
    show Fits _ other (Function.update (Function.update t.frames thread (.started :: rest)) (.event t.made) [.loop] other)
    rw [stack]
    by_cases event : other = .event t.made
    · subst event
      rw [if_pos rfl]
      refine ⟨by rintro frame ⟨⟩,?_,?_,?_⟩
      · exact (if_neg (fun same => application _ (Option.some.inj (holder.symm.trans same)))).symm
      · rintro id ⟨⟩ _
        rfl
      · rintro frame rest ⟨⟩
        trivial
    · rw [if_neg event]
      by_cases same : other = thread
      · subst same
        rw [if_pos rfl]
        refine ⟨below,held,?_,?_⟩
        · intro id same
          exact absurd same (application id)
        · rintro frame rest ⟨⟩
          trivial
      · rw [if_neg same]
        exact ordered.bystander holder same events rfl rfl
  · rintro id ⟨below,asks⟩
    change Function.update (Function.update t.frames thread (.started :: rest)) (.event t.made) [.loop] (.event id) = _ ∨
      Function.update (Function.update t.frames thread (.started :: rest)) (.event t.made) [.loop] (.event id) = _ at asks
    rw [stack] at asks
    by_cases new : ClientThread.event id = .event t.made
    · rw [if_pos new] at asks
      rcases asks with ⟨⟨⟩⟩ | ⟨⟨⟩⟩
    · rw [if_neg new, if_neg (Ne.symm (application id)), events id] at asks
      rcases asks with ⟨⟨⟩⟩ | ⟨⟨⟩⟩

/-- The event thread has been joined. -/
theorem Ordered.join {t : Threads} {thread : ClientThread} {id : Nat} {rest : List Frame} (ordered : Ordered t)
    (here : t.frames thread = .joining id :: rest) (ended : t.frames (.event id) = []) :
    Ordered { t.put thread (.closing :: rest) with eventThread := none } := by
  obtain ⟨holder,-⟩ := ordered.holder here rfl
  obtain ⟨below,held,live,top⟩ := here ▸ ordered.fits thread
  obtain ⟨joined,-⟩ := top _ _ rfl
  have events : ∀ event, t.frames (.event event) = [] := by
    intro event
    by_contra alive
    have there := (ordered.fits (.event event)).live event rfl alive
    rw [joined] at there
    cases there
    exact alive ended
  have application : ∀ event, thread ≠ .event event := by
    rintro event rfl
    rw [events event] at here
    cases here
  refine ⟨?_,?_⟩
  · intro other
    show Fits _ other (Function.update t.frames thread (.closing :: rest) other)
    rw [Function.update_apply]
    by_cases same : other = thread
    · subst same
      rw [if_pos rfl]
      refine ⟨below,held,?_,?_⟩
      · intro event same
        exact absurd same (application event)
      · rintro frame rest ⟨⟩
        trivial
    · rw [if_neg same]
      exact ordered.bystander holder same events rfl rfl
  · rintro event ⟨below,asks⟩
    change Function.update t.frames thread (.closing :: rest) (.event event) = _ ∨
      Function.update t.frames thread (.closing :: rest) (.event event) = _ at asks
    rw [Function.update_of_ne (Ne.symm (application event)), events event] at asks
    rcases asks with ⟨⟨⟩⟩ | ⟨⟨⟩⟩

theorem ordered_step (t : Threads) (label : ClientThread × Move) (u : Threads) (ordered : Ordered t)
    (stepped : Guarded Allowed Step t label u) : Ordered u := by
  obtain ⟨allowed,step⟩ := stepped
  cases step with
  | call call may => exact ordered.call call may allowed
  | nest here => exact ordered.push here rfl (.inr ⟨_,rfl⟩)
  | @callBack thread frame rest here may =>
    refine ordered.push here ?_ (.inl rfl)
    cases frame with
    | inside => rfl
    | starting => rfl
    | closing => rfl
    | _ => cases may
  | resume here => exact ordered.pop here rfl rfl (fun _ _ => Iff.rfl) (fun _ _ => id) (ordered.around here rfl)
  | @lock thread call rest here free =>
    have held := (ordered.fits thread).held
    rw [here] at held
    refine ordered.swap here rfl rfl (fun _ _ => Iff.rfl) ?_ held trivial ⟨by rintro ⟨⟩,by rintro ⟨⟩⟩ (by rintro ⟨⟩)
    intro other ne taken
    exact absurd (Option.some.inj taken).symm ne
  | @unlock thread call rest here =>
    refine ordered.pop here rfl rfl (fun _ _ => Iff.rfl) ?_ (ordered.around here rfl)
    intro other ne kept
    by_cases last : t.depth ≤ 1
    · rw [if_pos last] at kept
      cases kept
    · rwa [if_neg last] at kept
  | refuse here free running =>
    exact ordered.pop here rfl rfl (fun _ _ => Iff.rfl) (fun _ _ => id) (ordered.around here rfl)
  | start here free idle =>
    exact ordered.swap here rfl rfl (fun _ ne => others_taken free ne) (fun _ _ => id) (ordered.taking free here rfl) trivial
      ⟨by rintro ⟨⟩,by rintro ⟨⟩⟩ (by rintro ⟨⟩)
  | spawn here unmade => exact ordered.spawn here unmade
  | terminate here there =>
    refine ⟨?_,?_⟩
    · intro thread
      refine ⟨by rintro frame ⟨⟩,rfl,?_,by rintro frame rest ⟨⟩⟩
      intro id _ alive
      exact absurd rfl alive
    · rintro id ⟨rest,⟨⟨⟩⟩ | ⟨⟨⟩⟩⟩
  | leave here free own =>
    exact ordered.pop here rfl rfl (fun _ _ => Iff.rfl) (fun _ _ kept => kept) (ordered.around here rfl)
  | @stop thread rest id here free there other =>
    obtain ⟨-,-,live,top⟩ := here ▸ ordered.fits thread
    -- An event thread that is not over would be the one to join.
    have application : ∃ id, thread = .application id := by
      cases thread with
      | application caller => exact ⟨caller,rfl⟩
      | event caller =>
        have own := live caller rfl (List.cons_ne_nil _ _)
        rw [there] at own
        cases own
        exact absurd rfl other
    exact ordered.swap here rfl rfl (fun _ ne => others_taken free ne) (fun _ _ kept => kept) (ordered.taking free here rfl)
      ⟨there,top _ _ rfl application⟩ ⟨by rintro ⟨⟩,by rintro ⟨⟩⟩ (fun _ => rfl)
  | close here free unmade =>
    exact ordered.swap here rfl rfl (fun _ ne => others_taken free ne) (fun _ _ => id) (ordered.taking free here rfl) trivial
      ⟨by rintro ⟨⟩,by rintro ⟨⟩⟩ (fun _ => rfl)
  | join here ended => exact ordered.join here ended
  | part here may => exact ordered.push here rfl (.inr ⟨_,rfl⟩)
  | @finish thread frame rest here last =>
    have holds : frame.holds = true := by rcases last with rfl | rfl <;> rfl
    obtain ⟨holder,none⟩ := ordered.holder here holds
    refine ordered.pop here rfl rfl (fun _ ne => others_left holder ne) (fun _ _ => id) ?_
    rw [none, if_neg (by rintro ⟨⟩)]
  | poll here running => exact ordered.push here rfl (.inr ⟨_,rfl⟩)
  | exit here idle => exact ordered.pop here rfl rfl (fun _ _ => Iff.rfl) (fun _ _ => id) (ordered.around here rfl)

theorem ordered_initial : Ordered {} := by
  refine ⟨?_,?_⟩
  · intro thread
    refine ⟨by rintro frame ⟨⟩,rfl,?_,by rintro frame rest ⟨⟩⟩
    intro id _ alive
    exact absurd rfl alive
  · rintro id ⟨rest,⟨⟨⟩⟩ | ⟨⟨⟩⟩⟩

theorem Ordered.not_deadlocked {t : Threads} (ordered : Ordered t) : ¬ t.Deadlocked := by
  rintro ⟨joiner,id,rest,here,waits⟩
  obtain ⟨joined,free⟩ := (ordered.fits joiner).top _ _ here
  have stopping : t.Asks (.event id) → False := by
    intro asks
    have other : joiner ≠ .event id := by
      rintro rfl
      obtain ⟨below,asks⟩ := asks
      rw [here] at asks
      rcases asks with ⟨⟨⟩⟩ | ⟨⟨⟩⟩
    have quiet := ordered.quiet id asks joiner other (.joining id) (by rw [here]; exact List.mem_cons_self)
    cases quiet
  unfold Waits at waits
  split at waits
  · exact free waits
  · next there => exact stopping ⟨_,.inl there⟩
  · next there => exact stopping ⟨_,.inr there⟩
  · exact waits

/-- In every run whose calls of `start` and `stop` are made as allowed, no thread waits in the join of
    the event thread while that waits for a lock that it holds. -/
theorem not_deadlocked_run {t : Threads} {labels : List (ClientThread × Move)}
    (run : Run (Guarded Allowed Step) {} labels t) : ¬ t.Deadlocked :=
  (run.keeps ordered_step ordered_initial).not_deadlocked

/-- The application starts the client, and a poll calls back. -/
def calledBack : List (ClientThread × Move) :=
  [(.application 0,.call .start), (.application 0,.startLock), (.application 0,.spawn), (.application 0,.finish),
    (.event 0,.turn), (.event 0,.lock), (.event 0,.callBack)]

/-- The application stops the client, and so does the callback. -/
def bothStop : List (ClientThread × Move) :=
  calledBack ++ [(.application 0,.call .stop), (.application 0,.stopLock), (.event 0,.call .stop)]

theorem both_deadlocked : ∃ t, Run Step {} bothStop t ∧ t.Deadlocked := by
  refine ⟨_,.cons (.call .start ⟨0,rfl⟩ rfl) (.cons (.start rfl rfl rfl) (.cons (.spawn rfl rfl) (.cons (.finish rfl (.inl rfl))
    (.cons (.poll rfl rfl) (.cons (.lock rfl (.inl rfl)) (.cons (.callBack rfl rfl) (.cons (.call .stop ⟨0,rfl⟩ rfl)
    (.cons (.stop rfl rfl rfl (by decide)) (.cons (.call .stop rfl rfl) (.nil _)))))))))),?_⟩
  exact ⟨.application 0,0,[],rfl,rfl⟩

/-- The callback stops the client, and then the application does. -/
def eachStops : List (ClientThread × Move) :=
  calledBack ++ [(.event 0,.call .stop), (.event 0,.stopLock), (.application 0,.call .stop), (.application 0,.stopLock)]

theorem each_stops : ∃ t, Run (Guarded Allowed Step) {} eachStops t ∧ ¬ t.Deadlocked := by
  have run : ∃ t, Run (Guarded Allowed Step) {} eachStops t := by
    refine ⟨_,.cons ⟨trivial,.call .start ⟨0,rfl⟩ rfl⟩ (.cons ⟨trivial,.start rfl rfl rfl⟩ (.cons ⟨trivial,.spawn rfl rfl⟩
      (.cons ⟨trivial,.finish rfl (.inl rfl)⟩ (.cons ⟨trivial,.poll rfl rfl⟩ (.cons ⟨trivial,.lock rfl (.inl rfl)⟩
      (.cons ⟨trivial,.callBack rfl rfl⟩ (.cons ⟨?_,.call .stop rfl rfl⟩ (.cons ⟨trivial,.leave rfl rfl rfl⟩
      (.cons ⟨⟨?_,?_⟩,.call .stop ⟨0,rfl⟩ rfl⟩ (.cons ⟨trivial,.stop rfl rfl rfl (by decide)⟩ (.nil _)))))))))))⟩
    · intro other ne frame member
      by_cases caller : other = .application 0
      · subst caller
        cases member
      · simp [put, ne, caller] at member
    · decide
    · rintro event ⟨rest,asks⟩
      by_cases first : event = 0
      · subst first
        rcases asks with ⟨⟨⟩⟩ | ⟨⟨⟩⟩
      · simp [put, first] at asks
  obtain ⟨t,run⟩ := run
  exact ⟨t,run,not_deadlocked_run run⟩

end Threads

end Ferriot
