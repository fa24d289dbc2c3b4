import Ferriot.Types
import Ferriot.Runs
import Mathlib.Logic.Function.Basic

/-!
# Starting downloads again

Calls of `start_download`, `cancel` and `wait_for_completion` from threads of the
application and from the callbacks of a download, which run on its thread: `on_progress`
while the transfer is on, `on_complete` after the flag has been cleared. A call goes on
step by step, and `cleanup_thread` joins the thread that the member `download_thread_`
still holds.
-/
namespace Ferriot
open Runs

/-- A thread of the application, or one that `start_download` has made. -/
inductive DownloadCaller where
  | application (id : Nat)
  | download (id : Nat)
deriving DecidableEq, Repr

/-- What a download thread is doing. -/
inductive DownloadPhase where
  /-- The flag is still set; `on_progress` may run. -/
  | transferring
  /-- The flag has been cleared; `on_complete` may run. -/
  | completing
  | ended
deriving DecidableEq, Repr

/-- The next step of a call of `start_download`. -/
inductive StartPc where
  | idle
  | validating (url : Bytes)
  /-- In `cleanup_thread`, about to look at `download_thread_`. -/
  | cleaning
  | joining (id : Nat)
  | resetting
  | spawning
  /-- The thread has been made, and is not in `download_thread_` yet. -/
  | assigning (id : Nat)
deriving DecidableEq, Repr

/-- What a call of `start_download` returns. -/
inductive StartOutcome where
  | started (id : Nat)
  | refused (e : Error)
deriving DecidableEq, Repr

/-- What ends a call of `start_download` otherwise. -/
inductive StartFailure where
  /-- `join` throws on the thread to be joined. -/
  | selfJoin
  /-- A thread that can be joined is overwritten: `std::terminate`. -/
  | overwritten
deriving DecidableEq, Repr

structure HttpDownloader where
  downloading : Bool := false
  cancelled : Bool := false
  /-- `download_thread_`, if it can be joined. -/
  downloadThread : Option Nat := none
  made : Nat := 0
  phase : Nat → DownloadPhase := fun _ => .ended
  calls : DownloadCaller → StartPc := fun _ => .idle
  outcomes : List (DownloadCaller × StartOutcome) := []
  failure : Option StartFailure := none

inductive DownloaderMove where
  | startDownload (url : Bytes)
  /-- The next step of the call of `start_download`. -/
  | go
  | cancel
  | waitForCompletion (completed : Bool)
  /-- A download thread clears the flag. -/
  | clearFlag
  /-- A download thread ends. -/
  | finish
deriving DecidableEq, Repr

namespace StartPc

/-- The call has set the flag, and its download has not begun. -/
def holds : StartPc → Bool
  | .idle | .assigning _ => false
  | _ => true

/-- The call has a use for `download_thread_`. -/
def starts : StartPc → Bool
  | .idle | .validating [] => false
  | _ => true

/-- What the call relies on. -/
def Expects (pc : StartPc) (thread : Option Nat) : Prop :=
  match pc with
  | .joining id => thread = some id
  | .resetting | .spawning | .assigning _ => thread = none
  | _ => True

theorem expects_of_starts {pc : StartPc} (idle : pc.starts = false) (thread : Option Nat) : pc.Expects thread := by
  cases pc with
  | idle | validating => trivial
  | _ => cases idle

end StartPc

namespace HttpDownloader

/-- The call goes on with another step. -/
def put (t : HttpDownloader) (caller : DownloadCaller) (pc : StartPc) : HttpDownloader :=
  { t with calls := Function.update t.calls caller pc }

/-- The call returns. -/
def answer (t : HttpDownloader) (caller : DownloadCaller) (outcome : StartOutcome) : HttpDownloader :=
  { t with outcomes := (caller,outcome) :: t.outcomes }

def setPhase (t : HttpDownloader) (id : Nat) (phase : DownloadPhase) : HttpDownloader :=
  { t with phase := Function.update t.phase id phase }

/-- A call comes from a thread of the application, or from a callback of a download, that is in no other. -/
def mayCall (t : HttpDownloader) (caller : DownloadCaller) : Bool :=
  t.calls caller = .idle &&
    match caller with
    | .application _ => true
    | .download id => t.phase id ≠ .ended

/-- A step of `start_download` -/
def go (t : HttpDownloader) (caller : DownloadCaller) : Option HttpDownloader :=
  match t.calls caller with
  | .idle => none
  | .validating url =>
    if url = [] then
      some ({ t.put caller .idle with downloading := false }.answer caller (.refused ⟨.BadRequest,"URL cannot be empty"⟩))
    else some (t.put caller .cleaning)
  | .cleaning =>
    match t.downloadThread with
    | none => some (t.put caller .resetting)
    | some id => some (t.put caller (.joining id))
  | .joining id =>
    if caller = .download id then some { t with failure := some .selfJoin }
    else if t.phase id = .ended then some { t.put caller .resetting with downloadThread := none }
    else none
  | .resetting => some { t.put caller .spawning with cancelled := false }
  | .spawning => some { (t.put caller (.assigning t.made)).setPhase t.made .transferring with made := t.made + 1 }
  | .assigning id =>
    match t.downloadThread with
    | some _ => some { t with failure := some .overwritten }
    | none => some ({ t.put caller .idle with downloadThread := some id }.answer caller (.started id))

def step (t : HttpDownloader) (caller : DownloadCaller) : DownloaderMove → Option HttpDownloader
  | .startDownload url =>
    if t.mayCall caller then
      if t.downloading then some (t.answer caller (.refused ⟨.InvalidState,"Download already in progress"⟩))
      else some { t.put caller (.validating url) with downloading := true }
    else none
  | .go => t.go caller
  | .cancel => if t.mayCall caller then some { t with cancelled := true } else none
  | .waitForCompletion completed => if t.mayCall caller ∧ completed = !t.downloading then some t else none
  | .clearFlag =>
    match caller with
    | .application _ => none
    | .download id =>
      if t.calls caller = .idle ∧ t.phase id = .transferring then
        some { t.setPhase id .completing with downloading := false }
      else none
  | .finish =>
    match caller with
    | .application _ => none
    | .download id => if t.calls caller = .idle ∧ t.phase id = .completing then some (t.setPhase id .ended) else none

/-- A move of a thread, as long as nothing has failed. -/
def Step (t : HttpDownloader) (move : DownloadCaller × DownloaderMove) (u : HttpDownloader) : Prop :=
  t.failure = none ∧ step t move.1 move.2 = some u

/-- Every call starts a download or returns an error: none joins its own thread or overwrites another,
    and one that joins a download waits for nothing but a step of it. -/
structure Retriable (t : HttpDownloader) : Prop where
  failure : t.failure = none
  joins : ∀ id other, t.calls (.download other) ≠ .joining id
  started : ∀ caller id, (caller,.started id) ∈ t.outcomes → id < t.made
  goesOn : ∀ caller, t.calls caller ≠ .idle → (t.go caller).isSome = true ∨
    ∃ id move, t.calls caller = .joining id ∧ (t.step (.download id) move).isSome = true ∧
      (move = .go ∨ move = .clearFlag ∨ move = .finish)

/-- A call of `start_download` with a URL that finds the flag clear is not made from a callback, and
    not while another has made its thread and not stored it yet. -/
def Allowed (t : HttpDownloader) : DownloadCaller × DownloaderMove → Prop
  | (caller,.startDownload url) =>
    url ≠ [] → t.downloading = false → (∀ id, caller ≠ .download id) ∧ ∀ other id, t.calls other ≠ .assigning id
  | _ => True

/-! ### Who holds the flag -/

/-- What has set the flag: a call that has not made its thread yet, or a download. -/
inductive Holder where
  | call (caller : DownloadCaller)
  | download (id : Nat)

def Holds (t : HttpDownloader) : Holder → Prop
  | .call caller => (t.calls caller).holds = true
  | .download id => t.phase id = .transferring

/-- What every run maintains: the flag has one holder, one call at most has a use for
    `download_thread_`, and no call from a callback has one. -/
structure Owned (t : HttpDownloader) : Prop where
  failure : t.failure = none
  clear : t.downloading = false → ∀ holder, ¬ t.Holds holder
  holder : ∀ one other, t.Holds one → t.Holds other → one = other
  starter : ∀ one other, (t.calls one).starts = true → (t.calls other).starts = true → one = other
  thread : ∀ caller, (t.calls caller).Expects t.downloadThread
  callback : ∀ id, t.calls (.download id) = .idle ∨ t.calls (.download id) = .validating [] ∧ t.phase id ≠ .ended
  unmade : ∀ id, t.made ≤ id → t.phase id = .ended
  assigning : ∀ caller id, t.calls caller = .assigning id → id < t.made
  started : ∀ caller id, (caller,.started id) ∈ t.outcomes → id < t.made

theorem owned_initial : Owned {} :=
  ⟨rfl,fun _ holder => by cases holder <;> simp [Holds, StartPc.holds],
    fun one _ => by cases one <;> simp [Holds, StartPc.holds],fun _ _ => by simp [StartPc.starts],fun _ => trivial,
    fun _ => .inl rfl,fun _ _ => rfl,fun _ _ assigning => by simp at assigning,by simp⟩

/-- A call with a URL that is not from a callback. -/
theorem Owned.application {t : HttpDownloader} (owned : t.Owned) {caller : DownloadCaller}
    (starts : (t.calls caller).starts = true) (id : Nat) : caller ≠ .download id := by
  rintro rfl
  rcases owned.callback id with idle | ⟨empty,-⟩
  · rw [idle] at starts
    cases starts
  · rw [empty] at starts
    cases starts

/-- There is still one at most if only one has changed, and it had it before or nobody did. -/
theorem sole_kept {α : Type} {before after : α → Prop} (changed : α) (sole : ∀ one other, before one → before other → one = other)
    (others : ∀ other, other ≠ changed → after other → before other)
    (own : after changed → before changed ∨ ∀ other, ¬ before other) :
    ∀ one other, after one → after other → one = other := by
  have only (other : α) (now : after changed) (also : after other) : other = changed := by
    by_contra ne
    rcases own now with was | none
    · exact ne (sole _ _ (others other ne also) was)
    · exact none other (others other ne also)
  intro one other first second
  by_cases same : one = changed
  · subst same
    exact (only other first second).symm
  · by_cases same' : other = changed
    · subst same'
      exact only one second first
    · exact sole _ _ (others one same first) (others other same' second)

/-- One call takes another step. -/
theorem Owned.put {t u : HttpDownloader} {caller : DownloadCaller} {pc : StartPc} (owned : t.Owned)
    (calls : u.calls = Function.update t.calls caller pc) (phase : u.phase = t.phase) (made : u.made = t.made)
    (failure : u.failure = none)
    (clear : u.downloading = false → pc.holds = false ∧ ∀ holder, holder ≠ .call caller → ¬ t.Holds holder)
    (holds : pc.holds = true → t.Holds (.call caller) ∨ ∀ holder, ¬ t.Holds holder)
    (starts : pc.starts = true → (t.calls caller).starts = true ∨ ∀ other, (t.calls other).starts = false)
    (expects : pc.Expects u.downloadThread) (thread : u.downloadThread = t.downloadThread ∨ (t.calls caller).starts = true)
    (callback : ∀ id, caller = .download id → pc = .idle ∨ pc = .validating [] ∧ t.phase id ≠ .ended)
    (assigning : ∀ id, pc = .assigning id → id < t.made)
    (started : ∀ other id, (other,.started id) ∈ u.outcomes → id < t.made) : u.Owned := by
  have own : u.calls caller = pc := by rw [calls, Function.update_self]
  have others (other : DownloadCaller) (ne : other ≠ caller) : u.calls other = t.calls other := by
    rw [calls, Function.update_of_ne ne]
  -- Whoever else holds the flag has held it before.
  have held (holder : Holder) (ne : holder ≠ .call caller) (now : u.Holds holder) : t.Holds holder := by
    cases holder with
    | call other =>
      have differs : other ≠ caller := fun same => ne (congrArg _ same)
      simpa only [Holds, others other differs] using now
    | download id => simpa only [Holds, phase] using now
  refine ⟨failure,?_,?_,?_,?_,?_,?_,?_,made ▸ started⟩
  · intro quiet holder now
    obtain ⟨left,others⟩ := clear quiet
    by_cases same : holder = .call caller
    · subst same
      simp only [Holds, own] at now
      exact absurd (left.symm.trans now) (by simp)
    · exact others holder same (held holder same now)
  · refine sole_kept (.call caller) owned.holder held ?_
    intro now
    simp only [Holds, own] at now
    exact holds now
  · refine sole_kept caller owned.starter ?_ ?_
    · intro other ne now
      rwa [others other ne] at now
    · intro now
      rw [own] at now
      refine (starts now).imp_right (fun none other starting => ?_)
      exact absurd (starting.symm.trans (none other)) (by simp)
  · intro other
    by_cases same : other = caller
    · rw [same, own]
      exact expects
    · rw [others other same]
      rcases thread with unchanged | was
      · rw [unchanged]
        exact owned.thread other
      · refine StartPc.expects_of_starts ?_ _
        by_contra starting
        exact same (owned.starter other caller (by simpa using starting) was)
  · intro id
    rw [phase]
    by_cases same : .download id = caller
    · rw [same, own]
      exact callback id same.symm
    · rw [others _ same]
      exact owned.callback id
  · rw [made, phase]
    exact owned.unmade
  · intro other id
    rw [made]
    by_cases same : other = caller
    · rw [same, own]
      exact assigning id
    · rw [others other same]
      exact owned.assigning other id

/-- A call with a URL goes on, from one step that holds the flag to another. -/
theorem Owned.advance {t : HttpDownloader} (owned : t.Owned) {caller : DownloadCaller} {before pc : StartPc}
    (here : t.calls caller = before) (held : before.holds = true ∧ before.starts = true) (holds : pc.holds = true)
    (thread : Option Nat) (cancelled : Bool) (expects : pc.Expects thread) :
    Owned { t.put caller pc with downloadThread := thread, cancelled := cancelled } := by
  have was : (t.calls caller).holds = true ∧ (t.calls caller).starts = true := here.symm ▸ held
  refine owned.put rfl rfl rfl owned.failure ?_ (fun _ => .inl was.1) (fun _ => .inl was.2) expects (.inr was.2) ?_ ?_
    owned.started
  · intro quiet
    exact absurd was.1 (owned.clear quiet (.call caller))
  · intro id same
    exact absurd same (owned.application was.2 id)
  · rintro id rfl
    cases holds

/-- A call finds the flag clear, and sets it. -/
theorem Owned.accept {t : HttpDownloader} (owned : t.Owned) {caller : DownloadCaller} {url : Bytes}
    (may : t.mayCall caller = true) (quiet : t.downloading = false) (allowed : t.Allowed (caller,.startDownload url)) :
    Owned { t.put caller (.validating url) with downloading := true } := by
  refine owned.put rfl rfl rfl owned.failure (by rintro ⟨⟩) (fun _ => .inr (owned.clear quiet)) ?_ trivial (.inl rfl) ?_
    (by simp) owned.started
  · intro starting
    right
    intro other
    have nonempty : url ≠ [] := by
      rintro rfl
      cases starting
    have unheld : (t.calls other).holds ≠ true := owned.clear quiet (.call other)
    have unassigned := (allowed nonempty quiet).2 other
    cases pc : t.calls other with
    | idle => rfl
    | assigning id => exact absurd pc (unassigned id)
    | _ => simp [pc, StartPc.holds] at unheld
  · intro id same
    subst same
    right
    by_cases empty : url = []
    · refine ⟨by rw [empty],?_⟩
      simpa [mayCall] using (Bool.and_eq_true_iff.mp may).2
    · exact absurd rfl ((allowed empty quiet).1 id)

/-- A call without a URL gives the flag back. -/
theorem Owned.reject {t : HttpDownloader} (owned : t.Owned) {caller : DownloadCaller} {url : Bytes} (e : Error)
    (here : t.calls caller = .validating url) :
    Owned ({ t.put caller .idle with downloading := false }.answer caller (.refused e)) := by
  have holds : t.Holds (.call caller) := by simp [Holds, here, StartPc.holds]
  refine owned.put rfl rfl rfl owned.failure ?_ (by rintro ⟨⟩) (by rintro ⟨⟩) trivial (.inl rfl) (fun _ _ => .inl rfl) (by simp) ?_
  · intro _
    exact ⟨rfl,fun holder ne held => ne (owned.holder _ _ held holds)⟩
  · intro other id reported
    rcases List.mem_cons.mp reported with same | before
    · cases same
    · exact owned.started other id before

/-- The thread is stored, and the call returns. -/
theorem Owned.assign {t : HttpDownloader} (owned : t.Owned) {caller : DownloadCaller} {id : Nat}
    (here : t.calls caller = .assigning id) :
    Owned ({ t.put caller .idle with downloadThread := some id }.answer caller (.started id)) := by
  refine owned.put rfl rfl rfl owned.failure ?_ (by rintro ⟨⟩) (by rintro ⟨⟩) trivial (.inr (by rw [here]; rfl))
    (fun _ _ => .inl rfl) (by simp) ?_
  · intro quiet
    exact ⟨rfl,fun holder _ => owned.clear quiet holder⟩
  · intro other started reported
    rcases List.mem_cons.mp reported with same | before
    · cases same
      exact owned.assigning caller id here
    · exact owned.started other started before

/-- A download thread begins, and holds the flag. -/
theorem Owned.spawn {t : HttpDownloader} (owned : t.Owned) {caller : DownloadCaller} (here : t.calls caller = .spawning) :
    Owned { (t.put caller (.assigning t.made)).setPhase t.made .transferring with made := t.made + 1 } := by
  let u : HttpDownloader := { (t.put caller (.assigning t.made)).setPhase t.made .transferring with made := t.made + 1 }
  have holds : t.Holds (.call caller) := by simp [Holds, here, StartPc.holds]
  have own : u.calls caller = .assigning t.made := Function.update_self ..
  have others (other : DownloadCaller) (ne : other ≠ caller) : u.calls other = t.calls other := Function.update_of_ne ne ..
  have phases (id : Nat) (ne : id ≠ t.made) : u.phase id = t.phase id := Function.update_of_ne ne ..
  have first : u.phase t.made = .transferring := Function.update_self ..
  have sole (holder : Holder) (now : u.Holds holder) : holder = .download t.made := by
    cases holder with
    | call other =>
      by_cases same : other = caller
      · subst same
        simp [Holds, own, StartPc.holds] at now
      · have before : t.Holds (.call other) := by simpa only [Holds, others other same] using now
        exact absurd (Holder.call.inj (owned.holder _ _ before holds)) same
    | download id =>
      by_cases same : id = t.made
      · rw [same]
      · have before : t.Holds (.download id) := by simpa only [Holds, phases id same] using now
        cases owned.holder _ _ before holds
  have starting : (t.calls caller).starts = true := by rw [here]; rfl
  have starter (one : DownloadCaller) (now : (u.calls one).starts = true) : one = caller := by
    by_contra ne
    rw [others one ne] at now
    exact ne (owned.starter one caller now starting)
  have busy : t.downloading = true := by
    by_contra quiet
    exact owned.clear (by simpa using quiet) _ holds
  refine ⟨owned.failure,fun quiet => ?_,fun one other now also => (sole one now).trans (sole other also).symm,?_,?_,?_,?_,?_,?_⟩
  · exact absurd (busy.symm.trans quiet) (by simp)
  · intro one other now also
    exact (starter one now).trans (starter other also).symm
  · intro other
    show (u.calls other).Expects t.downloadThread
    by_cases same : other = caller
    · have none := owned.thread caller
      rw [here] at none
      rw [same, own]
      exact none
    · rw [others other same]
      exact owned.thread other
  · intro id
    show u.calls (.download id) = .idle ∨ u.calls (.download id) = .validating [] ∧ u.phase id ≠ .ended
    rw [others _ (owned.application starting id).symm]
    refine (owned.callback id).imp_right (And.imp_right fun live => ?_)
    by_cases same : id = t.made
    · rw [same, first]
      simp
    · rwa [phases id same]
  · intro id later
    have ne : id ≠ t.made := Nat.ne_of_gt later
    exact (phases id ne).trans (owned.unmade id (Nat.le_of_succ_le later))
  · intro other id assigned
    change u.calls other = .assigning id at assigned
    by_cases same : other = caller
    · rw [same, own] at assigned
      cases assigned
      exact Nat.lt_succ_self _
    · rw [others other same] at assigned
      exact Nat.lt_succ_of_lt (owned.assigning other id assigned)
  · intro other id reported
    exact Nat.lt_succ_of_lt (owned.started other id reported)

/-- A download thread goes on to its next phase, and leaves the flag as it is or gives it back. -/
theorem Owned.leave {t : HttpDownloader} (owned : t.Owned) {id : Nat} {phase : DownloadPhase} (downloading : Bool)
    (idle : t.calls (.download id) = .idle) (live : t.phase id ≠ .ended) (next : phase ≠ .transferring)
    (clear : downloading = false → t.downloading = false ∨ t.phase id = .transferring) :
    Owned { t.setPhase id phase with downloading := downloading } := by
  let u : HttpDownloader := { t.setPhase id phase with downloading := downloading }
  have own : u.phase id = phase := Function.update_self ..
  have others (other : Nat) (ne : other ≠ id) : u.phase other = t.phase other := Function.update_of_ne ne ..
  have held (holder : Holder) (now : u.Holds holder) : t.Holds holder ∧ holder ≠ .download id := by
    cases holder with
    | call caller => exact ⟨now,by simp⟩
    | download other =>
      by_cases same : other = id
      · subst same
        exact absurd (own.symm.trans now) next
      · exact ⟨by simpa only [Holds, others other same] using now,by simpa using same⟩
  refine ⟨owned.failure,?_,?_,owned.starter,owned.thread,?_,?_,owned.assigning,owned.started⟩
  · intro quiet holder now
    obtain ⟨before,ne⟩ := held holder now
    rcases clear quiet with was | transferring
    · exact owned.clear was holder before
    · exact ne (owned.holder _ _ before transferring)
  · intro one other first second
    exact owned.holder one other (held one first).1 (held other second).1
  · intro other
    show t.calls (.download other) = .idle ∨ t.calls (.download other) = .validating [] ∧ u.phase other ≠ .ended
    by_cases same : other = id
    · rw [same]
      exact .inl idle
    · rw [others other same]
      exact owned.callback other
  · intro other later
    have ne : other ≠ id := by
      rintro rfl
      exact live (owned.unmade other later)
    exact (others other ne).trans (owned.unmade other later)

/-- The next step of a call. -/
theorem Owned.go {t u : HttpDownloader} {caller : DownloadCaller} (owned : t.Owned) (went : t.go caller = some u) : u.Owned := by
  have expects := owned.thread caller
  cases here : t.calls caller with
  | idle =>
    rw [HttpDownloader.go, here] at went
    cases went
  | validating url =>
    rw [HttpDownloader.go, here] at went
    dsimp only at went
    by_cases empty : url = []
    · rw [if_pos empty] at went
      cases went
      exact owned.reject _ here
    · rw [if_neg empty] at went
      cases went
      have held : (StartPc.validating url).holds = true ∧ (StartPc.validating url).starts = true := by
        cases url with
        | nil => exact absurd rfl empty
        | cons => exact ⟨rfl,rfl⟩
      exact owned.advance here held rfl t.downloadThread t.cancelled trivial
  | cleaning =>
    rw [HttpDownloader.go, here] at went
    cases thread : t.downloadThread with
    | none =>
      rw [thread] at went
      cases went
      exact owned.advance here ⟨rfl,rfl⟩ rfl t.downloadThread t.cancelled thread
    | some id =>
      rw [thread] at went
      cases went
      exact owned.advance here ⟨rfl,rfl⟩ rfl t.downloadThread t.cancelled thread
  | joining id =>
    rw [HttpDownloader.go, here] at went
    dsimp only at went
    rw [if_neg (owned.application (by rw [here]; rfl) id)] at went
    obtain ⟨-,⟨⟩⟩ := Option.ite_none_right_eq_some.mp went
    exact owned.advance here ⟨rfl,rfl⟩ rfl none t.cancelled rfl
  | resetting =>
    rw [HttpDownloader.go, here] at went
    rw [here] at expects
    cases went
    exact owned.advance here ⟨rfl,rfl⟩ rfl t.downloadThread false expects
  | spawning =>
    rw [HttpDownloader.go, here] at went
    cases went
    exact owned.spawn here
  | assigning id =>
    rw [HttpDownloader.go, here] at went
    rw [here] at expects
    dsimp only at went
    rw [show t.downloadThread = none from expects] at went
    cases went
    exact owned.assign here

theorem Owned.refuse {t : HttpDownloader} (owned : t.Owned) (caller : DownloadCaller) (e : Error) :
    (t.answer caller (.refused e)).Owned := by
  refine ⟨owned.failure,owned.clear,owned.holder,owned.starter,owned.thread,owned.callback,owned.unmade,owned.assigning,?_⟩
  intro other id reported
  rcases List.mem_cons.mp reported with same | before
  · cases same
  · exact owned.started other id before

theorem owned_step {t u : HttpDownloader} {move : DownloadCaller × DownloaderMove} (owned : t.Owned)
    (stepped : Guarded Allowed Step t move u) : u.Owned := by
  obtain ⟨allowed,-,stepped⟩ := stepped
  obtain ⟨caller,move⟩ := move
  cases move with
  | startDownload url =>
    obtain ⟨may,rest⟩ := Option.ite_none_right_eq_some.mp stepped
    by_cases busy : t.downloading = true
    · rw [if_pos busy] at rest
      cases rest
      exact owned.refuse caller _
    · rw [if_neg busy] at rest
      cases rest
      exact owned.accept may (by simpa using busy) allowed
  | go => exact owned.go stepped
  | cancel =>
    obtain ⟨-,⟨⟩⟩ := Option.ite_none_right_eq_some.mp stepped
    exact ⟨owned.failure,owned.clear,owned.holder,owned.starter,owned.thread,owned.callback,owned.unmade,owned.assigning,owned.started⟩
  | waitForCompletion completed =>
    obtain ⟨-,⟨⟩⟩ := Option.ite_none_right_eq_some.mp stepped
    exact owned
  | clearFlag =>
    cases caller with
    | application id => cases stepped
    | download id =>
      obtain ⟨⟨idle,transferring⟩,⟨⟩⟩ := Option.ite_none_right_eq_some.mp stepped
      exact owned.leave false idle (by rw [transferring]; simp) (by simp) (fun _ => .inr transferring)
  | finish =>
    cases caller with
    | application id => cases stepped
    | download id =>
      obtain ⟨⟨idle,completing⟩,⟨⟩⟩ := Option.ite_none_right_eq_some.mp stepped
      exact owned.leave t.downloading idle (by rw [completing]; simp) (by simp) .inl

/-- A download that is not over can take a step. -/
theorem Owned.live {t : HttpDownloader} (owned : t.Owned) {id : Nat} (live : t.phase id ≠ .ended) :
    ∃ move, (t.step (.download id) move).isSome = true ∧ (move = .go ∨ move = .clearFlag ∨ move = .finish) := by
  rcases owned.callback id with idle | ⟨empty,-⟩
  · cases phase : t.phase id with
    | transferring => exact ⟨.clearFlag,by simp [step, idle, phase],by simp⟩
    | completing => exact ⟨.finish,by simp [step, idle, phase],by simp⟩
    | ended => exact absurd phase live
  · exact ⟨.go,by simp [step, HttpDownloader.go, empty],by simp⟩

theorem Owned.retriable {t : HttpDownloader} (owned : t.Owned) : t.Retriable := by
  refine ⟨owned.failure,?_,owned.started,?_⟩
  · intro id other joining
    exact owned.application (by rw [joining]; rfl) other rfl
  · intro caller busy
    cases here : t.calls caller with
    | idle => exact absurd here busy
    | validating url =>
      left
      simp only [HttpDownloader.go, here]
      split <;> rfl
    | cleaning | assigning =>
      left
      simp only [HttpDownloader.go, here]
      split <;> rfl
    | resetting | spawning =>
      left
      simp only [HttpDownloader.go, here]
      rfl
    | joining id =>
      have other : caller ≠ .download id := owned.application (by rw [here]; rfl) id
      by_cases ended : t.phase id = .ended
      · left
        simp [HttpDownloader.go, here, other, ended]
      · obtain ⟨move,steps,moves⟩ := owned.live ended
        exact .inr ⟨id,move,rfl,steps,moves⟩

/-- In every run in which no call with a URL finds the flag clear in a callback, or while another
    has not stored its thread yet, every call starts a download or returns an error. -/
theorem retriable_run {moves : List (DownloadCaller × DownloaderMove)} {t : HttpDownloader}
    (run : Run (Guarded Allowed Step) {} moves t) : t.Retriable :=
  (run.keeps (fun _ _ _ owned stepped => owned_step owned stepped) owned_initial).retriable

/-- A download starts. -/
def starting (caller : DownloadCaller) : List (DownloadCaller × DownloaderMove) :=
  [(caller,.startDownload (lit ['h'])),(caller,.go),(caller,.go),(caller,.go),(caller,.go),(caller,.go)]

/-- `on_progress` asks for another download, and `on_complete` cancels and waits. -/
def calledBack : List (DownloadCaller × DownloaderMove) :=
  starting (.application 0) ++ [(.download 0,.startDownload (lit ['h'])),(.download 0,.clearFlag),(.download 0,.cancel),
    (.download 0,.waitForCompletion true),(.download 0,.finish)]

theorem calledBack_retriable : ∃ t : HttpDownloader, t.downloadThread = some 0 ∧ t.outcomes =
    [(.download 0,.refused ⟨.InvalidState,"Download already in progress"⟩),(.application 0,.started 0)] ∧ t.Retriable := by
  have idle : Allowed {} (.application 0,.startDownload (lit ['h'])) := by
    intro _ _
    exact ⟨by simp,by simp⟩
  have run : Run (Guarded Allowed Step) {} calledBack _ :=
    .cons ⟨idle,rfl,rfl⟩ (.cons ⟨trivial,rfl,rfl⟩ (.cons ⟨trivial,rfl,rfl⟩ (.cons ⟨trivial,rfl,rfl⟩
      (.cons ⟨trivial,rfl,rfl⟩ (.cons ⟨trivial,rfl,rfl⟩ (.cons ⟨(by rintro _ ⟨⟩),rfl,rfl⟩ (.cons ⟨trivial,rfl,rfl⟩
        (.cons ⟨trivial,rfl,rfl⟩ (.cons ⟨trivial,rfl,rfl⟩ (.cons ⟨trivial,rfl,rfl⟩ (.nil _)))))))))))
  exact ⟨_,rfl,rfl,retriable_run run⟩

/-- `on_complete` asks for another download. -/
def retried : List (DownloadCaller × DownloaderMove) :=
  starting (.application 0) ++ [(.download 0,.clearFlag),(.download 0,.startDownload (lit ['h'])),(.download 0,.go),
    (.download 0,.go),(.download 0,.go)]

/-- The download thread joins itself. -/
theorem retried_joins_itself : ∃ t : HttpDownloader, Run Step {} retried t ∧ t.failure = some .selfJoin ∧ ¬ t.Retriable :=
  ⟨_,.cons ⟨rfl,rfl⟩ (.cons ⟨rfl,rfl⟩ (.cons ⟨rfl,rfl⟩ (.cons ⟨rfl,rfl⟩ (.cons ⟨rfl,rfl⟩ (.cons ⟨rfl,rfl⟩ (.cons ⟨rfl,rfl⟩
    (.cons ⟨rfl,rfl⟩ (.cons ⟨rfl,rfl⟩ (.cons ⟨rfl,rfl⟩ (.cons ⟨rfl,rfl⟩ (.nil _))))))))))),rfl,fun retriable => retriable.joins 0 0 rfl⟩

end HttpDownloader

end Ferriot
