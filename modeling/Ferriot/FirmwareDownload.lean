import Ferriot.Firmware
import Ferriot.Runs

/-!
# The completion of a download against the write that starts it

A write of the Package URI runs on the CoAP thread: it loads the state, calls
`start_download`, and stores Downloading once the call has returned. The download
completes on its own thread, or inside `start_download`, at any moment after the
call has begun; `download_complete` loads the state and ignores a completion that
does not find Downloading. Threads interleave at the loads and stores of the
shared fields, in the order of a schedule.
-/
namespace Ferriot.FirmwareDownload
open Firmware Runs

inductive Thread where
  | writer | completer
deriving DecidableEq, Repr

/-- The next step of the write. -/
inductive WriterPc where
  | loadState | storeUri | storeResult | callStartDownload | startDownloadReturns | storeState | done
deriving DecidableEq, Repr

/-- The next step of the completion. -/
inductive CompleterPc where
  | loadState | storeDownloaded | storeIdle | storeLost | done
deriving DecidableEq, Repr

structure Config where
  object : FirmwareUpdateObject
  writer : WriterPc := .loadState
  completer : CompleterPc := .loadState
  /-- `start_download` has begun. -/
  begun : Bool := false
deriving DecidableEq, Repr

def Config.finished (c : Config) : Bool := c.writer = .done ∧ c.completer = .done

/-- A step of `write_resource` on the Package URI, whose `start_download` accepts. -/
def stepWriter (uri : Bytes) (c : Config) : Option Config :=
  match c.writer with
  | .loadState =>
    if c.object.state = .Idle then some { c with writer := .storeUri } else some { c with writer := .done }
  | .storeUri => some { c with object := { c.object with packageUri := uri }, writer := .storeResult }
  | .storeResult => some { c with object := { c.object with updateResult := .Initial }, writer := .callStartDownload }
  | .callStartDownload =>
    if c.object.callbacks.startDownload then some { c with begun := true, writer := .startDownloadReturns }
    else some { c with writer := .done }
  | .startDownloadReturns => some { c with writer := .storeState }
  | .storeState => some { c with object := { c.object with state := .Downloading }, writer := .done }
  | .done => none

/-- A step of `download_complete(success)`. -/
def stepCompleter (success : Bool) (c : Config) : Option Config :=
  match c.completer with
  | .loadState =>
    if c.begun then
      if c.object.state ≠ .Downloading then some { c with completer := .done }
      else if success then some { c with completer := .storeDownloaded }
      else some { c with completer := .storeIdle }
    else none
  | .storeDownloaded => some { c with object := { c.object with state := .Downloaded }, completer := .done }
  | .storeIdle => some { c with object := { c.object with state := .Idle }, completer := .storeLost }
  | .storeLost =>
    some { c with object := { c.object with updateResult := .ConnectionLostDuringDownload }, completer := .done }
  | .done => none

def step (uri : Bytes) (success : Bool) (c : Config) : Thread → Option Config
  | .writer => stepWriter uri c
  | .completer => stepCompleter success c

/-- An object on which a write of the Package URI starts a download. -/
structure Ready where
  object : FirmwareUpdateObject
  idle : object.state = .Idle
  hooked : object.callbacks.startDownload = true

def Ready.start (o : Ready) : Config := { object := o.object }

/-- The steps of the write, run together, are `write_resource`. -/
theorem writer_alone (o : Ready) (uri : Bytes) (success : Bool) (env : Env) (accepts : env.startDownload = {}) :
    runPartial (step uri success) o.start (List.replicate 6 .writer) =
      some ⟨(o.object.writeResource env 0 1 (.string uri)).2,.done,.loadState,true⟩ := by
  obtain ⟨object,idle,hooked⟩ := o
  simp [runPartial, step, stepWriter, Ready.start, FirmwareUpdateObject.writeResource, ResourceValue.asString,
    FirmwareUpdateObject.writePackageUri, FirmwareUpdateObject.callback, idle, hooked, accepts]

/-- The steps of the completion, run together, are `download_complete`. -/
theorem completer_alone (object : FirmwareUpdateObject) (writer : WriterPc) (uri : Bytes) (success : Bool) :
    ∃ steps, runPartial (step uri success) ⟨object,writer,.loadState,true⟩ (List.replicate steps .completer) =
      some ⟨object.downloadComplete success,writer,.done,true⟩ := by
  simp only [FirmwareUpdateObject.downloadComplete]
  by_cases downloading : object.state = .Downloading
  · cases success with
    | true => exact ⟨2,by simp [runPartial, step, stepCompleter, downloading]⟩
    | false => exact ⟨3,by simp [runPartial, step, stepCompleter, downloading]⟩
  · exact ⟨1,by simp [runPartial, step, stepCompleter, downloading]⟩

/-- A completion inside `start_download` is the one that the callback reports. -/
theorem completer_inside (o : Ready) (uri : Bytes) (success : Bool) (env : Env)
    (reports : env.startDownload = { reports := [.downloadComplete success] }) :
    runPartial (step uri success) o.start [.writer, .writer, .writer, .writer, .completer, .writer, .writer] =
      some ⟨(o.object.writeResource env 0 1 (.string uri)).2,.done,.done,true⟩ := by
  obtain ⟨object,idle,hooked⟩ := o
  simp [runPartial, step, stepWriter, stepCompleter, Ready.start, FirmwareUpdateObject.writeResource,
    ResourceValue.asString, FirmwareUpdateObject.writePackageUri, FirmwareUpdateObject.callback,
    FirmwareUpdateObject.report, FirmwareUpdateObject.downloadComplete, idle, hooked, reports]

/-- What a completion leaves behind once it has been taken. -/
def Settled (success : Bool) (object : FirmwareUpdateObject) : Prop :=
  if success then object.state = .Downloaded
  else object.state = .Idle ∧ object.updateResult = .ConnectionLostDuringDownload

/-- The completion is not lost under the schedule. -/
def Settles (o : Ready) (uri : Bytes) (success : Bool) (schedule : List Thread) : Prop :=
  ∀ c, runPartial (step uri success) o.start schedule = some c → c.finished → Settled success c.object

/-- The steps that the write makes before the completion's first. -/
def writerLead : List Thread → Nat
  | .writer :: schedule => writerLead schedule + 1
  | _ => 0

/-- The write has stored Downloading, its sixth step, when the completion loads the state. -/
def StoredFirst (schedule : List Thread) : Prop := 6 ≤ writerLead schedule

/-- The write after so many of its steps. -/
def writerAt : Nat → WriterPc
  | 0 => .loadState
  | 1 => .storeUri
  | 2 => .storeResult
  | 3 => .callStartDownload
  | 4 => .startDownloadReturns
  | 5 => .storeState
  | _ => .done

/-- The completion has not begun and the write has made `steps` steps. -/
structure Ahead (steps : Nat) (c : Config) : Prop where
  bound : steps ≤ 6
  writer : c.writer = writerAt steps
  completer : c.completer = .loadState
  begun : c.begun = decide (4 ≤ steps)
  state : c.object.state = if steps = 6 then .Downloading else .Idle
  hooked : c.object.callbacks.startDownload = true

/-- The completion came too early and was ignored. -/
structure Missed (c : Config) : Prop where
  completer : c.completer = .done
  writer : c.writer = .startDownloadReturns ∨ c.writer = .storeState ∨ c.writer = .done
  state : c.writer = .done → c.object.state = .Downloading

/-- The completion found Downloading, and nothing but its own stores follow. -/
inductive Taken (success : Bool) (c : Config) : Prop
  | downloaded (writer : c.writer = .done) (next : c.completer = .storeDownloaded) (is : success = true)
  | idle (writer : c.writer = .done) (next : c.completer = .storeIdle) (is : success = false)
  | lost (writer : c.writer = .done) (next : c.completer = .storeLost) (is : success = false)
      (state : c.object.state = .Idle)
  | settled (writer : c.writer = .done) (next : c.completer = .done) (settled : Settled success c.object)

theorem ahead_start (o : Ready) : Ahead 0 o.start :=
  ⟨by decide,rfl,rfl,rfl,o.idle,o.hooked⟩

theorem ahead_writer {uri : Bytes} {steps : Nat} {c t : Config} (ahead : Ahead steps c)
    (stepped : stepWriter uri c = some t) : Ahead (steps+1) t := by
  obtain ⟨bound,writer,completer,begun,state,hooked⟩ := ahead
  have cases : steps = 0 ∨ steps = 1 ∨ steps = 2 ∨ steps = 3 ∨ steps = 4 ∨ steps = 5 ∨ steps = 6 := by omega
  simp only [stepWriter] at stepped
  rw [writer] at stepped
  rcases cases with rfl | rfl | rfl | rfl | rfl | rfl | rfl
  · have idle : c.object.state = .Idle := state
    simp only [writerAt, idle, ↓reduceIte, Option.some.injEq] at stepped
    subst stepped
    exact ⟨by decide,rfl,completer,by simpa using begun,idle,hooked⟩
  · cases stepped
    exact ⟨by decide,rfl,completer,by simpa using begun,by simpa using state,hooked⟩
  · cases stepped
    exact ⟨by decide,rfl,completer,by simpa using begun,by simpa using state,hooked⟩
  · simp only [writerAt, hooked, ↓reduceIte, Option.some.injEq] at stepped
    subst stepped
    exact ⟨by decide,rfl,completer,rfl,by simpa using state,hooked⟩
  · cases stepped
    exact ⟨by decide,rfl,completer,by simpa using begun,by simpa using state,hooked⟩
  · cases stepped
    exact ⟨by decide,rfl,completer,by simpa using begun,rfl,hooked⟩
  · cases stepped

/-- The completion's load decides: it finds Downloading only after the write's last step. -/
theorem ahead_completer {success : Bool} {steps : Nat} {c t : Config} (ahead : Ahead steps c)
    (stepped : stepCompleter success c = some t) : (steps < 6 ∧ Missed t) ∨ (steps = 6 ∧ Taken success t) := by
  obtain ⟨bound,writer,completer,begun,state,-⟩ := ahead
  simp only [stepCompleter] at stepped
  rw [completer] at stepped
  by_cases early : 4 ≤ steps
  · simp only [begun, early, decide_true, ↓reduceIte, state] at stepped
    by_cases last : steps = 6
    · right
      subst last
      cases success with
      | true => cases stepped; exact ⟨rfl,.downloaded writer rfl rfl⟩
      | false => cases stepped; exact ⟨rfl,.idle writer rfl rfl⟩
    · left
      simp only [last, ↓reduceIte, ne_eq, reduceCtorEq, not_false_eq_true, Option.some.injEq] at stepped
      subst stepped
      have cases : steps = 4 ∨ steps = 5 := by omega
      rcases cases with rfl | rfl
      · exact ⟨by decide,rfl,.inl writer,fun done => by simp [writer,writerAt] at done⟩
      · exact ⟨by decide,rfl,.inr (.inl writer),fun done => by simp [writer,writerAt] at done⟩
  · simp [begun, early] at stepped

theorem missed_step {uri : Bytes} {success : Bool} (c : Config) (thread : Thread) (t : Config) (missed : Missed c)
    (stepped : step uri success c thread = some t) : Missed t := by
  obtain ⟨completer,writer,state⟩ := missed
  cases thread with
  | writer =>
    simp only [step, stepWriter] at stepped
    rcases writer with returns | stores | done
    · rw [returns] at stepped
      cases stepped
      exact ⟨completer,.inr (.inl rfl),fun done => by cases done⟩
    · rw [stores] at stepped
      cases stepped
      exact ⟨completer,.inr (.inr rfl),fun _ => rfl⟩
    · rw [done] at stepped
      cases stepped
  | completer =>
    simp only [step, stepCompleter] at stepped
    rw [completer] at stepped
    cases stepped

theorem taken_step {uri : Bytes} {success : Bool} (c : Config) (thread : Thread) (t : Config) (taken : Taken success c)
    (stepped : step uri success c thread = some t) : Taken success t := by
  cases thread with
  | writer =>
    simp only [step, stepWriter] at stepped
    rcases taken with ⟨writer⟩ | ⟨writer⟩ | ⟨writer⟩ | ⟨writer⟩
    all_goals
      rw [writer] at stepped
      cases stepped
  | completer =>
    simp only [step, stepCompleter] at stepped
    rcases taken with ⟨writer,next,rfl⟩ | ⟨writer,next,rfl⟩ | ⟨writer,next,rfl,state⟩ | ⟨writer,next,-⟩
    · rw [next] at stepped
      cases stepped
      exact .settled writer rfl rfl
    · rw [next] at stepped
      cases stepped
      exact .lost writer rfl rfl rfl
    · rw [next] at stepped
      cases stepped
      exact .settled writer rfl ⟨state,rfl⟩
    · rw [next] at stepped
      cases stepped

theorem missed_unsettled (success : Bool) {c : Config} (missed : Missed c) (finished : c.finished) :
    ¬ Settled success c.object := by
  have state : c.object.state = .Downloading := missed.state (by simpa [Config.finished] using (of_decide_eq_true finished).1)
  simp only [Settled]
  rw [state]
  cases success with
  | true => rintro ⟨⟩
  | false => rintro ⟨⟨⟩,-⟩

theorem taken_settled {success : Bool} {c : Config} (taken : Taken success c) (finished : c.finished) :
    Settled success c.object := by
  obtain ⟨-,done⟩ := of_decide_eq_true finished
  rcases taken with ⟨-,next,-⟩ | ⟨-,next,-⟩ | ⟨-,next,-,-⟩ | ⟨-,-,settled⟩
  · rw [next] at done; cases done
  · rw [next] at done; cases done
  · rw [next] at done; cases done
  · exact settled

/-- The run from a state in which the write leads. -/
theorem ahead_run {uri : Bytes} {success : Bool} {schedule : List Thread} {steps : Nat} {c final : Config}
    (ahead : Ahead steps c) (ran : runPartial (step uri success) c schedule = some final) (finished : final.finished) :
    Settled success final.object ↔ 6 ≤ steps + writerLead schedule := by
  induction schedule generalizing steps c with
  | nil =>
    cases ran
    have done := (of_decide_eq_true finished).2
    rw [ahead.completer] at done
    cases done
  | cons thread schedule ih =>
    obtain ⟨t,stepped,rest⟩ := Option.bind_eq_some_iff.mp ran
    cases thread with
    | writer =>
      rw [ih (ahead_writer ahead stepped) rest, writerLead]
      omega
    | completer =>
      rcases ahead_completer ahead stepped with ⟨early,missed⟩ | ⟨last,taken⟩
      · have unsettled := missed_unsettled success (runPartial_keeps missed_step rest missed) finished
        simp only [writerLead]
        exact ⟨fun settled => absurd settled unsettled,fun _ => by omega⟩
      · have settled := taken_settled (runPartial_keeps taken_step rest taken) finished
        simp only [writerLead]
        exact ⟨fun _ => by omega,fun _ => settled⟩

/-- Once both threads have finished, the completion has been taken exactly if the
    write had stored Downloading before the completion loaded the state. -/
theorem settles_iff (o : Ready) (uri : Bytes) (success : Bool) (schedule : List Thread)
    (finishes : ∃ c, runPartial (step uri success) o.start schedule = some c ∧ c.finished) :
    Settles o uri success schedule ↔ StoredFirst schedule := by
  obtain ⟨c,ran,finished⟩ := finishes
  have decided := ahead_run (ahead_start o) ran finished
  simp only [StoredFirst]
  rw [Nat.zero_add] at decided
  rw [← decided]
  constructor
  · intro settles
    exact settles c ran finished
  · intro settled c' ran' _
    rw [ran] at ran'
    cases ran'
    exact settled

/-- A fresh object whose application downloads. -/
def fresh : Ready := ⟨{ callbacks := { startDownload := true } },rfl,rfl⟩

/-- The completion of a failed download after the write has returned. -/
theorem settles_late :
    Settles fresh [] false (List.replicate 6 .writer ++ [.completer, .completer, .completer]) ↔
      StoredFirst (List.replicate 6 .writer ++ [.completer, .completer, .completer]) :=
  settles_iff fresh [] false _ ⟨_,rfl,rfl⟩

/-- A download that completes inside `start_download` leaves the object Downloading. -/
theorem completion_inside_lost :
    ¬ Settles fresh [] true [.writer, .writer, .writer, .writer, .completer, .writer, .writer] := by
  intro settles
  have settled := settles _ rfl rfl
  cases settled

end Ferriot.FirmwareDownload
