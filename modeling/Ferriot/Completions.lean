import Ferriot.DownloadThread

/-!
# What a download reports

The thread of a download calls `on_complete` once, with the flag cleared, and for a
reason that its last texts name; it is never stuck before that. A download that is
cancelled once the thread is there, and before it clears the flag, reports no success.
-/
namespace Ferriot
open Runs

/-- The thread's own steps; curl calls back as often as it likes, and `cancel` comes at any time. -/
def DownloadStep.own : DownloadStep → Bool
  | .cancel | .write .. | .progress => false
  | _ => true

/-- The own steps up to the end, at most. -/
def DownloadPc.remaining : DownloadPc → Nat
  | .openFile => 9
  | .initCurl => 8
  | .transfer => 7
  | .getInfo => 6
  | .closeFile => 5
  | .clearFlag | .closeUnused => 4
  | .handleResult | .removeUnused => 3
  | .removeFile _ | .clearUnused | .clearUnopened => 2
  | .complete _ _ => 1
  | .done => 0

namespace DownloadThread
variable (strerror : CurlCode → String)

/-- Why the thread reports what it does. -/
def Reason (t : DownloadThread) : Bool × String → Prop
  | (true,error) => t.res = some .ok ∧ t.httpCode < 400 ∧ 0 < t.downloaded ∧ error = ""
  | (false,error) =>
    t.res = none ∧ (error = "Failed to open output file: " ++ t.destPath ∨ error = "Failed to initialize curl") ∨
      t.cancelled = true ∧ error = "Download cancelled" ∨
      (∃ code, code ≠ .ok ∧ t.res = some code ∧ error = "curl error: " ++ strerror code) ∨
      400 ≤ t.httpCode ∧ error = "HTTP error: " ++ toString t.httpCode ∨
      t.downloaded ≤ 0 ∧ error = "Empty download (0 bytes)"

/-- What has been reported: once the thread is done one report, if there is a callback for it, and
    none before; with the flag cleared, and with its reason. -/
structure Reports (t : DownloadThread) : Prop where
  once : t.completions.length = if t.pc = .done ∧ t.onComplete = true then 1 else 0
  late : t.completions ≠ [] → t.downloading = false
  reason : ∀ report ∈ t.completions, t.Reason strerror report

variable {strerror}

/-- A write of curl leaves the thread in the transfer, unless it fails. -/
theorem written_cases (t : DownloadThread) (contents : Bytes) (flushed : Nat) (good : Bool) :
    let u := afterWrite contents (t.writeCallback contents flushed good)
    (u.pc = t.pc ∧ u.res = t.res ∨ u.pc = .getInfo ∧ u.res = some .writeError) ∧ u.completions = t.completions := by
  obtain ⟨pc,-,-,-,res,completions,-⟩ := writeCallback_frame t contents flushed good
  simp only [afterWrite]
  split
  · exact ⟨.inl ⟨pc,res⟩,completions⟩
  · exact ⟨.inr ⟨rfl,rfl⟩,completions⟩

/-- An own step brings the end nearer, and no other step takes it further away. -/
theorem remaining_step {t u : DownloadThread} {s : DownloadStep} (stepped : Stepped strerror t s u) :
    (if s.own then 1 else 0) + u.pc.remaining ≤ t.pc.remaining := by
  cases stepped with
  | cancel | goesOn => simp [DownloadStep.own]
  | written pc contents flushed good =>
    rcases (written_cases t contents flushed good).1 with ⟨same,-⟩ | ⟨failed,-⟩
    · simp [same, DownloadStep.own]
    · simp [failed, pc, DownloadStep.own, DownloadPc.remaining]
  | handled pc =>
    rw [pc]
    rcases handleResult_cases strerror t with ⟨error,removes⟩ | succeeds
    · simp [removes, DownloadStep.own, DownloadPc.remaining]
    · simp [succeeds, DownloadStep.own, DownloadPc.remaining]
  | opened pc | unopened pc | curl pc | noCurl pc | aborted pc | performed pc | info pc | closed pc | removedUnused pc
  | removed pc | clearedUnopened pc | closedUnused pc | clearedUnused pc | clearedFlag pc | completed pc =>
    rw [pc]
    simp [DownloadStep.own, DownloadPc.remaining]

theorem remaining_run {t u : DownloadThread} {steps : List DownloadStep} (ran : runPartial (step strerror) t steps = some u) :
    (steps.filter DownloadStep.own).length + u.pc.remaining ≤ t.pc.remaining := by
  induction steps generalizing t with
  | nil =>
    cases ran
    simp
  | cons s steps ih =>
    rw [runPartial_cons] at ran
    obtain ⟨v,stepped,rest⟩ := Option.bind_eq_some_iff.mp ran
    have first := remaining_step (step_cases strerror stepped)
    have others := ih rest
    rw [List.filter_cons]
    split
    · next own =>
      rw [if_pos own] at first
      rw [List.length_cons]
      omega
    · next other =>
      rw [if_neg other] at first
      omega

/-- Before the end, the thread can always take a step, whatever it finds outside. -/
theorem not_stuck {t : DownloadThread} (busy : t.pc ≠ .done) :
    ∃ s, DownloadStep.own s = true ∧ (step strerror t s).isSome = true := by
  cases pc : t.pc with
  | done => exact absurd pc busy
  | openFile => exact ⟨.openFile true,rfl,by simp [step, pc]⟩
  | initCurl => exact ⟨.initCurl true,rfl,by simp [step, pc]⟩
  | transfer => exact ⟨.performed .ok,rfl,by simp [step, pc]⟩
  | getInfo => exact ⟨.info 0 0,rfl,by simp [step, pc]⟩
  | closeFile => exact ⟨.close 0,rfl,by simp [step, pc]⟩
  | removeUnused | removeFile => exact ⟨.remove true,rfl,by simp [step, pc]⟩
  | clearUnopened | closeUnused | clearUnused | clearFlag | handleResult | complete =>
    exact ⟨.next,rfl,by simp [step, pc]⟩

variable (strerror) in
/-- What has been reported before the step of the thread, and what will be. -/
def ReportsAt (t : DownloadThread) : DownloadPc → Prop
  | .openFile | .clearUnopened | .initCurl | .closeUnused | .removeUnused | .clearUnused | .transfer =>
    t.completions = [] ∧ t.res = none
  | .getInfo | .closeFile | .clearFlag | .handleResult => t.completions = [] ∧ t.res ≠ none
  | .removeFile error => t.completions = [] ∧ t.Reason strerror (false,error)
  | .complete success error => t.completions = [] ∧ t.Reason strerror (success,error)
  | .done => t.completions.length = (if t.onComplete then 1 else 0) ∧ ∀ report ∈ t.completions, t.Reason strerror report

/-- Nothing that a reason rests on changes, but for `cancel`. -/
theorem Reason.frame {t u : DownloadThread} {report : Bool × String} (reason : t.Reason strerror report)
    (destPath : u.destPath = t.destPath) (res : u.res = t.res) (httpCode : u.httpCode = t.httpCode)
    (downloaded : u.downloaded = t.downloaded) (cancelled : t.cancelled = true → u.cancelled = true) :
    u.Reason strerror report := by
  obtain ⟨success,error⟩ := report
  cases success with
  | true =>
    simp only [Reason, res, httpCode, downloaded] at reason ⊢
    exact reason
  | false =>
    simp only [Reason, res, httpCode, downloaded, destPath] at reason ⊢
    rcases reason with early | ⟨stopped,text⟩ | others
    · exact .inl early
    · exact .inr (.inl ⟨cancelled stopped,text⟩)
    · exact .inr (.inr others)

theorem handleResult_reason {t : DownloadThread} (res : t.res ≠ none) :
    (∃ error, t.handleResult strerror = .removeFile error ∧ t.Reason strerror (false,error)) ∨
      t.handleResult strerror = .complete true "" ∧ t.Reason strerror (true,"") := by
  simp only [handleResult]
  split
  · next cancelled => exact .inl ⟨_,rfl,.inr (.inl ⟨cancelled,rfl⟩)⟩
  · split
    · next failed =>
      obtain ⟨code,same⟩ := Option.ne_none_iff_exists'.mp res
      refine .inl ⟨_,rfl,.inr (.inr (.inl ⟨code,?_,same,by rw [same, Option.getD_some]⟩))⟩
      rintro rfl
      exact failed same
    · next ok =>
      split
      · next code => exact .inl ⟨_,rfl,.inr (.inr (.inr (.inl ⟨code,rfl⟩)))⟩
      · next good =>
        split
        · next empty => exact .inl ⟨_,rfl,.inr (.inr (.inr (.inr ⟨empty,rfl⟩)))⟩
        · next some => exact .inr ⟨rfl,not_not.mp ok,by omega,by omega,rfl⟩

theorem reportsAt_step {t u : DownloadThread} {s : DownloadStep} (reports : t.ReportsAt strerror t.pc)
    (stepped : Stepped strerror t s u) : u.ReportsAt strerror u.pc := by
  cases stepped with
  | goesOn => exact reports
  | cancel =>
    cases pc : t.pc with
    | done =>
      rw [pc] at reports
      exact ⟨reports.1,fun report member => (reports.2 report member).frame rfl rfl rfl rfl (fun _ => rfl)⟩
    | removeFile error | complete success error =>
      rw [pc] at reports
      exact ⟨reports.1,reports.2.frame rfl rfl rfl rfl (fun _ => rfl)⟩
    | _ =>
      rw [pc] at reports
      exact reports
  | written pc contents flushed good =>
    obtain ⟨went,completions⟩ := written_cases t contents flushed good
    rw [pc] at reports
    rcases went with ⟨same,res⟩ | ⟨failed,res⟩
    · rw [same, pc]
      exact ⟨completions.trans reports.1,res.trans reports.2⟩
    · rw [failed]
      exact ⟨completions.trans reports.1,by rw [res]; simp⟩
  | opened pc | unopened pc | curl pc | noCurl pc | info pc | closed pc | removedUnused pc | closedUnused pc | clearedFlag pc =>
    rw [pc] at reports
    exact reports
  | aborted pc | performed pc =>
    rw [pc] at reports
    exact ⟨reports.1,by simp⟩
  | removed pc =>
    rw [pc] at reports
    exact ⟨reports.1,reports.2.frame rfl rfl rfl rfl id⟩
  | clearedUnopened pc =>
    rw [pc] at reports
    exact ⟨reports.1,.inl ⟨reports.2,.inl rfl⟩⟩
  | clearedUnused pc =>
    rw [pc] at reports
    exact ⟨reports.1,.inl ⟨reports.2,.inr rfl⟩⟩
  | handled pc =>
    rw [pc] at reports
    rcases handleResult_reason reports.2 with ⟨error,removes,reason⟩ | ⟨succeeds,reason⟩
    · rw [removes]
      exact ⟨reports.1,reason.frame rfl rfl rfl rfl id⟩
    · rw [succeeds]
      exact ⟨reports.1,reason.frame rfl rfl rfl rfl id⟩
  | @completed success error pc =>
    rw [pc] at reports
    obtain ⟨none,reason⟩ := reports
    refine ⟨?_,?_⟩
    · rw [none]
      cases t.onComplete <;> rfl
    · intro report member
      have said : report = (success,error) := by
        rw [none] at member
        split at member
        · exact List.mem_singleton.mp member
        · cases member
      rw [said]
      exact reason.frame rfl rfl rfl rfl id

theorem Started.reportsAt {t : DownloadThread} (started : t.Started) : t.ReportsAt strerror t.pc := by
  rw [started.pc]
  exact ⟨started.completions,started.res⟩

theorem reports_of {t : DownloadThread} (sound : t.Sound) (at_pc : t.ReportsAt strerror t.pc) : t.Reports strerror := by
  cases pc : t.pc with
  | done =>
    have downloading := sound.downloading
    rw [pc] at at_pc downloading
    refine ⟨?_,fun _ => downloading,at_pc.2⟩
    rw [at_pc.1, pc]
    simp
  | _ =>
    rw [pc] at at_pc
    have none : t.completions = [] := at_pc.1
    refine ⟨?_,fun some => absurd none some,by simp [none]⟩
    rw [none, pc]
    simp

variable (strerror) in
/-- The thread is where it should be, and has reported what it should. -/
structure Told (t : DownloadThread) : Prop where
  sound : t.Sound
  reports : t.ReportsAt strerror t.pc

theorem told_step {t u : DownloadThread} {s : DownloadStep} (told : t.Told strerror) (stepped : step strerror t s = some u) :
    u.Told strerror :=
  ⟨sound_step strerror told.sound (step_cases strerror stepped),reportsAt_step told.reports (step_cases strerror stepped)⟩

theorem Started.told {t u : DownloadThread} (started : t.Started) {steps : List DownloadStep}
    (ran : runPartial (step strerror) t steps = some u) : u.Told strerror :=
  runPartial_keeps (fun _ _ _ told stepped => told_step told stepped) ran ⟨started.sound,started.reportsAt⟩

/-- In every run of the thread `on_complete` is called once, when the thread is done and not before, with
    the flag cleared and for a reason that holds; the thread takes nine own steps at most, and is never
    stuck before the end. -/
theorem reports_run {t u : DownloadThread} (started : t.Started) {steps : List DownloadStep}
    (ran : runPartial (step strerror) t steps = some u) :
    u.Reports strerror ∧ (steps.filter DownloadStep.own).length + u.pc.remaining ≤ 9 ∧
      (u.pc ≠ .done → ∃ s, DownloadStep.own s = true ∧ (step strerror u s).isSome = true) := by
  have told := started.told ran
  have far := remaining_run ran
  rw [started.pc] at far
  exact ⟨reports_of told.sound told.reports,far,not_stuck⟩

/-- The download of two bytes reports its success. -/
theorem reports_run_whole : ∃ u, runPartial (step fun _ => "") {} wholeRun = some u ∧ u.Reports (fun _ => "") ∧
    (wholeRun.filter DownloadStep.own).length + u.pc.remaining ≤ 9 ∧
      (u.pc ≠ .done → ∃ s, DownloadStep.own s = true ∧ (step (fun _ => "") u s).isSome = true) :=
  ⟨_,rfl,reports_run started_default rfl⟩

/-! ### Cancelling -/

/-- A report that is no success, and says that the download was cancelled if there was a transfer. -/
def Stopped (t : DownloadThread) (report : Bool × String) : Prop :=
  report.1 = false ∧ (t.res ≠ none → report.2 = "Download cancelled")

/-- What a thread has before it that is cancelled in time. -/
def StoppedAt (t : DownloadThread) : DownloadPc → Prop
  | .removeFile error => t.Stopped (false,error)
  | .complete success error => t.Stopped (success,error)
  | .done => ∀ report ∈ t.completions, t.Stopped report
  | _ => True

theorem stoppedAt_step {t u : DownloadThread} {s : DownloadStep} (told : t.ReportsAt strerror t.pc)
    (cancelled : t.cancelled = true) (stopped : t.StoppedAt t.pc) (stepped : Stepped strerror t s u) :
    u.cancelled = true ∧ u.StoppedAt u.pc := by
  cases stepped with
  | goesOn => exact ⟨cancelled,stopped⟩
  | cancel =>
    refine ⟨rfl,?_⟩
    cases pc : t.pc <;> rw [pc] at stopped <;> exact stopped
  | written pc contents flushed good =>
    have went := (written_cases t contents flushed good).1
    refine ⟨?_,?_⟩
    · simp only [afterWrite, writeCallback]
      split_ifs <;> exact cancelled
    · rcases went with ⟨same,-⟩ | ⟨failed,-⟩
      · rw [same, pc]
        trivial
      · rw [failed]
        trivial
  | opened pc | unopened pc | curl pc | noCurl pc | aborted pc | performed pc | info pc | closed pc | removedUnused pc
  | closedUnused pc | clearedFlag pc => exact ⟨cancelled,trivial⟩
  | removed pc =>
    rw [pc] at stopped
    exact ⟨cancelled,stopped⟩
  | clearedUnopened pc | clearedUnused pc =>
    rw [pc] at told
    exact ⟨cancelled,rfl,fun transfer => absurd told.2 transfer⟩
  | handled pc =>
    have removes : t.handleResult strerror = .removeFile "Download cancelled" := by
      simp only [handleResult]
      rw [if_pos cancelled]
    rw [removes]
    exact ⟨cancelled,rfl,fun _ => rfl⟩
  | @completed success error pc =>
    rw [pc] at stopped told
    refine ⟨cancelled,?_⟩
    intro report member
    have said : report = (success,error) := by
      rw [told.1] at member
      split at member
      · exact List.mem_singleton.mp member
      · cases member
    rw [said]
    exact stopped

/-- A download that is cancelled once its thread is there (`start_download` has reset `cancelled_` by
    then) and before the thread clears the flag reports no success, whatever curl answers and whatever
    comes in between and after. -/
theorem cancelled_run {t u w : DownloadThread} (started : t.Started) {before after : List DownloadStep}
    (ran : runPartial (step strerror) t before = some u) (busy : u.downloading = true)
    (went : runPartial (step strerror) u (.cancel :: after) = some w) : ∀ report ∈ w.completions, w.Stopped report := by
  have told := started.told ran
  obtain ⟨v,stepped,rest⟩ := Option.bind_eq_some_iff.mp (runPartial_cons (step strerror) u .cancel after ▸ went)
  obtain rfl : { u with cancelled := true } = v := Option.some.inj stepped
  have early : StoppedAt { u with cancelled := true } u.pc := by
    have uncleared : cleared u.pc = false := by simpa [busy] using told.sound.downloading
    cases pc : u.pc <;> first | trivial | (rw [pc] at uncleared; cases uncleared)
  have keep (v : DownloadThread) (s : DownloadStep) (w : DownloadThread)
      (inv : v.Told strerror ∧ v.cancelled = true ∧ v.StoppedAt v.pc) (stepped : step strerror v s = some w) :
      w.Told strerror ∧ w.cancelled = true ∧ w.StoppedAt w.pc :=
    ⟨told_step inv.1 stepped,stoppedAt_step inv.1.reports inv.2.1 inv.2.2 (step_cases strerror stepped)⟩
  obtain ⟨told,-,stopped⟩ := runPartial_keeps keep rest ⟨told_step told stepped,rfl,early⟩
  have reports := told.reports
  cases pc : w.pc with
  | done =>
    rw [pc] at stopped
    exact stopped
  | _ =>
    rw [pc] at reports
    have none : w.completions = [] := reports.1
    simp [none]

def startedRun : List DownloadStep := [.openFile true,.initCurl true,.write [1,2] 0 true]

/-- A cancelled transfer that curl has ended well all the same. -/
def cancelledRun : List DownloadStep := [.performed .ok,.info 200 2,.close 2,.next,.next,.remove true,.next]

theorem cancelled_run_late : ∃ u w : DownloadThread, runPartial (step fun _ => "") {} startedRun = some u ∧
    runPartial (step fun _ => "") u (.cancel :: cancelledRun) = some w ∧ w.completions = [(false,"Download cancelled")] ∧
      ∀ report ∈ w.completions, w.Stopped report :=
  ⟨_,_,rfl,rfl,rfl,cancelled_run started_default (show runPartial (step fun _ => "") {} startedRun = some _ from rfl) rfl
    (show runPartial (step fun _ => "") _ (.cancel :: cancelledRun) = some _ from rfl)⟩

end DownloadThread

end Ferriot
