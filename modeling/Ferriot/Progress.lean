import Ferriot.Completions

/-!
# The progress of a download

What `progress_callback` makes of the counters of curl: the progress that `progress()`
shows, and the calls of `on_progress`. The machine is the download thread with the
context of the callback beside it.
-/
namespace Ferriot
open Runs

/-- The arithmetic on speeds, which are doubles. -/
structure SpeedArithmetic (Speed : Type) where
  zero : Speed
  /-- From the bytes now and those of the last measurement, and the milliseconds in between. -/
  rate : Int64 → UInt64 → Int → Speed
  /-- The moving average of a new speed and the last one. -/
  smooth : Speed → Speed → Speed
  positive : Speed → Bool

structure DownloadProgress (Speed : Type) where
  bytesDownloaded : UInt64 := 0
  totalBytes : UInt64 := 0
  speedMbps : Speed
  startTime : Int
deriving DecidableEq, Repr

/-- `percent`, with the product and the cast as they wrap. -/
def DownloadProgress.percent {Speed : Type} (progress : DownloadProgress Speed) : UInt8 :=
  if progress.totalBytes = 0 then 0 else (progress.bytesDownloaded * 100 / progress.totalBytes).toUInt8

/-- The download thread with its context. -/
structure Progressing (Speed : Type) where
  thread : DownloadThread := {}
  /-- `on_progress` is no null pointer. -/
  onProgress : Bool := true
  lastProgressTime : Int := 0
  lastBytes : UInt64 := 0
  lastSpeed : Speed
  currentProgress : DownloadProgress Speed
  /-- The calls of `on_progress`, latest first. -/
  reported : List (DownloadProgress Speed) := []

/-- A step of the thread; `progress_callback` is called with counters, at some time. -/
inductive ProgressStep where
  | progress (dltotal dlnow : Int64) (now : Int)
  | other (s : DownloadStep)

def ProgressStep.plain : ProgressStep → DownloadStep
  | .progress _ _ _ => .progress
  | .other s => s

namespace Progressing
variable {Speed : Type} (arithmetic : SpeedArithmetic Speed) (strerror : CurlCode → String)

/-- The speed measured anew, if enough time has passed and there are more bytes. -/
def measure (dlnow : Int64) (now : Int) (p : Progressing Speed) : Progressing Speed :=
  let elapsed := (now - p.lastProgressTime).tdiv 1000000
  if 250 ≤ elapsed ∧ p.lastBytes.toInt64 < dlnow then
    let rate := arithmetic.rate dlnow p.lastBytes elapsed
    { p with
      lastSpeed := if arithmetic.positive p.lastSpeed then arithmetic.smooth rate p.lastSpeed else rate
      lastBytes := dlnow.toUInt64
      lastProgressTime := now }
  else p

/-- `progress_callback` -/
def progressCallback (dltotal dlnow : Int64) (now : Int) (p : Progressing Speed) : Nat × Progressing Speed :=
  if p.thread.cancelled then (1,p)
  else
    let p := p.measure arithmetic dlnow now
    let progress : DownloadProgress Speed := ⟨dlnow.toUInt64,dltotal.toUInt64,p.lastSpeed,p.currentProgress.startTime⟩
    let p := { p with currentProgress := progress }
    (0,if p.onProgress ∧ 0 < dltotal then { p with reported := progress :: p.reported } else p)

def step (p : Progressing Speed) : ProgressStep → Option (Progressing Speed)
  | .progress dltotal dlnow now =>
    (p.thread.step strerror .progress).map (fun t => { (p.progressCallback arithmetic dltotal dlnow now).2 with thread := t })
  | .other s => if s = .progress then none else (p.thread.step strerror s).map (fun t => { p with thread := t })

/-- As `start_download` makes it. -/
structure Started (p : Progressing Speed) : Prop where
  thread : p.thread.Started
  bytes : p.lastBytes = 0
  speed : p.lastSpeed = arithmetic.zero ∧ p.currentProgress.speedMbps = arithmetic.zero
  progress : p.currentProgress.bytesDownloaded = 0 ∧ p.currentProgress.totalBytes = 0
  reported : p.reported = []

/-- The counters that are taken in: those that curl reports before a `cancel`. -/
def heard : List ProgressStep → List (Int64 × Int64)
  | [] => []
  | .progress dltotal dlnow _ :: steps => (dltotal,dlnow) :: heard steps
  | .other s :: steps => if s = .cancel then [] else heard steps

/-- What a progress shows of the counters. -/
def shown (progress : DownloadProgress Speed) : UInt64 × UInt64 := (progress.totalBytes,progress.bytesDownloaded)

def unsigned (counters : Int64 × Int64) : UInt64 × UInt64 := (counters.1.toUInt64,counters.2.toUInt64)

/-- curl is answered what the thread answers. -/
theorem progressCallback_answer (dltotal dlnow : Int64) (now : Int) (p : Progressing Speed) :
    (p.progressCallback arithmetic dltotal dlnow now).1 = p.thread.progressCallback := by
  simp only [progressCallback, DownloadThread.progressCallback]
  split_ifs <;> rfl

theorem step_thread {p q : Progressing Speed} {l : ProgressStep} (stepped : p.step arithmetic strerror l = some q) :
    p.thread.step strerror l.plain = some q.thread := by
  cases l with
  | progress dltotal dlnow now =>
    obtain ⟨t,went,rfl⟩ := Option.map_eq_some_iff.mp stepped
    exact went
  | other s =>
    obtain ⟨-,stepped⟩ := Option.ite_none_left_eq_some.mp stepped
    obtain ⟨t,went,rfl⟩ := Option.map_eq_some_iff.mp stepped
    exact went

/-- A run of the machine is a run of the thread. -/
theorem run_thread {p q : Progressing Speed} {steps : List ProgressStep}
    (ran : runPartial (step arithmetic strerror) p steps = some q) :
    runPartial (DownloadThread.step strerror) p.thread (steps.map ProgressStep.plain) = some q.thread := by
  induction steps generalizing p with
  | nil =>
    cases ran
    rfl
  | cons l steps ih =>
    obtain ⟨r,stepped,rest⟩ := Option.bind_eq_some_iff.mp (runPartial_cons _ p l steps ▸ ran)
    rw [List.map_cons, runPartial_cons, step_thread arithmetic strerror stepped]
    exact ih rest

variable {arithmetic strerror}

/-- Nothing but `cancel` cancels, and nothing undoes it. -/
theorem cancelled_step {t u : DownloadThread} {s : DownloadStep} (stepped : t.step strerror s = some u) :
    u.cancelled = (t.cancelled || decide (s = .cancel)) := by
  cases DownloadThread.step_cases strerror stepped with
  | cancel => simp
  | written pc contents flushed good =>
    simp only [DownloadThread.afterWrite, DownloadThread.writeCallback]
    split_ifs <;> simp
  | _ => simp [DownloadThread.removeFile]

/-- All that others see of the progress. -/
def told (p : Progressing Speed) : DownloadProgress Speed × List (DownloadProgress Speed) := (p.currentProgress,p.reported)

/-- What a call of the callback tells, unless the download is cancelled. -/
theorem told_progress (arithmetic : SpeedArithmetic Speed) {p : Progressing Speed} (going : p.thread.cancelled = false)
    (dltotal dlnow : Int64) (now : Int) :
    let q := (p.progressCallback arithmetic dltotal dlnow now).2
    shown q.currentProgress = unsigned (dltotal,dlnow) ∧ q.onProgress = p.onProgress ∧
      q.currentProgress.startTime = p.currentProgress.startTime ∧
      q.reported = if p.onProgress ∧ 0 < dltotal then q.currentProgress :: p.reported else p.reported := by
  have kept : (p.measure arithmetic dlnow now).onProgress = p.onProgress ∧
      (p.measure arithmetic dlnow now).currentProgress = p.currentProgress ∧ (p.measure arithmetic dlnow now).reported = p.reported := by
    simp only [measure]
    split_ifs <;> exact ⟨rfl,rfl,rfl⟩
  simp only [progressCallback, going, Bool.false_eq_true, ↓reduceIte]
  generalize p.measure arithmetic dlnow now = r at kept ⊢
  obtain ⟨onProgress,current,reported⟩ := kept
  rw [onProgress, reported, current]
  split_ifs <;> exact ⟨rfl,rfl,rfl,rfl⟩

/-- Once the download is cancelled or the transfer is over, nothing more is told. -/
theorem silent_run {p q : Progressing Speed} {steps : List ProgressStep}
    (past : p.thread.cancelled = true ∨ p.thread.pc.remaining < DownloadPc.transfer.remaining)
    (ran : runPartial (step arithmetic strerror) p steps = some q) : q.told = p.told := by
  induction steps generalizing p with
  | nil =>
    cases ran
    rfl
  | cons l steps ih =>
    obtain ⟨r,stepped,rest⟩ := Option.bind_eq_some_iff.mp (runPartial_cons _ p l steps ▸ ran)
    have went := step_thread arithmetic strerror stepped
    have pastNext : r.thread.cancelled = true ∨ r.thread.pc.remaining < DownloadPc.transfer.remaining := by
      rcases past with cancelled | ended
      · left
        rw [cancelled_step went, cancelled, Bool.true_or]
      · right
        have nearer := DownloadThread.remaining_step (DownloadThread.step_cases strerror went)
        omega
    rw [ih pastNext rest]
    cases l with
    | progress dltotal dlnow now =>
      obtain ⟨t,went,rfl⟩ := Option.map_eq_some_iff.mp stepped
      rcases past with cancelled | ended
      · simp [told, progressCallback, cancelled]
      · obtain ⟨pc,-⟩ := Option.ite_none_right_eq_some.mp went
        rw [pc] at ended
        exact absurd ended (Nat.lt_irrefl _)
    | other s =>
      obtain ⟨-,went⟩ := Option.ite_none_left_eq_some.mp stepped
      obtain ⟨t,-,rfl⟩ := Option.map_eq_some_iff.mp went
      rfl

/-- The counters that `on_progress` is called with. -/
def announced (counters : List (Int64 × Int64)) : List (UInt64 × UInt64) :=
  (counters.filter (fun c => 0 < c.1)).map unsigned

/-- Of a run: what was shown before, and then what curl reports. -/
theorem heard_run {p q : Progressing Speed} {steps : List ProgressStep} (going : p.thread.cancelled = false)
    (ran : runPartial (step arithmetic strerror) p steps = some q) :
    shown q.currentProgress = ((heard steps).getLast?.map unsigned).getD (shown p.currentProgress) ∧
      q.currentProgress.startTime = p.currentProgress.startTime ∧
      q.reported.reverse.map shown =
        p.reported.reverse.map shown ++ if p.onProgress then announced (heard steps) else [] := by
  induction steps generalizing p with
  | nil =>
    cases ran
    simp [heard, announced]
  | cons l steps ih =>
    obtain ⟨r,stepped,rest⟩ := Option.bind_eq_some_iff.mp (runPartial_cons _ p l steps ▸ ran)
    have went := cancelled_step (step_thread arithmetic strerror stepped)
    rw [going, Bool.false_or] at went
    cases l with
    | progress dltotal dlnow now =>
      obtain ⟨t,-,rfl⟩ := Option.map_eq_some_iff.mp stepped
      obtain ⟨current,onProgress,start,reported⟩ := told_progress arithmetic going dltotal dlnow now
      obtain ⟨shows,started,calls⟩ := ih went rest
      have onProgress : (p.progressCallback arithmetic dltotal dlnow now).2.onProgress = p.onProgress := onProgress
      refine ⟨?_,started.trans start,?_⟩
      · rw [shows, heard, List.getLast?_cons]
        cases (heard steps).getLast? with
        | none => exact current
        | some last => rfl
      · rw [calls, onProgress, reported, heard, announced]
        cases called : p.onProgress with
        | false => simp
        | true =>
          by_cases known : 0 < dltotal
          · simp [known, current, announced]
          · simp [known, announced]
    | other s =>
      obtain ⟨-,stepped⟩ := Option.ite_none_left_eq_some.mp stepped
      obtain ⟨t,-,rfl⟩ := Option.map_eq_some_iff.mp stepped
      by_cases cancels : s = .cancel
      · subst cancels
        obtain ⟨current,reported⟩ := Prod.mk.inj (silent_run (.inl went) rest)
        rw [current, reported]
        simp [heard, announced]
      · have still : t.cancelled = false := by simpa [ProgressStep.plain, cancels] using went
        simpa only [heard, if_neg cancels] using ih still rest

/-- In every run of a download, `progress()` shows what curl has reported last before a `cancel`, and
    `on_progress` has been called with all of it, in order, where the total is known; once
    `on_complete` has been called, nothing more is told. -/
theorem told_run {p q : Progressing Speed} (started : p.Started arithmetic) {steps : List ProgressStep}
    (ran : runPartial (step arithmetic strerror) p steps = some q) :
    (shown q.currentProgress = ((heard steps).getLast?.map unsigned).getD (0,0) ∧
      q.currentProgress.startTime = p.currentProgress.startTime) ∧
    q.reported.reverse.map shown = (if p.onProgress then announced (heard steps) else []) ∧
    (q.thread.completions ≠ [] → ∀ more r, runPartial (step arithmetic strerror) q more = some r → r.told = q.told) := by
  obtain ⟨current,start,reported⟩ := heard_run started.thread.cancelled ran
  have none : shown p.currentProgress = (0,0) := Prod.ext started.progress.2 started.progress.1
  refine ⟨⟨by rw [current, none],start⟩,by simpa [started.reported] using reported,?_⟩
  intro completed more r went
  have reports := (started.thread.told (run_thread arithmetic strerror ran)).reports
  have done : q.thread.pc = .done := by
    cases pc : q.thread.pc with
    | done => rfl
    | _ =>
      rw [pc] at reports
      exact absurd reports.1 completed
  refine silent_run (.inr ?_) went
  rw [done]
  decide

/-- The speed stays as it is, or is measured anew: a quarter of a second later at the earliest, and
    over more bytes. -/
def Measured (p q : Progressing Speed) : Prop :=
  (q.lastSpeed = p.lastSpeed ∧ q.lastBytes = p.lastBytes ∧ q.lastProgressTime = p.lastProgressTime) ∨
    p.lastProgressTime + 250000000 ≤ q.lastProgressTime ∧ p.lastBytes.toInt64 < q.lastBytes.toInt64

theorem Measured.trans {p q r : Progressing Speed} (first : Measured p q) (second : Measured q r) : Measured p r := by
  rcases first with ⟨speed,bytes,time⟩ | ⟨later,more⟩
  · simpa only [Measured, speed, bytes, time] using second
  · rcases second with ⟨-,bytes,time⟩ | ⟨laterStill,moreStill⟩
    · right
      rw [bytes, time]
      exact ⟨later,more⟩
    · exact .inr ⟨by omega,Int64.lt_trans more moreStill⟩

theorem measured_measure (arithmetic : SpeedArithmetic Speed) (dlnow : Int64) (now : Int) (p : Progressing Speed) :
    Measured p (p.measure arithmetic dlnow now) := by
  simp only [measure]
  by_cases enough : 250 ≤ (now - p.lastProgressTime).tdiv 1000000 ∧ p.lastBytes.toInt64 < dlnow
  · rw [if_pos enough]
    obtain ⟨elapsed,more⟩ := enough
    refine .inr ⟨?_,by simpa using more⟩
    show p.lastProgressTime + 250000000 ≤ now
    rcases Int.le_total 0 (now - p.lastProgressTime) with forward | backward
    · rw [Int.tdiv_eq_ediv_of_nonneg forward] at elapsed
      omega
    · have ahead := Int.tdiv_nonneg (show 0 ≤ -(now - p.lastProgressTime) by omega) (show (0 : Int) ≤ 1000000 by decide)
      rw [Int.neg_tdiv] at ahead
      omega
  · rw [if_neg enough]
    exact .inl ⟨rfl,rfl,rfl⟩

theorem measured_step {p q : Progressing Speed} {l : ProgressStep} (stepped : p.step arithmetic strerror l = some q) :
    Measured p q := by
  cases l with
  | progress dltotal dlnow now =>
    obtain ⟨t,-,rfl⟩ := Option.map_eq_some_iff.mp stepped
    have measured := measured_measure arithmetic dlnow now p
    simp only [progressCallback]
    split_ifs
    · exact .inl ⟨rfl,rfl,rfl⟩
    · exact measured
    · exact measured
  | other s =>
    obtain ⟨-,stepped⟩ := Option.ite_none_left_eq_some.mp stepped
    obtain ⟨t,-,rfl⟩ := Option.map_eq_some_iff.mp stepped
    exact .inl ⟨rfl,rfl,rfl⟩

theorem measured_run {p q : Progressing Speed} {steps : List ProgressStep}
    (ran : runPartial (step arithmetic strerror) p steps = some q) : Measured p q :=
  runPartial_keeps (fun _ _ _ measured stepped => measured.trans (measured_step stepped)) ran (.inl ⟨rfl,rfl,rfl⟩)

/-! ### Percentages -/

/-- Counters that stay within the total, and whose hundredfold does not wrap. -/
structure Honest (counters : Int64 × Int64) : Prop where
  nonneg : 0 ≤ counters.2
  within : counters.2 ≤ counters.1
  small : counters.2.toNatClampNeg * 100 < 18446744073709551616

/-- The percentage of counters. -/
def percentOf (counters : UInt64 × UInt64) : UInt8 :=
  if counters.1 = 0 then 0 else (counters.2 * 100 / counters.1).toUInt8

theorem percent_shown (progress : DownloadProgress Speed) : progress.percent = percentOf (shown progress) := rfl

theorem percentOf_exact {counters : Int64 × Int64} (honest : Honest counters) (known : 0 < counters.1) :
    (unsigned counters).2.toNat ≤ (unsigned counters).1.toNat ∧ 0 < (unsigned counters).1.toNat ∧
      (percentOf (unsigned counters)).toNat = (unsigned counters).2.toNat * 100 / (unsigned counters).1.toNat := by
  obtain ⟨total,now⟩ := counters
  obtain ⟨nonneg,within,small⟩ := honest
  have le : now.toUInt64.toNat ≤ total.toUInt64.toNat := UInt64.le_iff_toNat_le.mp (Int64.toUInt64_le nonneg within)
  have bytes : now.toUInt64.toNat = now.toNatClampNeg := Int64.toNat_toUInt64_of_le nonneg
  have positive : 0 < total.toUInt64.toNat := by
    rw [Int64.toNat_toUInt64_of_le (Int64.le_of_lt known), Nat.pos_iff_ne_zero]
    intro zero
    exact absurd known (Int64.not_lt.mpr (Int64.toNatClampNeg_eq_zero_iff.mp zero))
  refine ⟨le,positive,?_⟩
  have some : total.toUInt64 ≠ 0 := by
    intro zero
    rw [zero] at positive
    exact absurd positive (by decide)
  have product : (now.toUInt64 * 100).toNat = now.toUInt64.toNat * 100 := by
    rw [UInt64.toNat_mul]
    exact Nat.mod_eq_of_lt (by rw [bytes]; exact small)
  have hundred : now.toUInt64.toNat * 100 / total.toUInt64.toNat ≤ 100 :=
    Nat.div_le_of_le_mul (by omega)
  show (percentOf (total.toUInt64,now.toUInt64)).toNat = _
  rw [percentOf, if_neg some, UInt64.toNat_toUInt8, UInt64.toNat_div, product]
  exact Nat.mod_eq_of_lt (Nat.lt_of_le_of_lt hundred (by decide))

theorem percentOf_mono {a b : Int64 × Int64} (first : Honest a) (second : Honest b) (known : 0 < a.1) (same : a.1 = b.1)
    (more : a.2 ≤ b.2) : percentOf (unsigned a) ≤ percentOf (unsigned b) := by
  have le : (unsigned a).2.toNat ≤ (unsigned b).2.toNat := UInt64.le_iff_toNat_le.mp (Int64.toUInt64_le first.nonneg more)
  have total : (unsigned a).1 = (unsigned b).1 := congrArg Int64.toUInt64 same
  rw [UInt8.le_iff_toNat_le, (percentOf_exact first known).2.2, (percentOf_exact second (same ▸ known)).2.2, total]
  exact Nat.div_le_div_right (by omega)

/-- A percentage as it should be. -/
structure Exact (progress : DownloadProgress Speed) : Prop where
  floor : progress.percent.toNat = progress.bytesDownloaded.toNat * 100 / progress.totalBytes.toNat
  bounded : progress.percent.toNat ≤ 100
  full : progress.percent.toNat = 100 ↔ progress.bytesDownloaded = progress.totalBytes

theorem exact_shown {progress : DownloadProgress Speed} {counters : Int64 × Int64} (honest : Honest counters)
    (known : 0 < counters.1) (shows : shown progress = unsigned counters) : Exact progress := by
  obtain ⟨le,positive,floor⟩ := percentOf_exact honest known
  rw [← shows] at le positive floor
  have le : progress.bytesDownloaded.toNat ≤ progress.totalBytes.toNat := le
  have positive : 0 < progress.totalBytes.toNat := positive
  have floor : progress.percent.toNat = progress.bytesDownloaded.toNat * 100 / progress.totalBytes.toNat := by
    rw [percent_shown]
    exact floor
  refine ⟨floor,?_,?_⟩
  · rw [floor]
    exact Nat.div_le_of_le_mul (by omega)
  · rw [floor, ← UInt64.toNat_inj]
    constructor
    · intro hundred
      have enough := Nat.div_mul_le_self (progress.bytesDownloaded.toNat * 100) progress.totalBytes.toNat
      rw [hundred] at enough
      omega
    · intro whole
      rw [whole, Nat.mul_div_cancel_left 100 positive]

/-- While the counters of curl stay within an unchanged total and do not shrink, the percentages that
    `on_progress` is called with are exact, never above a hundred, a hundred only at the end, and
    never go back. -/
theorem percents_run {p q : Progressing Speed} (started : p.Started arithmetic) {steps : List ProgressStep}
    (ran : runPartial (step arithmetic strerror) p steps = some q) (honest : ∀ c ∈ heard steps, 0 < c.1 → Honest c)
    (grows : (heard steps).Pairwise (fun a b => 0 < a.1 → 0 < b.1 → a.1 = b.1 ∧ a.2 ≤ b.2)) :
    (∀ progress ∈ q.reported, Exact progress) ∧ (q.reported.reverse.map DownloadProgress.percent).Pairwise (· ≤ ·) := by
  obtain ⟨-,-,reported⟩ := heard_run started.thread.cancelled ran
  rw [started.reported, List.reverse_nil, List.map_nil, List.nil_append] at reported
  cases called : p.onProgress with
  | false =>
    obtain none : q.reported = [] := by simpa [called] using reported
    simp [none]
  | true =>
    rw [if_pos called] at reported
    constructor
    · intro progress member
      have shows : shown progress ∈ announced (heard steps) := by
        rw [← reported]
        exact List.mem_map_of_mem (List.mem_reverse.mpr member)
      obtain ⟨counters,among,same⟩ := List.mem_map.mp shows
      obtain ⟨there,known⟩ := List.mem_filter.mp among
      have known : 0 < counters.1 := of_decide_eq_true known
      exact exact_shown (honest counters there known) known same.symm
    · have percents : q.reported.reverse.map DownloadProgress.percent = (announced (heard steps)).map percentOf := by
        rw [← reported, List.map_map]
        exact List.map_congr_left (fun progress _ => percent_shown progress)
      rw [percents, announced, List.map_map, List.pairwise_map]
      refine (grows.sublist List.filter_sublist).imp_of_mem ?_
      intro a b first second grown
      obtain ⟨firstThere,firstKnown⟩ := List.mem_filter.mp first
      obtain ⟨secondThere,secondKnown⟩ := List.mem_filter.mp second
      have firstKnown : 0 < a.1 := of_decide_eq_true firstKnown
      have secondKnown : 0 < b.1 := of_decide_eq_true secondKnown
      obtain ⟨same,more⟩ := grown firstKnown secondKnown
      exact percentOf_mono (honest a firstThere firstKnown) (honest b secondThere secondKnown) firstKnown same more

/-- Speeds in whole megabytes a second. -/
def wholeMegabytes : SpeedArithmetic Int where
  zero := 0
  rate now last elapsed := (now.toInt - last.toNat) * 1000 / elapsed / 1048576
  smooth rate last := (7 * rate + 3 * last) / 10
  positive speed := 0 < speed

def unstarted : Progressing Int := { lastSpeed := 0, currentProgress := { speedMbps := 0, startTime := 0 } }

theorem unstarted_started : unstarted.Started wholeMegabytes := ⟨DownloadThread.started_default,rfl,⟨rfl,rfl⟩,⟨rfl,rfl⟩,rfl⟩

/-- A download of two bytes, whose total is known only at the second call. -/
def toldRun : List ProgressStep :=
  [.other (.openFile true), .other (.initCurl true), .progress 0 1 300000000, .progress 2 1 400000000,
    .other (.write [1,2] 2 true), .progress 2 2 600000000, .other (.performed .ok), .other (.info 200 2),
    .other (.close 2), .other .next, .other .next, .other .next]

theorem told_run_twice : ∃ q, runPartial (step wholeMegabytes fun _ => "") unstarted toldRun = some q ∧
    (shown q.currentProgress = ((heard toldRun).getLast?.map unsigned).getD (0,0) ∧
      q.currentProgress.startTime = unstarted.currentProgress.startTime) ∧
    q.reported.reverse.map shown = (if unstarted.onProgress then announced (heard toldRun) else []) ∧
    (q.thread.completions ≠ [] → ∀ more r, runPartial (step wholeMegabytes fun _ => "") q more = some r → r.told = q.told) :=
  ⟨_,rfl,told_run unstarted_started rfl⟩

theorem percents_run_twice : ∃ q, runPartial (step wholeMegabytes fun _ => "") unstarted toldRun = some q ∧
    (∀ progress ∈ q.reported, Exact progress) ∧ (q.reported.reverse.map DownloadProgress.percent).Pairwise (· ≤ ·) := by
  have honest : ∀ c ∈ heard toldRun, 0 < c.1 → Honest c := by
    have heard : heard toldRun = [(0,1),(2,1),(2,2)] := rfl
    rw [heard]
    intro c member known
    simp only [List.mem_cons, List.not_mem_nil, or_false] at member
    rcases member with rfl | rfl | rfl
    · exact absurd known (by decide)
    · constructor <;> decide
    · constructor <;> decide
  have grows : (heard toldRun).Pairwise (fun a b => 0 < a.1 → 0 < b.1 → a.1 = b.1 ∧ a.2 ≤ b.2) := by decide
  exact ⟨_,rfl,percents_run unstarted_started rfl honest grows⟩

end Progressing

end Ferriot
