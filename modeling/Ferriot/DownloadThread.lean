import Ferriot.Types
import Ferriot.Runs
import Mathlib.Data.List.TakeDrop

/-!
# The download thread

What the thread of `start_download` does, step by step, with what it finds outside:
the file system, libcurl, and `cancel` at any moment. The file is opened before the
transfer and removed after it unless the download has succeeded, and the flag that
`is_downloading` and `wait_for_completion` read is cleared in between.
-/
namespace Ferriot
open Runs

/-- What `curl_easy_perform` returns. -/
inductive CurlCode where
  | ok
  | writeError
  | abortedByCallback
  | other (code : Nat)
deriving DecidableEq, Repr

/-- The next step of the thread. -/
inductive DownloadPc where
  | openFile
  /-- `downloading_ = false` without a file. -/
  | clearUnopened
  | initCurl
  | closeUnused
  | removeUnused
  | clearUnused
  /-- In `curl_easy_perform`. -/
  | transfer
  | getInfo
  | closeFile
  | clearFlag
  | handleResult
  | removeFile (error : String)
  | complete (success : Bool) (error : String)
  | done
deriving DecidableEq, Repr

structure DownloadThread where
  destPath : String := ""
  /-- `on_complete` is no null pointer. -/
  onComplete : Bool := true
  pc : DownloadPc := .openFile
  downloading : Bool := true
  cancelled : Bool := false
  /-- What the disk has at `dest_path`, if there is a file. -/
  file : Option Bytes := none
  opened : Bool := false
  /-- Written to the stream and not yet to the disk. -/
  buffer : Bytes := []
  good : Bool := true
  /-- What `write_callback` has taken from curl. -/
  received : Bytes := []
  res : Option CurlCode := none
  httpCode : Int := 0
  downloaded : Int := 0
  /-- The final flush has failed. -/
  lost : Bool := false
  removed : Bool := false
  /-- The calls of `on_complete`, latest first. -/
  completions : List (Bool × String) := []
deriving DecidableEq, Repr

/-- A step, with what is found outside. -/
inductive DownloadStep where
  /-- Another thread, or a callback, calls `cancel`. -/
  | cancel
  | openFile (isOpen : Bool)
  | initCurl (curl : Bool)
  /-- curl calls `write_callback`; so many bytes reach the disk, and the stream stays good or not. -/
  | write (contents : Bytes) (flushed : Nat) (good : Bool)
  /-- curl calls `progress_callback`. -/
  | progress
  /-- The transfer ends by itself. -/
  | performed (code : CurlCode)
  | info (httpCode downloaded : Int)
  /-- The stream is closed; so many bytes of its buffer reach the disk. -/
  | close (flushed : Nat)
  | remove (succeeds : Bool)
  /-- A step that finds nothing outside. -/
  | next
deriving DecidableEq, Repr

namespace DownloadThread

/-- `write_callback` -/
def writeCallback (contents : Bytes) (flushed : Nat) (good : Bool) (t : DownloadThread) : Nat × DownloadThread :=
  if t.good then
    let written := t.buffer ++ contents
    let t := { t with file := t.file.map (· ++ written.take flushed), buffer := written.drop flushed, good := good }
    (if good then contents.length else 0,t)
  else (0,t)

/-- curl goes on if `write_callback` has taken all that it was given. -/
def afterWrite (contents : Bytes) (answer : Nat × DownloadThread) : DownloadThread :=
  if answer.1 = contents.length then { answer.2 with received := answer.2.received ++ contents }
  else { answer.2 with res := some .writeError, pc := .getInfo }

/-- `progress_callback`, without what it reports. -/
def progressCallback (t : DownloadThread) : Nat := if t.cancelled then 1 else 0

/-- `std::remove(dest_path)` -/
def removeFile (succeeds : Bool) (t : DownloadThread) : DownloadThread :=
  { t with file := if succeeds then none else t.file, removed := succeeds }

variable (strerror : CurlCode → String)

/-- The outcome of the download. -/
def handleResult (t : DownloadThread) : DownloadPc :=
  if t.cancelled then .removeFile "Download cancelled"
  else if t.res ≠ some .ok then .removeFile ("curl error: " ++ strerror (t.res.getD .ok))
  else if 400 ≤ t.httpCode then .removeFile ("HTTP error: " ++ toString t.httpCode)
  else if t.downloaded ≤ 0 then .removeFile "Empty download (0 bytes)"
  else .complete true ""

def step (t : DownloadThread) : DownloadStep → Option DownloadThread
  | .cancel => some { t with cancelled := true }
  | .openFile isOpen =>
    if t.pc = .openFile then
      some (if isOpen then { t with file := some [], opened := true, pc := .initCurl } else { t with pc := .clearUnopened })
    else none
  | .initCurl curl =>
    if t.pc = .initCurl then some { t with pc := if curl then .transfer else .closeUnused } else none
  | .write contents flushed good =>
    if t.pc = .transfer then some (afterWrite contents (t.writeCallback contents flushed good)) else none
  | .progress =>
    if t.pc = .transfer then
      some (if t.progressCallback = 0 then t else { t with res := some .abortedByCallback, pc := .getInfo })
    else none
  | .performed code => if t.pc = .transfer then some { t with res := some code, pc := .getInfo } else none
  | .info httpCode downloaded =>
    if t.pc = .getInfo then some { t with httpCode := httpCode, downloaded := downloaded, pc := .closeFile } else none
  | .close flushed =>
    if t.pc = .closeFile then
      some { t with
        file := t.file.map (· ++ t.buffer.take flushed)
        buffer := []
        lost := decide (flushed < t.buffer.length)
        pc := .clearFlag }
    else none
  | .remove succeeds =>
    match t.pc with
    | .removeUnused => some { t.removeFile succeeds with pc := .clearUnused }
    | .removeFile error => some { t.removeFile succeeds with pc := .complete false error }
    | _ => none
  | .next =>
    match t.pc with
    | .clearUnopened =>
      some { t with downloading := false, pc := .complete false ("Failed to open output file: " ++ t.destPath) }
    | .closeUnused => some { t with pc := .removeUnused }
    | .clearUnused => some { t with downloading := false, pc := .complete false "Failed to initialize curl" }
    | .clearFlag => some { t with downloading := false, pc := .handleResult }
    | .handleResult => some { t with pc := t.handleResult strerror }
    | .complete success error =>
      some { t with
        completions := if t.onComplete then (success,error) :: t.completions else t.completions
        pc := .done }
    | _ => none

/-- The thread as `start_download` makes it. -/
structure Started (t : DownloadThread) : Prop where
  pc : t.pc = .openFile
  downloading : t.downloading = true
  cancelled : t.cancelled = false
  opened : t.opened = false
  stream : t.buffer = [] ∧ t.good = true ∧ t.received = []
  res : t.res = none
  completions : t.completions = []

/-- The file is the complete body of a transfer with a 2xx status. -/
structure Whole (t : DownloadThread) : Prop where
  res : t.res = some .ok
  status : 200 ≤ t.httpCode ∧ t.httpCode < 300
  file : t.file = some t.received

/-- The file is whole or absent whenever `is_downloading` is false, which is when
    `wait_for_completion` returns true, and whole when a success has been reported. -/
structure WholeOrAbsent (t : DownloadThread) : Prop where
  file : t.opened = true → t.downloading = false → t.file = none ∨ t.Whole
  reported : ∀ error, (true,error) ∈ t.completions → t.Whole

/-- If the flag has been cleared with the file open: curl could not be set up and the empty file
    has been removed, or the transfer has ended well, with a 2xx status, and the final flush too. -/
def Delivered (t : DownloadThread) : Prop :=
  t.opened = true → t.downloading = false →
    t.res = none ∧ t.removed = true ∨
      t.res = some .ok ∧ (200 ≤ t.httpCode ∧ t.httpCode < 300) ∧ t.lost = false

/-- Nothing has been handed to curl. -/
def Unused (t : DownloadThread) : Prop := t.opened = true ∧ t.res = none ∧ t.completions = []

/-- The disk and the buffer together have what curl has delivered, unless the transfer has failed. -/
def Streaming (t : DownloadThread) : Prop :=
  t.opened = true ∧ t.completions = [] ∧
    ∃ disk, t.file = some disk ∧ (t.res = none ∨ t.res = some .ok → disk ++ t.buffer = t.received)

/-- The stream is closed: the file is whole exactly if nothing was lost. -/
def Closed (t : DownloadThread) : Prop :=
  t.opened = true ∧ t.res ≠ none ∧
    ∃ disk, t.file = some disk ∧ (t.res = some .ok → (disk = t.received ↔ t.lost = false))

/-- What a failure leaves: no file was opened, or curl could not be set up, or the file was
    removed, or it could not be. -/
def Ended (t : DownloadThread) : Prop :=
  t.opened = false ∨ t.res = none ∧ (t.removed = true → t.file = none) ∨ t.res ≠ none ∧ t.file = none ∨ t.Closed

/-- `downloading_` is cleared before this. -/
def cleared : DownloadPc → Bool
  | .handleResult | .removeFile _ | .complete _ _ | .done => true
  | _ => false

/-- What holds before the step of the thread. -/
def AtStep (t : DownloadThread) : DownloadPc → Prop
  | .openFile => t.opened = false ∧ t.buffer = [] ∧ t.received = [] ∧ t.res = none ∧ t.completions = []
  | .clearUnopened => t.opened = false ∧ t.completions = []
  | .initCurl => t.Unused ∧ t.file = some [] ∧ t.buffer = [] ∧ t.received = []
  | .closeUnused | .removeUnused => t.Unused ∧ t.file = some []
  | .clearUnused => t.Unused ∧ t.file = if t.removed then none else some []
  | .transfer => t.Streaming ∧ t.res = none
  | .getInfo | .closeFile => t.Streaming ∧ t.res ≠ none
  | .clearFlag | .handleResult | .removeFile _ => t.Closed ∧ t.completions = []
  | .complete true _ => t.Closed ∧ t.completions = []
  | .complete false _ => t.Ended ∧ t.completions = []
  | .done => t.Ended ∧ ∀ error, (true,error) ∈ t.completions → t.Closed

structure Sound (t : DownloadThread) : Prop where
  downloading : t.downloading = !cleared t.pc
  here : t.AtStep t.pc

theorem Started.sound {t : DownloadThread} (started : t.Started) : t.Sound := by
  obtain ⟨pc,downloading,-,opened,⟨buffer,-,received⟩,res,completions⟩ := started
  refine ⟨by rw [pc, downloading]; rfl,?_⟩
  rw [pc]
  exact ⟨opened,buffer,received,res,completions⟩

/-- What each step does. -/
inductive Stepped (t : DownloadThread) : DownloadStep → DownloadThread → Prop
  | cancel : Stepped t .cancel { t with cancelled := true }
  | opened (pc : t.pc = .openFile) : Stepped t (.openFile true) { t with file := some [], opened := true, pc := .initCurl }
  | unopened (pc : t.pc = .openFile) : Stepped t (.openFile false) { t with pc := .clearUnopened }
  | curl (pc : t.pc = .initCurl) : Stepped t (.initCurl true) { t with pc := .transfer }
  | noCurl (pc : t.pc = .initCurl) : Stepped t (.initCurl false) { t with pc := .closeUnused }
  | written (pc : t.pc = .transfer) (contents : Bytes) (flushed : Nat) (good : Bool) :
      Stepped t (.write contents flushed good) (afterWrite contents (t.writeCallback contents flushed good))
  | goesOn : Stepped t .progress t
  | aborted (pc : t.pc = .transfer) : Stepped t .progress { t with res := some .abortedByCallback, pc := .getInfo }
  | performed (pc : t.pc = .transfer) (code : CurlCode) : Stepped t (.performed code) { t with res := some code, pc := .getInfo }
  | info (pc : t.pc = .getInfo) (httpCode downloaded : Int) :
      Stepped t (.info httpCode downloaded) { t with httpCode := httpCode, downloaded := downloaded, pc := .closeFile }
  | closed (pc : t.pc = .closeFile) (flushed : Nat) :
      Stepped t (.close flushed)
        { t with
          file := t.file.map (· ++ t.buffer.take flushed)
          buffer := []
          lost := decide (flushed < t.buffer.length)
          pc := .clearFlag }
  | removedUnused (pc : t.pc = .removeUnused) (succeeds : Bool) :
      Stepped t (.remove succeeds) { t.removeFile succeeds with pc := .clearUnused }
  | removed {error : String} (pc : t.pc = .removeFile error) (succeeds : Bool) :
      Stepped t (.remove succeeds) { t.removeFile succeeds with pc := .complete false error }
  | clearedUnopened (pc : t.pc = .clearUnopened) :
      Stepped t .next { t with downloading := false, pc := .complete false ("Failed to open output file: " ++ t.destPath) }
  | closedUnused (pc : t.pc = .closeUnused) : Stepped t .next { t with pc := .removeUnused }
  | clearedUnused (pc : t.pc = .clearUnused) :
      Stepped t .next { t with downloading := false, pc := .complete false "Failed to initialize curl" }
  | clearedFlag (pc : t.pc = .clearFlag) : Stepped t .next { t with downloading := false, pc := .handleResult }
  | handled (pc : t.pc = .handleResult) : Stepped t .next { t with pc := t.handleResult strerror }
  | completed {success : Bool} {error : String} (pc : t.pc = .complete success error) :
      Stepped t .next
        { t with
          completions := if t.onComplete then (success,error) :: t.completions else t.completions
          pc := .done }

theorem step_cases {t u : DownloadThread} {s : DownloadStep} (stepped : step strerror t s = some u) :
    Stepped strerror t s u := by
  cases s with
  | cancel => cases stepped; exact .cancel
  | openFile isOpen =>
    obtain ⟨pc,⟨⟩⟩ := Option.ite_none_right_eq_some.mp stepped
    cases isOpen with
    | false => exact .unopened pc
    | true => exact .opened pc
  | initCurl curl =>
    obtain ⟨pc,⟨⟩⟩ := Option.ite_none_right_eq_some.mp stepped
    cases curl with
    | false => exact .noCurl pc
    | true => exact .curl pc
  | write contents flushed good =>
    obtain ⟨pc,⟨⟩⟩ := Option.ite_none_right_eq_some.mp stepped
    exact .written pc contents flushed good
  | progress =>
    obtain ⟨pc,went⟩ := Option.ite_none_right_eq_some.mp stepped
    split at went
    · cases went
      exact .goesOn
    · cases went
      exact .aborted pc
  | performed code =>
    obtain ⟨pc,⟨⟩⟩ := Option.ite_none_right_eq_some.mp stepped
    exact .performed pc code
  | info httpCode downloaded =>
    obtain ⟨pc,⟨⟩⟩ := Option.ite_none_right_eq_some.mp stepped
    exact .info pc httpCode downloaded
  | close flushed =>
    obtain ⟨pc,⟨⟩⟩ := Option.ite_none_right_eq_some.mp stepped
    exact .closed pc flushed
  | remove succeeds =>
    simp only [step] at stepped
    split at stepped
    · next pc => cases stepped; exact .removedUnused pc succeeds
    · next pc => cases stepped; exact .removed pc succeeds
    · cases stepped
  | next =>
    simp only [step] at stepped
    split at stepped
    · next pc => cases stepped; exact .clearedUnopened pc
    · next pc => cases stepped; exact .closedUnused pc
    · next pc => cases stepped; exact .clearedUnused pc
    · next pc => cases stepped; exact .clearedFlag pc
    · next pc => cases stepped; exact .handled pc
    · next pc => cases stepped; exact .completed pc
    · cases stepped

/-- A write that is taken leaves what it was given in the file and the buffer. -/
theorem writeCallback_stored {t : DownloadThread} {disk : Bytes} (file : t.file = some disk) {contents : Bytes} {flushed : Nat}
    {good : Bool} (taken : (t.writeCallback contents flushed good).1 = contents.length) :
    ∃ disk', (t.writeCallback contents flushed good).2.file = some disk' ∧
      disk' ++ (t.writeCallback contents flushed good).2.buffer = disk ++ t.buffer ++ contents := by
  simp only [writeCallback] at taken ⊢
  split
  · exact ⟨disk ++ (t.buffer ++ contents).take flushed,by simp [file],by simp⟩
  · next bad =>
    rw [if_neg bad] at taken
    have empty : contents = [] := List.length_eq_zero_iff.mp taken.symm
    exact ⟨disk,file,by simp [empty]⟩

/-- What a write does not touch. -/
theorem writeCallback_frame (t : DownloadThread) (contents : Bytes) (flushed : Nat) (good : Bool) :
    let u := (t.writeCallback contents flushed good).2
    u.pc = t.pc ∧ u.downloading = t.downloading ∧ u.opened = t.opened ∧ u.received = t.received ∧ u.res = t.res ∧
      u.completions = t.completions ∧ (u.file.isSome = t.file.isSome) := by
  simp only [writeCallback]
  split
  · exact ⟨rfl,rfl,rfl,rfl,rfl,rfl,by simp⟩
  · exact ⟨rfl,rfl,rfl,rfl,rfl,rfl,rfl⟩

theorem sound_write {t : DownloadThread} (sound : t.Sound) (pc : t.pc = .transfer) (contents : Bytes) (flushed : Nat)
    (good : Bool) : (afterWrite contents (t.writeCallback contents flushed good)).Sound := by
  obtain ⟨downloading,here⟩ := sound
  rw [pc] at here downloading
  obtain ⟨⟨opened,completions,disk,file,stored⟩,res⟩ := here
  obtain ⟨samePc,sameFlag,sameOpened,sameReceived,sameRes,sameCompletions,sameFile⟩ :=
    writeCallback_frame t contents flushed good
  have before : disk ++ t.buffer = t.received := stored (.inl res)
  simp only [afterWrite]
  split
  · next taken =>
    obtain ⟨disk',file',stored'⟩ := writeCallback_stored file taken
    refine ⟨?_,?_⟩
    · rw [samePc, sameFlag, downloading, pc]
    · rw [samePc, pc]
      refine ⟨⟨sameOpened.trans opened,sameCompletions.trans completions,disk',file',fun _ => ?_⟩,sameRes.trans res⟩
      rw [stored', before, sameReceived]
  · rw [file] at sameFile
    obtain ⟨disk',file'⟩ := Option.isSome_iff_exists.mp sameFile
    refine ⟨sameFlag.trans downloading,⟨sameOpened.trans opened,sameCompletions.trans completions,disk',file',?_⟩,by simp⟩
    intro unfailed
    simp at unfailed

theorem handleResult_cases (t : DownloadThread) :
    (∃ error, t.handleResult strerror = .removeFile error) ∨ t.handleResult strerror = .complete true "" := by
  simp only [handleResult]
  split
  · exact .inl ⟨_,rfl⟩
  · split
    · exact .inl ⟨_,rfl⟩
    · split
      · exact .inl ⟨_,rfl⟩
      · split
        · exact .inl ⟨_,rfl⟩
        · exact .inr rfl

theorem sound_step {t u : DownloadThread} {s : DownloadStep} (sound : t.Sound) (stepped : Stepped strerror t s u) :
    u.Sound := by
  obtain ⟨downloading,here⟩ := sound
  cases stepped with
  | cancel => exact ⟨downloading,here⟩
  | opened pc =>
    rw [pc] at here downloading
    obtain ⟨opened,buffer,received,res,completions⟩ := here
    exact ⟨downloading,⟨rfl,res,completions⟩,rfl,buffer,received⟩
  | unopened pc =>
    rw [pc] at here downloading
    obtain ⟨opened,-,-,-,completions⟩ := here
    exact ⟨downloading,opened,completions⟩
  | curl pc =>
    rw [pc] at here downloading
    obtain ⟨⟨opened,res,completions⟩,file,buffer,received⟩ := here
    exact ⟨downloading,⟨opened,completions,[],file,fun _ => by simp [buffer, received]⟩,res⟩
  | noCurl pc =>
    rw [pc] at here downloading
    exact ⟨downloading,here.1,here.2.1⟩
  | written pc contents flushed good => exact sound_write ⟨downloading,here⟩ pc contents flushed good
  | goesOn => exact ⟨downloading,here⟩
  | aborted pc =>
    rw [pc] at here downloading
    obtain ⟨⟨opened,completions,disk,file,-⟩,-⟩ := here
    exact ⟨downloading,⟨opened,completions,disk,file,fun unfailed => by simp at unfailed⟩,by simp⟩
  | performed pc code =>
    rw [pc] at here downloading
    obtain ⟨⟨opened,completions,disk,file,stored⟩,res⟩ := here
    exact ⟨downloading,⟨opened,completions,disk,file,fun _ => stored (.inl res)⟩,by simp⟩
  | info pc httpCode downloaded =>
    rw [pc] at here downloading
    exact ⟨downloading,here⟩
  | closed pc flushed =>
    rw [pc] at here downloading
    obtain ⟨⟨opened,completions,disk,file,stored⟩,res⟩ := here
    refine ⟨downloading,⟨opened,res,disk ++ t.buffer.take flushed,by simp [file],?_⟩,completions⟩
    intro ok
    show disk ++ t.buffer.take flushed = t.received ↔ decide (flushed < t.buffer.length) = false
    rw [← stored (.inr ok), List.append_right_inj, List.take_eq_self_iff, decide_eq_false_iff_not, Nat.not_lt]
  | removedUnused pc succeeds =>
    rw [pc] at here downloading
    obtain ⟨unused,file⟩ := here
    exact ⟨downloading,unused,by simp [removeFile, file]⟩
  | @removed error pc succeeds =>
    rw [pc] at here downloading
    obtain ⟨closed,completions⟩ := here
    refine ⟨downloading,?_,completions⟩
    cases succeeds with
    | true => exact .inr (.inr (.inl ⟨closed.2.1,rfl⟩))
    | false => exact .inr (.inr (.inr closed))
  | clearedUnopened pc =>
    rw [pc] at here
    exact ⟨rfl,.inl here.1,here.2⟩
  | closedUnused pc =>
    rw [pc] at here downloading
    exact ⟨downloading,here⟩
  | clearedUnused pc =>
    rw [pc] at here
    obtain ⟨⟨-,res,completions⟩,file⟩ := here
    exact ⟨rfl,.inr (.inl ⟨res,fun gone => file.trans (if_pos gone)⟩),completions⟩
  | clearedFlag pc =>
    rw [pc] at here
    exact ⟨rfl,here⟩
  | handled pc =>
    rw [pc] at here downloading
    rcases handleResult_cases strerror t with ⟨error,removes⟩ | succeeds
    · rw [removes]
      exact ⟨downloading,here⟩
    · rw [succeeds]
      exact ⟨downloading,here⟩
  | @completed success error pc =>
    rw [pc] at here downloading
    cases success with
    | true =>
      obtain ⟨closed,completions⟩ := here
      exact ⟨downloading,.inr (.inr (.inr closed)),fun _ _ => closed⟩
    | false =>
      obtain ⟨ended,completions⟩ := here
      refine ⟨downloading,ended,?_⟩
      intro error' reported
      rw [completions] at reported
      split at reported <;> simp at reported

/-- Once the flag is cleared, nothing changes of what has become of the transfer. -/
theorem cleared_step {t u : DownloadThread} {s : DownloadStep} (sound : t.Sound) (late : cleared t.pc = true)
    (stepped : Stepped strerror t s u) :
    u.opened = t.opened ∧ u.downloading = t.downloading ∧ u.res = t.res ∧ u.httpCode = t.httpCode ∧ u.lost = t.lost ∧
      (t.opened = true → t.res = none → u.removed = t.removed) := by
  cases stepped with
  | cancel | goesOn | handled | completed => exact ⟨rfl,rfl,rfl,rfl,rfl,fun _ _ => rfl⟩
  | removed pc succeeds =>
    have here := sound.here
    rw [pc] at here
    exact ⟨rfl,rfl,rfl,rfl,rfl,fun _ none => absurd none here.1.2.1⟩
  | opened pc | unopened pc | curl pc | noCurl pc | written pc | aborted pc | performed pc | info pc | closed pc
  | removedUnused pc | clearedUnopened pc | closedUnused pc | clearedUnused pc | clearedFlag pc =>
    rw [pc] at late
    cases late

theorem delivered_back {t u : DownloadThread} {s : DownloadStep} (sound : t.Sound) (stepped : Stepped strerror t s u)
    (delivered : u.Delivered) : t.Delivered := by
  intro wasOpened quiet
  have late : cleared t.pc = true := by simpa [quiet] using sound.downloading
  obtain ⟨opened,downloading,res,httpCode,lost,removed⟩ := cleared_step strerror sound late stepped
  rcases delivered (opened.trans wasOpened) (downloading.trans quiet) with ⟨none,gone⟩ | ⟨ok,status,kept⟩
  · rw [res] at none
    exact .inl ⟨none,(removed wasOpened none) ▸ gone⟩
  · exact .inr ⟨res ▸ ok,httpCode ▸ status,lost ▸ kept⟩

/-- A step that clears the flag leaves a file that is whole or absent only if all has gone well. -/
theorem delivered_forth {t u : DownloadThread} {s : DownloadStep} (sound : t.Sound) (stepped : Stepped strerror t s u)
    (delivered : t.Delivered) (whole : u.WholeOrAbsent) : u.Delivered := by
  intro isOpened quiet
  cases late : cleared t.pc with
  | true =>
    obtain ⟨opened,downloading,res,httpCode,lost,removed⟩ := cleared_step strerror sound late stepped
    have wasOpened := opened.symm.trans isOpened
    rcases delivered wasOpened (downloading.symm.trans quiet) with ⟨none,gone⟩ | ⟨ok,status,kept⟩
    · exact .inl ⟨res.trans none,(removed wasOpened none).trans gone⟩
    · exact .inr ⟨res.trans ok,httpCode.symm ▸ status,lost.trans kept⟩
  | false =>
    have busy : t.downloading = true := by simpa [late] using sound.downloading
    have here := sound.here
    cases stepped with
    | clearedUnopened pc =>
      rw [pc] at here
      exact absurd (isOpened.symm.trans here.1) (by simp)
    | clearedUnused pc =>
      rw [pc] at here
      obtain ⟨⟨-,res,-⟩,file⟩ := here
      refine .inl ⟨res,?_⟩
      rcases whole.file isOpened rfl with absent | ⟨ok,-,-⟩
      · have gone : (if t.removed then none else some []) = none := file.symm.trans absent
        simpa using gone
      · exact absurd (res.symm.trans ok) (by simp)
    | clearedFlag pc =>
      rw [pc] at here
      obtain ⟨⟨-,-,disk,file,kept⟩,-⟩ := here
      rcases whole.file isOpened rfl with absent | ⟨ok,status,all⟩
      · exact absurd (file.symm.trans absent) (by simp)
      · exact .inr ⟨ok,status,(kept ok).mp (Option.some.inj (file.symm.trans all))⟩
    | removed pc | handled pc | completed pc =>
      rw [pc] at late
      cases late
    | written pc contents flushed good =>
      obtain ⟨-,sameFlag,-⟩ := writeCallback_frame t contents flushed good
      have still : (afterWrite contents (t.writeCallback contents flushed good)).downloading = true := by
        simp only [afterWrite]
        split <;> exact sameFlag.trans busy
      exact absurd (still.symm.trans quiet) (by simp)
    | _ => exact absurd (busy.symm.trans quiet) (by simp)

/-- A closed file that has been delivered is whole. -/
theorem Closed.whole {t : DownloadThread} (closed : t.Closed) (delivered : t.Delivered) (quiet : t.downloading = false) :
    t.Whole := by
  obtain ⟨opened,res,disk,file,kept⟩ := closed
  rcases delivered opened quiet with ⟨none,-⟩ | ⟨ok,status,notLost⟩
  · exact absurd none res
  · exact ⟨ok,status,(kept ok).mpr notLost ▸ file⟩

theorem Ended.wholeOrAbsent {t : DownloadThread} (ended : t.Ended) (delivered : t.Delivered) (quiet : t.downloading = false)
    (opened : t.opened = true) : t.file = none ∨ t.Whole := by
  rcases ended with unopened | ⟨res,file⟩ | ⟨-,absent⟩ | closed
  · exact absurd (opened.symm.trans unopened) (by simp)
  · rcases delivered opened quiet with ⟨-,gone⟩ | ⟨ok,-⟩
    · exact .inl (file gone)
    · exact absurd (res.symm.trans ok) (by simp)
  · exact .inl absent
  · exact .inr (closed.whole delivered quiet)

/-- A delivered file is whole, or absent once it has been removed. -/
theorem delivered_whole {t : DownloadThread} (sound : t.Sound) (delivered : t.Delivered) : t.WholeOrAbsent := by
  have downloading := sound.downloading
  have here := sound.here
  have unreported {t : DownloadThread} (none : t.completions = []) (error : String)
      (reported : (true,error) ∈ t.completions) : t.Whole := by simp [none] at reported
  have early (busy : cleared t.pc = false) (opened : t.opened = true) (quiet : t.downloading = false) :
      t.file = none ∨ t.Whole := by simp [busy, quiet] at downloading
  cases pc : t.pc with
  | done =>
    rw [pc] at here downloading
    exact ⟨fun opened quiet => here.1.wholeOrAbsent delivered quiet opened,
      fun error reported => (here.2 error reported).whole delivered downloading⟩
  | complete success error =>
    rw [pc] at here downloading
    cases success with
    | true => exact ⟨fun _ quiet => .inr (here.1.whole delivered quiet),unreported here.2⟩
    | false => exact ⟨fun opened quiet => here.1.wholeOrAbsent delivered quiet opened,unreported here.2⟩
  | handleResult | removeFile =>
    rw [pc] at here
    exact ⟨fun _ quiet => .inr (here.1.whole delivered quiet),unreported here.2⟩
  | openFile =>
    rw [pc] at here
    exact ⟨early (by rw [pc]; rfl),unreported here.2.2.2.2⟩
  | clearUnopened | clearFlag =>
    rw [pc] at here
    exact ⟨early (by rw [pc]; rfl),unreported here.2⟩
  | initCurl | closeUnused | removeUnused | clearUnused =>
    rw [pc] at here
    exact ⟨early (by rw [pc]; rfl),unreported here.1.2.2⟩
  | transfer | getInfo | closeFile =>
    rw [pc] at here
    exact ⟨early (by rw [pc]; rfl),unreported here.1.2.1⟩

/-- In every run of the thread, the file is whole or absent, and no success reported without it, at
    every point exactly if the download that the run ends with has been delivered. -/
theorem wholeOrAbsent_run {t u : DownloadThread} (started : t.Started) {steps : List DownloadStep}
    (ran : runPartial (step strerror) t steps = some u) :
    Always (step strerror) WholeOrAbsent t steps ↔ u.Delivered := by
  have busy : t.Delivered := fun _ quiet => absurd (started.downloading.symm.trans quiet) (by simp)
  exact always_iff (fun _ _ _ sound stepped => sound_step strerror sound (step_cases strerror stepped))
    (fun _ => delivered_whole) (fun _ _ _ sound stepped => delivered_back strerror sound (step_cases strerror stepped))
    (fun _ _ _ sound stepped => delivered_forth strerror sound (step_cases strerror stepped)) ran started.sound busy

theorem started_default : Started {} := ⟨rfl,rfl,rfl,rfl,⟨rfl,rfl,rfl⟩,rfl,rfl⟩

/-- Two bytes are downloaded, and written to the disk by the final flush. -/
def wholeRun : List DownloadStep :=
  [.openFile true,.initCurl true,.write [1,2] 0 true,.progress,.performed .ok,.info 200 2,.close 2,.next,.next,.next]

theorem wholeRun_delivered : ∃ u, runPartial (step fun _ => "") {} wholeRun = some u ∧ u.completions = [(true,"")] ∧
    u.file = some [1,2] ∧ (Always (step fun _ => "") WholeOrAbsent {} wholeRun ↔ u.Delivered) :=
  ⟨_,rfl,rfl,rfl,wholeOrAbsent_run _ started_default rfl⟩

/-- A server answers 404 with a page of one byte, and the flag is cleared. -/
def notFoundRun : List DownloadStep :=
  [.openFile true,.initCurl true,.write [60] 1 true,.performed .ok,.info 404 1,.close 0,.next]

/-- Two bytes are downloaded, and the disk is full when the stream is closed. -/
def fullDiskRun : List DownloadStep :=
  [.openFile true,.initCurl true,.write [1,2] 0 true,.performed .ok,.info 200 2,.close 1,.next,.next,.next]

/-- The page is there when the download is over, and a file that has lost its end is reported a success. -/
theorem partial_file_left :
    (∃ u, runPartial (step fun _ => "") {} notFoundRun = some u ∧ u.opened = true ∧ u.downloading = false ∧
      u.file = some [60] ∧ ¬ u.Whole) ∧
    ∃ u, runPartial (step fun _ => "") {} fullDiskRun = some u ∧ (true,"") ∈ u.completions ∧ ¬ u.Whole := by
  refine ⟨⟨_,rfl,rfl,rfl,rfl,?_⟩,⟨_,rfl,by decide,?_⟩⟩
  · intro whole
    exact absurd whole.status.2 (by decide)
  · intro whole
    exact absurd whole.file (by decide)

end DownloadThread

end Ferriot
