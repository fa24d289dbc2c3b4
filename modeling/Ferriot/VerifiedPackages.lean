import Ferriot.FirmwareRuns

/-!
# Verified packages

An execution of the Update resource applies what the object holds. The check of
`verify_package` is made when a package is pushed: in a run where a push that fails
does not leave an earlier package Downloaded, and one that passes keeps its own,
what is applied after a push is the pushed package and has passed the check.
-/
namespace Ferriot.Firmware
open Runs

/-- The last attempt to deliver a package. -/
def lastDelivery : List Event → Option Delivery
  | [] => none
  | .delivery attempt :: _ => some attempt
  | _ :: older => lastDelivery older

/-- If the last attempt was a push, its package passed verification and is the one that is held. -/
def Vouched (held : Bytes) (history : List Event) : Prop :=
  match lastDelivery history with
  | some (.push data passed) => passed = true ∧ held = data
  | _ => True

/-- What is applied is vouched for. -/
def AppliesVerified (e : Event) (older : List Event) : Prop :=
  match e with
  | .apply _ held => Vouched held older
  | _ => True

instance (held : Bytes) (history : List Event) : Decidable (Vouched held history) := by
  simp only [Vouched]
  split <;> infer_instance

instance (e : Event) (older : List Event) : Decidable (AppliesVerified e older) := by
  simp only [AppliesVerified]
  split <;> infer_instance

/-- `verify_package` reports the update complete, which drops the package, before it returns. -/
def completes (reports : List FirmwareReport) : Bool :=
  reports.any (fun | .updateComplete _ => true | .downloadComplete _ => false)

/-- The package that a call pushes, with the answers of the callbacks. -/
def Call.pushes : Call → Option (Env × Bytes)
  | .pushPackage env data => some (env,data)
  | .writeResource env 0 0 (.opaqueBytes data) => some (env,data)
  | _ => none

/-- A push that fails verification does not come on top of a package that is still
    Downloaded, and one that passes keeps its package. -/
def FirmwareUpdateObject.Allowed (o : FirmwareUpdateObject) (call : Call) : Prop :=
  ∀ env data, call.pushes = some (env,data) →
    match env.verifyPackage.result with
    | .ok () => completes env.verifyPackage.reports = false ∨ data = []
    | .error _ => o.state = .Downloaded → completes env.verifyPackage.reports = true

namespace Traced

/-- The package is vouched for while it may be applied; a download has been asked for while it goes on. -/
structure Verified (t : Traced) : Prop where
  hooked : t.object.callbacks.verifyPackage = true
  downloaded : t.object.state = .Downloaded → Vouched t.object.packageData t.history
  downloading : t.object.state = .Downloading → ∀ held, Vouched held t.history
  applied : Throughout AppliesVerified t.history

theorem verified_set {t : Traced} (verified : Verified t) {object : FirmwareUpdateObject}
    (hooked : object.callbacks.verifyPackage = true)
    (downloaded : object.state = .Downloaded → Vouched object.packageData t.history)
    (downloading : object.state = .Downloading → ∀ held, Vouched held t.history) : Verified (t.set object) :=
  ⟨hooked,downloaded,downloading,verified.applied⟩

theorem verified_idle {t : Traced} (verified : Verified t) {object : FirmwareUpdateObject}
    (hooked : object.callbacks.verifyPackage = true) (idle : object.state = .Idle) : Verified (t.set object) :=
  verified_set verified hooked (by simp [idle]) (by simp [idle])

theorem verified_enter {t : Traced} (verified : Verified t) (vouched : Vouched t.object.packageData t.history) :
    Verified t.enter := by
  simp only [enter]
  by_cases already : t.object.state = .Downloaded
  · rwa [if_pos already]
  · rw [if_neg already]
    exact ⟨verified.hooked,fun _ => vouched,by simp,trivial,verified.applied⟩

theorem verified_report {t : Traced} (verified : Verified t) (r : FirmwareReport) : Verified (t.report r) := by
  cases r with
  | downloadComplete success =>
    simp only [report, downloadComplete]
    by_cases taken : t.object.state = .Downloading ∧ success = true
    · rw [if_pos taken]
      exact verified_enter verified (verified.downloading taken.1 _)
    · rw [if_neg taken]
      simp only [FirmwareUpdateObject.downloadComplete]
      split_ifs with ignored succeeds
      · exact verified
      · exact absurd ⟨not_not.mp ignored,succeeds⟩ taken
      · exact verified_idle verified verified.hooked rfl
  | updateComplete result =>
    refine verified_idle verified ?_ (updateComplete_state _ _)
    simp only [FirmwareUpdateObject.updateComplete]
    split_ifs <;> exact verified.hooked

theorem verified_callback {t : Traced} (verified : Verified t) (answer : CallbackAnswer) : Verified (t.callback answer) :=
  List.foldlRecOn _ _ verified (fun _ verified r _ => verified_report verified r)

/-- The reports of a callback, when no download goes on: the package is dropped if one of
    them completes an update, and nothing is delivered or applied. -/
theorem callback_settled (t : Traced) (settled : t.object.state = .Idle ∨ t.object.state = .Downloaded)
    (answer : CallbackAnswer) :
    (t.callback answer).history = t.history ∧
      (t.callback answer).object.callbacks = t.object.callbacks ∧
        (t.callback answer).object.state = (if completes answer.reports then .Idle else t.object.state) ∧
          (t.callback answer).object.packageData = (if completes answer.reports then [] else t.object.packageData) := by
  simp only [callback]
  generalize answer.reports = reports
  induction reports generalizing t with
  | nil => exact ⟨rfl,rfl,rfl,rfl⟩
  | cons r reports ih =>
    rw [List.foldl_cons]
    cases r with
    | downloadComplete success =>
      have ignored : t.report (.downloadComplete success) = t := by
        have elsewhere : t.object.state ≠ .Downloading := by
          rcases settled with state | state <;> simp [state]
        simp [report, downloadComplete, FirmwareUpdateObject.downloadComplete, elsewhere, set]
      rw [ignored]
      exact ih t settled
    | updateComplete result =>
      have same : (t.object.updateComplete result).callbacks = t.object.callbacks ∧
          (t.object.updateComplete result).packageData = [] := by
        simp only [FirmwareUpdateObject.updateComplete]
        split_ifs <;> exact ⟨rfl,rfl⟩
      have idle := updateComplete_state t.object result
      obtain ⟨history,callbacks,state,data⟩ := ih (t.report (.updateComplete result)) (.inl idle)
      have here : (t.report (.updateComplete result)).object = t.object.updateComplete result := rfl
      rw [here] at callbacks state data
      rw [idle, ite_self] at state
      rw [same.2, ite_self] at data
      exact ⟨history,callbacks.trans same.1,state,data⟩

theorem verified_pushPackage {t : Traced} (verified : Verified t) (env : Env) (data : Bytes)
    (passes : env.verifyPackage.result = .ok () → completes env.verifyPackage.reports = false ∨ data = [])
    (fails : ∀ e, env.verifyPackage.result = .error e → t.object.state = .Downloaded →
      completes env.verifyPackage.reports = true) : Verified (t.pushPackage env data).2 := by
  simp only [pushPackage]
  by_cases refused : t.object.state ≠ .Idle ∧ t.object.state ≠ .Downloaded
  · rwa [if_pos refused]
  · rw [if_neg refused]
    have settled : t.object.state = .Idle ∨ t.object.state = .Downloaded := by
      by_cases idle : t.object.state = .Idle
      · exact .inl idle
      · exact .inr (not_not.mp (fun elsewhere => refused ⟨idle,elsewhere⟩))
    have reported :=
      callback_settled (t.set { t.object with packageData := data, updateResult := .Initial }) settled env.verifyPackage
    simp only [set_object, set_history, verified.hooked, ↓reduceIte] at reported ⊢
    generalize (t.set { t.object with packageData := data, updateResult := .Initial }).callback env.verifyPackage = u
      at reported ⊢
    obtain ⟨history,callbacks,state,held⟩ := reported
    have hooked : u.object.callbacks.verifyPackage = true := by rw [callbacks, verified.hooked]
    have applied : Throughout AppliesVerified u.history := history ▸ verified.applied
    cases result : env.verifyPackage.result with
    | ok =>
      have held : u.object.packageData = data := by
        rcases passes result with kept | empty
        · simpa [kept] using held
        · simpa [empty] using held
      have elsewhere : u.object.state ≠ .Downloading := by
        rw [state]
        split_ifs
        · simp
        · rcases settled with state | state <;> simp [state]
      have noted : Verified (u.note (.delivery (.push data true))) :=
        ⟨hooked,fun _ => ⟨rfl,held⟩,fun downloading => absurd downloading elsewhere,trivial,applied⟩
      exact verified_enter noted ⟨rfl,held⟩
    | error e =>
      have idle : u.object.state = .Idle := by
        rw [state]
        split_ifs with completed
        · rfl
        · exact settled.resolve_right (fun downloaded => completed (fails e result downloaded))
      exact ⟨hooked,by simp [idle],by simp [idle],trivial,applied⟩

theorem verified_writePackageUri {t : Traced} (verified : Verified t) (idle : t.object.state = .Idle) (env : Env)
    (uri : Bytes) : Verified (t.writePackageUri env uri).2 := by
  simp only [writePackageUri]
  generalize stored : (t.note (.delivery (.uri uri))).set { t.object with packageUri := uri, updateResult := .Initial } = u
  have asked : Verified u := by
    subst stored
    exact ⟨verified.hooked,fun _ => trivial,fun _ _ => trivial,trivial,verified.applied⟩
  split
  · have started := verified_callback asked env.startDownload
    split
    · have history : (u.callback env.startDownload).history = .delivery (.uri uri) :: t.history := by
        subst stored
        exact (callback_settled _ (.inl (by exact idle)) env.startDownload).1
      refine verified_set started started.hooked (by rintro ⟨⟩) ?_
      intro _ held
      rw [history]
      trivial
    · exact verified_set started started.hooked started.downloaded started.downloading
  · exact asked

/-- Whichever call pushes the package. -/
theorem verified_pushed {t : Traced} (verified : Verified t) {call : Call} (allowed : t.object.Allowed call) {env : Env}
    {data : Bytes} (pushes : call.pushes = some (env,data)) : Verified (t.pushPackage env data).2 := by
  have allowed := allowed env data pushes
  refine verified_pushPackage verified env data ?_ ?_
  · intro passed
    simpa only [passed] using allowed
  · intro e failed
    simpa only [failed] using allowed

theorem verified_writeResource {t : Traced} (verified : Verified t) (env : Env) (iid rid : UInt16) (value : ResourceValue)
    (allowed : t.object.Allowed (.writeResource env iid rid value)) : Verified (t.writeResource env iid rid value).2 := by
  simp only [writeResource]
  split
  · exact verified
  rename_i here
  split
  · split
    · exact verified
    · cases value with
      | opaqueBytes data =>
        have here : iid = 0 := not_not.mp here
        subst here
        exact verified_pushed verified allowed rfl
      | _ => exact verified
  · split
    · exact verified
    · rename_i idle
      cases value.asString with
      | some uri => exact verified_writePackageUri verified (not_not.mp idle) env uri
      | none => exact verified
  · exact verified

theorem verified_executeResource {t : Traced} (verified : Verified t) (env : Env) (iid rid : UInt16) :
    Verified (t.executeResource env iid rid).2 := by
  simp only [executeResource]
  split
  · exact verified
  split
  · by_cases downloaded : t.object.state = .Downloaded
    · rw [if_neg (not_not.mpr downloaded)]
      split
      · have applied : Verified ((t.note (.apply t.object.state t.object.packageData)).set { t.object with state := .Updating }) :=
          ⟨verified.hooked,by rintro ⟨⟩,by rintro ⟨⟩,verified.downloaded downloaded,verified.applied⟩
        have reported := verified_callback applied env.applyUpdate
        split
        · exact reported
        · exact verified_idle reported reported.hooked rfl
      · exact verified
    · rwa [if_pos downloaded]
  · exact verified

theorem verified_perform {t : Traced} (verified : Verified t) {call : Call} (allowed : t.object.Allowed call) :
    Verified (t.perform call) := by
  cases call with
  | pushPackage env data => exact verified_pushed verified allowed rfl
  | writeResource env iid rid value => exact verified_writeResource verified env iid rid value allowed
  | executeResource env iid rid => exact verified_executeResource verified env iid rid
  | downloadComplete success => exact verified_report verified (.downloadComplete success)
  | updateComplete result => exact verified_report verified (.updateComplete result)

end Traced

/-- A call, on the object and its history. -/
def Step (t : Traced) (call : Call) (u : Traced) : Prop := u = t.perform call

theorem verified_step (t : Traced) (call : Call) (u : Traced) (verified : t.Verified)
    (stepped : Guarded (fun t call => t.object.Allowed call) Step t call u) : u.Verified := by
  obtain ⟨allowed,rfl⟩ := stepped
  exact Traced.verified_perform verified allowed

/-- In every run whose pushes are all allowed, what is applied after a push is the pushed
    package, and it has passed verification. -/
theorem appliesVerified_run (o : FirmwareUpdateObject) (idle : o.state = .Idle)
    (hooked : o.callbacks.verifyPackage = true) {calls : List Call} {u : Traced}
    (run : Run (Guarded (fun t call => t.object.Allowed call) Step) { object := o } calls u) :
    Throughout AppliesVerified u.history := by
  have start : Traced.Verified { object := o } := ⟨hooked,by simp [idle],by simp [idle],trivial⟩
  exact (run.keeps verified_step start).applied

/-- A package is pushed, verified and applied. -/
theorem appliesVerified_pushed :
    Throughout AppliesVerified
      ([Call.pushPackage {} [1], .executeResource {} 0 2].foldl Traced.perform { object := applying }).history := by
  have pushed : applying.Allowed (.pushPackage {} [1]) := by
    intro env data pushes
    cases pushes
    exact .inl rfl
  have executed : (applying.perform (.pushPackage {} [1])).Allowed (.executeResource {} 0 2) := by
    intro env data pushes
    cases pushes
  exact appliesVerified_run applying rfl rfl
    (.cons ⟨pushed,rfl⟩ (.cons (t := Traced.perform _ (.executeResource {} 0 2)) ⟨executed,rfl⟩ (.nil _)))

/-- The second package fails verification. -/
def failing : Env := { verifyPackage := { result := err .BadRequest "Signature mismatch" } }

/-- A good package is pushed, then a bad one; the update is executed. -/
def brokenPush : List Call := [.pushPackage {} [1], .pushPackage failing [2], .executeResource {} 0 2]

theorem run_perform (t : Traced) (calls : List Call) : Run Step t calls (calls.foldl Traced.perform t) := by
  have performs (u : Traced) (call : Call) : Step u call (u.perform call) := rfl
  exact run_foldl performs t calls

/-- The update is applied with no package held, after a push that failed. -/
theorem unverified_applied :
    Run Step { object := applying } brokenPush (brokenPush.foldl Traced.perform { object := applying }) ∧
      ¬ Throughout AppliesVerified (brokenPush.foldl Traced.perform { object := applying }).history :=
  ⟨run_perform _ _,by decide +kernel⟩

end Ferriot.Firmware
