import Ferriot.RefusedRequests
import Ferriot.Runs

/-!
# Runs of the firmware object

Pushes, writes, executions and reports in any order, with any answers of the
callbacks. Beside the object a history is kept, latest event first: the attempts
to deliver a package, each entry into the state Downloaded, and each call of
`apply_update`.
-/
namespace Ferriot.Firmware
open Runs

/-- An attempt to deliver a package that the state of the object lets through. -/
inductive Delivery where
  /-- A package is pushed, and passes `verify_package` or not. -/
  | push (data : Bytes) (passed : Bool)
  /-- A download is asked for. -/
  | uri (uri : Bytes)
deriving DecidableEq, Repr

inductive Event where
  | delivery (attempt : Delivery)
  /-- The state becomes Downloaded from another. -/
  | downloaded
  /-- `apply_update` is called by an execution that found the state, and the object holds the data. -/
  | apply (found : FirmwareState) (held : Bytes)
deriving DecidableEq, Repr

/-- An object and what has happened to it. -/
structure Traced where
  object : FirmwareUpdateObject
  history : List Event := []
deriving DecidableEq

/-- A call of the object, with the answers of its callbacks. -/
inductive Call where
  | pushPackage (env : Env) (data : Bytes)
  | writeResource (env : Env) (iid rid : UInt16) (value : ResourceValue)
  | executeResource (env : Env) (iid rid : UInt16)
  | downloadComplete (success : Bool)
  | updateComplete (result : FirmwareUpdateResult)

/-- The object after a call. -/
def FirmwareUpdateObject.perform (o : FirmwareUpdateObject) : Call → FirmwareUpdateObject
  | .pushPackage env data => (o.pushPackage env data).2
  | .writeResource env iid rid value => (o.writeResource env iid rid value).2
  | .executeResource env iid rid => (o.executeResource env iid rid).2
  | .downloadComplete success => o.downloadComplete success
  | .updateComplete result => o.updateComplete result

namespace Traced

def note (t : Traced) (e : Event) : Traced := { t with history := e :: t.history }

/-- Changes the object and nothing else. -/
def set (t : Traced) (object : FirmwareUpdateObject) : Traced := { t with object := object }

@[simp] theorem note_object (t : Traced) (e : Event) : (t.note e).object = t.object := rfl
@[simp] theorem note_history (t : Traced) (e : Event) : (t.note e).history = e :: t.history := rfl
@[simp] theorem set_object (t : Traced) (object : FirmwareUpdateObject) : (t.set object).object = object := rfl
@[simp] theorem set_history (t : Traced) (object : FirmwareUpdateObject) : (t.set object).history = t.history := rfl

/-- Stores Downloaded; an entry only if the state was another. -/
def enter (t : Traced) : Traced :=
  if t.object.state = .Downloaded then t else (t.set { t.object with state := .Downloaded }).note .downloaded

def downloadComplete (t : Traced) (success : Bool) : Traced :=
  if t.object.state = .Downloading ∧ success = true then t.enter
  else t.set (t.object.downloadComplete success)

def report (t : Traced) : FirmwareReport → Traced
  | .downloadComplete success => t.downloadComplete success
  | .updateComplete result => t.set (t.object.updateComplete result)

def callback (t : Traced) (answer : CallbackAnswer) : Traced := answer.reports.foldl report t

def pushPackage (env : Env) (t : Traced) (data : Bytes) : Result Unit × Traced :=
  if t.object.state ≠ .Idle ∧ t.object.state ≠ .Downloaded then
    (err .MethodNotAllowed "Cannot push package in current state",t)
  else
    let t := t.set { t.object with packageData := data, updateResult := .Initial }
    if t.object.callbacks.verifyPackage then
      let t := t.callback env.verifyPackage
      match env.verifyPackage.result with
      | .ok () => (.ok (),(t.note (.delivery (.push data true))).enter)
      | .error e =>
        (.error e,(t.note (.delivery (.push data false))).set
          { t.object with packageData := [], updateResult := .IntegrityCheckFailure })
    else (.ok (),(t.note (.delivery (.push data false))).enter)

def writePackageUri (env : Env) (t : Traced) (uri : Bytes) : Result Unit × Traced :=
  let t := (t.note (.delivery (.uri uri))).set { t.object with packageUri := uri, updateResult := .Initial }
  if t.object.callbacks.startDownload then
    let t := t.callback env.startDownload
    match env.startDownload.result with
    | .ok () => (.ok (),t.set { t.object with state := .Downloading })
    | .error e => (.error e,t.set { t.object with updateResult := .InvalidUri })
  else (.ok (),t)

def writeResource (env : Env) (t : Traced) (iid rid : UInt16) (value : ResourceValue) : Result Unit × Traced :=
  if iid ≠ 0 then (err .NotFound "Instance not found",t)
  else
    match rid with
    | 0 =>
      if t.object.state ≠ .Idle ∧ t.object.state ≠ .Downloaded then
        (err .MethodNotAllowed "Cannot write package in current state",t)
      else
        match value.asOpaque with
        | some data => t.pushPackage env data
        | none => (err .BadRequest "Invalid value type",t)
    | 1 =>
      if t.object.state ≠ .Idle then (err .MethodNotAllowed "Cannot write URI in current state",t)
      else
        match value.asString with
        | some uri => t.writePackageUri env uri
        | none => (err .BadRequest "Invalid value type",t)
    | _ => (err .MethodNotAllowed "Resource is read-only",t)

def executeResource (env : Env) (t : Traced) (iid rid : UInt16) : Result Unit × Traced :=
  if iid ≠ 0 then (err .NotFound "Instance not found",t)
  else
    match rid with
    | 2 =>
      if t.object.state ≠ .Downloaded then (err .MethodNotAllowed "Cannot update: not in Downloaded state",t)
      else if t.object.callbacks.applyUpdate then
        let t := (t.note (.apply t.object.state t.object.packageData)).set { t.object with state := .Updating }
        let t := t.callback env.applyUpdate
        match env.applyUpdate.result with
        | .ok () => (.ok (),t)
        | .error e => (.error e,t.set { t.object with state := .Idle, updateResult := .UpdateFailed })
      else (.ok (),t)
    | _ => (err .MethodNotAllowed "Resource is not executable",t)

def perform (t : Traced) : Call → Traced
  | .pushPackage env data => (t.pushPackage env data).2
  | .writeResource env iid rid value => (t.writeResource env iid rid value).2
  | .executeResource env iid rid => (t.executeResource env iid rid).2
  | .downloadComplete success => t.downloadComplete success
  | .updateComplete result => t.set (t.object.updateComplete result)

theorem enter_object (t : Traced) : t.enter.object = { t.object with state := .Downloaded } := by
  simp only [enter]
  by_cases already : t.object.state = .Downloaded
  · rw [if_pos already, ← already]
  · rw [if_neg already]
    rfl

theorem report_object (t : Traced) (r : FirmwareReport) : (t.report r).object = t.object.report r := by
  cases r with
  | downloadComplete success =>
    simp only [report, downloadComplete, FirmwareUpdateObject.report, FirmwareUpdateObject.downloadComplete]
    by_cases taken : t.object.state = .Downloading ∧ success = true
    · simp only [taken, enter_object, and_self, not_true_eq_false, ↓reduceIte, ne_eq]
    · rw [if_neg taken]
      rfl
  | updateComplete result => rfl

theorem callback_object (t : Traced) (answer : CallbackAnswer) : (t.callback answer).object = t.object.callback answer := by
  unfold callback FirmwareUpdateObject.callback
  generalize answer.reports = reports
  induction reports generalizing t with
  | nil => rfl
  | cons r reports ih => rw [List.foldl_cons, List.foldl_cons, ih, report_object]

/-- A traced call and the call answer alike and leave the same object. -/
def Erases (traced : Result Unit × Traced) (plain : Result Unit × FirmwareUpdateObject) : Prop :=
  traced.1 = plain.1 ∧ traced.2.object = plain.2

theorem pushPackage_erases (env : Env) (t : Traced) (data : Bytes) :
    Erases (t.pushPackage env data) (t.object.pushPackage env data) := by
  simp only [Erases, pushPackage, FirmwareUpdateObject.pushPackage]
  by_cases refused : t.object.state ≠ .Idle ∧ t.object.state ≠ .Downloaded
  · simp only [if_pos refused, and_self]
  · simp only [if_neg refused, set]
    by_cases verifies : t.object.callbacks.verifyPackage
    · simp only [verifies, ↓reduceIte]
      cases env.verifyPackage.result <;> simp only [note, enter_object, callback_object, and_self]
    · simp [verifies, note, enter_object]

theorem writePackageUri_erases (env : Env) (t : Traced) (uri : Bytes) :
    Erases (t.writePackageUri env uri) (t.object.writePackageUri env uri) := by
  simp only [Erases, writePackageUri, FirmwareUpdateObject.writePackageUri, note, set]
  by_cases starts : t.object.callbacks.startDownload
  · simp only [starts, ↓reduceIte]
    cases env.startDownload.result <;> simp only [callback_object, and_self]
  · simp [starts]

theorem writeResource_erases (env : Env) (t : Traced) (iid rid : UInt16) (value : ResourceValue) :
    Erases (t.writeResource env iid rid value) (t.object.writeResource env iid rid value) := by
  simp only [writeResource, FirmwareUpdateObject.writeResource]
  split
  · exact ⟨rfl,rfl⟩
  split
  · split
    · exact ⟨rfl,rfl⟩
    · cases value.asOpaque with
      | some data => exact pushPackage_erases env t data
      | none => exact ⟨rfl,rfl⟩
  · split
    · exact ⟨rfl,rfl⟩
    · cases value.asString with
      | some uri => exact writePackageUri_erases env t uri
      | none => exact ⟨rfl,rfl⟩
  · simp [Erases]

theorem executeResource_erases (env : Env) (t : Traced) (iid rid : UInt16) :
    Erases (t.executeResource env iid rid) (t.object.executeResource env iid rid) := by
  simp only [executeResource, FirmwareUpdateObject.executeResource]
  split
  · exact ⟨rfl,rfl⟩
  split
  · split
    · exact ⟨rfl,rfl⟩
    split
    · simp only [Erases, note, set]
      cases env.applyUpdate.result <;> simp only [callback_object, and_self]
    · exact ⟨rfl,rfl⟩
  · simp [Erases]

/-- A traced run goes through the states of the run. -/
theorem perform_object (t : Traced) (call : Call) : (t.perform call).object = t.object.perform call := by
  cases call with
  | pushPackage env data => exact (pushPackage_erases env t data).2
  | writeResource env iid rid value => exact (writeResource_erases env t iid rid value).2
  | executeResource env iid rid => exact (executeResource_erases env t iid rid).2
  | downloadComplete success => exact report_object t (.downloadComplete success)
  | updateComplete result => rfl

theorem foldl_perform_object (t : Traced) (calls : List Call) :
    (calls.foldl perform t).object = calls.foldl FirmwareUpdateObject.perform t.object := by
  induction calls generalizing t with
  | nil => rfl
  | cons call calls ih => rw [List.foldl_cons, List.foldl_cons, ih, perform_object]

/-- The entries into the state Downloaded. -/
def entries : List Event → Nat
  | [] => 0
  | .downloaded :: older => entries older + 1
  | _ :: older => entries older

/-- The calls of `apply_update`. -/
def applies : List Event → Nat
  | [] => 0
  | .apply _ _ :: older => applies older + 1
  | _ :: older => applies older

/-- An update is applied from Downloaded, and only one for each entry into it. -/
def InTurn (e : Event) (older : List Event) : Prop :=
  match e with
  | .apply found _ => found = .Downloaded ∧ applies older < entries older
  | _ => True

/-- While the state is Downloaded, the last entry has not been used up. -/
structure Counted (t : Traced) : Prop where
  inTurn : Throughout InTurn t.history
  bound : applies t.history ≤ entries t.history
  unused : t.object.state = .Downloaded → applies t.history < entries t.history

theorem counted_set {t : Traced} (counted : Counted t) {object : FirmwareUpdateObject}
    (state : object.state = .Downloaded → t.object.state = .Downloaded) : Counted (t.set object) :=
  ⟨counted.inTurn,counted.bound,fun downloaded => counted.unused (state downloaded)⟩

theorem counted_delivery {t : Traced} (counted : Counted t) (attempt : Delivery) :
    Counted (t.note (.delivery attempt)) :=
  ⟨⟨trivial,counted.inTurn⟩,counted.bound,counted.unused⟩

theorem counted_enter {t : Traced} (counted : Counted t) : Counted t.enter := by
  simp only [enter]
  by_cases already : t.object.state = .Downloaded
  · rwa [if_pos already]
  · rw [if_neg already]
    have more : applies t.history < entries t.history + 1 := Nat.lt_succ_of_le counted.bound
    exact ⟨⟨trivial,counted.inTurn⟩,more.le,fun _ => more⟩

/-- The update uses up the entry. -/
theorem counted_apply {t : Traced} (counted : Counted t) (downloaded : t.object.state = .Downloaded) :
    Counted ((t.note (.apply t.object.state t.object.packageData)).set { t.object with state := .Updating }) := by
  have fresh := counted.unused downloaded
  exact ⟨⟨⟨downloaded,fresh⟩,counted.inTurn⟩,fresh,by rintro ⟨⟩⟩

theorem counted_downloadComplete {t : Traced} (counted : Counted t) (success : Bool) :
    Counted (t.downloadComplete success) := by
  simp only [downloadComplete]
  by_cases taken : t.object.state = .Downloading ∧ success = true
  · rw [if_pos taken]
    exact counted_enter counted
  · rw [if_neg taken]
    refine counted_set counted ?_
    simp only [FirmwareUpdateObject.downloadComplete]
    split_ifs with ignored succeeds
    · exact id
    · exact absurd ⟨not_not.mp ignored,succeeds⟩ taken
    · rintro ⟨⟩

theorem updateComplete_state (o : FirmwareUpdateObject) (result : FirmwareUpdateResult) :
    (o.updateComplete result).state = .Idle := by
  simp only [FirmwareUpdateObject.updateComplete]
  split_ifs <;> rfl

theorem counted_report {t : Traced} (counted : Counted t) (r : FirmwareReport) : Counted (t.report r) := by
  cases r with
  | downloadComplete success => exact counted_downloadComplete counted success
  | updateComplete result =>
    refine counted_set counted ?_
    rw [updateComplete_state]
    rintro ⟨⟩

theorem counted_callback {t : Traced} (counted : Counted t) (answer : CallbackAnswer) : Counted (t.callback answer) :=
  List.foldlRecOn _ _ counted (fun _ counted r _ => counted_report counted r)

theorem counted_pushPackage {t : Traced} (counted : Counted t) (env : Env) (data : Bytes) :
    Counted (t.pushPackage env data).2 := by
  simp only [pushPackage]
  by_cases refused : t.object.state ≠ .Idle ∧ t.object.state ≠ .Downloaded
  · rwa [if_pos refused]
  · rw [if_neg refused]
    have stored : Counted (t.set { t.object with packageData := data, updateResult := .Initial }) :=
      counted_set counted id
    split
    · have verified := counted_callback stored env.verifyPackage
      split
      · exact counted_enter (counted_delivery verified _)
      · exact counted_set (counted_delivery verified _) id
    · exact counted_enter (counted_delivery stored _)

theorem counted_writePackageUri {t : Traced} (counted : Counted t) (env : Env) (uri : Bytes) :
    Counted (t.writePackageUri env uri).2 := by
  simp only [writePackageUri]
  have stored : Counted ((t.note (.delivery (.uri uri))).set { t.object with packageUri := uri, updateResult := .Initial }) :=
    counted_set (counted_delivery counted _) id
  split
  · have started := counted_callback stored env.startDownload
    split
    · exact counted_set started (by rintro ⟨⟩)
    · exact counted_set started id
  · exact stored

theorem counted_writeResource {t : Traced} (counted : Counted t) (env : Env) (iid rid : UInt16) (value : ResourceValue) :
    Counted (t.writeResource env iid rid value).2 := by
  simp only [writeResource]
  split
  · exact counted
  split
  · split
    · exact counted
    · cases value.asOpaque with
      | some data => exact counted_pushPackage counted env data
      | none => exact counted
  · split
    · exact counted
    · cases value.asString with
      | some uri => exact counted_writePackageUri counted env uri
      | none => exact counted
  · exact counted

theorem counted_executeResource {t : Traced} (counted : Counted t) (env : Env) (iid rid : UInt16) :
    Counted (t.executeResource env iid rid).2 := by
  simp only [executeResource]
  split
  · exact counted
  split
  · by_cases downloaded : t.object.state = .Downloaded
    · rw [if_neg (not_not.mpr downloaded)]
      split
      · have applied := counted_callback (counted_apply counted downloaded) env.applyUpdate
        split
        · exact applied
        · exact counted_set applied (by rintro ⟨⟩)
      · exact counted
    · rwa [if_pos downloaded]
  · exact counted

theorem counted_perform {t : Traced} (counted : Counted t) (call : Call) : Counted (t.perform call) := by
  cases call with
  | pushPackage env data => exact counted_pushPackage counted env data
  | writeResource env iid rid value => exact counted_writeResource counted env iid rid value
  | executeResource env iid rid => exact counted_executeResource counted env iid rid
  | downloadComplete success => exact counted_report counted (.downloadComplete success)
  | updateComplete result => exact counted_report counted (.updateComplete result)

theorem counted_foldl {t : Traced} (counted : Counted t) (calls : List Call) : Counted (calls.foldl perform t) :=
  List.foldlRecOn _ _ counted (fun _ counted call _ => counted_perform counted call)

end Traced

/-! ### Server requests -/

/-- The writes of the records of an instance write. -/
def recordCalls (iid : UInt16) : Moments → List Tlv.TlvRecord → List Call
  | _, [] => []
  | moments, record :: records =>
    let others := recordCalls iid moments.later records
    if record.type = .Resource then
      match Tlv.decodeResource record.value ((FirmwareUpdateObject.getResourceType record.id).getD .String) with
      | .ok value => .writeResource (moments 0) iid record.id value :: others
      | .error _ => others
    else others

/-- The writes of a PUT, or of a POST that executes nothing. -/
def writeCalls (moments : Moments) (path : ObjectPath) (payload : Bytes) : List Call :=
  match Tlv.decode payload with
  | .error _ => []
  | .ok records =>
    if path.isResource then
      let rid := path.resourceId.getD 0
      match records with
      | [] => []
      | record :: _ =>
        match Tlv.decodeResource record.value ((FirmwareUpdateObject.getResourceType rid).getD .String) with
        | .ok value => [.writeResource (moments 0) (path.instanceId.getD 0) rid value]
        | .error _ => []
    else if path.isInstance then recordCalls (path.instanceId.getD 0) moments records
    else []

/-- The calls that a server request makes of the object, reads apart. -/
def requestCalls (moments : Moments) (request : CoapRequest) (path : ObjectPath) : List Call :=
  match request.method with
  | .Get | .Delete => []
  | .Put => writeCalls moments path request.payload
  | .Post =>
    if path.isResource then [.executeResource (moments 0) (path.instanceId.getD 0) (path.resourceId.getD 0)]
    else writeCalls moments path request.payload

section
open Requests

theorem writeRecords_calls (iid : UInt16) (moments : Moments) (records : List Tlv.TlvRecord) (o : FirmwareUpdateObject) :
    writeRecords iid moments records o = (recordCalls iid moments records).foldl FirmwareUpdateObject.perform o := by
  induction records generalizing moments o with
  | nil => rfl
  | cons record records ih =>
    rw [writeRecords, ih, recordCalls, writeRecord]
    have same : expectedType o iid record.id = (FirmwareUpdateObject.getResourceType record.id).getD .String := rfl
    rw [same]
    by_cases resource : record.type = .Resource
    · rw [if_pos resource, if_pos resource]
      cases Tlv.decodeResource record.value ((FirmwareUpdateObject.getResourceType record.id).getD .String) <;> rfl
    · rw [if_neg resource, if_neg resource]

theorem processWrite_calls (moments : Moments) (path : ObjectPath) (payload : Bytes) (o : FirmwareUpdateObject) :
    (processWrite moments path payload o).2 = (writeCalls moments path payload).foldl FirmwareUpdateObject.perform o := by
  simp only [processWrite, writeCalls]
  cases Tlv.decode payload with
  | error e => rfl
  | ok records =>
    by_cases resource : path.isResource
    · simp only [resource, ↓reduceIte, writeFirst]
      cases records with
      | nil => rfl
      | cons record records =>
        have same : expectedType o (path.instanceId.getD 0) (path.resourceId.getD 0) =
          (FirmwareUpdateObject.getResourceType (path.resourceId.getD 0)).getD .String := rfl
        simp only [same]
        cases Tlv.decodeResource record.value
          ((FirmwareUpdateObject.getResourceType (path.resourceId.getD 0)).getD .String) <;> rfl
    · by_cases whole : path.isInstance
      · simp [resource, whole, writeRecords_calls]
      · simp only [resource, whole, Bool.false_eq_true, ↓reduceIte, List.foldl_nil]
        split <;> rfl

/-- A server request is its calls, one after the other. -/
theorem process_calls (moments : Moments) (request : CoapRequest) (path : ObjectPath) (o : FirmwareUpdateObject) :
    (process moments request path o).2 = (requestCalls moments request path).foldl FirmwareUpdateObject.perform o := by
  simp only [requestCalls]
  cases method : request.method with
  | Get => exact process_get moments method path o
  | Put =>
    simp only [process, method]
    exact processWrite_calls moments path request.payload o
  | Post =>
    simp only [process, method]
    by_cases resource : path.isResource
    · simp only [resource, ↓reduceIte]
      rfl
    · simp only [resource, Bool.false_eq_true, ↓reduceIte]
      exact processWrite_calls moments path request.payload o
  | Delete =>
    simp only [process, method]
    rfl

end

/-- What the object is given: a request of a server, once its path is parsed, or a call of the application. -/
inductive Input where
  | request (moments : Moments) (request : CoapRequest) (path : ObjectPath)
  | call (call : Call)

def FirmwareUpdateObject.handle (o : FirmwareUpdateObject) : Input → FirmwareUpdateObject
  | .request moments request path => (Requests.process moments request path o).2
  | .call call => o.perform call

def Traced.handle (t : Traced) : Input → Traced
  | .request moments request path => (requestCalls moments request path).foldl perform t
  | .call call => t.perform call

theorem handle_object (t : Traced) (input : Input) : (t.handle input).object = t.object.handle input := by
  cases input with
  | request moments request path =>
    simp only [Traced.handle, FirmwareUpdateObject.handle]
    rw [Traced.foldl_perform_object, process_calls]
  | call call => exact Traced.perform_object t call

theorem foldl_handle_object (t : Traced) (inputs : List Input) :
    (inputs.foldl Traced.handle t).object = inputs.foldl FirmwareUpdateObject.handle t.object := by
  induction inputs generalizing t with
  | nil => rfl
  | cons input inputs ih => rw [List.foldl_cons, List.foldl_cons, ih, handle_object]

theorem counted_handle {t : Traced} (counted : t.Counted) (input : Input) : (t.handle input).Counted := by
  cases input with
  | request moments request path => exact Traced.counted_foldl counted _
  | call call => exact Traced.counted_perform counted call

/-- Every write, execution and push is refused with an error, and no server request changes a field. -/
structure Refuses (o : FirmwareUpdateObject) : Prop where
  write (env : Env) (iid rid : UInt16) (value : ResourceValue) : ∃ e, o.writeResource env iid rid value = (.error e,o)
  execute (env : Env) (iid rid : UInt16) : ∃ e, o.executeResource env iid rid = (.error e,o)
  push (env : Env) (data : Bytes) : ∃ e, o.pushPackage env data = (.error e,o)
  request (moments : Moments) (request : CoapRequest) (path : ObjectPath) :
    (Requests.process moments request path o).2 = o

/-- A call of a server request. -/
def Call.FromServer : Call → Prop
  | .writeResource _ _ _ _ => True
  | .executeResource _ _ _ => True
  | _ => False

theorem recordCalls_fromServer (iid : UInt16) (moments : Moments) (records : List Tlv.TlvRecord) :
    ∀ call ∈ recordCalls iid moments records, call.FromServer := by
  induction records generalizing moments with
  | nil => simp [recordCalls]
  | cons record records ih =>
    simp only [recordCalls]
    split
    · split
      · exact List.forall_mem_cons.mpr ⟨trivial,ih moments.later⟩
      · exact ih moments.later
    · exact ih moments.later

theorem writeCalls_fromServer (moments : Moments) (path : ObjectPath) (payload : Bytes) :
    ∀ call ∈ writeCalls moments path payload, call.FromServer := by
  simp only [writeCalls]
  split
  · simp
  · split
    · split
      · simp
      · split <;> simp [Call.FromServer]
    · split
      · exact recordCalls_fromServer _ _ _
      · simp

theorem requestCalls_fromServer (moments : Moments) (request : CoapRequest) (path : ObjectPath) :
    ∀ call ∈ requestCalls moments request path, call.FromServer := by
  simp only [requestCalls]
  cases request.method with
  | Get | Delete => simp
  | Put => exact writeCalls_fromServer moments path request.payload
  | Post =>
    by_cases resource : path.isResource
    · simp [resource, Call.FromServer]
    · simp only [resource, Bool.false_eq_true, ↓reduceIte]
      exact writeCalls_fromServer moments path request.payload

theorem busy_write {o : FirmwareUpdateObject} (busy : o.state ≠ .Idle ∧ o.state ≠ .Downloaded) (env : Env)
    (iid rid : UInt16) (value : ResourceValue) : ∃ e, o.writeResource env iid rid value = (.error e,o) := by
  simp only [FirmwareUpdateObject.writeResource]
  rw [if_pos busy, if_pos busy.1]
  split
  · exact ⟨_,rfl⟩
  · split <;> exact ⟨_,rfl⟩

theorem busy_execute {o : FirmwareUpdateObject} (busy : o.state ≠ .Idle ∧ o.state ≠ .Downloaded) (env : Env)
    (iid rid : UInt16) : ∃ e, o.executeResource env iid rid = (.error e,o) := by
  simp only [FirmwareUpdateObject.executeResource]
  split
  · exact ⟨_,rfl⟩
  split
  · rw [if_pos busy.2]
    exact ⟨_,rfl⟩
  · exact ⟨_,rfl⟩

theorem busy_perform {o : FirmwareUpdateObject} (busy : o.state ≠ .Idle ∧ o.state ≠ .Downloaded) {call : Call}
    (fromServer : call.FromServer) : o.perform call = o := by
  cases call with
  | writeResource env iid rid value =>
    obtain ⟨e,refused⟩ := busy_write busy env iid rid value
    simp only [FirmwareUpdateObject.perform, refused]
  | executeResource env iid rid =>
    obtain ⟨e,refused⟩ := busy_execute busy env iid rid
    simp only [FirmwareUpdateObject.perform, refused]
  | _ => cases fromServer

theorem busy_refuses {o : FirmwareUpdateObject} (busy : o.state = .Downloading ∨ o.state = .Updating) : Refuses o := by
  have busy : o.state ≠ .Idle ∧ o.state ≠ .Downloaded := by
    rcases busy with state | state <;> simp [state]
  refine ⟨busy_write busy,busy_execute busy,fun env data => ⟨_,if_pos busy⟩,?_⟩
  intro moments request path
  rw [process_calls]
  have fromServer := requestCalls_fromServer moments request path
  refine List.foldlRecOn (motive := fun o' => o' = o) _ _ rfl ?_
  rintro o' rfl call member
  exact busy_perform busy (fromServer call member)

/-! ### In turn -/

/-- In every run, an update is applied from Downloaded only and at most once for each
    entry into it; while a download or an update goes on, everything is refused. -/
theorem applied_in_turn (o : FirmwareUpdateObject) (idle : o.state = .Idle) (inputs : List Input) :
    let t := inputs.foldl Traced.handle { object := o }
    t.object = inputs.foldl FirmwareUpdateObject.handle o ∧
      Throughout Traced.InTurn t.history ∧ Traced.applies t.history ≤ Traced.entries t.history ∧
        (t.object.state = .Downloading ∨ t.object.state = .Updating → Refuses t.object) := by
  intro t
  have start : Traced.Counted { object := o } := ⟨trivial,le_rfl,by simp [idle]⟩
  have counted : t.Counted := List.foldlRecOn _ _ start (fun _ counted input _ => counted_handle counted input)
  exact ⟨foldl_handle_object { object := o } inputs,counted.inTurn,counted.bound,busy_refuses⟩

/-- An application that verifies and applies what it is given. -/
def applying : FirmwareUpdateObject := { callbacks := { verifyPackage := true, applyUpdate := true } }

theorem applied_in_turn_sample :
    let t := [Input.call (.pushPackage {} [1]), .call (.executeResource {} 0 2)].foldl Traced.handle { object := applying }
    Throughout Traced.InTurn t.history ∧ Traced.applies t.history = 1 ∧ Refuses t.object := by
  intro t
  obtain ⟨-,inTurn,-,refuses⟩ :=
    applied_in_turn applying rfl [.call (.pushPackage {} [1]), .call (.executeResource {} 0 2)]
  exact ⟨inTurn,rfl,refuses (.inr rfl)⟩

end Ferriot.Firmware
