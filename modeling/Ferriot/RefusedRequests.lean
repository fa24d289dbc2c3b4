import Ferriot.DefinedAnswers

/-!
# Requests that change nothing

Every object checks before it stores, and reads of the objects that the client
owns store nothing. So a request that only reads, or that is answered with an
error, leaves the accounts and the device as they were.
-/
namespace Ferriot
open Requests

/-- A call that fails leaves the object as it was. -/
def FailsClean {α σ : Type} (o : σ) (called : Result α × σ) : Prop := ∀ e, called.1 = .error e → called.2 = o

theorem failsClean_same {α σ : Type} (o : σ) (result : Result α) : FailsClean o (result,o) := fun _ _ => rfl

/-- An object whose reads store nothing. -/
class ReadsClean (σ : Type) [Object σ] : Prop where
  read (env : Env) (o : σ) (iid rid : UInt16) (riid : Option UInt16) : (Object.readResource env o iid rid riid).2 = o

/-- An object whose reads and whose calls that fail store nothing. -/
class Steady (σ : Type) [Object σ] : Prop extends ReadsClean σ where
  create (o : σ) (suggested : Option UInt16) : FailsClean o (Object.createInstance o suggested)
  delete (o : σ) (iid : UInt16) : FailsClean o (Object.deleteInstance o iid)
  write (env : Env) (o : σ) (iid rid : UInt16) (riid : Option UInt16) (value : ResourceValue) :
    FailsClean o (Object.writeResource env o iid rid riid value)
  execute (env : Env) (o : σ) (iid rid : UInt16) (arguments : Bytes) (e : Error)
    (fails : (Object.executeResource env o iid rid arguments).1 = .error e) :
    (Object.executeResource env o iid rid arguments).2 = (o,none)

namespace Instances
variable {α : Type}

theorem createInstance_clean (fresh : α) (o : Instances α) (suggested : Option UInt16) :
    FailsClean o (createInstance fresh o suggested) := by
  intro e fails
  simp only [createInstance] at fails ⊢
  split at fails
  · next taken => rw [if_pos taken]
  · cases fails

theorem deleteInstance_clean (o : Instances α) (iid : UInt16) : FailsClean o (deleteInstance o iid) := by
  intro e fails
  simp only [deleteInstance] at fails ⊢
  split at fails
  · cases fails
  · next absent => rw [if_neg absent]

theorem writeResource_clean (write : α → Result α) (o : Instances α) (iid : UInt16) :
    FailsClean o (writeResource write o iid) := by
  intro e fails
  simp only [writeResource] at fails ⊢
  cases found : o.instances.lookup iid with
  | none => simp only
  | some inst =>
    simp only [found] at fails ⊢
    cases written : write inst with
    | error e => simp only
    | ok inst => simp [written] at fails

end Instances

instance : Steady SecurityObject where
  read _ _ _ _ _ := rfl
  create o suggested := Instances.createInstance_clean {} o suggested
  delete o iid := Instances.deleteInstance_clean o iid
  write _ o iid rid _ value := Instances.writeResource_clean (SecurityInstance.writeResource rid value) o iid
  execute _ _ _ _ _ _ _ := rfl

/-- The store of the server object is all that its calls change. -/
theorem ServerObject.store_clean {α : Type} (o : ServerObject) (called : Result α × Instances ServerInstance)
    (clean : FailsClean o.store called) : FailsClean o (called.1,{ o with store := called.2 }) := by
  intro e fails
  show { o with store := called.2 } = o
  rw [clean e fails]

instance : Steady ServerObject where
  read _ _ _ _ _ := rfl
  create o suggested :=
    o.store_clean (o.store.createInstance {} suggested) (Instances.createInstance_clean {} o.store suggested)
  delete o iid := o.store_clean (o.store.deleteInstance iid) (Instances.deleteInstance_clean o.store iid)
  write _ o iid rid _ value :=
    o.store_clean (o.store.writeResource (ServerInstance.writeResource rid value) iid)
      (Instances.writeResource_clean (ServerInstance.writeResource rid value) o.store iid)
  execute _ o iid rid _ e fails := by
    have untriggered : (o.executeResource iid rid).2 = none := by
      have fails : (o.executeResource iid rid).1 = .error e := fails
      simp only [ServerObject.executeResource] at fails ⊢
      split
      · rfl
      · next inst found =>
        rw [found] at fails
        simp only at fails ⊢
        split at fails
        · cases fails
        · cases fails
        · cases fails
        · simp_all
    show (o,(o.executeResource iid rid).2) = (o,none)
    rw [untriggered]

theorem stored_clean {σ : Type} (o : σ) (result : Result σ) : FailsClean o (stored o result) := by
  intro e fails
  cases result with
  | error => rfl
  | ok => cases fails

theorem DeviceObject.executeResource_clean (o : DeviceObject) (iid rid : UInt16) :
    FailsClean o (o.executeResource iid rid) := by
  intro e fails
  simp only [executeResource] at fails ⊢
  split at fails
  · next absent => rw [if_pos absent]
  · next present =>
    rw [if_neg present]
    split at fails
    · cases fails
    · cases fails
    · cases fails
    · simp_all

instance : Steady DeviceObject where
  read _ _ _ _ _ := rfl
  create o _ := failsClean_same o _
  delete o _ := failsClean_same o _
  write _ o iid rid _ value := stored_clean o (o.writeResource iid rid value)
  execute _ o iid rid _ e fails := by
    show ((o.executeResource iid rid).2,none) = (o,none)
    rw [o.executeResource_clean iid rid e fails]

instance : Steady ConnectivityObject where
  read _ _ _ _ _ := rfl
  create o _ := failsClean_same o _
  delete o _ := failsClean_same o _
  write _ o _ _ _ _ := failsClean_same o _
  execute _ _ _ _ _ _ _ := rfl

instance : ReadsClean Firmware.FirmwareUpdateObject where
  read _ _ _ _ _ := rfl

namespace Requests

section Handlers
variable {σ : Type} [Object σ]

section
variable [ReadsClean σ]

theorem readResources_same (iid : UInt16) (moments : Moments) (rids : List UInt16) (o : σ) :
    (readResources iid moments rids o).2.1 = o := by
  induction rids generalizing moments with
  | nil => rfl
  | cons rid rids ih =>
    simp only [readResources, ReadsClean.read]
    split <;> exact ih moments.later

theorem encodeInstanceTlv_same (iid : UInt16) (moments : Moments) (o : σ) : (encodeInstanceTlv iid moments o).2.1 = o := by
  simp only [encodeInstanceTlv]
  split <;> exact readResources_same iid moments _ o

theorem encodeInstances_same (iids : List UInt16) (moments : Moments) (o : σ) : (encodeInstances iids moments o).2 = o := by
  induction iids generalizing moments with
  | nil => rfl
  | cons iid iids ih =>
    simp only [encodeInstances, encodeInstanceTlv_same]
    exact ih _

theorem processRead_same (moments : Moments) (path : ObjectPath) (o : σ) : (processRead moments path o).2 = o := by
  simp only [processRead]
  by_cases object : path.isObject
  · simp only [object, ↓reduceIte, encodeInstances_same]
  · by_cases whole : path.isInstance
    · simp only [object, whole, Bool.false_eq_true, ↓reduceIte]
      split
      · exact encodeInstanceTlv_same _ _ o
      · rfl
    · simp only [object, whole, Bool.false_eq_true, ↓reduceIte, ReadsClean.read]
      split
      · split
        · rfl
        · split <;> rfl
      · rfl

theorem process_get (moments : Moments) {request : CoapRequest} (get : request.method = .Get) (path : ObjectPath) (o : σ) :
    (process moments request path o).2 = o := by
  simp only [process, get]
  exact processRead_same moments path o

end

variable [Steady σ]

theorem resultCode_fails {α : Type} {success : CoapCode} (succeeds : success.isSuccess = true) {result : Result α}
    (fails : (resultCode success result).isSuccess = false) : ∃ e, result = .error e := by
  cases result with
  | error e => exact ⟨e,rfl⟩
  | ok a => exact absurd succeeds (by simp [show success.isSuccess = false from fails])

theorem writeFirst_refused (env : Env) (iid rid : UInt16) (riid : Option UInt16) (records : List Tlv.TlvRecord) (o : σ)
    (refused : (writeFirst env iid rid riid records o).1.isSuccess = false) :
    (writeFirst env iid rid riid records o).2 = o := by
  simp only [writeFirst] at refused ⊢
  cases records with
  | nil => rfl
  | cons record records =>
    cases decoded : Tlv.decodeResource record.value (expectedType o iid rid) with
    | error e => simp only [decoded]
    | ok value =>
      simp only [decoded] at refused ⊢
      obtain ⟨e,fails⟩ := resultCode_fails rfl refused
      exact Steady.write env o iid rid riid value e fails

theorem processWrite_refused (moments : Moments) (path : ObjectPath) (payload : Bytes) (o : σ)
    (refused : (processWrite moments path payload o).1.isSuccess = false) : (processWrite moments path payload o).2 = o := by
  simp only [processWrite] at refused ⊢
  cases decoded : Tlv.decode payload with
  | error e => simp only
  | ok records =>
    simp only [decoded] at refused ⊢
    by_cases resource : path.isResource
    · simp only [resource, ↓reduceIte] at refused ⊢
      exact writeFirst_refused _ _ _ _ _ o refused
    · simp only [resource, Bool.false_eq_true, ↓reduceIte] at refused ⊢
      by_cases whole : path.isInstance
      · simp only [whole, ↓reduceIte] at refused
        cases refused
      · simp only [whole, Bool.false_eq_true, ↓reduceIte] at refused ⊢
        by_cases object : path.isObject
        · simp only [object, ↓reduceIte] at refused ⊢
          obtain ⟨e,fails⟩ := resultCode_fails rfl refused
          exact Steady.create o none e fails
        · simp only [object, Bool.false_eq_true, ↓reduceIte]

theorem process_refused (moments : Moments) (request : CoapRequest) (path : ObjectPath) (o : σ)
    (refused : request.method = .Get ∨ (process moments request path o).1.1.isSuccess = false) :
    (process moments request path o).2 = o ∧ (process moments request path o).1.2 = none := by
  by_cases get : request.method = .Get
  · exact ⟨process_get moments get path o,by simp only [process, get]⟩
  have refused : (process moments request path o).1.1.isSuccess = false := refused.resolve_left get
  simp only [process] at refused ⊢
  cases method : request.method with
  | Get => exact absurd method get
  | Put =>
    simp only [method] at refused
    exact ⟨processWrite_refused _ _ _ o refused,rfl⟩
  | Post =>
    simp only [method] at refused
    by_cases resource : path.isResource
    · simp only [resource, ↓reduceIte] at refused ⊢
      obtain ⟨e,fails⟩ := resultCode_fails rfl refused
      have same := Steady.execute _ o _ _ _ e fails
      simp only [processExecute]
      exact ⟨congrArg Prod.fst same,congrArg Prod.snd same⟩
    · simp only [resource, Bool.false_eq_true, ↓reduceIte, and_true] at refused ⊢
      exact processWrite_refused _ _ _ o refused
  | Delete =>
    simp only [method] at refused
    obtain ⟨e,fails⟩ := resultCode_fails rfl refused
    exact ⟨Steady.delete o _ e fails,rfl⟩

end Handlers

/-- Nothing that the firmware object is asked triggers a registration update. -/
theorem process_firmware_untriggered (moments : Moments) (request : CoapRequest) (path : ObjectPath)
    (o : Firmware.FirmwareUpdateObject) : (process moments request path o).1.2 = none := by
  simp only [process]
  cases request.method with
  | Get | Put | Delete => rfl
  | Post =>
    by_cases resource : path.isResource
    · simp only [resource, ↓reduceIte]
      rfl
    · simp only [resource, Bool.false_eq_true, ↓reduceIte]

variable {U : Type}

/-- The accounts, the device and the connectivity object are the same in every field. -/
structure SameAccounts (c d : Objects U) : Prop where
  security : d.security = c.security
  server : d.server = c.server
  device : d.device = c.device
  connectivity : d.connectivity = c.connectivity

theorem SameAccounts.refl (c : Objects U) : SameAccounts c c := ⟨rfl,rfl,rfl,rfl⟩

variable [Object U]

theorem call_refused (moments : Moments) (request : CoapRequest) (path : ObjectPath) (c : Objects U) (oid : UInt16)
    (served : Served U)
    (refused : request.method = .Get ∨
      (c.call oid (fun o => process moments request path o) served).1.1.isSuccess = false) :
    SameAccounts c (c.call oid (fun o => process moments request path o) served).2 ∧
      ((c.call oid (fun o => process moments request path o) served).1.2 = none ∨ ∃ object, served = .added object) := by
  cases served with
  | security =>
    obtain ⟨same,untriggered⟩ := process_refused moments request path c.security refused
    exact ⟨⟨same,rfl,rfl,rfl⟩,.inl untriggered⟩
  | server =>
    obtain ⟨same,untriggered⟩ := process_refused moments request path c.server refused
    exact ⟨⟨rfl,same,rfl,rfl⟩,.inl untriggered⟩
  | device =>
    obtain ⟨same,untriggered⟩ := process_refused moments request path c.device refused
    exact ⟨⟨rfl,rfl,same,rfl⟩,.inl untriggered⟩
  | connectivity =>
    obtain ⟨same,untriggered⟩ := process_refused moments request path c.connectivity refused
    exact ⟨⟨rfl,rfl,rfl,same⟩,.inl untriggered⟩
  | firmwareUpdate => exact ⟨⟨rfl,rfl,rfl,rfl⟩,.inl (process_firmware_untriggered moments request path c.firmwareUpdate)⟩
  | added object => exact ⟨⟨rfl,rfl,rfl,rfl⟩,.inr ⟨object,rfl⟩⟩

theorem call_get (moments : Moments) {request : CoapRequest} (get : request.method = .Get) (path : ObjectPath)
    (c : Objects U) (oid : UInt16) (served : Served U) :
    (c.call oid (fun o => process moments request path o) served).2.firmwareUpdate = c.firmwareUpdate := by
  cases served with
  | firmwareUpdate => exact process_get moments get path c.firmwareUpdate
  | _ => rfl

/-- A GET, and any request that is not answered with a code of success, changes nothing
    in the accounts and the device; it triggers no update, unless an added object asks
    for one. A GET changes nothing in the firmware object either. -/
theorem refused_unchanged (moments : Moments) (request : CoapRequest) (c : Objects U) :
    (request.method = .Get ∨ (answer moments request c).isSuccess = false →
      SameAccounts c (handleIncomingRequest moments request c).2 ∧
        ((handleIncomingRequest moments request c).1.2 = none ∨
          ∃ oid object, c.getObject oid = some (.added object))) ∧
      (request.method = .Get → (handleIncomingRequest moments request c).2.firmwareUpdate = c.firmwareUpdate) := by
  simp only [answer]
  cases parsed : ObjectPath.parse request.uriPath with
  | none =>
    simp only [handleIncomingRequest, parsed]
    exact ⟨fun _ => ⟨.refl c,.inl trivial⟩,fun _ => trivial⟩
  | some path =>
    by_cases unnamed : request.method = .Delete ∧ (!path.isInstance) = true
    · simp only [handleIncomingRequest, parsed, unnamed, and_self, ↓reduceIte]
      exact ⟨fun _ => ⟨.refl c,.inl trivial⟩,fun _ => trivial⟩
    · cases found : c.getObject path.objectId with
      | none =>
        simp only [handleIncomingRequest, parsed, found]
        rw [if_neg unnamed]
        exact ⟨fun _ => ⟨.refl c,.inl rfl⟩,fun _ => rfl⟩
      | some served =>
        rw [answer_found parsed found unnamed]
        refine ⟨?_,fun get => call_get moments get path c path.objectId served⟩
        intro refused
        obtain ⟨same,untriggered⟩ := call_refused moments request path c path.objectId served refused
        refine ⟨same,untriggered.imp_right ?_⟩
        rintro ⟨object,rfl⟩
        exact ⟨path.objectId,object,found⟩

/-- `PUT /3/0/0`: the manufacturer of the device is read-only. -/
def putManufacturer : CoapRequest :=
  { method := .Put, uriPath := lit ['/','3','/','0','/','0'], payload := [0xC1, 0x00, 0x58] }

theorem refused_unchanged_manufacturer :
    SameAccounts ({} : Objects LocationObject) (handleIncomingRequest (fun _ => {}) putManufacturer {}).2 :=
  ((refused_unchanged (fun _ => {}) putManufacturer {}).1 (.inr rfl)).1

end Requests

end Ferriot
