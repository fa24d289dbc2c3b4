import Ferriot.RefusedRequests
import Ferriot.TlvRoundTrip

/-!
# Reads of a whole instance and of a whole object

A GET of an instance encodes what the reads of its resources would be answered
with, one after the other, and a GET of an object what the reads of its instances
would be. The reads that are compared find the same outside the client.
-/
namespace Ferriot
open Requests

/-- Reads find the same in two states of an object, as long as they find the same outside. -/
structure SameReads {σ : Type} [Object σ] (env : Env) (o o' : σ) : Prop where
  read (iid rid : UInt16) (riid : Option UInt16) :
    (Object.readResource env o' iid rid riid).1 = (Object.readResource env o iid rid riid).1
  resources (iid : UInt16) : Object.listResources o' iid = Object.listResources o iid

/-- What `const` says of the reads of an object, and that the instances it lists are there. -/
class StableReads (σ : Type) [Object σ] : Prop where
  read (env : Env) (o : σ) (iid rid : UInt16) (riid : Option UInt16) :
    SameReads env o (Object.readResource env o iid rid riid).2
  listed (o : σ) (iid : UInt16) (member : iid ∈ Object.listInstances o) : Object.hasInstance o iid = true

section
variable {σ : Type} [Object σ]

theorem SameReads.refl (env : Env) (o : σ) : SameReads env o o := ⟨fun _ _ _ => rfl,fun _ => rfl⟩

theorem SameReads.trans {env : Env} {o o' o'' : σ} (first : SameReads env o o') (second : SameReads env o' o'') :
    SameReads env o o'' :=
  ⟨fun iid rid riid => (second.read iid rid riid).trans (first.read iid rid riid),
    fun iid => (second.resources iid).trans (first.resources iid)⟩

/-- A read that stores nothing is stable. -/
theorem sameReads_clean [ReadsClean σ] (env : Env) (o : σ) (iid rid : UInt16) (riid : Option UInt16) :
    SameReads env o (Object.readResource env o iid rid riid).2 := by
  rw [ReadsClean.read]
  exact .refl env o

end

theorem Instances.listed {α : Type} (o : Instances α) (iid : UInt16) (member : iid ∈ o.listInstances) :
    o.hasInstance iid = true :=
  AList.lookup_isSome.mpr (AList.mem_keys.mp member)

theorem SingleInstance.listed (iid : UInt16) (member : iid ∈ SingleInstance.listInstances) :
    SingleInstance.hasInstance iid = true := by
  obtain rfl := List.mem_singleton.mp member
  rfl

instance : StableReads SecurityObject := ⟨sameReads_clean,Instances.listed⟩
instance : StableReads ServerObject := ⟨sameReads_clean,fun o => o.store.listed⟩
instance : StableReads DeviceObject := ⟨sameReads_clean,fun _ => SingleInstance.listed⟩
instance : StableReads ConnectivityObject := ⟨sameReads_clean,fun _ => SingleInstance.listed⟩
instance : StableReads Firmware.FirmwareUpdateObject := ⟨sameReads_clean,fun _ => SingleInstance.listed⟩

/-- The position that a provider gives is the one it gives again. -/
theorem LocationObject.refreshPosition_twice (env : Env) (o : LocationObject) :
    (o.refreshPosition env).refreshPosition env = o.refreshPosition env := by
  by_cases provided : o.gpsProvider
  · cases given : env.gpsProvider with
    | none => simp [refreshPosition, given]
    | some position => simp [refreshPosition, provided, given, updatePosition]
  · simp [refreshPosition, provided]

instance : StableReads LocationObject where
  read env o iid rid riid := by
    refine ⟨?_,fun _ => rfl⟩
    intro iid' rid' riid'
    simp only [Object.readResource, LocationObject.readResource]
    by_cases elsewhere : iid ≠ 0
    · rw [if_pos elsewhere]
    · rw [if_neg elsewhere]
      by_cases elsewhere' : iid' ≠ 0
      · rw [if_pos elsewhere', if_pos elsewhere']
      · rw [if_neg elsewhere', if_neg elsewhere', LocationObject.refreshPosition_twice]
  listed _ := SingleInstance.listed

namespace Requests

section Handlers
variable {σ : Type} [Object σ]

/-- The resources that can be read, with their values. -/
def readable (env : Env) (o : σ) (iid : UInt16) (rids : List UInt16) : List (UInt16 × ResourceValue) :=
  rids.filterMap (fun rid =>
    match (Object.readResource env o iid rid none).1 with
    | .ok value => some (rid,value)
    | .error _ => none)

/-- The payloads of the reads that are answered with Content, one after the other. -/
def contents (answers : List CoapResponse) : Bytes :=
  answers.flatMap (fun response => if response.code = some .Content then response.payload else [])

theorem errorToCoapCode_ne (code : ErrorCode) : errorToCoapCode code ≠ .Content := by
  cases code <;> decide

/-- The records of an instance are the payloads of its single reads. -/
theorem contents_reads (env : Env) (oid iid : UInt16) (rids : List UInt16) (o : σ) :
    contents (rids.map (fun rid => (processRead (fun _ => env) ⟨oid,some iid,some rid,none⟩ o).1)) =
      Tlv.encodeRecords (Tlv.valueRecords .Resource (readable env o iid rids)) := by
  induction rids with
  | nil => rfl
  | cons rid rids ih =>
    have single := processRead_resource (fun _ => env) o oid iid rid
    simp only [contents, readable, Tlv.valueRecords, Tlv.encodeRecords] at ih ⊢
    simp only [List.map_cons, List.flatMap_cons, ih, List.filterMap_cons]
    cases result : (Object.readResource env o iid rid none).1 with
    | error e =>
      simp only [ReadAnswer, result] at single
      simp [single, errorToCoapCode_ne]
    | ok value =>
      simp only [ReadAnswer, result, Tlv.encodeResource, Except.ok.injEq] at single
      simp [single.1, ← single.2]

theorem processRead_instance (env : Env) (oid iid : UInt16) {o : σ} (present : Object.hasInstance o iid = true) :
    (processRead (fun _ => env) ⟨oid,some iid,none,none⟩ o).1 =
      { payload := (encodeInstanceTlv iid (fun _ => env) o).1, code := some .Content } := by
  simp [processRead, ObjectPath.isObject, ObjectPath.isInstance, present]

theorem processRead_object (moments : Moments) (oid : UInt16) (o : σ) :
    (processRead moments ⟨oid,none,none,none⟩ o).1 =
      { payload := (encodeInstances (Object.listInstances o) moments o).1, code := some .Content } := rfl

variable [StableReads σ]

theorem readResources_stable (env : Env) (iid : UInt16) (rids : List UInt16) {o o' : σ} (same : SameReads env o o') :
    ∃ after, readResources iid (fun _ => env) rids o' = (readable env o iid rids,after,fun _ => env) ∧
      SameReads env o after := by
  induction rids generalizing o' with
  | nil => exact ⟨o',rfl,same⟩
  | cons rid rids ih =>
    obtain ⟨after,others,still⟩ := ih (same.trans (StableReads.read env o' iid rid none))
    refine ⟨after,?_,still⟩
    have later : Moments.later (fun _ => env) = fun _ => env := rfl
    have first := same.read iid rid none
    simp only [readResources, later, others, first]
    simp only [readable, List.filterMap_cons]
    cases (Object.readResource env o iid rid none).1 <;> rfl

/-- `encode_instance_tlv` writes one record with the readable resources. -/
theorem encodeInstanceTlv_stable (env : Env) (iid : UInt16) {o o' : σ} (same : SameReads env o o') :
    ∃ after, encodeInstanceTlv iid (fun _ => env) o' =
        (Tlv.encodeRecord .ObjectInstance iid (Tlv.encodeRecords (Tlv.valueRecords .Resource
          (readable env o iid (Object.listResources o iid)))),after,fun _ => env) ∧
      SameReads env o after := by
  obtain ⟨after,read,still⟩ := readResources_stable env iid (Object.listResources o iid) same
  refine ⟨after,?_,still⟩
  simp only [encodeInstanceTlv, same.resources, read, Tlv.encodeInstance, Tlv.encodeResources_eq, bind, Except.bind]

theorem encodeInstances_stable (env : Env) (iids : List UInt16) {o o' : σ} (same : SameReads env o o') :
    (encodeInstances iids (fun _ => env) o').1 = iids.flatMap (fun iid => (encodeInstanceTlv iid (fun _ => env) o).1) := by
  induction iids generalizing o' with
  | nil => rfl
  | cons iid iids ih =>
    obtain ⟨after,encoded,still⟩ := encodeInstanceTlv_stable env iid same
    obtain ⟨_,first,-⟩ := encodeInstanceTlv_stable env iid (SameReads.refl env o)
    simp only [encodeInstances, encoded, List.flatMap_cons, first, ih still]

end Handlers

/-- A GET of a path. -/
structure Gets (request : CoapRequest) (path : ObjectPath) : Prop where
  method : request.method = .Get
  path : ObjectPath.parse request.uriPath = some path

variable {U : Type} [Object U]

/-- `list_instances`, `has_instance` and `list_resources` of an object of the client. -/
def listInstances (c : Objects U) (oid : UInt16) (served : Served U) : List UInt16 :=
  (c.call oid (fun o => (Object.listInstances o,o)) served).1

def hasInstance (c : Objects U) (oid : UInt16) (served : Served U) (iid : UInt16) : Bool :=
  (c.call oid (fun o => (Object.hasInstance o iid,o)) served).1

def listResources (c : Objects U) (oid : UInt16) (served : Served U) (iid : UInt16) : List UInt16 :=
  (c.call oid (fun o => (Object.listResources o iid,o)) served).1

/-- The object behind a pointer, which every call goes to. -/
theorem call_object [StableReads U] (c : Objects U) (oid : UInt16) (served : Served U) :
    ∃ (σ : Type) (_ : Object σ) (_ : StableReads σ) (o : σ),
      ∀ (α : Type) (f : {σ : Type} → [Object σ] → σ → α × σ), (c.call oid f served).1 = (f o).1 := by
  cases served with
  | security => exact ⟨SecurityObject,inferInstance,inferInstance,c.security,fun _ _ => rfl⟩
  | server => exact ⟨ServerObject,inferInstance,inferInstance,c.server,fun _ _ => rfl⟩
  | device => exact ⟨DeviceObject,inferInstance,inferInstance,c.device,fun _ _ => rfl⟩
  | connectivity => exact ⟨ConnectivityObject,inferInstance,inferInstance,c.connectivity,fun _ _ => rfl⟩
  | firmwareUpdate =>
    exact ⟨Firmware.FirmwareUpdateObject,inferInstance,inferInstance,c.firmwareUpdate,fun _ _ => rfl⟩
  | added object => exact ⟨U,inferInstance,inferInstance,object,fun _ _ => rfl⟩

/-- A read of a whole instance, or of a whole object, is answered with what the single
    reads are answered with. -/
theorem whole_reads [StableReads U] (env : Env) (c : Objects U) (oid : UInt16) (served : Served U)
    (found : c.getObject oid = some served) :
    (∀ (iid : UInt16) (instanceGet : CoapRequest) (resourceGet : UInt16 → CoapRequest),
      hasInstance c oid served iid = true → Gets instanceGet ⟨oid,some iid,none,none⟩ →
      (∀ rid ∈ listResources c oid served iid, Gets (resourceGet rid) ⟨oid,some iid,some rid,none⟩) →
      let value := contents ((listResources c oid served iid).map (fun rid => answer (fun _ => env) (resourceGet rid) c))
      value.length < 2 ^ 24 →
      (answer (fun _ => env) instanceGet c).code = some .Content ∧
        ∃ children, Tlv.decode (answer (fun _ => env) instanceGet c).payload = .ok [⟨.ObjectInstance,iid,value,children⟩]) ∧
    (∀ (objectGet : CoapRequest) (instanceGet : UInt16 → CoapRequest), Gets objectGet ⟨oid,none,none,none⟩ →
      (∀ iid ∈ listInstances c oid served, Gets (instanceGet iid) ⟨oid,some iid,none,none⟩) →
      (answer (fun _ => env) objectGet c).code = some .Content ∧
        (answer (fun _ => env) objectGet c).payload =
          (listInstances c oid served).flatMap (fun iid => (answer (fun _ => env) (instanceGet iid) c).payload)) := by
  obtain ⟨σ,object,stable,o,call⟩ := call_object c oid served
  have read : ∀ (path : ObjectPath) (request : CoapRequest), path.objectId = oid → Gets request path →
      answer (fun _ => env) request c = (processRead (fun _ => env) path o).1 := by
    rintro path request rfl ⟨get,parsed⟩
    simp only [answer]
    rw [answer_found parsed found (by simp [get]), call]
    simp only [process, get]
  simp only [listResources, listInstances, hasInstance, call]
  refine ⟨?_,?_⟩
  · intro iid instanceGet resourceGet present whole single fits
    have reads : contents ((Object.listResources o iid).map (fun rid => answer (fun _ => env) (resourceGet rid) c)) =
        Tlv.encodeRecords (Tlv.valueRecords .Resource (readable env o iid (Object.listResources o iid))) := by
      rw [← contents_reads env oid, List.map_congr_left (fun rid member => read _ _ rfl (single rid member))]
    obtain ⟨_,encoded,-⟩ := encodeInstanceTlv_stable env iid (SameReads.refl env o)
    rw [reads] at fits ⊢
    rw [read _ _ rfl whole, processRead_instance env oid iid present, encoded]
    exact ⟨rfl,_,Tlv.decode_container rfl rfl iid _ fits⟩
  · intro objectGet instanceGet whole single
    rw [read _ _ rfl whole, processRead_object, encodeInstances_stable env _ (SameReads.refl env o)]
    refine ⟨rfl,?_⟩
    simp only [List.flatMap]
    rw [List.map_congr_left (fun iid member => ?_)]
    rw [read _ _ rfl (single iid member), processRead_instance env oid iid (StableReads.listed o iid member)]

/-- `GET /5/0` and `GET /5/0/r`. -/
def getFirmware : CoapRequest := { method := .Get, uriPath := lit ['/','5','/','0'] }
def getFirmwareResource (rid : UInt16) : CoapRequest :=
  { method := .Get, uriPath := lit ['/','5','/','0','/'] ++ [48 + rid.toUInt8] }

theorem whole_reads_firmware :
    ∃ children, Tlv.decode (answer (fun _ => {}) getFirmware ({} : Objects LocationObject)).payload =
      .ok [⟨.ObjectInstance,0,contents (Firmware.FirmwareUpdateObject.listResources.map
        (fun rid => answer (fun _ => {}) (getFirmwareResource rid) ({} : Objects LocationObject))),children⟩] := by
  have single : ∀ rid ∈ Firmware.FirmwareUpdateObject.listResources,
      Gets (getFirmwareResource rid) ⟨5,some 0,some rid,none⟩ := by
    intro rid member
    refine ⟨rfl,?_⟩
    simp only [Firmware.FirmwareUpdateObject.listResources, List.mem_cons, List.not_mem_nil, or_false] at member
    rcases member with rfl | rfl | rfl | rfl | rfl | rfl | rfl | rfl | rfl <;> decide
  have whole := whole_reads {} ({} : Objects LocationObject) 5 .firmwareUpdate rfl
  exact (whole.1 0 getFirmware getFirmwareResource rfl ⟨rfl,rfl⟩ single (by decide +kernel)).2

end Requests

end Ferriot
