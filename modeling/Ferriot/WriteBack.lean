import Ferriot.RefusedRequests
import Ferriot.StoredValues
import Ferriot.TlvRoundTrip

/-!
# What is read can be written back

The value of a resource goes through the reader of its object, the encoder, the
decoder with the type table of the object, and the writer; they agree on every
resource that is both read and written.
-/
namespace Ferriot
open Tables Requests

/-- The value is written under the type that the object names, and comes back whole. -/
def Typed (type : Option ResourceType) (v : ResourceValue) : Prop :=
  type.getD .String = getResourceType v ∧ Tlv.Storable v ∧ Tlv.settled v = v

theorem narrow8_ofUInt8 (v : UInt8) : narrow8 v.toUInt64.toInt64 = v := by simp [narrow8]
theorem narrow16_ofUInt16 (v : UInt16) : narrow16 v.toUInt64.toInt64 = v := by simp [narrow16]
theorem narrow32_ofUInt32 (v : UInt32) : narrow32 v.toUInt64.toInt64 = v := by simp [narrow32]

namespace ServerInstance

/-- The resources that are both read and written. -/
def readWrite : List UInt16 := [0, 1, 2, 3, 5, 6, 7]

/-- The target with one resource of the source. -/
def withResource (rid : UInt16) (source target : ServerInstance) : ServerInstance :=
  match rid with
  | 0 => { target with shortServerId := source.shortServerId }
  | 1 => { target with lifetime := source.lifetime }
  | 2 => { target with defaultMinPeriod := source.defaultMinPeriod }
  | 3 => { target with defaultMaxPeriod := source.defaultMaxPeriod }
  | 5 => { target with disableTimeout := source.disableTimeout }
  | 6 => { target with notificationStoring := source.notificationStoring }
  | 7 => { target with binding := source.binding }
  | _ => target

theorem writeBack {rid : UInt16} (both : rid ∈ readWrite) (source target : ServerInstance) :
    ∃ v, readResource rid source = .ok v ∧ Typed (ServerObject.getResourceType rid) v ∧
      writeResource rid v target = .ok (withResource rid source target) := by
  simp only [readWrite, List.mem_cons, List.not_mem_nil, or_false] at both
  rcases both with rfl | rfl | rfl | rfl | rfl | rfl | rfl
  all_goals
    refine ⟨_,rfl,⟨rfl,trivial,rfl⟩,?_⟩
    simp [writeResource, withResource, writeTyped, ResourceValue.asInt, ResourceValue.asBool, ResourceValue.asString,
      ofUInt16, ofUInt32, narrow16_ofUInt16, narrow32_ofUInt32]

end ServerInstance

namespace SecurityInstance

/-- The resources that are both read and written. -/
def readWrite : List UInt16 := [0, 1, 2, 3, 4, 5, 10, 11, 12]

/-- The target with one resource of the source. -/
def withResource (rid : UInt16) (source target : SecurityInstance) : SecurityInstance :=
  match rid with
  | 0 => { target with serverUri := source.serverUri }
  | 1 => { target with bootstrapServer := source.bootstrapServer }
  | 2 => { target with securityMode := source.securityMode }
  | 3 => { target with publicKeyIdentity := source.publicKeyIdentity }
  | 4 => { target with serverPublicKey := source.serverPublicKey }
  | 5 => { target with secretKey := source.secretKey }
  | 10 => { target with shortServerId := source.shortServerId }
  | 11 => { target with clientHoldOffTime := source.clientHoldOffTime }
  | 12 => { target with bootstrapTimeout := source.bootstrapTimeout }
  | _ => target

theorem writeBack {rid : UInt16} (both : rid ∈ readWrite) (source target : SecurityInstance) :
    ∃ v, readResource rid source = .ok v ∧ Typed (SecurityObject.getResourceType rid) v ∧
      writeResource rid v target = .ok (withResource rid source target) := by
  simp only [readWrite, List.mem_cons, List.not_mem_nil, or_false] at both
  rcases both with rfl | rfl | rfl | rfl | rfl | rfl | rfl | rfl | rfl
  all_goals
    refine ⟨_,rfl,⟨rfl,trivial,rfl⟩,?_⟩
    simp [writeResource, withResource, writeTyped, ResourceValue.asInt, ResourceValue.asBool, ResourceValue.asString,
      ResourceValue.asOpaque, ofUInt8, ofUInt16, ofUInt32, narrow8_ofUInt8, narrow16_ofUInt16, narrow32_ofUInt32]

end SecurityInstance

namespace DeviceObject

/-- The resources that are both read and written. -/
def readWrite : List UInt16 := [14, 15]

/-- The target with one resource of the source. -/
def withResource (rid : UInt16) (source target : DeviceObject) : DeviceObject :=
  match rid with
  | 14 => { target with config := { target.config with utcOffset := source.config.utcOffset } }
  | 15 => { target with config := { target.config with timezone := source.config.timezone } }
  | _ => target

/-- The object names no type, and both resources are strings. -/
theorem writeBack {rid : UInt16} (both : rid ∈ readWrite) (source target : DeviceObject) :
    ∃ v, (∀ env, readResource env source 0 rid none = .ok v) ∧ Typed none v ∧
      writeResource target 0 rid v = .ok (withResource rid source target) := by
  simp only [readWrite, List.mem_cons, List.not_mem_nil, or_false] at both
  rcases both with rfl | rfl
  all_goals exact ⟨_,fun _ => rfl,⟨rfl,trivial,rfl⟩,rfl⟩

end DeviceObject

namespace Requests

/-- A PUT of what a GET of the same resource, in another state, was answered with. -/
structure WritesBack (get put : CoapRequest) (path : ObjectPath) (answered : CoapResponse) : Prop where
  reads : get.method = .Get
  writes : put.method = .Put
  getPath : ObjectPath.parse get.uriPath = some path
  putPath : ObjectPath.parse put.uriPath = some path
  payload : put.payload = answered.payload
  fits : answered.payload.length < 2 ^ 24

section
variable {σ : Type} [Object σ]

theorem processRead_value {moments : Moments} {o : σ} {oid iid rid : UInt16} {v : ResourceValue}
    (read : (Object.readResource (moments 0) o iid rid none).1 = .ok v) :
    (processRead moments ⟨oid,some iid,some rid,none⟩ o).1 =
      { payload := Tlv.encodeRecord .Resource rid (Tlv.serialize v), code := some .Content } := by
  simp [processRead, ObjectPath.isObject, ObjectPath.isInstance, ObjectPath.isResource, read, Tlv.encodeResource]

/-- The payload is decoded to the value, and the value is handed to the writer. -/
theorem processWrite_value {moments : Moments} {o after : σ} {oid iid rid : UInt16} {v : ResourceValue}
    (fits : (Tlv.encodeRecord .Resource rid (Tlv.serialize v)).length < 2 ^ 24)
    (typed : Typed (Object.getResourceType o iid rid) v)
    (write : Object.writeResource (moments 0) o iid rid none v = (.ok (),after)) :
    processWrite moments ⟨oid,some iid,some rid,none⟩ (Tlv.encodeRecord .Resource rid (Tlv.serialize v)) o =
      ({ code := some .Changed },after) := by
  obtain ⟨type,storable,whole⟩ := typed
  have short : (Tlv.serialize v).length < 2 ^ 24 := Nat.lt_of_le_of_lt (Tlv.encodeRecord_length_ge _ _ _) fits
  have decoded : Tlv.decodeResource (Tlv.serialize v) (expectedType o iid rid) = .ok v := by
    have expected : expectedType o iid rid = getResourceType v := type
    rw [expected, Tlv.decodeResource_serialize storable, whole]
  have parsed := Tlv.decode_leaf (rfl : Tlv.TlvType.isContainer .Resource = false) rid short
  simp [processWrite, parsed, ObjectPath.isResource, writeFirst, decoded, write, resultCode]

/-- The two requests, handled by an object in the one state and in the other. -/
theorem process_writesBack {moments moments' : Moments} {get put : CoapRequest} {oid iid rid : UInt16} {o o' after : σ}
    {v : ResourceValue}
    (requests : WritesBack get put ⟨oid,some iid,some rid,none⟩ (process moments get ⟨oid,some iid,some rid,none⟩ o).1.1)
    (read : (Object.readResource (moments 0) o iid rid none).1 = .ok v)
    (typed : Typed (Object.getResourceType o' iid rid) v)
    (write : Object.writeResource (moments' 0) o' iid rid none v = (.ok (),after)) :
    process moments' put ⟨oid,some iid,some rid,none⟩ o' = (({ code := some .Changed },none),after) := by
  obtain ⟨reads,writes,-,-,payload,fits⟩ := requests
  simp only [process, reads, processRead_value read] at payload fits
  simp only [process, writes, payload, processWrite_value fits typed write]

end

variable {U : Type} [Object U]

/-- The state after a write, and its answer. -/
structure Wrote (moments : Moments) (put : CoapRequest) (c after : Objects U) : Prop where
  answered : answer moments put c = { code := some .Changed }
  state : (handleIncomingRequest moments put c).2 = after

theorem handle_found (moments : Moments) {request : CoapRequest} {c : Objects U} {path : ObjectPath} {served : Served U}
    (parsed : ObjectPath.parse request.uriPath = some path) (found : c.getObject path.objectId = some served)
    (kept : request.method = .Get ∨ request.method = .Put) :
    handleIncomingRequest moments request c = c.call path.objectId (fun o => process moments request path o) served := by
  refine answer_found parsed found ?_
  rintro ⟨deletes,-⟩
  rcases kept with method | method <;> simp [method] at deletes

/-- The two requests reach the object that the path names, in the one state and in the other. -/
theorem wrote {moments moments' : Moments} {get put : CoapRequest} {c c' after : Objects U} {path : ObjectPath}
    {served served' : Served U} (mapped : c.getObject path.objectId = some served)
    (mapped' : c'.getObject path.objectId = some served') (requests : WritesBack get put path (answer moments get c))
    (handled : WritesBack get put path (c.call path.objectId (fun o => process moments get path o) served).1.1 →
      c'.call path.objectId (fun o => process moments' put path o) served' = (({ code := some .Changed },none),after)) :
    Wrote moments' put c' after := by
  have asked := handle_found moments requests.getPath mapped (.inl requests.reads)
  have told := handle_found moments' requests.putPath mapped' (.inr requests.writes)
  simp only [answer, asked] at requests
  rw [handled requests] at told
  exact ⟨by simp only [answer, told],by simp only [told]⟩

/-- What GET answers for a readable and writable resource of an account or the device, PUT takes
    back in any other state, and copies this resource of this instance and nothing else. -/
theorem writes_back (moments moments' : Moments) (get put : CoapRequest) (c c' : Objects U) :
    (∀ iid rid inst inst', WritesBack get put ⟨0,some iid,some rid,none⟩ (answer moments get c) →
      c.getObject 0 = some .security → c'.getObject 0 = some .security →
      c.security.instances.lookup iid = some inst → c'.security.instances.lookup iid = some inst' →
      rid ∈ SecurityInstance.readWrite →
      Wrote moments' put c' { c' with
        security := { c'.security with
          instances := c'.security.instances.replace iid (SecurityInstance.withResource rid inst inst') } }) ∧
    (∀ iid rid inst inst', WritesBack get put ⟨1,some iid,some rid,none⟩ (answer moments get c) →
      c.getObject 1 = some .server → c'.getObject 1 = some .server →
      c.server.store.instances.lookup iid = some inst → c'.server.store.instances.lookup iid = some inst' →
      rid ∈ ServerInstance.readWrite →
      Wrote moments' put c' { c' with
        server := { c'.server with
          store := { c'.server.store with
            instances := c'.server.store.instances.replace iid (ServerInstance.withResource rid inst inst') } } }) ∧
    (∀ rid, WritesBack get put ⟨3,some 0,some rid,none⟩ (answer moments get c) →
      c.getObject 3 = some .device → c'.getObject 3 = some .device →
      rid ∈ DeviceObject.readWrite →
      Wrote moments' put c' { c' with device := DeviceObject.withResource rid c.device c'.device }) := by
  refine ⟨?_,?_,?_⟩
  · intro iid rid inst inst' requests mapped mapped' found found' both
    obtain ⟨v,read,typed,write⟩ := SecurityInstance.writeBack both inst inst'
    have stored : Object.writeResource (moments' 0) c'.security iid rid none v =
        (.ok (),{ c'.security with
          instances := c'.security.instances.replace iid (SecurityInstance.withResource rid inst inst') }) :=
      Instances.writeResource_ok found' write
    refine wrote mapped mapped' requests ?_
    intro requests
    have handled := process_writesBack requests ((Instances.readResource_some found).trans read) typed stored
    simp only [Objects.call, handled]
  · intro iid rid inst inst' requests mapped mapped' found found' both
    obtain ⟨v,read,typed,write⟩ := ServerInstance.writeBack both inst inst'
    have stored : Object.writeResource (moments' 0) c'.server iid rid none v =
        (.ok (),{ c'.server with store := { c'.server.store with
          instances := c'.server.store.instances.replace iid (ServerInstance.withResource rid inst inst') } }) := by
      simp only [Object.writeResource, Instances.writeResource_ok found' write]
    refine wrote mapped mapped' requests ?_
    intro requests
    have handled := process_writesBack requests ((Instances.readResource_some found).trans read) typed stored
    simp only [Objects.call, handled]
  · intro rid requests mapped mapped' both
    obtain ⟨v,read,typed,write⟩ := DeviceObject.writeBack both c.device c'.device
    have stored : Object.writeResource (moments' 0) c'.device 0 rid none v =
        (.ok (),DeviceObject.withResource rid c.device c'.device) := by
      simp only [Object.writeResource, write, stored]
    refine wrote mapped mapped' requests ?_
    intro requests
    have handled := process_writesBack requests (read (moments 0)) typed stored
    simp only [Objects.call, handled]

/-- `GET /1/0/1`, the lifetime of the first server. -/
def getLifetime : CoapRequest := { method := .Get, uriPath := lit ['/','1','/','0','/','1'] }

/-- The objects of a client with one Server instance. -/
def withLifetime (lifetime : UInt32) : Objects LocationObject :=
  { server := (ServerObject.addServer { registrationUpdateCallback := true } { shortServerId := 1, lifetime := lifetime }).2 }

/-- A lifetime of a minute, written over one of an hour. -/
theorem writes_back_lifetime :
    Wrote (fun _ => {}) { getLifetime with method := .Put, payload := [0xC1, 0x01, 0x3C] } (withLifetime 3600)
      (withLifetime 60) :=
  (writes_back (fun _ => {}) (fun _ => {}) getLifetime _ (withLifetime 60) (withLifetime 3600)).2.1 0 1 _ _
    ⟨rfl,rfl,rfl,rfl,rfl,by decide⟩ rfl rfl rfl rfl (by decide)

end Requests

end Ferriot
