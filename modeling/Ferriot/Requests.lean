import Ferriot.Accounts
import Ferriot.Coap
import Ferriot.DeviceObjects
import Ferriot.Firmware
import Ferriot.Paths
import Ferriot.TlvValues

/-!
# Requests of a server

`handle_incoming_request` finds the object that a path names and reads, writes,
executes, creates or deletes. The handlers are the same for every object.
-/
namespace Ferriot
open Tables Firmware

/-- What an entry of the object table points to: an object that the client owns
    itself, or one added by the application. -/
inductive Served (U : Type) where
  | security | server | device | connectivity | firmwareUpdate
  | added (object : U)

/-- The objects of a client, with the table that maps object ids to them. -/
structure Objects (U : Type) where
  security : SecurityObject := {}
  server : ServerObject := { registrationUpdateCallback := true }
  device : DeviceObject := {}
  connectivity : ConnectivityObject := {}
  firmwareUpdate : FirmwareUpdateObject := {}
  table : Table UInt16 (Served U) :=
    set (set (set (set (set ∅ 0 .security) 1 .server) 3 .device) 4 .connectivity) 5 .firmwareUpdate

namespace Objects
variable {U : Type} [Object U]

/-- `add_object`: an object of the application may take the place of another under its id. -/
def addObject (c : Objects U) (object : U) : Objects U := { c with table := set c.table (Object.id object) (.added object) }

/-- `get_object`. -/
def getObject (c : Objects U) (oid : UInt16) : Option (Served U) := c.table.lookup oid

/-- Calls an object through its pointer. -/
def call {α : Type} (c : Objects U) (oid : UInt16) (f : {σ : Type} → [Object σ] → σ → α × σ) : Served U → α × Objects U
  | .security => let (a,o) := f c.security; (a,{ c with security := o })
  | .server => let (a,o) := f c.server; (a,{ c with server := o })
  | .device => let (a,o) := f c.device; (a,{ c with device := o })
  | .connectivity => let (a,o) := f c.connectivity; (a,{ c with connectivity := o })
  | .firmwareUpdate => let (a,o) := f c.firmwareUpdate; (a,{ c with firmwareUpdate := o })
  | .added object => let (a,o) := f object; (a,{ c with table := set c.table oid (.added o) })

section
variable {α β : Type}

/-- What holds of a call of any object holds of a call through a pointer. -/
theorem call_forall (c : Objects U) (oid : UInt16) (served : Served U) {f : {σ : Type} → [Object σ] → σ → α × σ}
    {P : α → Prop} (every : ∀ {σ : Type} [Object σ] (o : σ), P (f o).1) : P (c.call oid f served).1 := by
  cases served with
  | security => exact every c.security
  | server => exact every c.server
  | device => exact every c.device
  | connectivity => exact every c.connectivity
  | firmwareUpdate => exact every c.firmwareUpdate
  | added object => exact every object

/-- Two calls of the same object through its pointer. -/
theorem call_rel (c : Objects U) (oid : UInt16) (served : Served U) {f : {σ : Type} → [Object σ] → σ → α × σ}
    {g : {σ : Type} → [Object σ] → σ → β × σ} {R : α → β → Prop}
    (related : ∀ {σ : Type} [Object σ] (o : σ), R (f o).1 (g o).1) :
    R (c.call oid f served).1 (c.call oid g served).1 := by
  cases served with
  | security => exact related c.security
  | server => exact related c.server
  | device => exact related c.device
  | connectivity => exact related c.connectivity
  | firmwareUpdate => exact related c.firmwareUpdate
  | added object => exact related object

end

end Objects

/-- `error_to_coap_code`. -/
def errorToCoapCode : ErrorCode → CoapCode
  | .NotFound => .NotFound
  | .MethodNotAllowed => .MethodNotAllowed
  | .BadRequest => .BadRequest
  | .Unauthorized => .Unauthorized
  | .Forbidden => .Forbidden
  | _ => .InternalServerError

/-- `result ? success : error_to_coap_code(result.error().code())`. -/
def resultCode {α : Type} (success : CoapCode) : Result α → CoapCode
  | .ok _ => success
  | .error e => errorToCoapCode e.code

namespace Requests

section Handlers
variable {σ : Type} [Object σ]

/-! ### Reading -/

/-- The loop of `encode_instance_tlv`: the resources that can be read. -/
def readResources (iid : UInt16) : Moments → List UInt16 → σ → List (UInt16 × ResourceValue) × σ × Moments
  | moments, [], o => ([],o,moments)
  | moments, rid :: rids, o =>
    let (result,o) := Object.readResource (moments 0) o iid rid none
    let (others,o,moments) := readResources iid moments.later rids o
    match result with
    | .ok value => ((rid,value) :: others,o,moments)
    | .error _ => (others,o,moments)

/-- `encode_instance_tlv`. -/
def encodeInstanceTlv (iid : UInt16) (moments : Moments) (o : σ) : Bytes × σ × Moments :=
  let (resources,o,moments) := readResources iid moments (Object.listResources o iid) o
  match Tlv.encodeInstance iid resources with
  | .ok encoded => (encoded,o,moments)
  | .error _ => ([],o,moments)

/-- The loop of `process_read` over the instances of an object. -/
def encodeInstances : List UInt16 → Moments → σ → Bytes × σ
  | [], _, o => ([],o)
  | iid :: iids, moments, o =>
    let (data,o,moments) := encodeInstanceTlv iid moments o
    let (others,o) := encodeInstances iids moments o
    (data ++ others,o)

/-- `process_read`, once the object is found. No branch takes a path of four components. -/
def processRead (moments : Moments) (path : ObjectPath) (o : σ) : CoapResponse × σ :=
  if path.isObject then
    let (payload,o) := encodeInstances (Object.listInstances o) moments o
    ({ payload := payload, code := some .Content },o)
  else if path.isInstance then
    let iid := path.instanceId.getD 0
    if Object.hasInstance o iid then
      let (payload,o,_) := encodeInstanceTlv iid moments o
      ({ payload := payload, code := some .Content },o)
    else ({ code := some .NotFound },o)
  else if path.isResource then
    let rid := path.resourceId.getD 0
    let (result,o) := Object.readResource (moments 0) o (path.instanceId.getD 0) rid path.resourceInstanceId
    match result with
    | .error e => ({ code := some (errorToCoapCode e.code) },o)
    | .ok value =>
      match Tlv.encodeResource rid value with
      | .ok encoded => ({ payload := encoded, code := some .Content },o)
      | .error _ => ({ code := some .InternalServerError },o)
  else ({},o)

/-! ### Writing -/

/-- The type by which a written value is decoded; a string if the object names none. -/
def expectedType (o : σ) (iid rid : UInt16) : ResourceType := (Object.getResourceType o iid rid).getD .String

/-- A record of an instance write: what does not decode, or is refused, is passed over. -/
def writeRecord (env : Env) (iid : UInt16) (record : Tlv.TlvRecord) (o : σ) : σ :=
  if record.type = .Resource then
    match Tlv.decodeResource record.value (expectedType o iid record.id) with
    | .ok value => (Object.writeResource env o iid record.id none value).2
    | .error _ => o
  else o

/-- The loop of `process_write` over the records of an instance write. -/
def writeRecords (iid : UInt16) : Moments → List Tlv.TlvRecord → σ → σ
  | _, [], o => o
  | moments, record :: records, o => writeRecords iid moments.later records (writeRecord (moments 0) iid record o)

/-- The resource branch of `process_write`: the first record, whatever its type and id. -/
def writeFirst (env : Env) (iid rid : UInt16) (riid : Option UInt16) (records : List Tlv.TlvRecord) (o : σ) :
    CoapResponse × σ :=
  match records with
  | [] => ({ code := some .BadRequest },o)
  | record :: _ =>
    match Tlv.decodeResource record.value (expectedType o iid rid) with
    | .error _ => ({ code := some .BadRequest },o)
    | .ok value =>
      let (result,o) := Object.writeResource env o iid rid riid value
      ({ code := some (resultCode .Changed result) },o)

/-- `process_write`, once the object is found. No branch takes a path of four components. -/
def processWrite (moments : Moments) (path : ObjectPath) (payload : Bytes) (o : σ) : CoapResponse × σ :=
  match Tlv.decode payload with
  | .error _ => ({ code := some .BadRequest },o)
  | .ok records =>
    if path.isResource then
      writeFirst (moments 0) (path.instanceId.getD 0) (path.resourceId.getD 0) path.resourceInstanceId records o
    else if path.isInstance then
      ({ code := some .Changed },writeRecords (path.instanceId.getD 0) moments records o)
    else if path.isObject then
      let (result,o) := Object.createInstance o none
      ({ code := some (resultCode .Created result) },o)
    else ({},o)

/-! ### Executing and deleting -/

/-- `process_execute` on a resource path, once the object is found. -/
def processExecute (moments : Moments) (path : ObjectPath) (payload : Bytes) (o : σ) : (CoapResponse × Trigger) × σ :=
  let (result,o,trigger) :=
    Object.executeResource (moments 0) o (path.instanceId.getD 0) (path.resourceId.getD 0) payload
  (({ code := some (resultCode .Changed result) },trigger),o)

/-- `process_delete` on an instance path, once the object is found. -/
def processDelete (path : ObjectPath) (o : σ) : CoapResponse × σ :=
  let (result,o) := Object.deleteInstance o (path.instanceId.getD 0)
  ({ code := some (resultCode .Deleted result) },o)

/-- The handler of a method, once the object is found; a POST executes a resource and writes the rest. -/
def process (moments : Moments) (request : CoapRequest) (path : ObjectPath) (o : σ) : (CoapResponse × Trigger) × σ :=
  match request.method with
  | .Get => let (response,o) := processRead moments path o; ((response,none),o)
  | .Put => let (response,o) := processWrite moments path request.payload o; ((response,none),o)
  | .Post =>
    if path.isResource then processExecute moments path request.payload o
    else let (response,o) := processWrite moments path request.payload o; ((response,none),o)
  | .Delete => let (response,o) := processDelete path o; ((response,none),o)

end Handlers

variable {U : Type} [Object U]

/-- `handle_incoming_request`: the response, the registration update it triggers, and the objects after it.
    A path that is deleted must name an instance, found or not. -/
def handleIncomingRequest (moments : Moments) (request : CoapRequest) (c : Objects U) :
    (CoapResponse × Trigger) × Objects U :=
  match ObjectPath.parse request.uriPath with
  | none => (({ code := some .BadRequest },none),c)
  | some path =>
    if request.method = .Delete ∧ !path.isInstance then (({ code := some .MethodNotAllowed },none),c)
    else
      match c.getObject path.objectId with
      | none => (({ code := some .NotFound },none),c)
      | some served => c.call path.objectId (fun o => process moments request path o) served

/-- `read_resource` on an object of the client. -/
def readResource (env : Env) (c : Objects U) (oid iid rid : UInt16) (riid : Option UInt16) (served : Served U) :
    Result ResourceValue :=
  (c.call oid (fun o => Object.readResource env o iid rid riid) served).1

end Requests

end Ferriot
