import Ferriot.Object
import Ferriot.Tables

/-!
The two objects with instances per server: Security, which holds the addresses and
credentials, and Server, which holds what the client registers with.
-/
namespace Ferriot
open Tables

/-- The instance table of a multiple-instance object. -/
structure Instances (α : Type) where
  instances : Table UInt16 α := ∅
  nextInstanceId : UInt16 := 0
deriving DecidableEq

namespace Instances
variable {α : Type}

def listInstances (o : Instances α) : List UInt16 := o.instances.keys

def hasInstance (o : Instances α) (iid : UInt16) : Bool := (o.instances.lookup iid).isSome

/-- The id asked for, or the next one; a new instance holds `fresh`. -/
def createInstance (fresh : α) (o : Instances α) (suggested : Option UInt16) : Result UInt16 × Instances α :=
  let newId := suggested.getD o.nextInstanceId
  if newId ∈ o.instances then (err .BadRequest "Instance already exists",o)
  else
    (.ok newId,
      { instances := set o.instances newId fresh
        nextInstanceId := if o.nextInstanceId ≤ newId then newId + 1 else o.nextInstanceId })

def deleteInstance (o : Instances α) (iid : UInt16) : Result Unit × Instances α :=
  if iid ∈ o.instances then (.ok (),{ o with instances := o.instances.erase iid })
  else (err .NotFound "Instance not found",o)

/-- `add_server`: a new instance that holds the configuration. -/
def addServer (fresh : α) (o : Instances α) (config : α) : Result UInt16 × Instances α :=
  match createInstance fresh o none with
  | (.error e,o) => (.error e,o)
  | (.ok iid,o) => (.ok iid,{ o with instances := set o.instances iid config })

def getInstance (o : Instances α) (iid : UInt16) : Option α := o.instances.lookup iid

/-- The first instance with the short server id, in the order of iteration. -/
def findByShortServerId (shortServerId : α → UInt16) (o : Instances α) (ssid : UInt16) : Option α :=
  (findEntry o.instances (fun inst => shortServerId inst == ssid)).map Prod.snd

/-- A read of a resource of an instance that must exist. -/
def readResource (read : α → Result ResourceValue) (o : Instances α) (iid : UInt16) : Result ResourceValue :=
  match o.instances.lookup iid with
  | none => err .NotFound "Instance not found"
  | some inst => read inst

/-- A write to an instance that must exist; a refused write changes nothing. -/
def writeResource (write : α → Result α) (o : Instances α) (iid : UInt16) : Result Unit × Instances α :=
  match o.instances.lookup iid with
  | none => (err .NotFound "Instance not found",o)
  | some inst =>
    match write inst with
    | .error e => (.error e,o)
    | .ok inst => (.ok (),{ o with instances := o.instances.replace iid inst })

end Instances

/-! ### Security -/

structure SecurityInstance where
  serverUri : Bytes := []
  bootstrapServer : Bool := false
  /-- A `SecurityModeValue`: the cast in `write_resource` lets any byte in. -/
  securityMode : UInt8 := 3
  publicKeyIdentity : Bytes := []
  serverPublicKey : Bytes := []
  secretKey : Bytes := []
  shortServerId : UInt16 := 0
  clientHoldOffTime : UInt32 := 0
  bootstrapTimeout : UInt32 := 0
deriving DecidableEq, Repr

namespace SecurityInstance

def readResource (rid : UInt16) (inst : SecurityInstance) : Result ResourceValue :=
  match rid with
  | 0 => .ok (.string inst.serverUri)
  | 1 => .ok (.bool inst.bootstrapServer)
  | 2 => .ok (ofUInt8 inst.securityMode)
  | 3 => .ok (.opaqueBytes inst.publicKeyIdentity)
  | 4 => .ok (.opaqueBytes inst.serverPublicKey)
  | 5 => .ok (.opaqueBytes inst.secretKey)
  | 10 => .ok (ofUInt16 inst.shortServerId)
  | 11 => .ok (ofUInt32 inst.clientHoldOffTime)
  | 12 => .ok (ofUInt32 inst.bootstrapTimeout)
  | _ => err .NotFound "Resource not found"

def writeResource (rid : UInt16) (value : ResourceValue) (inst : SecurityInstance) : Result SecurityInstance :=
  match rid with
  | 0 => writeTyped (·.asString) (fun v => { inst with serverUri := v }) value
  | 1 => writeTyped (·.asBool) (fun v => { inst with bootstrapServer := v }) value
  | 2 => writeTyped (·.asInt) (fun v => { inst with securityMode := narrow8 v }) value
  | 3 => writeTyped (·.asOpaque) (fun v => { inst with publicKeyIdentity := v }) value
  | 4 => writeTyped (·.asOpaque) (fun v => { inst with serverPublicKey := v }) value
  | 5 => writeTyped (·.asOpaque) (fun v => { inst with secretKey := v }) value
  | 10 => writeTyped (·.asInt) (fun v => { inst with shortServerId := narrow16 v }) value
  | 11 => writeTyped (·.asInt) (fun v => { inst with clientHoldOffTime := narrow32 v }) value
  | 12 => writeTyped (·.asInt) (fun v => { inst with bootstrapTimeout := narrow32 v }) value
  | _ => err .NotFound "Resource not found"

end SecurityInstance

inductive SecurityMode where
  | NoSec | Psk | Rpk | Certificate
deriving DecidableEq, Repr

structure PskCredentials where
  identity : Bytes
  key : Bytes
deriving DecidableEq, Repr

structure RpkCredentials where
  publicKey : Bytes
  privateKey : Bytes
  serverPublicKey : Bytes
deriving DecidableEq, Repr

/-- What `connect` reads of a `ConnectionConfig`. -/
structure ConnectionConfig where
  serverUri : Bytes := []
  securityMode : SecurityMode := .NoSec
  psk : Option PskCredentials := none
  rpk : Option RpkCredentials := none
deriving DecidableEq, Repr

abbrev SecurityObject := Instances SecurityInstance

namespace SecurityObject

def listResources : List UInt16 := [0, 1, 2, 3, 4, 5, 10, 11, 12]

def getResourceType (rid : UInt16) : Option ResourceType :=
  match rid with
  | 0 | 9 => some .String
  | 1 => some .Boolean
  | 2 | 6 | 10 | 11 | 12 => some .Integer
  | 3 | 4 | 5 | 7 | 8 => some .Opaque
  | _ => none

def findByShortServerId (o : SecurityObject) (ssid : UInt16) : Option SecurityInstance :=
  Instances.findByShortServerId SecurityInstance.shortServerId o ssid

def addServer (o : SecurityObject) (config : SecurityInstance) : Result UInt16 × SecurityObject :=
  Instances.addServer {} o config

/-- A mode that is none of the enumerators leaves the default, NoSec. -/
def toConnectionConfig (o : SecurityObject) (iid : UInt16) : ConnectionConfig :=
  match o.instances.lookup iid with
  | none => {}
  | some inst =>
    let config : ConnectionConfig := { serverUri := inst.serverUri }
    match inst.securityMode with
    | 3 => { config with securityMode := .NoSec }
    | 0 => { config with securityMode := .Psk, psk := some ⟨inst.publicKeyIdentity,inst.secretKey⟩ }
    | 1 =>
      { config with securityMode := .Rpk, rpk := some ⟨inst.publicKeyIdentity,inst.secretKey,inst.serverPublicKey⟩ }
    | 2 | 4 => { config with securityMode := .Certificate }
    | _ => config

end SecurityObject

instance : Object SecurityObject where
  id _ := 0
  listInstances := Instances.listInstances
  hasInstance := Instances.hasInstance
  createInstance := Instances.createInstance {}
  deleteInstance := Instances.deleteInstance
  listResources _ _ := SecurityObject.listResources
  getResourceType _ _ := SecurityObject.getResourceType
  readResource _ o iid rid _ := (Instances.readResource (SecurityInstance.readResource rid) o iid,o)
  writeResource _ o iid rid _ value := Instances.writeResource (SecurityInstance.writeResource rid value) o iid

/-! ### Server -/

structure ServerInstance where
  shortServerId : UInt16 := 0
  lifetime : UInt32 := 86400
  defaultMinPeriod : UInt32 := 0
  defaultMaxPeriod : UInt32 := 0
  disableTimeout : UInt32 := 86400
  notificationStoring : Bool := false
  binding : Bytes := lit ['U']
deriving DecidableEq, Repr

namespace ServerInstance

def readResource (rid : UInt16) (inst : ServerInstance) : Result ResourceValue :=
  match rid with
  | 0 => .ok (ofUInt16 inst.shortServerId)
  | 1 => .ok (ofUInt32 inst.lifetime)
  | 2 => .ok (ofUInt32 inst.defaultMinPeriod)
  | 3 => .ok (ofUInt32 inst.defaultMaxPeriod)
  | 5 => .ok (ofUInt32 inst.disableTimeout)
  | 6 => .ok (.bool inst.notificationStoring)
  | 7 => .ok (.string inst.binding)
  | _ => err .NotFound "Resource not found"

def writeResource (rid : UInt16) (value : ResourceValue) (inst : ServerInstance) : Result ServerInstance :=
  match rid with
  | 0 => writeTyped (·.asInt) (fun v => { inst with shortServerId := narrow16 v }) value
  | 1 => writeTyped (·.asInt) (fun v => { inst with lifetime := narrow32 v }) value
  | 2 => writeTyped (·.asInt) (fun v => { inst with defaultMinPeriod := narrow32 v }) value
  | 3 => writeTyped (·.asInt) (fun v => { inst with defaultMaxPeriod := narrow32 v }) value
  | 5 => writeTyped (·.asInt) (fun v => { inst with disableTimeout := narrow32 v }) value
  | 6 => writeTyped (·.asBool) (fun v => { inst with notificationStoring := v }) value
  | 7 => writeTyped (·.asString) (fun v => { inst with binding := v }) value
  | _ => err .NotFound "Resource not found"

end ServerInstance

structure ServerObject where
  store : Instances ServerInstance := {}
  /-- `registration_update_callback_` is set. -/
  registrationUpdateCallback : Bool := false
deriving DecidableEq

namespace ServerObject

def listResources : List UInt16 := [0, 1, 2, 3, 4, 5, 6, 7, 8]

def getResourceType (rid : UInt16) : Option ResourceType :=
  match rid with
  | 0 | 1 | 2 | 3 | 5 => some .Integer
  | 6 => some .Boolean
  | 7 => some .String
  | _ => none

def findByShortServerId (o : ServerObject) (ssid : UInt16) : Option ServerInstance :=
  o.store.findByShortServerId ServerInstance.shortServerId ssid

def addServer (o : ServerObject) (config : ServerInstance) : Result UInt16 × ServerObject :=
  let (result,store) := Instances.addServer {} o.store config
  (result,{ o with store := store })

/-- Disable and the bootstrap trigger do nothing yet; the update trigger calls the
    callback with the short server id of the instance. -/
def executeResource (o : ServerObject) (iid rid : UInt16) : Result Unit × Trigger :=
  match o.store.instances.lookup iid with
  | none => (err .NotFound "Instance not found",none)
  | some inst =>
    match rid with
    | 4 => (.ok (),none)
    | 8 => (.ok (),if o.registrationUpdateCallback then some inst.shortServerId else none)
    | 9 => (.ok (),none)
    | _ => (err .MethodNotAllowed "Resource is not executable",none)

end ServerObject

instance : Object ServerObject where
  id _ := 1
  listInstances o := o.store.listInstances
  hasInstance o := o.store.hasInstance
  createInstance o suggested :=
    let (result,store) := o.store.createInstance {} suggested
    (result,{ o with store := store })
  deleteInstance o iid :=
    let (result,store) := o.store.deleteInstance iid
    (result,{ o with store := store })
  listResources _ _ := ServerObject.listResources
  getResourceType _ _ := ServerObject.getResourceType
  readResource _ o iid rid _ := (o.store.readResource (ServerInstance.readResource rid) iid,o)
  writeResource _ o iid rid _ value :=
    let (result,store) := o.store.writeResource (ServerInstance.writeResource rid value) iid
    (result,{ o with store := store })
  executeResource _ o iid rid _ :=
    let (result,trigger) := o.executeResource iid rid
    (result,o,trigger)

end Ferriot
