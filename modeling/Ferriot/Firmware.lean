import Ferriot.Object

/-!
The firmware update object, its state machine and the callbacks that drive it.
-/
namespace Ferriot.Firmware

inductive FirmwareState where
  | Idle | Downloading | Downloaded | Updating
deriving DecidableEq, Repr

def FirmwareState.toInt : FirmwareState → Int64
  | .Idle => 0
  | .Downloading => 1
  | .Downloaded => 2
  | .Updating => 3

def resultToInt : FirmwareUpdateResult → Int64
  | .Initial => 0
  | .Success => 1
  | .NotEnoughFlashMemory => 2
  | .OutOfRam => 3
  | .ConnectionLostDuringDownload => 4
  | .IntegrityCheckFailure => 5
  | .UnsupportedPackageType => 6
  | .InvalidUri => 7
  | .UpdateFailed => 8
  | .UnsupportedProtocol => 9

inductive FirmwareProtocol where
  | CoAP | CoAPS | HTTP | HTTPS | CoAPTCP | CoAPSTCP
deriving DecidableEq, Repr

def FirmwareProtocol.toInt : FirmwareProtocol → Int64
  | .CoAP => 0
  | .CoAPS => 1
  | .HTTP => 2
  | .HTTPS => 3
  | .CoAPTCP => 4
  | .CoAPSTCP => 5

inductive FirmwareDeliveryMethod where
  | Pull | Push | Both
deriving DecidableEq, Repr

def FirmwareDeliveryMethod.toInt : FirmwareDeliveryMethod → Int64
  | .Pull => 0
  | .Push => 1
  | .Both => 2

/-- Which callbacks the application has set. -/
structure FirmwareUpdateCallbacks where
  startDownload : Bool := false
  verifyPackage : Bool := false
  applyUpdate : Bool := false
deriving DecidableEq, Repr

structure FirmwareUpdateObject where
  state : FirmwareState := .Idle
  updateResult : FirmwareUpdateResult := .Initial
  packageUri : Bytes := []
  packageData : Bytes := []
  packageName : Bytes := []
  packageVersion : Bytes := []
  supportedProtocols : List FirmwareProtocol := [.CoAP, .CoAPS, .HTTP, .HTTPS]
  deliveryMethod : FirmwareDeliveryMethod := .Both
  callbacks : FirmwareUpdateCallbacks := {}
deriving DecidableEq, Repr

namespace FirmwareUpdateObject

def listResources : List UInt16 := [0, 1, 2, 3, 5, 6, 7, 8, 9]

def getResourceType (rid : UInt16) : Option ResourceType :=
  match rid with
  | 0 => some .Opaque
  | 1 | 6 | 7 => some .String
  | 3 | 5 | 8 | 9 => some .Integer
  | _ => none

def downloadComplete (o : FirmwareUpdateObject) (success : Bool) : FirmwareUpdateObject :=
  if o.state ≠ .Downloading then o
  else if success then { o with state := .Downloaded }
  else { o with state := .Idle, updateResult := .ConnectionLostDuringDownload }

def updateComplete (o : FirmwareUpdateObject) (result : FirmwareUpdateResult) : FirmwareUpdateObject :=
  let o := { o with state := .Idle, updateResult := result, packageData := [] }
  if result = .Success then { o with packageName := [], packageVersion := [] } else o

def report (o : FirmwareUpdateObject) : FirmwareReport → FirmwareUpdateObject
  | .downloadComplete success => o.downloadComplete success
  | .updateComplete result => o.updateComplete result

/-- A callback runs: the object as its reports leave it. -/
def callback (o : FirmwareUpdateObject) (answer : CallbackAnswer) : FirmwareUpdateObject :=
  answer.reports.foldl report o

def readResource (o : FirmwareUpdateObject) (iid rid : UInt16) (riid : Option UInt16) : Result ResourceValue :=
  if iid ≠ 0 then err .NotFound "Instance not found"
  else
    match rid with
    | 0 => err .MethodNotAllowed "Package is write-only"
    | 1 => err .MethodNotAllowed "Package URI is write-only"
    | 3 => .ok (.int o.state.toInt)
    | 5 => .ok (.int (resultToInt o.updateResult))
    | 6 => .ok (.string o.packageName)
    | 7 => .ok (.string o.packageVersion)
    | 8 => readMultiple (fun p => .int (FirmwareProtocol.toInt p)) o.supportedProtocols riid "No protocols defined"
    | 9 => .ok (.int o.deliveryMethod.toInt)
    | _ => err .NotFound "Resource not found"

/-- A package may be pushed in the states Idle and Downloaded only. -/
def pushPackage (env : Env) (o : FirmwareUpdateObject) (data : Bytes) : Result Unit × FirmwareUpdateObject :=
  if o.state ≠ .Idle ∧ o.state ≠ .Downloaded then
    (err .MethodNotAllowed "Cannot push package in current state",o)
  else
    let o := { o with packageData := data, updateResult := .Initial }
    if o.callbacks.verifyPackage then
      let o := o.callback env.verifyPackage
      match env.verifyPackage.result with
      | .ok () => (.ok (),{ o with state := .Downloaded })
      | .error e => (.error e,{ o with packageData := [], updateResult := .IntegrityCheckFailure })
    else (.ok (),{ o with state := .Downloaded })

/-- The state is loaded before the callback and stored after it. -/
def writePackageUri (env : Env) (o : FirmwareUpdateObject) (uri : Bytes) : Result Unit × FirmwareUpdateObject :=
  let o := { o with packageUri := uri, updateResult := .Initial }
  if o.callbacks.startDownload then
    let o := o.callback env.startDownload
    match env.startDownload.result with
    | .ok () => (.ok (),{ o with state := .Downloading })
    | .error e => (.error e,{ o with updateResult := .InvalidUri })
  else (.ok (),o)

def writeResource (env : Env) (o : FirmwareUpdateObject) (iid rid : UInt16) (value : ResourceValue) :
    Result Unit × FirmwareUpdateObject :=
  if iid ≠ 0 then (err .NotFound "Instance not found",o)
  else
    match rid with
    | 0 =>
      if o.state ≠ .Idle ∧ o.state ≠ .Downloaded then
        (err .MethodNotAllowed "Cannot write package in current state",o)
      else
        match value.asOpaque with
        | some data => o.pushPackage env data
        | none => (err .BadRequest "Invalid value type",o)
    | 1 =>
      if o.state ≠ .Idle then (err .MethodNotAllowed "Cannot write URI in current state",o)
      else
        match value.asString with
        | some uri => o.writePackageUri env uri
        | none => (err .BadRequest "Invalid value type",o)
    | _ => (err .MethodNotAllowed "Resource is read-only",o)

def executeResource (env : Env) (o : FirmwareUpdateObject) (iid rid : UInt16) : Result Unit × FirmwareUpdateObject :=
  if iid ≠ 0 then (err .NotFound "Instance not found",o)
  else
    match rid with
    | 2 =>
      if o.state ≠ .Downloaded then (err .MethodNotAllowed "Cannot update: not in Downloaded state",o)
      else if o.callbacks.applyUpdate then
        let o := { o with state := .Updating }
        let o := o.callback env.applyUpdate
        match env.applyUpdate.result with
        | .ok () => (.ok (),o)
        | .error e => (.error e,{ o with state := .Idle, updateResult := .UpdateFailed })
      else (.ok (),o)
    | _ => (err .MethodNotAllowed "Resource is not executable",o)

instance : Object FirmwareUpdateObject where
  id _ := 5
  listInstances _ := SingleInstance.listInstances
  hasInstance _ := SingleInstance.hasInstance
  createInstance o _ := (SingleInstance.createInstance,o)
  deleteInstance o _ := (SingleInstance.deleteInstance,o)
  listResources _ _ := listResources
  getResourceType _ _ := getResourceType
  readResource _ o iid rid riid := (o.readResource iid rid riid,o)
  writeResource env o iid rid _ value := o.writeResource env iid rid value
  executeResource env o iid rid _ :=
    let (result,o) := o.executeResource env iid rid
    (result,o,none)

end FirmwareUpdateObject

end Ferriot.Firmware
