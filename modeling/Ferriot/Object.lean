import Ferriot.Types

/-!
The interface of an LwM2M object, and what a call of it finds outside the client:
the clock, the GPS provider and the callbacks of the application.
-/
namespace Ferriot

inductive FirmwareUpdateResult where
  | Initial | Success | NotEnoughFlashMemory | OutOfRam | ConnectionLostDuringDownload
  | IntegrityCheckFailure | UnsupportedPackageType | InvalidUri | UpdateFailed | UnsupportedProtocol
deriving DecidableEq, Repr

/-- The calls by which an application reports progress to the firmware object. -/
inductive FirmwareReport where
  | downloadComplete (success : Bool)
  | updateComplete (result : FirmwareUpdateResult)
deriving DecidableEq, Repr

/-- What a firmware callback does: the reports it makes before it returns, and its result. -/
structure CallbackAnswer where
  reports : List FirmwareReport := []
  result : Result Unit := .ok ()

structure GpsPosition where
  latitude : Double
  longitude : Double
  altitude : Double
  speed : Double
  radius : Double
  timestamp : TimePoint
deriving DecidableEq, Repr

/-- What one call of an object finds outside the client. An answer is used only
    if the application has set the callback it belongs to. -/
structure Env where
  now : TimePoint := ⟨0⟩
  gpsProvider : Option GpsPosition := none
  startDownload : CallbackAnswer := {}
  verifyPackage : CallbackAnswer := {}
  applyUpdate : CallbackAnswer := {}

/-- What the object calls of one request find, call after call. -/
abbrev Moments := Nat → Env

/-- The moments after the first. -/
def Moments.later (moments : Moments) : Moments := fun n => moments (n+1)

/-! ### Objects -/

/-- What `execute_resource` leaves to the client: the registration update that
    the server object's callback asks for, by its short server id. -/
abbrev Trigger := Option UInt16

/-- `Object`, with the answers of the base class as defaults. The state is
    returned also by reads: an object may refresh what it holds. -/
class Object (σ : Type) where
  id : σ → UInt16
  listInstances : σ → List UInt16
  hasInstance : σ → UInt16 → Bool
  createInstance : σ → Option UInt16 → Result UInt16 × σ :=
    fun o _ => (err .MethodNotAllowed "Object does not support instance creation",o)
  deleteInstance : σ → UInt16 → Result Unit × σ :=
    fun o _ => (err .MethodNotAllowed "Object does not support instance deletion",o)
  listResources : σ → UInt16 → List UInt16
  getResourceType : σ → UInt16 → UInt16 → Option ResourceType := fun _ _ _ => none
  readResource : Env → σ → UInt16 → UInt16 → Option UInt16 → Result ResourceValue × σ
  writeResource : Env → σ → UInt16 → UInt16 → Option UInt16 → ResourceValue → Result Unit × σ
  executeResource : Env → σ → UInt16 → UInt16 → Bytes → Result Unit × σ × Trigger :=
    fun _ o _ _ _ => (err .MethodNotAllowed "Resource is not executable",o,none)

def SingleInstance.listInstances : List UInt16 := [0]
def SingleInstance.hasInstance (iid : UInt16) : Bool := iid == 0
def SingleInstance.createInstance : Result UInt16 := err .MethodNotAllowed "Single instance object"
def SingleInstance.deleteInstance : Result Unit := err .MethodNotAllowed "Single instance object"

/-- A read of a resource with several instances: the one asked for, else the first. -/
def readMultiple {α : Type} (toValue : α → ResourceValue) (values : List α) (riid : Option UInt16)
    (noneText : String) : Result ResourceValue :=
  match riid with
  | some index =>
    match values[index.toNat]? with
    | some v => .ok (toValue v)
    | none => err .NotFound "Resource instance not found"
  | none =>
    match values.head? with
    | some v => .ok (toValue v)
    | none => err .NotFound noneText

/-- A write that takes one alternative of the value and refuses the others. -/
def writeTyped {α β : Type} (alternative : ResourceValue → Option α) (store : α → β) (value : ResourceValue) :
    Result β :=
  match alternative value with
  | some v => .ok (store v)
  | none => err .BadRequest "Invalid value type"

namespace ResourceValue

def asBool : ResourceValue → Option Bool
  | .bool v => some v
  | _ => none
def asInt : ResourceValue → Option Int64
  | .int v => some v
  | _ => none
def asString : ResourceValue → Option Bytes
  | .string v => some v
  | _ => none
def asOpaque : ResourceValue → Option Bytes
  | .opaqueBytes v => some v
  | _ => none

end ResourceValue

def ofUInt8 (v : UInt8) : ResourceValue := .int v.toUInt64.toInt64
def ofUInt16 (v : UInt16) : ResourceValue := .int v.toUInt64.toInt64
def ofUInt32 (v : UInt32) : ResourceValue := .int v.toUInt64.toInt64
def ofInt32 (v : Int32) : ResourceValue := .int v.toInt64
def narrow8 (v : Int64) : UInt8 := v.toUInt64.toUInt8
def narrow16 (v : Int64) : UInt16 := v.toUInt64.toUInt16
def narrow32 (v : Int64) : UInt32 := v.toUInt64.toUInt32

end Ferriot
