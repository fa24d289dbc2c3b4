import Mathlib.Tactic.Common

/-!
The vocabulary shared by every layer of the client: byte strings, error codes
and results, object paths, and the values a resource may hold.
-/
namespace Ferriot

/-- A `std::vector<uint8_t>`, and also a `std::string`, which may hold any bytes. -/
abbrev Bytes := List UInt8

/-- The bytes of a spelled-out text. -/
def lit (text : List Char) : Bytes := text.map (fun c => UInt8.ofNat c.toNat)

inductive ErrorCode where
  | Success
  | BadRequest | Unauthorized | Forbidden | NotFound | MethodNotAllowed | NotAcceptable
  | RequestEntityIncomplete | PreconditionFailed | RequestEntityTooLarge | UnsupportedContentFormat
  | InternalServerError | NotImplemented | BadGateway | ServiceUnavailable | GatewayTimeout
  | Timeout | ConnectionFailed | DtlsHandshakeFailed | NetworkUnreachable
  | EncodingError | DecodingError | InvalidState | ResourceBusy
deriving DecidableEq, Repr

structure Error where
  code : ErrorCode
  message : String
deriving DecidableEq, Repr

/-- `Result<T>`: a value or an error. -/
abbrev Result (α : Type) := Except Error α

/-- `Err<T>(code, message)`. -/
abbrev err {α : Type} (code : ErrorCode) (message : String) : Result α := .error ⟨code,message⟩

/-- `result ? true : false`. -/
def Result.isOk {α : Type} : Result α → Bool
  | .ok _ => true
  | .error _ => false

@[simp] theorem Result.isOk_ok {α : Type} (value : α) : Result.isOk (.ok value : Result α) = true := rfl
@[simp] theorem Result.isOk_error {α : Type} (e : Error) : Result.isOk (.error e : Result α) = false := rfl

/-- A path of an object, an instance, a resource or a resource instance. -/
structure ObjectPath where
  objectId : UInt16
  instanceId : Option UInt16 := none
  resourceId : Option UInt16 := none
  resourceInstanceId : Option UInt16 := none
deriving DecidableEq, Repr

namespace ObjectPath

def isObject (path : ObjectPath) : Bool := path.instanceId.isNone
def isInstance (path : ObjectPath) : Bool := path.instanceId.isSome && path.resourceId.isNone
def isResource (path : ObjectPath) : Bool := path.resourceId.isSome && path.resourceInstanceId.isNone
def isResourceInstance (path : ObjectPath) : Bool := path.resourceInstanceId.isSome

end ObjectPath

/-- A `double`, as its bit pattern. -/
structure Double where
  bits : UInt64
deriving DecidableEq, Repr

/-- A `std::chrono::system_clock::time_point`: 64-bit nanoseconds since the epoch. -/
structure TimePoint where
  ns : Int64
deriving DecidableEq, Repr

/-- The alternatives of `ResourceValue`. -/
inductive ResourceValue where
  | monostate
  | bool (v : Bool)
  | int (v : Int64)
  | uint (v : UInt64)
  | double (v : Double)
  | string (v : Bytes)
  | opaqueBytes (v : Bytes)
  | time (v : TimePoint)
  | objlink (v : ObjectPath)
deriving DecidableEq, Repr

inductive ResourceType where
  | None | Boolean | Integer | UnsignedInteger | Float | String | Opaque | Time | ObjectLink
deriving DecidableEq, Repr

/-- `get_resource_type(value)`: the type of the alternative held. -/
def getResourceType : ResourceValue → ResourceType
  | .monostate => .None
  | .bool _ => .Boolean
  | .int _ => .Integer
  | .uint _ => .UnsignedInteger
  | .double _ => .Float
  | .string _ => .String
  | .opaqueBytes _ => .Opaque
  | .time _ => .Time
  | .objlink _ => .ObjectLink

end Ferriot
