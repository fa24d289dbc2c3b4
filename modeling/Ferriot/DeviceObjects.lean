import Ferriot.Object

/-!
The single-instance objects that report on the device: Device, Connectivity
Monitoring and Location.
-/
namespace Ferriot

inductive DeviceErrorCode where
  | NoError | LowBatteryPower | ExternalPowerSupplyOff | GpsModuleFailure | LowReceivedSignalStrength
  | OutOfMemory | SmsFailure | IpConnectivityFailure | PeripheralMalfunction
deriving DecidableEq, Repr

def DeviceErrorCode.toInt : DeviceErrorCode → Int64
  | .NoError => 0
  | .LowBatteryPower => 1
  | .ExternalPowerSupplyOff => 2
  | .GpsModuleFailure => 3
  | .LowReceivedSignalStrength => 4
  | .OutOfMemory => 5
  | .SmsFailure => 6
  | .IpConnectivityFailure => 7
  | .PeripheralMalfunction => 8

inductive BatteryStatus where
  | Normal | Charging | ChargeComplete | Damaged | LowBattery | NotInstalled | Unknown
deriving DecidableEq, Repr

def BatteryStatus.toInt : BatteryStatus → Int64
  | .Normal => 0
  | .Charging => 1
  | .ChargeComplete => 2
  | .Damaged => 3
  | .LowBattery => 4
  | .NotInstalled => 5
  | .Unknown => 6

structure DeviceConfig where
  manufacturer : Bytes := lit ['F','e','r','r','i','o','t']
  modelNumber : Bytes := lit ['F','e','r','r','i','o','t']
  serialNumber : Bytes := []
  firmwareVersion : Bytes := lit ['1','.','0','.','0']
  softwareVersion : Bytes := lit ['1','.','0','.','0']
  hardwareVersion : Bytes := lit ['1','.','0']
  deviceType : Bytes := lit ['T','C','U']
  availablePowerSources : List UInt8 := [0]
  powerSourceVoltages : List Int32 := [12000]
  powerSourceCurrents : List Int32 := [0]
  batteryLevel : UInt8 := 100
  batteryStatus : BatteryStatus := .Normal
  memoryFree : Int32 := 0
  memoryTotal : Int32 := 0
  timezone : Bytes := []
  utcOffset : Bytes := []
  supportedBindings : Bytes := lit ['U']
deriving DecidableEq, Repr

/-- The reboot and factory reset callbacks run outside the client and leave nothing to model. -/
structure DeviceObject where
  config : DeviceConfig := {}
  errorCodes : List DeviceErrorCode := [.NoError]
deriving DecidableEq, Repr

namespace DeviceObject

def listResources : List UInt16 := [0, 1, 2, 3, 4, 5, 6, 7, 8, 9, 10, 11, 12, 13, 14, 15, 16, 17, 18, 19, 20, 21]

/-- Without an error code the first of them reads as NoError. -/
def readErrorCode (o : DeviceObject) (riid : Option UInt16) : Result ResourceValue :=
  match riid with
  | some index =>
    match o.errorCodes[index.toNat]? with
    | some code => .ok (.int code.toInt)
    | none => err .NotFound "Resource instance not found"
  | none => .ok (.int (o.errorCodes.headD .NoError).toInt)

def readResource (env : Env) (o : DeviceObject) (iid rid : UInt16) (riid : Option UInt16) : Result ResourceValue :=
  if iid ≠ 0 then err .NotFound "Instance not found"
  else
    match rid with
    | 0 => .ok (.string o.config.manufacturer)
    | 1 => .ok (.string o.config.modelNumber)
    | 2 => .ok (.string o.config.serialNumber)
    | 3 => .ok (.string o.config.firmwareVersion)
    | 6 => readMultiple ofUInt8 o.config.availablePowerSources riid "No power sources"
    | 7 => readMultiple ofInt32 o.config.powerSourceVoltages riid "No voltage data"
    | 8 => readMultiple ofInt32 o.config.powerSourceCurrents riid "No current data"
    | 9 => .ok (ofUInt8 o.config.batteryLevel)
    | 10 => .ok (ofInt32 o.config.memoryFree)
    | 11 => o.readErrorCode riid
    | 13 => .ok (.time env.now)
    | 14 => .ok (.string o.config.utcOffset)
    | 15 => .ok (.string o.config.timezone)
    | 16 => .ok (.string o.config.supportedBindings)
    | 17 => .ok (.string o.config.deviceType)
    | 18 => .ok (.string o.config.hardwareVersion)
    | 19 => .ok (.string o.config.softwareVersion)
    | 20 => .ok (.int o.config.batteryStatus.toInt)
    | 21 => .ok (ofInt32 o.config.memoryTotal)
    | _ => err .NotFound "Resource not found"

def writeResource (o : DeviceObject) (iid rid : UInt16) (value : ResourceValue) : Result DeviceObject :=
  if iid ≠ 0 then err .NotFound "Instance not found"
  else
    match rid with
    | 13 => err .MethodNotAllowed "Current Time is read-only"
    | 14 => writeTyped (·.asString) (fun v => { o with config := { o.config with utcOffset := v } }) value
    | 15 => writeTyped (·.asString) (fun v => { o with config := { o.config with timezone := v } }) value
    | _ => err .MethodNotAllowed "Resource is read-only"

/-- A real error takes the place of a leading NoError. -/
def addErrorCode (o : DeviceObject) (code : DeviceErrorCode) : DeviceObject :=
  if code ≠ .NoError ∧ o.errorCodes.head? = some .NoError then { o with errorCodes := [code] }
  else { o with errorCodes := o.errorCodes ++ [code] }

def clearErrorCodes (o : DeviceObject) : DeviceObject := { o with errorCodes := [.NoError] }

def executeResource (o : DeviceObject) (iid rid : UInt16) : Result Unit × DeviceObject :=
  if iid ≠ 0 then (err .NotFound "Instance not found",o)
  else
    match rid with
    | 4 => (.ok (),o)
    | 5 => (.ok (),o)
    | 12 => (.ok (),o.clearErrorCodes)
    | _ => (err .MethodNotAllowed "Resource is not executable",o)

end DeviceObject

/-- A refused write leaves the object as it was. -/
def stored {σ : Type} (o : σ) : Result σ → Result Unit × σ
  | .ok o => (.ok (),o)
  | .error e => (.error e,o)

instance : Object DeviceObject where
  id _ := 3
  listInstances _ := SingleInstance.listInstances
  hasInstance _ := SingleInstance.hasInstance
  createInstance o _ := (SingleInstance.createInstance,o)
  deleteInstance o _ := (SingleInstance.deleteInstance,o)
  listResources _ _ := DeviceObject.listResources
  readResource env o iid rid riid := (o.readResource env iid rid riid,o)
  writeResource _ o iid rid _ value := stored o (o.writeResource iid rid value)
  executeResource _ o iid rid _ :=
    let (result,o) := o.executeResource iid rid
    (result,o,none)

/-! ### Connectivity Monitoring -/

/-- A `NetworkBearer`, by its value: no function tells the bearers apart. -/
abbrev NetworkBearer := UInt8

def NetworkBearer.Ethernet : NetworkBearer := 41

structure ConnectivityObject where
  networkBearer : NetworkBearer := .Ethernet
  availableBearers : List NetworkBearer := [.Ethernet]
  radioSignalStrength : Int32 := -70
  linkQuality : UInt8 := 100
  ipAddresses : List Bytes := []
  routerIpAddresses : List Bytes := []
  linkUtilization : UInt8 := 0
  apnList : List Bytes := []
  cellId : UInt32 := 0
  smnc : UInt16 := 0
  smcc : UInt16 := 0
deriving DecidableEq, Repr

namespace ConnectivityObject

def listResources : List UInt16 := [0, 1, 2, 3, 4, 5, 6, 7, 8, 9, 10]

def getResourceType (rid : UInt16) : Option ResourceType :=
  match rid with
  | 0 | 1 | 2 | 3 | 6 | 8 | 9 | 10 => some .Integer
  | 4 | 5 | 7 => some .String
  | _ => none

def readResource (o : ConnectivityObject) (iid rid : UInt16) (riid : Option UInt16) : Result ResourceValue :=
  if iid ≠ 0 then err .NotFound "Instance not found"
  else
    match rid with
    | 0 => .ok (ofUInt8 o.networkBearer)
    | 1 => readMultiple ofUInt8 o.availableBearers riid "No bearers available"
    | 2 => .ok (ofInt32 o.radioSignalStrength)
    | 3 => .ok (ofUInt8 o.linkQuality)
    | 4 => readMultiple .string o.ipAddresses riid "No IP addresses"
    | 5 => readMultiple .string o.routerIpAddresses riid "No router IP addresses"
    | 6 => .ok (ofUInt8 o.linkUtilization)
    | 7 => readMultiple .string o.apnList riid "No APNs configured"
    | 8 => .ok (ofUInt32 o.cellId)
    | 9 => .ok (ofUInt16 o.smnc)
    | 10 => .ok (ofUInt16 o.smcc)
    | _ => err .NotFound "Resource not found"

def writeResource (iid : UInt16) : Result Unit :=
  if iid ≠ 0 then err .NotFound "Instance not found"
  else err .MethodNotAllowed "Connectivity resources are read-only"

def executeResource (iid : UInt16) : Result Unit :=
  if iid ≠ 0 then err .NotFound "Instance not found"
  else err .MethodNotAllowed "Resource is not executable"

end ConnectivityObject

instance : Object ConnectivityObject where
  id _ := 4
  listInstances _ := SingleInstance.listInstances
  hasInstance _ := SingleInstance.hasInstance
  createInstance o _ := (SingleInstance.createInstance,o)
  deleteInstance o _ := (SingleInstance.deleteInstance,o)
  listResources _ _ := ConnectivityObject.listResources
  getResourceType _ _ := ConnectivityObject.getResourceType
  readResource _ o iid rid riid := (o.readResource iid rid riid,o)
  writeResource _ o iid _ _ _ := (ConnectivityObject.writeResource iid,o)
  executeResource _ o iid _ _ := (ConnectivityObject.executeResource iid,o,none)

/-! ### Location -/

namespace Double

/-- Not a number: all exponent bits set and some fraction bit. -/
def isNaN (d : Double) : Bool := 0x7FF0000000000000 < d.bits &&& 0x7FFFFFFFFFFFFFFF

/-- The place of a number in the order of numbers; both zeros are 0. -/
def rank (d : Double) : Int :=
  let magnitude : Int := (d.bits &&& 0x7FFFFFFFFFFFFFFF).toNat
  if d.bits < 0x8000000000000000 then magnitude else -magnitude

/-- `a <= b` on doubles, false if one of them is not a number. -/
def le (a b : Double) : Bool := !a.isNaN && !b.isNaN && a.rank ≤ b.rank

def minus90 : Double := ⟨0xC056800000000000⟩
def plus90 : Double := ⟨0x4056800000000000⟩
def minus180 : Double := ⟨0xC066800000000000⟩
def plus180 : Double := ⟨0x4066800000000000⟩

end Double

def GpsPosition.isValid (p : GpsPosition) : Bool :=
  Double.minus90.le p.latitude && p.latitude.le .plus90 && Double.minus180.le p.longitude && p.longitude.le .plus180

structure LocationObject where
  position : GpsPosition
  hasPosition : Bool := false
  /-- `gps_provider_` is set. -/
  gpsProvider : Bool := false
deriving DecidableEq, Repr

namespace LocationObject

/-- The constructor, at the given time. -/
def init (now : TimePoint) : LocationObject := { position := ⟨⟨0⟩,⟨0⟩,⟨0⟩,⟨0⟩,⟨0⟩,now⟩ }

def listResources : List UInt16 := [0, 1, 2, 3, 5, 6]

def updatePosition (o : LocationObject) (position : GpsPosition) : LocationObject :=
  { o with position := position, hasPosition := position.isValid }

def refreshPosition (env : Env) (o : LocationObject) : LocationObject :=
  if o.gpsProvider then
    match env.gpsProvider with
    | some position => o.updatePosition position
    | none => o
  else o

def readPosition (o : LocationObject) (rid : UInt16) : Result ResourceValue :=
  if o.hasPosition then
    match rid with
    | 0 => .ok (.double o.position.latitude)
    | 1 => .ok (.double o.position.longitude)
    | 2 => .ok (.double o.position.altitude)
    | 3 => .ok (.double o.position.radius)
    | 4 => err .NotFound "Velocity not implemented"
    | 5 => .ok (.time o.position.timestamp)
    | 6 => .ok (.double o.position.speed)
    | _ => err .NotFound "Resource not found"
  else err .NotFound "Position not available"

/-- A read refreshes the position first. -/
def readResource (env : Env) (o : LocationObject) (iid rid : UInt16) : Result ResourceValue × LocationObject :=
  if iid ≠ 0 then (err .NotFound "Instance not found",o)
  else
    let o := o.refreshPosition env
    (o.readPosition rid,o)

def writeResource (iid : UInt16) : Result Unit :=
  if iid ≠ 0 then err .NotFound "Instance not found"
  else err .MethodNotAllowed "Location resources are read-only"

def executeResource (iid : UInt16) : Result Unit :=
  if iid ≠ 0 then err .NotFound "Instance not found"
  else err .MethodNotAllowed "Resource is not executable"

end LocationObject

instance : Object LocationObject where
  id _ := 6
  listInstances _ := SingleInstance.listInstances
  hasInstance _ := SingleInstance.hasInstance
  createInstance o _ := (SingleInstance.createInstance,o)
  deleteInstance o _ := (SingleInstance.deleteInstance,o)
  listResources _ _ := LocationObject.listResources
  readResource env o iid rid _ := o.readResource env iid rid
  writeResource _ o iid _ _ _ := (LocationObject.writeResource iid,o)
  executeResource _ o iid _ _ := (LocationObject.executeResource iid,o,none)

end Ferriot
