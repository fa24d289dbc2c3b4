import Ferriot.Bystanders
import Ferriot.ReadAnswers
import Ferriot.StoredValues

/-!
# What the application reports

The application reports through setters of the Connectivity, Device and Location objects,
while requests of any server come in between. The servers read what was reported last.
-/
namespace Ferriot
open Tables Requests Runs

namespace Requests
variable {σ : Type} [Object σ]

/-- Every operation of an object stays within the relation. -/
structure Within (R : σ → σ → Prop) : Prop where
  refl (o : σ) : R o o
  trans {o o' o'' : σ} : R o o' → R o' o'' → R o o''
  read (env : Env) (o : σ) (iid rid : UInt16) (riid : Option UInt16) : R o (Object.readResource env o iid rid riid).2
  write (env : Env) (o : σ) (iid rid : UInt16) (riid : Option UInt16) (value : ResourceValue) :
    R o (Object.writeResource env o iid rid riid value).2
  execute (env : Env) (o : σ) (iid rid : UInt16) (arguments : Bytes) : R o (Object.executeResource env o iid rid arguments).2.1
  create (o : σ) (suggested : Option UInt16) : R o (Object.createInstance o suggested).2
  delete (o : σ) (iid : UInt16) : R o (Object.deleteInstance o iid).2

section
variable {R : σ → σ → Prop}

theorem readResources_within (within : Within R) (iid : UInt16) (moments : Moments) (rids : List UInt16) (o : σ) :
    R o (readResources iid moments rids o).2.1 := by
  induction rids generalizing moments o with
  | nil => exact within.refl o
  | cons rid rids ih =>
    have first := within.read (moments 0) o iid rid none
    have others := ih moments.later (Object.readResource (moments 0) o iid rid none).2
    simp only [readResources]
    split <;> exact within.trans first others

theorem encodeInstanceTlv_within (within : Within R) (iid : UInt16) (moments : Moments) (o : σ) :
    R o (encodeInstanceTlv iid moments o).2.1 := by
  have read := readResources_within within iid moments (Object.listResources o iid) o
  simp only [encodeInstanceTlv]
  split <;> exact read

theorem encodeInstances_within (within : Within R) (iids : List UInt16) (moments : Moments) (o : σ) :
    R o (encodeInstances iids moments o).2 := by
  induction iids generalizing moments o with
  | nil => exact within.refl o
  | cons iid iids ih => exact within.trans (encodeInstanceTlv_within within iid moments o) (ih _ _)

theorem processRead_within (within : Within R) (moments : Moments) (path : ObjectPath) (o : σ) :
    R o (processRead moments path o).2 := by
  unfold processRead
  split
  · exact encodeInstances_within within _ moments o
  · split
    · dsimp only
      split
      · exact encodeInstanceTlv_within within _ moments o
      · exact within.refl o
    · split
      · have read := within.read (moments 0) o (path.instanceId.getD 0) (path.resourceId.getD 0) path.resourceInstanceId
        dsimp only
        split
        · exact read
        · split <;> exact read
      · exact within.refl o

theorem writeRecords_within (within : Within R) (iid : UInt16) (moments : Moments) (records : List Tlv.TlvRecord) (o : σ) :
    R o (writeRecords iid moments records o) := by
  induction records generalizing moments o with
  | nil => exact within.refl o
  | cons record records ih =>
    have first : R o (writeRecord (moments 0) iid record o) := by
      unfold writeRecord
      split
      · split
        · exact within.write _ o iid record.id none _
        · exact within.refl o
      · exact within.refl o
    exact within.trans first (ih moments.later _)

theorem processWrite_within (within : Within R) (moments : Moments) (path : ObjectPath) (payload : Bytes) (o : σ) :
    R o (processWrite moments path payload o).2 := by
  unfold processWrite
  split
  · exact within.refl o
  · split
    · unfold writeFirst
      split
      · exact within.refl o
      · split
        · exact within.refl o
        · exact within.write _ o _ _ _ _
    · split
      · exact writeRecords_within within _ moments _ o
      · split
        · exact within.create o none
        · exact within.refl o

/-- What every operation stays within, every request does. -/
theorem process_within (within : Within R) (moments : Moments) (request : CoapRequest) (path : ObjectPath) (o : σ) :
    R o (process moments request path o).2 := by
  unfold process
  split
  · exact processRead_within within moments path o
  · exact processWrite_within within moments path _ o
  · split
    · exact within.execute _ o _ _ _
    · exact processWrite_within within moments path _ o
  · exact within.delete o _

end

end Requests

/-! ### Settings -/

/-- The setters of the Connectivity object. -/
inductive ConnectivitySetting where
  | setNetworkBearer (bearer : NetworkBearer)
  | setAvailableBearers (bearers : List NetworkBearer)
  | setSignalStrength (dbm : Int32)
  | setLinkQuality (percent : UInt8)
  | setIpAddresses (addresses : List Bytes)
  | setRouterIpAddresses (addresses : List Bytes)
  | setLinkUtilization (percent : UInt8)
  | setCellularInfo (cellId : UInt32) (mcc mnc : UInt16)
  | setApnList (apns : List Bytes)

/-- `percent > 100 ? 100 : percent`. -/
def atMost100 (percent : UInt8) : UInt8 := if 100 < percent then 100 else percent

def ConnectivitySetting.perform (o : ConnectivityObject) : ConnectivitySetting → ConnectivityObject
  | .setNetworkBearer bearer => { o with networkBearer := bearer }
  | .setAvailableBearers bearers => { o with availableBearers := bearers }
  | .setSignalStrength dbm => { o with radioSignalStrength := dbm }
  | .setLinkQuality percent => { o with linkQuality := atMost100 percent }
  | .setIpAddresses addresses => { o with ipAddresses := addresses }
  | .setRouterIpAddresses addresses => { o with routerIpAddresses := addresses }
  | .setLinkUtilization percent => { o with linkUtilization := atMost100 percent }
  | .setCellularInfo cellId mcc mnc => { o with cellId := cellId, smcc := mcc, smnc := mnc }
  | .setApnList apns => { o with apnList := apns }

/-- What each resource is to show from now on. -/
def ConnectivitySetting.shown (riid : Option UInt16) : ConnectivitySetting → List (UInt16 × Result ResourceValue)
  | .setNetworkBearer bearer => [(0,.ok (ofUInt8 bearer))]
  | .setAvailableBearers bearers => [(1,readMultiple ofUInt8 bearers riid "No bearers available")]
  | .setSignalStrength dbm => [(2,.ok (ofInt32 dbm))]
  | .setLinkQuality percent => [(3,.ok (ofUInt8 (UInt8.ofNat (min percent.toNat 100))))]
  | .setIpAddresses addresses => [(4,readMultiple .string addresses riid "No IP addresses")]
  | .setRouterIpAddresses addresses => [(5,readMultiple .string addresses riid "No router IP addresses")]
  | .setLinkUtilization percent => [(6,.ok (ofUInt8 (UInt8.ofNat (min percent.toNat 100))))]
  | .setCellularInfo cellId mcc mnc => [(8,.ok (ofUInt32 cellId)), (9,.ok (ofUInt16 mnc)), (10,.ok (ofUInt16 mcc))]
  | .setApnList apns => [(7,readMultiple .string apns riid "No APNs configured")]

/-- The setters of the Device object. -/
inductive DeviceSetting where
  | setBatteryLevel (level : UInt8)
  | setBatteryStatus (status : BatteryStatus)
  | setMemoryFree (kb : Int32)
  | addErrorCode (code : DeviceErrorCode)
  | clearErrorCodes

def DeviceSetting.perform (o : DeviceObject) : DeviceSetting → DeviceObject
  | .setBatteryLevel level => { o with config := { o.config with batteryLevel := level } }
  | .setBatteryStatus status => { o with config := { o.config with batteryStatus := status } }
  | .setMemoryFree kb => { o with config := { o.config with memoryFree := kb } }
  | .addErrorCode code => o.addErrorCode code
  | .clearErrorCodes => o.clearErrorCodes

/-- What each resource is to show from now on, but for the error codes. -/
def DeviceSetting.shown : DeviceSetting → List (UInt16 × Result ResourceValue)
  | .setBatteryLevel level => [(9,.ok (ofUInt8 level))]
  | .setBatteryStatus status => [(20,.ok (.int status.toInt))]
  | .setMemoryFree kb => [(10,.ok (ofInt32 kb))]
  | .addErrorCode _ | .clearErrorCodes => []

/-- What happens to a client: a request of a server, a setting of the application, or anything that it
    does to an object of its own. -/
inductive Happening (U : Type) where
  | request (request : Moments × RequestPdu)
  | connectivity (setting : ConnectivitySetting)
  | device (setting : DeviceSetting)
  | added (oid : UInt16) (change : U → U)

namespace Objects
variable [OptionNumbers] {U : Type} [Object U]

def happen (c : Objects U) : Happening U → Objects U
  | .request request => (serve request c).2
  | .connectivity setting => { c with connectivity := setting.perform c.connectivity }
  | .device setting => { c with device := setting.perform c.device }
  | .added oid change =>
    match c.getObject oid with
    | some (.added object) => { c with table := Tables.set c.table oid (.added (change object)) }
    | _ => c

def happenAll (c : Objects U) (happenings : List (Happening U)) : Objects U := happenings.foldl happen c

/-- A request calls one object, or none. -/
theorem serve_cases (c : Objects U) (request : Moments × RequestPdu) :
    (serve request c).2 = c ∨ ∃ method path served, c.getObject path.objectId = some served ∧
      (serve request c).2 = (c.call path.objectId (fun o => process request.1 (request.2.request method) path o) served).2 := by
  cases known : request.2.method with
  | none => exact .inl (by simp [serve, answerPdu, incomingRequestHandler, known])
  | some method =>
    simp only [serve, answerPdu, incomingRequestHandler, known, handleIncomingRequest]
    cases parsed : ObjectPath.parse (request.2.request method).uriPath with
    | none => exact .inl rfl
    | some path =>
      dsimp only
      split
      · exact .inl rfl
      · cases found : c.getObject path.objectId with
        | none => exact .inl rfl
        | some served => exact .inr ⟨method,path,served,found,rfl⟩

/-- The application changes an object of its own, or none. -/
theorem happen_added (c : Objects U) (oid : UInt16) (change : U → U) :
    c.happen (.added oid change) = c ∨ ∃ object, c.getObject oid = some (.added object) ∧
      c.happen (.added oid change) = { c with table := Tables.set c.table oid (.added (change object)) } := by
  unfold happen
  dsimp only
  split
  · next object found => exact .inr ⟨object,found,rfl⟩
  · exact .inl rfl

end Objects

/-- What a happening reports of a resource. -/
def Happening.tells {U : Type} (oid rid : UInt16) (riid : Option UInt16) : Happening U → Option (Result ResourceValue)
  | .connectivity setting => if oid = 4 then (setting.shown riid).lookup rid else none
  | .device setting => if oid = 3 then setting.shown.lookup rid else none
  | .request _ | .added _ _ => none

namespace Objects

section

variable [OptionNumbers] {U : Type} [Object U]

end

attribute [local instance] bigEndianNumbers

end Objects

/-! ### Positions -/

/-- What an application calls on a Location object. -/
inductive LocationCall where
  | setGpsProvider (provider : Bool)
  | updatePosition (position : GpsPosition)

def LocationCall.perform : LocationCall → LocationObject → LocationObject
  | .setGpsProvider provider, o => { o with gpsProvider := provider }
  | .updatePosition position, o => o.updatePosition position

namespace LocationObject

/-- A position is shown only if it is valid. -/
def Sound (o : LocationObject) : Prop := o.hasPosition = true → o.position.isValid = true

theorem sound_updatePosition (o : LocationObject) (position : GpsPosition) : (o.updatePosition position).Sound := id

theorem sound_refreshPosition {o : LocationObject} (sound : o.Sound) (env : Env) : (o.refreshPosition env).Sound := by
  unfold refreshPosition
  split
  · split
    · exact sound_updatePosition o _
    · exact sound
  · exact sound

theorem sound_perform {o : LocationObject} (sound : o.Sound) (call : LocationCall) : (call.perform o).Sound := by
  cases call with
  | setGpsProvider provider => exact sound
  | updatePosition position => exact sound_updatePosition o position

theorem sound_readResource {o : LocationObject} (sound : o.Sound) (env : Env) (iid rid : UInt16) :
    (o.readResource env iid rid).2.Sound := by
  unfold readResource
  split
  · exact sound
  · exact sound_refreshPosition sound env

theorem sound_within : Within (fun o o' : LocationObject => o.Sound → o'.Sound) where
  refl _ := id
  trans first second := second ∘ first
  read env _ iid rid _ sound := sound_readResource sound env iid rid
  write _ _ _ _ _ _ := id
  execute _ _ _ _ _ := id
  create _ _ := id
  delete _ _ := id

/-- A latitude or a longitude is in its range, and every value is short. -/
structure Credible (rid : UInt16) (value : ResourceValue) : Prop where
  latitude : rid = 0 → ∃ d, value = .double d ∧ Double.minus90.le d = true ∧ d.le .plus90 = true
  longitude : rid = 1 → ∃ d, value = .double d ∧ Double.minus180.le d = true ∧ d.le .plus180 = true
  short : (Tlv.serialize value).length ≤ 8

theorem credible_read {o : LocationObject} (sound : o.Sound) (env : Env) (iid rid : UInt16) {value : ResourceValue}
    (read : (o.readResource env iid rid).1 = .ok value) : Credible rid value := by
  have refreshed := sound_refreshPosition sound env
  unfold readResource at read
  split at read
  · cases read
  · dsimp only at read
    generalize o.refreshPosition env = o' at refreshed read
    unfold readPosition at read
    split at read
    · next has =>
      have valid := refreshed has
      simp only [GpsPosition.isValid, Bool.and_eq_true] at valid
      obtain ⟨⟨⟨south,north⟩,west⟩,east⟩ := valid
      split at read
      · cases read
        exact ⟨fun _ => ⟨_,rfl,south,north⟩,by rintro ⟨⟩,le_refl 8⟩
      · cases read
        exact ⟨by rintro ⟨⟩,fun _ => ⟨_,rfl,west,east⟩,le_refl 8⟩
      · cases read
        exact ⟨by rintro ⟨⟩,by rintro ⟨⟩,le_refl 8⟩
      · cases read
        exact ⟨by rintro ⟨⟩,by rintro ⟨⟩,le_refl 8⟩
      · cases read
      · cases read
        refine ⟨by rintro ⟨⟩,by rintro ⟨⟩,?_⟩
        show (Tlv.serializeInt _).length ≤ 8
        unfold Tlv.serializeInt
        split_ifs <;> simp
      · cases read
        exact ⟨by rintro ⟨⟩,by rintro ⟨⟩,le_refl 8⟩
      · cases read
    · cases read

theorem credible_readResources {o : LocationObject} (sound : o.Sound) (iid : UInt16) (moments : Moments) (rids : List UInt16) :
    (∀ e ∈ (readResources iid moments rids o).1, Credible e.1 e.2) ∧ (readResources iid moments rids o).1.length ≤ rids.length := by
  induction rids generalizing moments o with
  | nil => simp [readResources]
  | cons rid rids ih =>
    obtain ⟨others,fewer⟩ := ih (sound_readResource sound (moments 0) iid rid) moments.later
    simp only [readResources]
    cases result : (Object.readResource (moments 0) o iid rid none).1 with
    | error e => exact ⟨others,Nat.le_succ_of_le fewer⟩
    | ok v =>
      exact ⟨List.forall_mem_cons.mpr ⟨credible_read sound (moments 0) iid rid result,others⟩,Nat.succ_le_succ fewer⟩

end LocationObject

namespace Tlv

theorem encodeRecord_length_le (type : TlvType) (id : UInt16) (value : Bytes) :
    (encodeRecord type id value).length ≤ value.length + 6 := by
  simp only [encodeRecord, idField, lengthField, List.length_cons, List.length_append]
  split_ifs <;> simp <;> omega

theorem encodeRecords_length_le {records : List TlvRecord} {most : Nat} (short : ∀ r ∈ records, r.value.length ≤ most) :
    (encodeRecords records).length ≤ records.length * (most + 6) := by
  induction records with
  | nil => exact Nat.zero_le _
  | cons r records ih =>
    have first := encodeRecord_length_le r.type r.id r.value
    have own := short r List.mem_cons_self
    have others := ih (fun s member => short s (List.mem_cons_of_mem r member))
    simp only [encodeRecords, List.flatMap_cons, List.length_append, List.length_cons, Nat.succ_mul] at others ⊢
    omega

/-- The records of a payload that hold a value of a resource: on the top level, or in an instance. -/
def resourceRecords (records : List TlvRecord) : List TlvRecord :=
  (records ++ records.flatMap TlvRecord.children).filter (fun record => record.type = .Resource)

def TlvRecord.PositionInRange (record : TlvRecord) : Prop :=
  (record.id = 0 → ∃ d, decodeResource record.value .Float = .ok (.double d) ∧ Double.minus90.le d = true ∧ d.le .plus90 = true) ∧
  (record.id = 1 → ∃ d, decodeResource record.value .Float = .ok (.double d) ∧ Double.minus180.le d = true ∧ d.le .plus180 = true)

/-- Whatever latitude or longitude the payload shows is in its range. -/
def PositionsInRange (payload : Bytes) : Prop :=
  ∃ records, decode payload = .ok records ∧ ∀ record ∈ resourceRecords records, record.PositionInRange

end Tlv

namespace LocationObject

/-- What holds of each that is related to one of a list holds of each of a list that is related to it. -/
theorem forall_left {α β : Type} {R : α → β → Prop} {P : α → Prop} {left : List α} {right : List β}
    (related : List.Forall₂ R left right) (holds : ∀ b ∈ right, ∀ a, R a b → P a) : ∀ a ∈ left, P a := by
  induction related with
  | nil => simp
  | cons first _ ih =>
    obtain ⟨one,others⟩ := List.forall_mem_cons.mp holds
    exact List.forall_mem_cons.mpr ⟨one _ first,ih others⟩

/-- A record that decodes to a credible value. -/
theorem credible_record {record : Tlv.TlvRecord} {rid : UInt16} {value : ResourceValue} (credible : Credible rid value)
    (named : record.id = rid) (decoded : Tlv.decodeResource record.value (getResourceType value) = .ok (Tlv.settled value)) :
    record.PositionInRange := by
  refine ⟨fun zero => ?_,fun one => ?_⟩
  · obtain ⟨d,rfl,low,high⟩ := credible.latitude (named ▸ zero)
    exact ⟨d,decoded,low,high⟩
  · obtain ⟨d,rfl,low,high⟩ := credible.longitude (named ▸ one)
    exact ⟨d,decoded,low,high⟩

theorem inRange_shows {payload : Bytes} {instances : List (UInt16 × List (UInt16 × ResourceValue))} (shows : Shows payload instances)
    (credible : ∀ e ∈ instances, ∀ r ∈ e.2, Credible r.1 r.2) : Tlv.PositionsInRange payload := by
  obtain ⟨records,decoded,each⟩ := shows
  refine ⟨records,decoded,?_⟩
  intro record member
  obtain ⟨inside,resource⟩ := List.mem_filter.mp member
  rcases List.mem_append.mp inside with top | below
  · exact absurd (by simpa using resource) (shown_types each record top)
  · obtain ⟨parent,parentMember,child⟩ := List.mem_flatMap.mp below
    refine forall_left each (P := fun parent => ∀ child ∈ parent.children, child.PositionInRange) ?_ parent parentMember record child
    rintro e listed r ⟨-,-,values⟩
    exact forall_left values (fun entry stands a same => credible_record (credible e listed entry stands) same.2.1 same.2.2)

theorem inRange_shows_resource {payload : Bytes} {rid : UInt16} {value : ResourceValue} (shows : ShowsResource payload rid value)
    (credible : Credible rid value) : Tlv.PositionsInRange payload := by
  obtain ⟨record,decoded,type,named,read⟩ := shows
  have leaf : record.children = [] := by
    have children := ((Tlv.decodeLevels_succ_iff 8 _ _).mp decoded).2 record (by simp)
    rw [children, type]
    rfl
  refine ⟨[record],decoded,?_⟩
  intro r member
  obtain ⟨inside,-⟩ := List.mem_filter.mp member
  obtain rfl : r = record := by simpa [leaf] using inside
  exact credible_record credible named read

/-- A read of a sound Location object is short. -/
theorem short_instances {o : LocationObject} (sound : o.Sound) (moments : Moments) (iid : UInt16) :
    (∀ e ∈ readInstances [iid] moments o, ∀ r ∈ e.2, Credible r.1 r.2) ∧
      (Tlv.encodeRecords (instanceRecords (readInstances [iid] moments o))).length < 16777216 := by
  obtain ⟨credible,fewer⟩ := credible_readResources sound iid moments (Object.listResources o iid)
  have only : readInstances [iid] moments o = [(iid,(readResources iid moments (Object.listResources o iid) o).1)] := rfl
  rw [only]
  generalize (readResources iid moments (Object.listResources o iid) o).1 = resources at credible fewer ⊢
  refine ⟨by simpa using credible,?_⟩
  have inner : (Tlv.encodeRecords (Tlv.valueRecords .Resource resources)).length ≤ 84 := by
    have bound : (Tlv.encodeRecords (Tlv.valueRecords .Resource resources)).length ≤ resources.length * (8 + 6) := by
      have small : ∀ r ∈ Tlv.valueRecords .Resource resources, r.value.length ≤ 8 := by
        intro r member
        obtain ⟨e,listed,rfl⟩ := List.mem_map.mp member
        exact (credible e listed).short
      simpa [Tlv.valueRecords] using Tlv.encodeRecords_length_le small
    have six : resources.length ≤ 6 := fewer
    omega
  have whole := Tlv.encodeRecord_length_le .ObjectInstance iid (Tlv.encodeRecords (Tlv.valueRecords .Resource resources))
  have same : Tlv.encodeRecords (instanceRecords [(iid,resources)]) =
      Tlv.encodeRecord .ObjectInstance iid (Tlv.encodeRecords (Tlv.valueRecords .Resource resources)) := by
    simp [instanceRecords, Tlv.encodeRecords]
  rw [same]
  omega

/-- What a sound Location object is read as carries no position out of range. -/
theorem inRange_processRead {o : LocationObject} (sound : o.Sound) (moments : Moments) {path : ObjectPath} (shape : path.Shape)
    (content : (processRead moments path o).1.code = some .Content) : Tlv.PositionsInRange (processRead moments path o).1.payload := by
  have short : (processRead moments path o).1.payload.length < 16777216 := by
    cases shape with
    | object oid =>
      have written : (processRead moments ⟨oid,none,none,none⟩ o).1.payload = (encodeInstances [0] moments o).1 := rfl
      rw [written, encodeInstances_eq]
      exact (short_instances sound moments 0).2
    | «instance» oid iid =>
      by_cases present : Object.hasInstance o iid = true
      · have written : (processRead moments ⟨oid,some iid,none,none⟩ o).1.payload = (encodeInstances [iid] moments o).1 := by
          simp [processRead, ObjectPath.isObject, ObjectPath.isInstance, present, encodeInstances]
        rw [written, encodeInstances_eq]
        exact (short_instances sound moments iid).2
      · rw [(Client.processRead_inst moments oid iid o).2 present] at content
        cases content
    | resource oid iid rid =>
      have answered := processRead_resource moments o oid iid rid
      cases result : (Object.readResource (moments 0) o iid rid none).1 with
      | error e =>
        rw [result] at answered
        rw [answered, Option.some.injEq] at content
        cases code : e.code <;> rw [code] at content <;> cases content
      | ok v =>
        rw [result] at answered
        have length := Tlv.encodeRecord_length_le .Resource rid (Tlv.serialize v)
        have small := (credible_read sound (moments 0) iid rid result).short
        rw [← Except.ok.inj answered.2]
        omega
    | resourceInstance oid iid rid riid => cases content
  cases processRead_reports moments shape o content short with
  | object oid shows => exact inRange_shows shows (short_instances sound moments 0).1
  | inst oid iid present shows => exact inRange_shows shows (short_instances sound moments iid).1
  | resource oid iid rid v read shows typed => exact inRange_shows_resource shows (credible_read sound (moments 0) iid rid read)

end LocationObject

namespace Objects

/-- Every Location object that the application has added is sound. -/
def AllSound (c : Objects LocationObject) : Prop := ∀ oid o, c.getObject oid = some (.added o) → o.Sound

theorem allSound_start {c : Objects LocationObject} (table : c.table = ({} : Objects LocationObject).table) : c.AllSound := by
  intro oid o there
  rw [getObject, table] at there
  simp only [lookup_set, AList.lookup_empty] at there
  split_ifs at there <;> cases there

theorem allSound_set {c : Objects LocationObject} (sound : c.AllSound) {oid : UInt16} {o : LocationObject} (new : o.Sound) :
    ({ c with table := Tables.set c.table oid (.added o) } : Objects LocationObject).AllSound := by
  intro other o' there
  have there : (Tables.set c.table oid (.added o)).lookup other = some (.added o') := there
  rw [lookup_set] at there
  split_ifs at there
  · cases there
    exact new
  · exact sound other o' there

theorem allSound_happen [OptionNumbers] {c : Objects LocationObject} (sound : c.AllSound) {happening : Happening LocationObject}
    (calls : ∀ oid change, happening = .added oid change → ∃ call : LocationCall, change = call.perform) :
    (c.happen happening).AllSound := by
  cases happening with
  | connectivity setting => exact sound
  | device setting => exact sound
  | request request =>
    show (serve request c).2.AllSound
    rcases c.serve_cases request with same | ⟨method,path,served,found,out⟩
    · rwa [same]
    · rw [out]
      cases served with
      | added o => exact allSound_set sound (process_within LocationObject.sound_within request.1 _ path o (sound _ o found))
      | _ => exact sound
  | added oid change =>
    obtain ⟨call,rfl⟩ := calls oid change rfl
    rcases c.happen_added oid call.perform with same | ⟨o,found,out⟩
    · rwa [same]
    · rw [out]
      exact allSound_set sound (LocationObject.sound_perform (sound oid o found) call)

theorem allSound_happenAll [OptionNumbers] {c : Objects LocationObject} (sound : c.AllSound)
    {happenings : List (Happening LocationObject)}
    (calls : ∀ oid change, .added oid change ∈ happenings → ∃ call : LocationCall, change = call.perform) :
    (c.happenAll happenings).AllSound := by
  induction happenings generalizing c with
  | nil => exact sound
  | cons happening happenings ih =>
    refine ih (allSound_happen sound fun oid change same => ?_) fun oid change member => calls oid change (List.mem_cons_of_mem _ member)
    exact calls oid change (same ▸ List.mem_cons_self)

/-- Whatever the GPS provider and the application report, and whatever is requested in between: no GET
    of a Location object is answered with a latitude or a longitude out of range. -/
theorem positions_inRange [OptionNumbers] {c : Objects LocationObject} (sound : c.AllSound)
    {happenings : List (Happening LocationObject)}
    (calls : ∀ oid change, .added oid change ∈ happenings → ∃ call : LocationCall, change = call.perform) (moments : Moments)
    {pdu : RequestPdu} (get : pdu.code = 1) {path : ObjectPath} (leads : ObjectPath.Leads pdu.pathPieces path) {o : LocationObject}
    (there : (c.happenAll happenings).getObject path.objectId = some (.added o))
    (content : ((c.happenAll happenings).answerPdu moments pdu).1.code = some .Content) :
    Tlv.PositionsInRange ((c.happenAll happenings).answerPdu moments pdu).1.payload := by
  have method : pdu.method = some .Get := by simp [RequestPdu.method, get]
  have shape := ObjectPath.parse_shape ((pdu.parse_uriPath path).mpr leads)
  have soundNow := allSound_happenAll sound calls _ o there
  rw [answerPdu_found moments method leads (by simp) there] at content ⊢
  simp only [CoapResponse.pdu_code, CoapResponse.pdu_payload] at content ⊢
  exact LocationObject.inRange_processRead soundNow moments shape content

/-- A client with a Location object. -/
def locatedObjects : Objects LocationObject := addObject {} { LocationObject.init ⟨0⟩ with gpsProvider := true }

def getPositionPdu : RequestPdu := { code := 1, options := [(11,lit ['6']), (11,lit ['0'])] }

/-- The application reports a latitude that there is none of. -/
def wrongPosition : List (Happening LocationObject) :=
  [.added 6 (LocationCall.updatePosition ⟨Double.plus180,⟨0⟩,⟨0⟩,⟨0⟩,⟨0⟩,⟨0⟩⟩).perform, .request (fun _ => {},getPositionPdu)]

attribute [local instance] bigEndianNumbers

theorem positions_inRange_wrong :
    Tlv.PositionsInRange ((locatedObjects.happenAll wrongPosition).answerPdu (fun _ => {}) getPositionPdu).1.payload := by
  have sound : locatedObjects.AllSound := by
    refine allSound_set ?_ (by rintro ⟨⟩)
    exact allSound_start rfl
  have calls : ∀ oid change, .added oid change ∈ wrongPosition → ∃ call : LocationCall, change = call.perform := by
    intro oid change member
    rcases List.mem_cons.mp member with first | second
    · cases first
      exact ⟨_,rfl⟩
    · simp at second
  exact positions_inRange sound calls (fun _ => {}) (show getPositionPdu.code = 1 from rfl)
    ((getPositionPdu.parse_uriPath ⟨6,some 0,none,none⟩).mp (by decide)) rfl (by decide)

end Objects

end Ferriot
