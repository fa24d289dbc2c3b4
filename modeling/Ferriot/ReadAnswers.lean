import Ferriot.AddressedWrites
import Ferriot.IncomingRequests
import Ferriot.TlvRoundTrip

/-!
# What a server makes of an answer

The answer to a read, decoded: an ObjectInstance record for each instance read, with a
Resource record for each resource that could be read, in the order of the object's
lists, and the values that the object gave.
-/
namespace Ferriot
open Tables Requests OptionNumbers

/-- A value read is one that the encoder writes whole, of the type in the table, if there is one. -/
structure Fits (table : Option ResourceType) (result : Result ResourceValue) : Prop where
  storable : ∀ v, result = .ok v → Tlv.Storable v
  declared : ∀ v, result = .ok v → ∀ type ∈ table, type = getResourceType v

/-- An object reads values of the types that it names. -/
class TypedReads (σ : Type) [Object σ] : Prop where
  fits : ∀ (env : Env) (o : σ) (iid rid : UInt16) (riid : Option UInt16),
    Fits (Object.getResourceType o iid rid) (Object.readResource env o iid rid riid).1

theorem fits_ok {table : Option ResourceType} {v : ResourceValue} (storable : Tlv.Storable v)
    (declared : ∀ type ∈ table, type = getResourceType v) : Fits table (.ok v) := by
  constructor
  · rintro _ ⟨⟩
    exact storable
  · rintro _ ⟨⟩
    exact declared

theorem fits_err (table : Option ResourceType) (code : ErrorCode) (message : String) :
    Fits table (err code message) := by
  constructor
  · rintro _ ⟨⟩
  · rintro _ ⟨⟩

theorem fits_readMultiple {α : Type} {table : Option ResourceType} {toValue : α → ResourceValue}
    (each : ∀ x, Fits table (.ok (toValue x))) (values : List α) (riid : Option UInt16) (noneText : String) :
    Fits table (readMultiple toValue values riid noneText) := by
  simp only [readMultiple]
  split
  · split
    · exact each _
    · exact fits_err ..
  · split
    · exact each _
    · exact fits_err ..

theorem Instances.fits_readResource {α : Type} {table : Option ResourceType} {read : α → Result ResourceValue}
    (each : ∀ inst, Fits table (read inst)) (o : Instances α) (iid : UInt16) : Fits table (o.readResource read iid) := by
  simp only [Instances.readResource]
  split
  · exact fits_err ..
  · exact each _

theorem SecurityInstance.fits (rid : UInt16) (inst : SecurityInstance) :
    Fits (SecurityObject.getResourceType rid) (readResource rid inst) := by
  unfold readResource
  split
  all_goals try exact fits_err ..
  all_goals
    refine fits_ok ?_ ?_
    · trivial
    · rintro _ ⟨⟩
      rfl

theorem ServerInstance.fits (rid : UInt16) (inst : ServerInstance) :
    Fits (ServerObject.getResourceType rid) (readResource rid inst) := by
  unfold readResource
  split
  all_goals try exact fits_err ..
  all_goals
    refine fits_ok ?_ ?_
    · trivial
    · rintro _ ⟨⟩
      rfl

theorem DeviceObject.fits_readErrorCode (o : DeviceObject) (riid : Option UInt16) : Fits none (o.readErrorCode riid) := by
  unfold readErrorCode
  split
  · split
    · exact fits_ok trivial (by simp)
    · exact fits_err ..
  · exact fits_ok trivial (by simp)

theorem DeviceObject.fits (env : Env) (o : DeviceObject) (iid rid : UInt16) (riid : Option UInt16) :
    Fits none (o.readResource env iid rid riid) := by
  unfold readResource
  split
  · exact fits_err ..
  split
  all_goals try exact fits_err ..
  all_goals try exact o.fits_readErrorCode riid
  all_goals try refine fits_readMultiple (fun _ => ?_) ..
  all_goals
    refine fits_ok ?_ (by simp)
    trivial

theorem ConnectivityObject.fits (o : ConnectivityObject) (iid rid : UInt16) (riid : Option UInt16) :
    Fits (getResourceType rid) (o.readResource iid rid riid) := by
  unfold readResource
  split
  · exact fits_err ..
  split
  all_goals try exact fits_err ..
  all_goals try refine fits_readMultiple (fun _ => ?_) ..
  all_goals
    refine fits_ok ?_ ?_
    · trivial
    · rintro _ ⟨⟩
      rfl

theorem Firmware.FirmwareUpdateObject.fits (o : FirmwareUpdateObject) (iid rid : UInt16) (riid : Option UInt16) :
    Fits (getResourceType rid) (o.readResource iid rid riid) := by
  unfold readResource
  split
  · exact fits_err ..
  split
  all_goals try exact fits_err ..
  all_goals try refine fits_readMultiple (fun _ => ?_) ..
  all_goals
    refine fits_ok ?_ ?_
    · trivial
    · rintro _ ⟨⟩
      rfl

theorem LocationObject.fits (o : LocationObject) (rid : UInt16) : Fits none (o.readPosition rid) := by
  unfold readPosition
  split
  · split
    all_goals try exact fits_err ..
    all_goals
      refine fits_ok ?_ (by simp)
      trivial
  · exact fits_err ..

instance : TypedReads SecurityObject :=
  ⟨fun _ o iid rid _ => Instances.fits_readResource (fun inst => inst.fits rid) o iid⟩
instance : TypedReads ServerObject :=
  ⟨fun _ o iid rid _ => Instances.fits_readResource (fun inst => inst.fits rid) o.store iid⟩
instance : TypedReads DeviceObject := ⟨fun env o iid rid riid => o.fits env iid rid riid⟩
instance : TypedReads ConnectivityObject := ⟨fun _ o iid rid riid => o.fits iid rid riid⟩
instance : TypedReads Firmware.FirmwareUpdateObject := ⟨fun _ o iid rid riid => o.fits iid rid riid⟩
instance : TypedReads LocationObject := ⟨fun env o iid rid _ => by
  simp only [Object.readResource, LocationObject.readResource]
  split
  · exact fits_err ..
  · exact (o.refreshPosition env).fits rid⟩

namespace Requests

section Handlers
variable {σ : Type} [Object σ]

/-- The instances that a read goes through, with the resources that it reads. -/
def readInstances : List UInt16 → Moments → σ → List (UInt16 × List (UInt16 × ResourceValue))
  | [], _, _ => []
  | iid :: iids, moments, o =>
    let (resources,o,moments) := readResources iid moments (Object.listResources o iid) o
    (iid,resources) :: readInstances iids moments o

/-- The records that instances are written as. -/
def instanceRecords (instances : List (UInt16 × List (UInt16 × ResourceValue))) : List Tlv.TlvRecord :=
  instances.map (fun e =>
    ⟨.ObjectInstance,e.1,Tlv.encodeRecords (Tlv.valueRecords .Resource e.2),Tlv.valueRecords .Resource e.2⟩)

/-- The record shows an instance and its resources. -/
def ShowsInstance (record : Tlv.TlvRecord) (e : UInt16 × List (UInt16 × ResourceValue)) : Prop :=
  record.type = .ObjectInstance ∧ record.id = e.1 ∧ Tlv.ValuesRead .Resource record.children e.2

/-- The payload decodes to the instances, in order. -/
def Shows (payload : Bytes) (instances : List (UInt16 × List (UInt16 × ResourceValue))) : Prop :=
  ∃ records, Tlv.decode payload = .ok records ∧ List.Forall₂ ShowsInstance records instances

/-- The payload decodes to one resource with the value. -/
def ShowsResource (payload : Bytes) (rid : UInt16) (v : ResourceValue) : Prop :=
  ∃ record, Tlv.decode payload = .ok [record] ∧ record.type = .Resource ∧ record.id = rid ∧
    Tlv.decodeResource record.value (getResourceType v) = .ok (Tlv.settled v)

/-- No instance takes 16 MiB or more. -/
def Short (instances : List (UInt16 × List (UInt16 × ResourceValue))) : Prop :=
  ∀ e ∈ instances, (Tlv.encodeRecords (Tlv.valueRecords .Resource e.2)).length < 16777216

theorem readResources_storable [TypedReads σ] (iid : UInt16) (moments : Moments) (rids : List UInt16) (o : σ) :
    ∀ e ∈ (readResources iid moments rids o).1, Tlv.Storable e.2 := by
  induction rids generalizing moments o with
  | nil => simp [readResources]
  | cons rid rids ih =>
    simp only [readResources]
    cases result : (Object.readResource (moments 0) o iid rid none).1 with
    | error e => exact ih _ _
    | ok v => exact List.forall_mem_cons.mpr ⟨(TypedReads.fits _ o iid rid none).storable v result,ih _ _⟩

theorem encodeInstanceTlv_eq (iid : UInt16) (moments : Moments) (o : σ) :
    encodeInstanceTlv iid moments o =
      (Tlv.encodeRecord .ObjectInstance iid
        (Tlv.encodeRecords (Tlv.valueRecords .Resource (readResources iid moments (Object.listResources o iid) o).1)),
        (readResources iid moments (Object.listResources o iid) o).2) := by
  simp only [encodeInstanceTlv, Tlv.encodeInstance, Tlv.encodeResources_eq, bind, Except.bind]

/-- The payload of a read is the encoding of the records of its instances. -/
theorem encodeInstances_eq (iids : List UInt16) (moments : Moments) (o : σ) :
    (encodeInstances iids moments o).1 = Tlv.encodeRecords (instanceRecords (readInstances iids moments o)) := by
  induction iids generalizing moments o with
  | nil => rfl
  | cons iid iids ih =>
    simp only [encodeInstances, encodeInstanceTlv_eq]
    rw [ih]
    rfl

theorem readInstances_storable [TypedReads σ] (iids : List UInt16) (moments : Moments) (o : σ) :
    ∀ e ∈ readInstances iids moments o, ∀ r ∈ e.2, Tlv.Storable r.2 := by
  induction iids generalizing moments o with
  | nil => simp [readInstances]
  | cons iid iids ih =>
    simp only [readInstances]
    exact List.forall_mem_cons.mpr ⟨readResources_storable iid moments _ o,ih _ _⟩

/-- Instances that are short enough come back from their records. -/
theorem shows_instanceRecords {instances : List (UInt16 × List (UInt16 × ResourceValue))} (short : Short instances)
    (storable : ∀ e ∈ instances, ∀ r ∈ e.2, Tlv.Storable r.2) :
    Shows (Tlv.encodeRecords (instanceRecords instances)) instances := by
  have forest : Tlv.IsForest 2 (instanceRecords instances) := by
    intro r member
    obtain ⟨e,inside,rfl⟩ := List.mem_map.mp member
    refine ⟨short e inside,?_⟩
    rw [if_pos (by rfl)]
    refine ⟨rfl,?_⟩
    intro r member
    have bound := Tlv.encodeRecords_member member
    obtain ⟨entry,-,rfl⟩ := List.mem_map.mp member
    refine ⟨Nat.lt_of_le_of_lt bound (short e inside),?_⟩
    rw [if_neg (by simp [Tlv.TlvType.isContainer])]
  refine ⟨_,Tlv.decodeLevels_forest forest (by decide),?_⟩
  rw [instanceRecords, List.forall₂_map_left_iff, List.forall₂_same]
  intro e inside
  exact ⟨rfl,rfl,Tlv.valuesRead_valueRecords .Resource (storable e inside)⟩

/-- The encoding of instances is longer than what is in each of them. -/
theorem short_encoding {instances : List (UInt16 × List (UInt16 × ResourceValue))}
    (short : (Tlv.encodeRecords (instanceRecords instances)).length < 16777216) : Short instances := by
  intro e inside
  have member : ⟨.ObjectInstance,e.1,Tlv.encodeRecords (Tlv.valueRecords .Resource e.2),Tlv.valueRecords .Resource e.2⟩ ∈
    instanceRecords instances := List.mem_map_of_mem inside
  exact Nat.lt_of_le_of_lt (Tlv.encodeRecords_member member) short

/-- What an object shows of itself under a path: all its instances, one of them, or a resource, each
    with the values read and of the types that the object names. -/
inductive Reports (moments : Moments) (payload : Bytes) (o : σ) : ObjectPath → Prop
  | object (oid : UInt16) (shows : Shows payload (readInstances (Object.listInstances o) moments o)) :
      Reports moments payload o ⟨oid,none,none,none⟩
  | inst (oid iid : UInt16) (present : Object.hasInstance o iid = true) (shows : Shows payload (readInstances [iid] moments o)) :
      Reports moments payload o ⟨oid,some iid,none,none⟩
  | resource (oid iid rid : UInt16) (v : ResourceValue) (read : (Object.readResource (moments 0) o iid rid none).1 = .ok v)
      (shows : ShowsResource payload rid v) (typed : ∀ type ∈ Object.getResourceType o iid rid, type = getResourceType v) :
      Reports moments payload o ⟨oid,some iid,some rid,none⟩

theorem processRead_reports [TypedReads σ] (moments : Moments) {path : ObjectPath} (shape : path.Shape) (o : σ)
    (content : (processRead moments path o).1.code = some .Content)
    (short : (processRead moments path o).1.payload.length < 16777216) :
    Reports moments (processRead moments path o).1.payload o path := by
  cases shape with
  | object oid =>
    have written : (processRead moments ⟨oid,none,none,none⟩ o).1.payload =
        (encodeInstances (Object.listInstances o) moments o).1 := rfl
    rw [written, encodeInstances_eq] at short ⊢
    exact .object oid (shows_instanceRecords (short_encoding short) (readInstances_storable _ moments o))
  | «instance» oid iid =>
    by_cases present : Object.hasInstance o iid = true
    · have written : (processRead moments ⟨oid,some iid,none,none⟩ o).1.payload = (encodeInstances [iid] moments o).1 := by
        simp [processRead, ObjectPath.isObject, ObjectPath.isInstance, present, encodeInstances]
      rw [written, encodeInstances_eq] at short ⊢
      exact .inst oid iid present (shows_instanceRecords (short_encoding short) (readInstances_storable [iid] moments o))
    · have missing := (Client.processRead_inst moments oid iid o).2 present
      rw [missing] at content
      cases content
  | resource oid iid rid =>
    have answered := processRead_resource moments o oid iid rid
    cases result : (Object.readResource (moments 0) o iid rid none).1 with
    | error e =>
      rw [result] at answered
      rw [answered, Option.some.injEq] at content
      cases code : e.code <;> rw [code] at content <;> cases content
    | ok v =>
      rw [result] at answered
      obtain ⟨-,encoded⟩ := answered
      have fits := TypedReads.fits (moments 0) o iid rid none
      rw [← Except.ok.inj encoded] at short ⊢
      refine .resource oid iid rid v result ⟨_,Tlv.decode_leaf rfl rid ?_,rfl,rfl,?_⟩ (fits.declared v result)
      · exact Nat.lt_of_le_of_lt (Tlv.encodeRecord_length_ge _ _ _) short
      · exact Tlv.decodeResource_serialize (fits.storable v result)
  | resourceInstance oid iid rid riid => cases content

theorem processRead_format (moments : Moments) {path : ObjectPath} (shape : path.Shape) (o : σ) :
    (processRead moments path o).1.contentFormat = .TlvLwm2m := by
  cases shape with
  | object oid => rfl
  | «instance» oid iid =>
    by_cases present : Object.hasInstance o iid = true
    · simp [processRead, ObjectPath.isObject, ObjectPath.isInstance, present]
    · simp [processRead, ObjectPath.isObject, ObjectPath.isInstance, present]
  | resource oid iid rid =>
    rcases result : Object.readResource (moments 0) o iid rid none with ⟨e | v,o'⟩
    all_goals simp [processRead, ObjectPath.isObject, ObjectPath.isInstance, ObjectPath.isResource, result,
      Tlv.encodeResource]
  | resourceInstance oid iid rid riid => rfl

end Handlers

end Requests

@[simp] theorem CoapResponse.pdu_payload [OptionNumbers] (r : CoapResponse) : r.pdu.payload = r.payload := by
  simp only [CoapResponse.pdu]
  split
  · next empty => exact (List.isEmpty_iff.mp empty).symm
  · rfl

/-- The format of a payload that is not empty is in the options. -/
theorem CoapResponse.pdu_format [OptionNumbers] (r : CoapResponse) (written : r.payload ≠ []) :
    ∃ format, r.pdu.options = [(CoapOption.ContentFormat,format)] ∧
      (coapDecodeVarBytes format).toUInt16 = r.contentFormat.value := by
  refine ⟨_,?_,decode_encode r.contentFormat.value⟩
  simp [CoapResponse.pdu, written]

/-- The answer tells the server that it is TLV, and what it decodes to. -/
def AnswerReports [OptionNumbers] (moments : Moments) (path : ObjectPath) (answer : ResponsePdu) {σ : Type} [Object σ]
    (o : σ) : Prop :=
  Reports moments answer.payload o path ∧ (answer.payload ≠ [] →
    ∃ format, answer.options = [(CoapOption.ContentFormat,format)] ∧
      (coapDecodeVarBytes format).toUInt16 = ContentFormat.TlvLwm2m.value)

theorem processRead_answer [OptionNumbers] {σ : Type} [Object σ] [TypedReads σ] (moments : Moments) {path : ObjectPath}
    (shape : path.Shape) (o : σ) (content : (processRead moments path o).1.pdu.code = some .Content)
    (short : (processRead moments path o).1.pdu.payload.length < 16777216) :
    AnswerReports moments path (processRead moments path o).1.pdu o := by
  rw [CoapResponse.pdu_code] at content
  rw [CoapResponse.pdu_payload] at short
  refine ⟨?_,?_⟩
  · rw [CoapResponse.pdu_payload]
    exact processRead_reports moments shape o content short
  · intro written
    rw [CoapResponse.pdu_payload] at written
    rw [← processRead_format moments shape o]
    exact CoapResponse.pdu_format _ written

section
variable {U : Type} [Object U] {c : Objects U} {pdu : RequestPdu} {path : ObjectPath}

theorem answerPdu_found [OptionNumbers] {method : CoapMethod} (moments : Moments) (known : pdu.method = some method)
    (leads : ObjectPath.Leads pdu.pathPieces path) (allowed : method ≠ .Delete) {served : Served U}
    (found : c.getObject path.objectId = some served) :
    c.answerPdu moments pdu =
      ((c.call path.objectId (fun o => process moments (pdu.request method) path o) served).1.1.pdu,
        some ((c.call path.objectId (fun o => process moments (pdu.request method) path o) served).1.2,
          (c.call path.objectId (fun o => process moments (pdu.request method) path o) served).2)) := by
  have parsed : ObjectPath.parse (pdu.request method).uriPath = some path := (pdu.parse_uriPath path).mpr leads
  have refused : ¬ ((pdu.request method).method = .Delete ∧ (!path.isInstance) = true) := fun both => allowed both.1
  simp only [Objects.answerPdu, incomingRequestHandler, known]
  rw [answer_found parsed found refused]

theorem answerPdu_reports [OptionNumbers] [TypedReads U] (moments : Moments) (get : pdu.code = 1)
    (leads : ObjectPath.Leads pdu.pathPieces path) (content : (c.answerPdu moments pdu).1.code = some .Content)
    (short : (c.answerPdu moments pdu).1.payload.length < 16777216) :
    ∃ served, c.getObject path.objectId = some served ∧
      c.Holds (AnswerReports moments path (c.answerPdu moments pdu).1) served := by
  have parsed : ObjectPath.parse (pdu.request .Get).uriPath = some path := (pdu.parse_uriPath path).mpr leads
  have method : pdu.method = some .Get := by simp [RequestPdu.method, get]
  have shape := ObjectPath.parse_shape parsed
  cases found : c.getObject path.objectId with
  | none =>
    have missing := Client.answer_missing moments parsed found (by rintro ⟨⟨⟩,-⟩)
    simp only [Objects.answerPdu, incomingRequestHandler, method, missing] at content
    cases content
  | some served =>
    refine ⟨served,rfl,?_⟩
    rw [answerPdu_found moments method leads (by simp) found] at content short ⊢
    simp only [process, RequestPdu.request] at content short ⊢
    cases served with
    | security => exact processRead_answer moments shape c.security content short
    | server => exact processRead_answer moments shape c.server content short
    | device => exact processRead_answer moments shape c.device content short
    | connectivity => exact processRead_answer moments shape c.connectivity content short
    | firmwareUpdate => exact processRead_answer moments shape c.firmwareUpdate content short
    | added object => exact processRead_answer moments shape object content short

end

/-- A server reads the Lifetime of its account. -/
def getLifetimePdu : RequestPdu := { code := 1, options := [(11,lit ['1']), (11,lit ['0']), (11,lit ['1'])] }

theorem getLifetimePdu_leads : ObjectPath.Leads getLifetimePdu.pathPieces ⟨1,some 0,some 1,none⟩ :=
  (getLifetimePdu.parse_uriPath _).mp (by decide)

section

attribute [local instance] bigEndianNumbers

end

/-! ### Putting it back -/

/-- An instance write looks at records of the type Resource only. -/
theorem writeRecords_others {σ : Type} [Object σ] (iid : UInt16) (moments : Moments) {records : List Tlv.TlvRecord}
    (others : ∀ r ∈ records, r.type ≠ .Resource) (o : σ) : writeRecords iid moments records o = o := by
  induction records generalizing moments with
  | nil => rfl
  | cons record records ih =>
    obtain ⟨first,rest⟩ := List.forall_mem_cons.mp others
    rw [writeRecords, writeRecord, if_neg first]
    exact ih moments.later rest

theorem shown_types {records : List Tlv.TlvRecord} {instances : List (UInt16 × List (UInt16 × ResourceValue))}
    (shown : List.Forall₂ ShowsInstance records instances) : ∀ r ∈ records, r.type ≠ .Resource := by
  induction shown with
  | nil => simp
  | cons first _ ih => exact List.forall_mem_cons.mpr ⟨by simp [first.1],ih⟩

theorem reports_whole {moments : Moments} {payload : Bytes} {path : ObjectPath} {σ : Type} [Object σ] {o : σ}
    (reports : Reports moments payload o path) (whole : path.resourceId = none) :
    ∃ records, Tlv.decode payload = .ok records ∧ ∀ r ∈ records, r.type ≠ .Resource := by
  cases reports with
  | object oid shows =>
    obtain ⟨records,decoded,shown⟩ := shows
    exact ⟨records,decoded,shown_types shown⟩
  | inst oid iid present shows =>
    obtain ⟨records,decoded,shown⟩ := shows
    exact ⟨records,decoded,shown_types shown⟩
  | resource oid iid rid v read shows typed => cases whole

/-- An instance write of records that are no resources is answered with Changed, and changes nothing. -/
theorem process_others {σ : Type} [Object σ] (moments : Moments) {request : CoapRequest} (put : request.method = .Put)
    {path : ObjectPath} (names : path.isInstance = true) {records : List Tlv.TlvRecord}
    (decoded : Tlv.decode request.payload = .ok records) (others : ∀ r ∈ records, r.type ≠ .Resource) (o : σ) :
    (process moments request path o).1 = ({ code := some .Changed },none) ∧ (process moments request path o).2 = o := by
  have single : path.isResource = false := by
    simp only [ObjectPath.isInstance, ObjectPath.isResource, Bool.and_eq_true, Option.isNone_iff_eq_none] at names ⊢
    simp [names.2]
  simp only [process, put, processWrite, decoded, single, names, Bool.false_eq_true, ↓reduceIte]
  exact ⟨trivial,writeRecords_others _ moments others o⟩

theorem Objects.holds_all {U : Type} (c : Objects U) [Object U] (served : Served U) {P : {σ : Type} → [Object σ] → σ → Prop}
    (all : ∀ {σ : Type} [Object σ] (o : σ), P o) : c.Holds P served := by
  cases served <;> exact all _

/-- What holds of no object unless a statement does. -/
theorem Objects.holds_elim {U : Type} (c : Objects U) [Object U] {served : Served U} {P : {σ : Type} → [Object σ] → σ → Prop}
    {Q : Prop} (holds : c.Holds P served) (each : ∀ {σ : Type} [Object σ] (o : σ), P o → Q) : Q := by
  cases served <;> exact each _ holds

/-- What an instance or an object was answered with restores nothing: put back to an instance, of the
    same client or of another, it changes nothing, and the answer is Changed all the same. -/
theorem wholes_restore_nothing [OptionNumbers] {U V : Type} [Object U] [TypedReads U] [Object V]
    (moments later : Moments) (c : Objects U) (c' : Objects V) {get put : RequestPdu} (gets : get.code = 1) (puts : put.code = 3)
    {path target : ObjectPath} (leads : ObjectPath.Leads get.pathPieces path) (whole : path.resourceId = none)
    (content : (c.answerPdu moments get).1.code = some .Content)
    (short : (c.answerPdu moments get).1.payload.length < 16777216)
    (same : put.payload = (c.answerPdu moments get).1.payload)
    (targets : ObjectPath.Leads put.pathPieces target) (names : target.isInstance = true)
    (there : c'.getObject target.objectId ≠ none) :
    c'.answerPdu later put = ({ code := some .Changed },some (none,c')) := by
  obtain ⟨served,-,holds⟩ := answerPdu_reports moments gets leads content short
  obtain ⟨records,decoded,others⟩ : ∃ records, Tlv.decode put.payload = .ok records ∧ ∀ r ∈ records, r.type ≠ .Resource := by
    rw [same]
    exact Objects.holds_elim c holds (fun o reports => reports_whole reports.1 whole)
  obtain ⟨target',found⟩ := Option.ne_none_iff_exists'.mp there
  have method : put.method = some .Put := by simp [RequestPdu.method, puts]
  have unchanged := (Objects.call_fixed found (fun o => process later (put.request .Put) target o)
    (· = ({ code := some .Changed },none))).mpr
      (Objects.holds_all c' target' (fun o => process_others later rfl names decoded others o))
  rw [answerPdu_found later method targets (by simp) found, unchanged.1, unchanged.2]
  rfl

/-- The account of a server, read, and put back to a client that has lost it. -/
def getAccountPdu : RequestPdu := { code := 1, options := [(11,lit ['1']), (11,lit ['0'])] }

attribute [local instance] bigEndianNumbers

def putAccountPdu : RequestPdu :=
  { code := 3, options := [(11,lit ['1']), (11,lit ['0'])],
    payload := (sampleClient.objects.answerPdu (fun _ => {}) getAccountPdu).1.payload }

theorem wholes_restore_nothing_account :
    ({} : Objects LocationObject).answerPdu (fun _ => {}) putAccountPdu = ({ code := some .Changed },some (none,{})) :=
  wholes_restore_nothing (fun _ => {}) (fun _ => {}) sampleClient.objects {}
    (show getAccountPdu.code = 1 from rfl) (show putAccountPdu.code = 3 from rfl)
    ((getAccountPdu.parse_uriPath ⟨1,some 0,none,none⟩).mp (by decide)) rfl (by decide) (by decide) rfl
    ((putAccountPdu.parse_uriPath ⟨1,some 0,none,none⟩).mp (by decide)) rfl (by decide)

end Ferriot
