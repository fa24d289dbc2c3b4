import Ferriot.DefinedAnswers

/-!
# Writes of a whole instance

A PUT or POST on an instance path hands the top-level Resource records of its
payload to the object one by one, passes over everything else and everything that
is refused, and answers Changed.
-/
namespace Ferriot
open Requests

namespace Objects
variable {U : Type} [Object U]

/-- A property of the object behind a pointer. -/
def Holds (c : Objects U) (P : {σ : Type} → [Object σ] → σ → Prop) : Served U → Prop
  | .security => P c.security
  | .server => P c.server
  | .device => P c.device
  | .connectivity => P c.connectivity
  | .firmwareUpdate => P c.firmwareUpdate
  | .added object => P object

theorem holds_congr (c : Objects U) {P Q : {σ : Type} → [Object σ] → σ → Prop} (served : Served U)
    (same : ∀ {σ : Type} [Object σ] (o : σ), P o ↔ Q o) : c.Holds P served ↔ c.Holds Q served := by
  cases served with
  | security => exact same c.security
  | server => exact same c.server
  | device => exact same c.device
  | connectivity => exact same c.connectivity
  | firmwareUpdate => exact same c.firmwareUpdate
  | added object => exact same object

end Objects

namespace Requests

section Handlers
variable {σ : Type} [Object σ]

/-- The record carries resources for the instance. -/
def carries (iid : UInt16) (record : Tlv.TlvRecord) : Bool :=
  match record.type with
  | .Resource => true
  | .MultiResource => true
  | .ObjectInstance => record.id == iid && !record.children.isEmpty
  | .ResourceInstance => false

/-- The instance write has decoded the record and `write_resource` has accepted it. -/
def Written (env : Env) (iid : UInt16) (record : Tlv.TlvRecord) (o : σ) : Prop :=
  record.type = .Resource ∧
    ∃ value, Tlv.decodeResource record.value (expectedType o iid record.id) = .ok value ∧
      (Object.writeResource env o iid record.id none value).1 = .ok ()

/-- In the course of the write, every record that carries resources has been written. -/
def AllWritten (iid : UInt16) : Moments → List Tlv.TlvRecord → σ → Prop
  | _, [], _ => True
  | moments, record :: records, o =>
    (carries iid record = true → Written (moments 0) iid record o) ∧
      AllWritten iid moments.later records (writeRecord (moments 0) iid record o)

/-- All resources of the payload are on its top level and single. -/
def Flat (iid : UInt16) (records : List Tlv.TlvRecord) : Prop :=
  ∀ record ∈ records, record.type ≠ .MultiResource ∧
    (record.type = .ObjectInstance → record.id = iid → record.children = [])

/-- The object accepts the Resource records, one after the other: each value decodes
    under the type that the object names, or as a string, and is not refused. -/
def Accepts (iid : UInt16) : Moments → List Tlv.TlvRecord → σ → Prop
  | _, [], _ => True
  | moments, record :: records, o =>
    if record.type = .Resource then
      ∃ value, Tlv.decodeResource record.value ((Object.getResourceType o iid record.id).getD .String) = .ok value ∧
        (Object.writeResource (moments 0) o iid record.id none value).1 = .ok () ∧
          Accepts iid moments.later records (Object.writeResource (moments 0) o iid record.id none value).2
    else Accepts iid moments.later records o

theorem carries_iff (iid : UInt16) (record : Tlv.TlvRecord) :
    carries iid record = true ↔ record.type = .Resource ∨ record.type = .MultiResource ∨
      (record.type = .ObjectInstance ∧ record.id = iid ∧ record.children ≠ []) := by
  simp only [carries]
  cases record.type <;> simp

/-- The loop writes everything exactly if nothing has to be passed over. -/
theorem allWritten_iff (iid : UInt16) (moments : Moments) (records : List Tlv.TlvRecord) (o : σ) :
    AllWritten iid moments records o ↔ Flat iid records ∧ Accepts iid moments records o := by
  induction records generalizing moments o with
  | nil => simp [AllWritten, Flat, Accepts]
  | cons record records ih =>
    simp only [AllWritten, Accepts]
    rw [ih, carries_iff]
    have split : Flat iid (record :: records) ↔
        (record.type ≠ .MultiResource ∧ (record.type = .ObjectInstance → record.id = iid → record.children = [])) ∧
          Flat iid records := List.forall_mem_cons
    rw [split]
    by_cases resource : record.type = .Resource
    · rw [if_pos resource]
      constructor
      · rintro ⟨written,flat,accepts⟩
        obtain ⟨-,value,decoded,accepted⟩ := written (.inl resource)
        refine ⟨⟨⟨by simp [resource],by simp [resource]⟩,flat⟩,value,decoded,accepted,?_⟩
        simpa [writeRecord, resource, decoded] using accepts
      · rintro ⟨⟨-,flat⟩,value,decoded,accepted,accepts⟩
        refine ⟨fun _ => ⟨resource,value,decoded,accepted⟩,flat,?_⟩
        have decoded : Tlv.decodeResource record.value (expectedType o iid record.id) = .ok value := decoded
        simpa [writeRecord, resource, decoded] using accepts
    · rw [if_neg resource]
      have untouched : writeRecord (moments 0) iid record o = o := by simp [writeRecord, resource]
      rw [untouched]
      constructor
      · rintro ⟨written,flat,accepts⟩
        have passed : ¬ (record.type = .Resource ∨ record.type = .MultiResource ∨
            (record.type = .ObjectInstance ∧ record.id = iid ∧ record.children ≠ [])) :=
          fun carried => resource (written carried).1
        refine ⟨⟨⟨fun multi => passed (.inr (.inl multi)),?_⟩,flat⟩,accepts⟩
        intro nested same
        by_contra some
        exact passed (.inr (.inr ⟨nested,same,some⟩))
      · rintro ⟨⟨⟨single,bare⟩,flat⟩,accepts⟩
        refine ⟨?_,flat,accepts⟩
        rintro (here | multi | ⟨nested,same,some⟩)
        · exact absurd here resource
        · exact absurd multi single
        · exact absurd (bare nested same) some

end Handlers

variable {U : Type} [Object U]

/-- The object exists, the payload decodes, the instance exists and the write has written all of the payload. -/
def WroteAll (moments : Moments) (payload : Bytes) (c : Objects U) (oid iid : UInt16) : Prop :=
  ∃ served records, c.getObject oid = some served ∧ Tlv.decode payload = .ok records ∧
    c.Holds (fun o => Object.hasInstance o iid = true ∧ AllWritten iid moments records o) served

/-- A write of an instance is honest if it answers Changed after writing
    everything, and an error otherwise. -/
def HonestWrite (moments : Moments) (request : CoapRequest) (c : Objects U) (oid iid : UInt16) : Prop :=
  (answer moments request c).code = some .Changed ∧ WroteAll moments request.payload c oid iid ∨
    ∃ code, (answer moments request c).code = some code ∧ code.isError = true

/-- Nothing has to be passed over: there is no object, or no payload that decodes, or the
    instance exists and accepts every resource, all of them single and on the top level. -/
def NothingPassedOver (moments : Moments) (payload : Bytes) (c : Objects U) (oid iid : UInt16) : Prop :=
  ∀ served records, c.getObject oid = some served → Tlv.decode payload = .ok records →
    c.Holds (fun o => Object.hasInstance o iid = true ∧ Flat iid records ∧ Accepts iid moments records o) served

theorem process_instanceWrite {σ : Type} [Object σ] (moments : Moments) {request : CoapRequest}
    (writes : request.method = .Put ∨ request.method = .Post) (oid iid : UInt16) (o : σ) :
    (process moments request ⟨oid,some iid,none,none⟩ o).1.1.code =
      match Tlv.decode request.payload with
      | .error _ => some .BadRequest
      | .ok _ => some .Changed := by
  simp only [process]
  rcases writes with put | post
  · simp only [put, processWrite, ObjectPath.isResource, ObjectPath.isInstance]
    cases Tlv.decode request.payload <;> rfl
  · simp only [post, processWrite, ObjectPath.isResource, ObjectPath.isInstance]
    cases Tlv.decode request.payload <;> rfl

theorem answer_instanceWrite (moments : Moments) {request : CoapRequest} (c : Objects U) {oid iid : UInt16}
    (writes : request.method = .Put ∨ request.method = .Post)
    (parsed : ObjectPath.parse request.uriPath = some ⟨oid,some iid,none,none⟩) :
    (answer moments request c).code =
      match c.getObject oid with
      | none => some .NotFound
      | some _ =>
        match Tlv.decode request.payload with
        | .error _ => some .BadRequest
        | .ok _ => some .Changed := by
  have allowed : ¬ (request.method = .Delete ∧ (!ObjectPath.isInstance ⟨oid,some iid,none,none⟩) = true) := by
    simp [ObjectPath.isInstance]
  cases found : c.getObject oid with
  | none =>
    simp only [answer, handleIncomingRequest, parsed, found]
    rw [if_neg allowed]
  | some served =>
    simp only [answer]
    rw [answer_found parsed found allowed]
    exact c.call_forall oid served (f := fun o => process moments request ⟨oid,some iid,none,none⟩ o)
      (P := fun a => a.1.code = _) (fun o => process_instanceWrite moments writes oid iid o)

/-- A write of an instance is honest exactly if it has nothing to pass over. -/
theorem honestWrite_iff (moments : Moments) (request : CoapRequest) (c : Objects U) (oid iid : UInt16)
    (writes : request.method = .Put ∨ request.method = .Post)
    (parsed : ObjectPath.parse request.uriPath = some ⟨oid,some iid,none,none⟩) :
    HonestWrite moments request c oid iid ↔ NothingPassedOver moments request.payload c oid iid := by
  have code := answer_instanceWrite moments c writes parsed
  simp only [HonestWrite, NothingPassedOver, WroteAll]
  rw [code]
  cases found : c.getObject oid with
  | none => simp [CoapCode.isError, CoapCode.NotFound]
  | some served =>
    cases decoded : Tlv.decode request.payload with
    | error e => simp [CoapCode.isError, CoapCode.BadRequest]
    | ok records =>
      have same := c.holds_congr served
        (P := fun o => Object.hasInstance o iid = true ∧ AllWritten iid moments records o)
        (Q := fun o => Object.hasInstance o iid = true ∧ Flat iid records ∧ Accepts iid moments records o)
        (fun o => and_congr_right (fun _ => allWritten_iff iid moments records o))
      simp [CoapCode.isError, CoapCode.Changed, same]

/-- `PUT /3/0` with the resource 0, the manufacturer, set to a byte. -/
def writeManufacturer : CoapRequest :=
  { method := .Put, uriPath := lit ['/','3','/','0'], payload := [0xC1, 0x00, 0x58] }

theorem honestWrite_manufacturer :
    HonestWrite (fun _ => {}) writeManufacturer ({} : Objects LocationObject) 3 0 ↔
      NothingPassedOver (fun _ => {}) writeManufacturer.payload ({} : Objects LocationObject) 3 0 :=
  honestWrite_iff _ _ _ 3 0 (.inl rfl) rfl

/-- The device refuses to change its manufacturer, and the answer is Changed. -/
theorem writeManufacturer_dishonest : ¬ HonestWrite (fun _ => {}) writeManufacturer ({} : Objects LocationObject) 3 0 := by
  rintro (⟨-,served,records,found,decoded,all⟩ | ⟨code,answered,error⟩)
  · have device : ({} : Objects LocationObject).getObject 3 = some .device := rfl
    rw [device] at found
    cases found
    have payload : Tlv.decode writeManufacturer.payload = .ok [⟨.Resource,0,[0x58],[]⟩] := rfl
    rw [payload] at decoded
    cases decoded
    obtain ⟨-,written,-⟩ := all
    obtain ⟨-,value,-,accepted⟩ := written rfl
    cases accepted
  · have changed : (answer (fun _ => {}) writeManufacturer ({} : Objects LocationObject)).code = some .Changed := rfl
    rw [changed] at answered
    cases answered
    cases error

end Requests

end Ferriot
