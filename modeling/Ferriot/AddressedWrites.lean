import Ferriot.InstanceWrites

/-!
# Writes of one resource

A PUT on a resource path writes the first record of its payload, whatever the
record is addressed to, whatever follows it, and whatever the content format is.
-/
namespace Ferriot
open Tables Requests

namespace Objects
variable {U : Type} [Object U]

/-- What holds of a call that leaves the objects as they were holds of the object behind the pointer. -/
theorem call_fixed {α : Type} {c : Objects U} {oid : UInt16} {served : Served U} (found : c.getObject oid = some served)
    (f : {σ : Type} → [Object σ] → σ → α × σ) (P : α → Prop) :
    P (c.call oid f served).1 ∧ (c.call oid f served).2 = c ↔ c.Holds (fun o => P (f o).1 ∧ (f o).2 = o) served := by
  cases served with
  | security => exact and_congr_right fun _ => ⟨congrArg Objects.security,fun same => by simp only [call, same]⟩
  | server => exact and_congr_right fun _ => ⟨congrArg Objects.server,fun same => by simp only [call, same]⟩
  | device => exact and_congr_right fun _ => ⟨congrArg Objects.device,fun same => by simp only [call, same]⟩
  | connectivity => exact and_congr_right fun _ => ⟨congrArg Objects.connectivity,fun same => by simp only [call, same]⟩
  | firmwareUpdate => exact and_congr_right fun _ => ⟨congrArg Objects.firmwareUpdate,fun same => by simp only [call, same]⟩
  | added object =>
    refine and_congr_right fun _ => ⟨?_,?_⟩
    · intro same
      have after := congrArg (fun d => d.table.lookup oid) same
      simp only [call, lookup_set, ↓reduceIte] at after
      exact Served.added.inj (Option.some.inj (after.trans found))
    · intro same
      simp only [call, same]
      rw [set_same found]

end Objects

namespace Requests

/-- The payload is a TLV that decodes to one record, which is of the resource. -/
def Addressed (request : CoapRequest) (rid : UInt16) : Prop :=
  request.contentFormat = .TlvLwm2m ∧ ∃ record, Tlv.decode request.payload = .ok [record] ∧
    (record.type = .Resource ∨ record.type = .MultiResource) ∧ record.id = rid

/-- The response is an error. -/
def Refused (response : CoapResponse) : Prop := ∃ code, response.code = some code ∧ code.isError = true

section Handlers
variable {σ : Type} [Object σ]

/-- The object refuses the first record of the payload, if there is one and its value decodes under the
    type of the resource, and stays as it is. -/
def FirstRefused (env : Env) (payload : Bytes) (iid rid : UInt16) (o : σ) : Prop :=
  ∀ record others value, Tlv.decode payload = .ok (record :: others) →
    Tlv.decodeResource record.value ((Object.getResourceType o iid rid).getD .String) = .ok value →
      ∃ e, Object.writeResource env o iid rid none value = (.error e,o)

theorem errorToCoapCode_isError (code : ErrorCode) : (errorToCoapCode code).isError = true := by
  cases code <;> rfl

theorem refused_badRequest : Refused { code := some .BadRequest } := ⟨.BadRequest,rfl,rfl⟩

/-- A result is answered with an error exactly if it is one. -/
theorem refused_resultCode {α : Type} (result : Result α) :
    Refused { code := some (resultCode .Changed result) } ↔ ∃ e, result = .error e := by
  cases result with
  | error e => exact ⟨fun _ => ⟨e,rfl⟩,fun _ => ⟨_,rfl,errorToCoapCode_isError e.code⟩⟩
  | ok a =>
    refine iff_of_false ?_ (by rintro ⟨e,⟨⟩⟩)
    rintro ⟨code,same,error⟩
    cases same
    cases error

theorem writeFirst_fixed (env : Env) (payload : Bytes) (iid rid : UInt16) (records : List Tlv.TlvRecord) (o : σ)
    (decoded : Tlv.decode payload = .ok records) :
    Refused (writeFirst env iid rid none records o).1 ∧ (writeFirst env iid rid none records o).2 = o ↔
      FirstRefused env payload iid rid o := by
  unfold FirstRefused
  rw [decoded]
  cases records with
  | nil => exact iff_of_true ⟨refused_badRequest,rfl⟩ (by rintro record others value ⟨⟩)
  | cons record others =>
    cases read : Tlv.decodeResource record.value (expectedType o iid rid) with
    | error e =>
      refine iff_of_true ?_ ?_
      · simp only [writeFirst, read]
        exact ⟨refused_badRequest,trivial⟩
      · rintro record' others' value ⟨⟩ read'
        cases read.symm.trans read'
    | ok value =>
      simp only [writeFirst, read]
      rw [refused_resultCode]
      constructor
      · rintro ⟨⟨e,fails⟩,same⟩ record' others' value' ⟨⟩ read'
        cases read.symm.trans read'
        exact ⟨e,Prod.ext fails same⟩
      · intro refuses
        obtain ⟨e,fails⟩ := refuses record others value rfl read
        rw [fails]
        exact ⟨⟨e,rfl⟩,rfl⟩

theorem processWrite_fixed (moments : Moments) (payload : Bytes) (oid iid rid : UInt16) (o : σ) :
    Refused (processWrite moments ⟨oid,some iid,some rid,none⟩ payload o).1 ∧
        (processWrite moments ⟨oid,some iid,some rid,none⟩ payload o).2 = o ↔
      FirstRefused (moments 0) payload iid rid o := by
  cases decoded : Tlv.decode payload with
  | error e =>
    refine iff_of_true ?_ ?_
    · simp only [processWrite, decoded]
      exact ⟨refused_badRequest,trivial⟩
    · intro record others value decoded'
      rw [decoded] at decoded'
      cases decoded'
  | ok records =>
    rw [← writeFirst_fixed (moments 0) payload iid rid records o decoded]
    simp only [processWrite, decoded]
    exact Iff.rfl

end Handlers

variable {U : Type} [Object U]

/-- A PUT on a resource changes something only if its payload is addressed to the resource, and is
    refused with nothing changed otherwise. -/
structure OnlyAddressed (moments : Moments) (request : CoapRequest) (c : Objects U) (rid : UInt16) : Prop where
  changes : (handleIncomingRequest moments request c).2 ≠ c → Addressed request rid
  refuses : ¬ Addressed request rid →
    Refused (answer moments request c) ∧ (handleIncomingRequest moments request c).2 = c

/-- There is no object, or it refuses the first record. -/
def RefusedAnyway (moments : Moments) (payload : Bytes) (c : Objects U) (oid iid rid : UInt16) : Prop :=
  ∀ served, c.getObject oid = some served → c.Holds (fun o => FirstRefused (moments 0) payload iid rid o) served

theorem refusedAnyway_iff (moments : Moments) (request : CoapRequest) (c : Objects U) (oid iid rid : UInt16)
    (put : request.method = .Put) (parsed : ObjectPath.parse request.uriPath = some ⟨oid,some iid,some rid,none⟩) :
    Refused (answer moments request c) ∧ (handleIncomingRequest moments request c).2 = c ↔
      RefusedAnyway moments request.payload c oid iid rid := by
  have allowed : ¬ (request.method = .Delete ∧ (!ObjectPath.isInstance ⟨oid,some iid,some rid,none⟩) = true) := by
    simp [put]
  unfold RefusedAnyway
  cases found : c.getObject oid with
  | none =>
    refine iff_of_true ?_ (by rintro served ⟨⟩)
    simp only [answer, handleIncomingRequest, parsed, found]
    rw [if_neg allowed]
    exact ⟨⟨.NotFound,rfl,rfl⟩,rfl⟩
  | some served =>
    have write := c.holds_congr served (P := fun o => Refused (process moments request ⟨oid,some iid,some rid,none⟩ o).1.1 ∧
      (process moments request ⟨oid,some iid,some rid,none⟩ o).2 = o)
      (Q := fun o => FirstRefused (moments 0) request.payload iid rid o) (fun o => by
        simp only [process, put]
        exact processWrite_fixed moments request.payload oid iid rid o)
    have fixed := Objects.call_fixed found (fun o => process moments request ⟨oid,some iid,some rid,none⟩ o)
      (fun a => Refused a.1)
    rw [write] at fixed
    simp only [answer]
    rw [answer_found parsed found allowed]
    refine fixed.trans ?_
    constructor
    · rintro refused _ ⟨⟩
      exact refused
    · intro refused
      exact refused served rfl

/-- A PUT on a resource uses only what is addressed to the resource exactly if its payload is, or the
    object refuses the first record anyway. -/
theorem onlyAddressed_iff (moments : Moments) (request : CoapRequest) (c : Objects U) (oid iid rid : UInt16)
    (put : request.method = .Put) (parsed : ObjectPath.parse request.uriPath = some ⟨oid,some iid,some rid,none⟩) :
    OnlyAddressed moments request c rid ↔ Addressed request rid ∨ RefusedAnyway moments request.payload c oid iid rid := by
  rw [← refusedAnyway_iff moments request c oid iid rid put parsed]
  constructor
  · intro only
    by_cases addressed : Addressed request rid
    · exact .inl addressed
    · exact .inr (only.refuses addressed)
  · rintro (addressed | refused)
    · exact ⟨fun _ => addressed,fun other => absurd addressed other⟩
    · exact ⟨fun changed => absurd refused.2 changed,fun _ => refused⟩

/-- The objects of a client with the account of one server. -/
def sampleObjects : Objects LocationObject :=
  { server := (ServerObject.addServer { registrationUpdateCallback := true } { shortServerId := 1, lifetime := 60 }).2 }

/-- `PUT /1/0/1`, the lifetime, with a record of the resource 0. -/
def putOther : CoapRequest :=
  { method := .Put, uriPath := lit ['/','1','/','0','/','1'], payload := [0xC1, 0x00, 0x05] }

theorem onlyAddressed_other :
    OnlyAddressed (fun _ => {}) putOther sampleObjects 1 ↔
      Addressed putOther 1 ∨ RefusedAnyway (fun _ => {}) putOther.payload sampleObjects 1 0 1 :=
  onlyAddressed_iff _ _ _ 1 0 1 rfl rfl

/-- The record of the short server id becomes the lifetime. -/
theorem other_record_written : ¬ OnlyAddressed (fun _ => {}) putOther sampleObjects 1 := by
  intro only
  have unaddressed : ¬ Addressed putOther 1 := by
    rintro ⟨-,record,decoded,-,same⟩
    have payload : Tlv.decode putOther.payload = .ok [⟨.Resource,0,[0x05],[]⟩] := rfl
    cases payload.symm.trans decoded
    cases same
  obtain ⟨⟨code,answered,error⟩,-⟩ := only.refuses unaddressed
  have changed : (answer (fun _ => {}) putOther sampleObjects).code = some .Changed := rfl
  cases changed.symm.trans answered
  cases error

end Requests

end Ferriot
