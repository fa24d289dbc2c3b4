import Ferriot.Requests

/-!
# Which requests get a defined answer

Every handler assigns a response code on every path of one to three components.
A path of four components falls between the branches of reading and of writing,
and leaves the code as it was declared: indeterminate.
-/
namespace Ferriot
open Requests

namespace Requests

section Handlers
variable {σ : Type} [Object σ]

/-- What a read of one resource is answered with. -/
def ReadAnswer (rid : UInt16) (result : Result ResourceValue) (response : CoapResponse) : Prop :=
  match result with
  | .ok value => response.code = some .Content ∧ Tlv.encodeResource rid value = .ok response.payload
  | .error e => response.code = some (errorToCoapCode e.code)

theorem processRead_resource (moments : Moments) (o : σ) (oid iid rid : UInt16) :
    ReadAnswer rid (Object.readResource (moments 0) o iid rid none).1 (processRead moments ⟨oid,some iid,some rid,none⟩ o).1 := by
  rcases result : Object.readResource (moments 0) o iid rid none with ⟨e | value,o'⟩
  all_goals simp [processRead, ObjectPath.isObject, ObjectPath.isInstance, ObjectPath.isResource, result, ReadAnswer,
    Tlv.encodeResource]

theorem processRead_assigned (moments : Moments) (o : σ) {path : ObjectPath} (shape : path.Shape) :
    (processRead moments path o).1.code.isSome = !path.isResourceInstance := by
  cases shape with
  | object oid => rfl
  | «instance» oid iid =>
    simp only [processRead, ObjectPath.isObject, ObjectPath.isInstance]
    by_cases there : Object.hasInstance o iid = true
    · simp [there, ObjectPath.isResourceInstance]
    · simp [there, ObjectPath.isResourceInstance]
  | resource oid iid rid =>
    have answer := processRead_resource moments o oid iid rid
    simp only [ReadAnswer] at answer
    split at answer
    · rw [answer.1]; rfl
    · rw [answer]; rfl
  | resourceInstance oid iid rid riid => rfl

theorem writeFirst_assigned (env : Env) (iid rid : UInt16) (riid : Option UInt16) (records : List Tlv.TlvRecord) (o : σ) :
    (writeFirst env iid rid riid records o).1.code.isSome = true := by
  simp only [writeFirst]
  split
  · rfl
  · split <;> rfl

theorem processWrite_assigned (moments : Moments) (payload : Bytes) (o : σ) {path : ObjectPath} (shape : path.Shape) :
    (processWrite moments path payload o).1.code.isSome = !(path.isResourceInstance && (Tlv.decode payload).isOk) := by
  simp only [processWrite]
  cases Tlv.decode payload with
  | error e => simp
  | ok records =>
    cases shape with
    | object oid => rfl
    | «instance» oid iid => rfl
    | resource oid iid rid => exact writeFirst_assigned _ _ _ _ _ _
    | resourceInstance oid iid rid riid => rfl

/-- The request falls between the branches of its handler. -/
def FallsThrough (request : CoapRequest) (path : ObjectPath) : Bool :=
  path.isResourceInstance &&
    match request.method with
    | .Get => true
    | .Put => (Tlv.decode request.payload).isOk
    | .Post => (Tlv.decode request.payload).isOk
    | .Delete => false

theorem process_assigned (moments : Moments) (request : CoapRequest) (o : σ) {path : ObjectPath} (shape : path.Shape) :
    (process moments request path o).1.1.code.isSome = !FallsThrough request path := by
  simp only [process, FallsThrough]
  cases request.method with
  | Get =>
    simp only [Bool.and_true]
    exact processRead_assigned moments o shape
  | Put => exact processWrite_assigned moments request.payload o shape
  | Post =>
    by_cases execute : path.isResource = true
    · simp only [execute, ↓reduceIte]
      cases shape with
      | resource oid iid rid => rfl
      | object | «instance» | resourceInstance => simp [ObjectPath.isResource] at execute
    · simp only [execute, Bool.false_eq_true, ↓reduceIte]
      exact processWrite_assigned moments request.payload o shape
  | Delete =>
    simp only [Bool.and_false]
    rfl

end Handlers

variable {U : Type} [Object U]

/-- The response to a request. -/
def answer (moments : Moments) (request : CoapRequest) (c : Objects U) : CoapResponse :=
  (handleIncomingRequest moments request c).1.1

/-- The answer has a code, and a GET on a resource or a resource instance of an
    object that exists answers with what the object reads. -/
structure DefinedAnswer (moments : Moments) (request : CoapRequest) (c : Objects U) : Prop where
  assigned : (answer moments request c).code ≠ none
  read : request.method = .Get → ∀ path served iid rid, ObjectPath.parse request.uriPath = some path →
    c.getObject path.objectId = some served → path.instanceId = some iid → path.resourceId = some rid →
      ReadAnswer rid (readResource (moments 0) c path.objectId iid rid path.resourceInstanceId served)
        (answer moments request c)

/-- A path of four components of an object that exists, in a request that falls between the branches. -/
def Undefined (request : CoapRequest) (c : Objects U) : Prop :=
  ∃ path, ObjectPath.parse request.uriPath = some path ∧ (c.getObject path.objectId).isSome ∧
    FallsThrough request path = true

theorem answer_found {moments : Moments} {request : CoapRequest} {c : Objects U} {path : ObjectPath} {served : Served U}
    (parsed : ObjectPath.parse request.uriPath = some path) (found : c.getObject path.objectId = some served)
    (allowed : ¬ (request.method = .Delete ∧ (!path.isInstance) = true)) :
    handleIncomingRequest moments request c = c.call path.objectId (fun o => process moments request path o) served := by
  simp only [handleIncomingRequest]
  simp only [parsed, found]
  rw [if_neg allowed]

theorem answer_assigned (moments : Moments) (request : CoapRequest) (c : Objects U) :
    (answer moments request c).code ≠ none ↔ ¬ Undefined request c := by
  simp only [Undefined, answer]
  cases parsed : ObjectPath.parse request.uriPath with
  | none => simp [handleIncomingRequest, parsed]
  | some path =>
    have shape := ObjectPath.parse_shape parsed
    by_cases refused : request.method = .Delete ∧ (!path.isInstance) = true
    · simp [handleIncomingRequest, parsed, refused, FallsThrough]
    · cases found : c.getObject path.objectId with
      | none =>
        simp only [handleIncomingRequest, parsed, found]
        rw [if_neg refused]
        simp [found]
      | some served =>
        rw [answer_found parsed found refused]
        have assigned := c.call_forall path.objectId served (f := fun o => process moments request path o)
          (P := fun a => a.1.code.isSome = !FallsThrough request path)
          (fun o => process_assigned moments request o shape)
        rw [← Option.isSome_iff_ne_none, assigned]
        simp [found]

/-- A read of a path with exactly three components answers with what the object reads. -/
theorem answer_read {moments : Moments} {request : CoapRequest} {c : Objects U} {served : Served U} {oid iid rid : UInt16}
    (get : request.method = .Get) (parsed : ObjectPath.parse request.uriPath = some ⟨oid,some iid,some rid,none⟩)
    (found : c.getObject oid = some served) :
    ReadAnswer rid (readResource (moments 0) c oid iid rid none served) (answer moments request c) := by
  simp only [answer]
  rw [answer_found parsed found (by simp [get])]
  refine c.call_rel oid served (f := fun o => Object.readResource (moments 0) o iid rid none)
    (g := fun o => process moments request ⟨oid,some iid,some rid,none⟩ o)
    (R := fun result a => ReadAnswer rid result a.1) (fun o => ?_)
  simp only [process, get]
  exact processRead_resource moments o oid iid rid

/-- A request gets a defined answer unless it names a resource instance, in a read
    or in a write whose payload decodes. -/
theorem definedAnswer_iff (moments : Moments) (request : CoapRequest) (c : Objects U) :
    DefinedAnswer moments request c ↔ ¬ Undefined request c := by
  constructor
  · rintro ⟨assigned,-⟩
    exact (answer_assigned moments request c).mp assigned
  · intro defined
    refine ⟨(answer_assigned moments request c).mpr defined,?_⟩
    rintro get path served iid rid parsed found hasInstance hasResource
    cases ObjectPath.parse_shape parsed with
    | object => cases hasInstance
    | «instance» => cases hasResource
    | resource oid i r =>
      cases hasInstance
      cases hasResource
      exact answer_read get parsed found
    | resourceInstance oid i r ri =>
      refine absurd ⟨_,parsed,?_,?_⟩ defined
      · rw [found]; rfl
      · simp [FallsThrough, get, ObjectPath.isResourceInstance]

/-- `GET /3/0/6/0`, the first power source of the device. -/
def readPowerSource : CoapRequest := { method := .Get, uriPath := lit ['/','3','/','0','/','6','/','0'] }

/-- The device has a power source to report, and the answer has no code. -/
theorem readPowerSource_undefined :
    ¬ DefinedAnswer (fun _ => {}) readPowerSource ({} : Objects LocationObject) := by
  intro defined
  have undefined : Undefined readPowerSource ({} : Objects LocationObject) := ⟨⟨3,some 0,some 6,some 0⟩,rfl,rfl,rfl⟩
  exact (answer_assigned _ _ _).mp defined.assigned undefined

end Requests

end Ferriot
