import Ferriot.AddressedWrites

/-!
# Creation of instances

A PUT or POST on an object path creates an instance under the next id, and what the
payload carries is not looked at beyond its being a TLV.
-/
namespace Ferriot
open Tables Requests

namespace Tlv

/-- The ObjectInstance record of a payload. -/
def instanceRecord (records : List TlvRecord) : Option TlvRecord := records.find? (fun record => record.type = .ObjectInstance)

/-- The values of one record, each with the resource that it is for. -/
def recordValues (record : TlvRecord) : List (UInt16 × Bytes) :=
  match record.type with
  | .Resource => [(record.id,record.value)]
  | .MultiResource => record.children.map (fun child => (record.id,child.value))
  | .ObjectInstance | .ResourceInstance => []

/-- The values that a payload carries for a new instance: those in its ObjectInstance record, or else
    those on its top level. -/
def carried (records : List TlvRecord) : List (UInt16 × Bytes) :=
  match instanceRecord records with
  | some record => record.children.flatMap recordValues
  | none => records.flatMap recordValues

end Tlv

namespace Instances
variable {α : Type}

theorem createInstance_taken (fresh : α) {o : Instances α} (taken : o.nextInstanceId ∈ o.instances) :
    createInstance fresh o none = (err .BadRequest "Instance already exists",o) := by
  unfold createInstance
  dsimp only [Option.getD_none]
  rw [if_pos taken]

/-- The new instance is the only change. -/
theorem createInstance_free (fresh : α) {o : Instances α} (free : o.nextInstanceId ∉ o.instances) :
    (createInstance fresh o none).1 = .ok o.nextInstanceId ∧
      ∀ other, (createInstance fresh o none).2.instances.lookup other =
        if other = o.nextInstanceId then some fresh else o.instances.lookup other := by
  unfold createInstance
  dsimp only [Option.getD_none]
  rw [if_neg free]
  exact ⟨rfl,fun other => lookup_set o.instances o.nextInstanceId other fresh⟩

/-- How the resources of an instance are read, and the type that each is decoded under. -/
structure Resources (α : Type) where
  fresh : α
  type : UInt16 → Option ResourceType
  read : UInt16 → α → Result ResourceValue

/-- The instance holds the value, decoded under the type of its resource. -/
def Resources.Holds (r : Resources α) (inst : α) (carried : UInt16 × Bytes) : Prop :=
  ∃ value, Tlv.decodeResource carried.2 ((r.type carried.1).getD .String) = .ok value ∧ r.read carried.1 inst = .ok value

/-- Exactly one instance is new; it has the id that the payload names, holds the values that it
    carries, and defaults otherwise. -/
structure Created (r : Resources α) (records : List Tlv.TlvRecord) (o o' : Instances α) (iid : UInt16) (inst : α) : Prop where
  absent : o.instances.lookup iid = none
  only : ∀ other, o'.instances.lookup other = if other = iid then some inst else o.instances.lookup other
  named : ∀ record, Tlv.instanceRecord records = some record → iid = record.id
  values : ∀ carried ∈ Tlv.carried records, r.Holds inst carried
  defaults : ∀ rid, (∀ carried ∈ Tlv.carried records, carried.1 ≠ rid) → r.read rid inst = r.read rid r.fresh

/-- The payload names no instance but the next one, and carries nothing but defaults. -/
structure OnlyDefaults (r : Resources α) (records : List Tlv.TlvRecord) (o : Instances α) : Prop where
  named : ∀ record, Tlv.instanceRecord records = some record → record.id = o.nextInstanceId
  values : ∀ carried ∈ Tlv.carried records, r.Holds r.fresh carried

theorem created_iff (r : Resources α) (records : List Tlv.TlvRecord) {o : Instances α} (free : o.nextInstanceId ∉ o.instances) :
    (∃ iid inst, Created r records o (createInstance r.fresh o none).2 iid inst) ↔ OnlyDefaults r records o := by
  obtain ⟨-,after⟩ := createInstance_free r.fresh free
  have absent : o.instances.lookup o.nextInstanceId = none := AList.lookup_eq_none.mpr free
  constructor
  · rintro ⟨iid,inst,created⟩
    have new := created.only o.nextInstanceId
    rw [after, if_pos rfl, absent] at new
    by_cases same : o.nextInstanceId = iid
    · subst same
      rw [if_pos rfl] at new
      cases new
      exact ⟨fun record found => (created.named record found).symm,created.values⟩
    · rw [if_neg same] at new
      cases new
  · rintro ⟨named,values⟩
    exact ⟨o.nextInstanceId,r.fresh,absent,after,fun record found => (named record found).symm,values,fun _ _ => rfl⟩

/-- An instance is added unless the next id is taken. -/
theorem adds_none (fresh : α) (o : Instances α) :
    (∀ iid, iid ∈ (createInstance fresh o none).2.instances → iid ∈ o.instances) ↔ o.nextInstanceId ∈ o.instances := by
  constructor
  · intro none
    by_contra free
    refine free (none o.nextInstanceId (AList.lookup_isSome.mp ?_))
    rw [(createInstance_free fresh free).2, if_pos rfl]
    rfl
  · intro taken iid member
    rwa [createInstance_taken fresh taken] at member

/-- What becomes of the instances of an object when a request creates: a PUT adds none, and a POST that
    reaches the object and is answered with Created has created the instance that its payload describes. -/
structure CreatedSent (r : Resources α) (request : CoapRequest) (reaches : Prop) (response : CoapResponse)
    (o o' : Instances α) : Prop where
  put : request.method = .Put → ∀ iid, iid ∈ o'.instances → iid ∈ o.instances
  post : request.method = .Post → reaches → response.code = some .Created →
    ∃ records iid inst, Tlv.decode request.payload = .ok records ∧ Created r records o o' iid inst

/-- A payload that decodes, with an id left for a new instance, comes with a POST and describes the
    instance that is created whatever it carries. -/
def AsCreated (r : Resources α) (request : CoapRequest) (o : Instances α) : Prop :=
  ∀ records, Tlv.decode request.payload = .ok records → o.nextInstanceId ∉ o.instances →
    request.method ≠ .Put ∧ (request.method = .Post → OnlyDefaults r records o)

/-- The object branch of `process_write`. -/
def creation (fresh : α) (payload : Bytes) (o : Instances α) : CoapResponse × Instances α :=
  match Tlv.decode payload with
  | .error _ => ({ code := some .BadRequest },o)
  | .ok _ => ({ code := some (resultCode .Created (createInstance fresh o none).1) },(createInstance fresh o none).2)

theorem createdSent_iff (r : Resources α) (request : CoapRequest) {reaches : Prop} (reached : reaches) (o : Instances α) :
    CreatedSent r request reaches (creation r.fresh request.payload o).1 o (creation r.fresh request.payload o).2 ↔
      AsCreated r request o := by
  unfold creation
  cases decoded : Tlv.decode request.payload with
  | error e =>
    refine iff_of_true ⟨fun _ _ member => member,?_⟩ ?_
    · rintro - - ⟨⟩
    · intro records decoded'
      cases decoded.symm.trans decoded'
  | ok records =>
    dsimp only
    by_cases taken : o.nextInstanceId ∈ o.instances
    · rw [createInstance_taken r.fresh taken]
      refine iff_of_true ⟨fun _ _ member => member,?_⟩ (fun _ _ free => absurd taken free)
      rintro - - ⟨⟩
    · rw [(createInstance_free r.fresh taken).1]
      constructor
      · rintro ⟨put,post⟩ records' decoded' -
        cases decoded.symm.trans decoded'
        refine ⟨?_,?_⟩
        · intro method
          exact taken ((adds_none r.fresh o).mp (put method))
        · intro method
          obtain ⟨records',iid,inst,decoded',created⟩ := post method reached rfl
          cases decoded.symm.trans decoded'
          exact (created_iff r records taken).mp ⟨iid,inst,created⟩
      · intro asCreated
        obtain ⟨notPut,post⟩ := asCreated records decoded taken
        refine ⟨fun put => absurd put notPut,?_⟩
        intro method _ _
        obtain ⟨iid,inst,created⟩ := (created_iff r records taken).mpr (post method)
        exact ⟨records,iid,inst,decoded,created⟩

/-- A request that does not reach the object, and leaves it as it was. -/
theorem createdSent_same (r : Resources α) (request : CoapRequest) {reaches : Prop} (other : ¬ reaches) (response : CoapResponse)
    {o o' : Instances α} (same : o' = o) : CreatedSent r request reaches response o o' := by
  subst same
  exact ⟨fun _ _ member => member,fun _ reached => absurd reached other⟩

/-- A request that is neither a PUT nor a POST. -/
theorem createdSent_other (r : Resources α) {request : CoapRequest} (other : ¬ (request.method = .Put ∨ request.method = .Post))
    (reaches : Prop) (response : CoapResponse) (o o' : Instances α) :
    CreatedSent r request reaches response o o' ∧ AsCreated r request o := by
  rw [not_or] at other
  exact ⟨⟨fun put => absurd put other.1,fun post => absurd post other.2⟩,
    fun _ _ _ => ⟨other.1,fun post => absurd post other.2⟩⟩

end Instances

def SecurityObject.resources : Instances.Resources SecurityInstance :=
  { fresh := {}, type := SecurityObject.getResourceType, read := SecurityInstance.readResource }

def ServerObject.resources : Instances.Resources ServerInstance :=
  { fresh := {}, type := ServerObject.getResourceType, read := ServerInstance.readResource }

namespace Requests
variable {U : Type} [Object U]

open Instances

/-- What a request on an object path does to the instances of the Security and Server objects. -/
structure CreatesSent (moments : Moments) (request : CoapRequest) (c : Objects U) (oid : UInt16) : Prop where
  security : CreatedSent SecurityObject.resources request (c.getObject oid = some .security) (answer moments request c)
    c.security (handleIncomingRequest moments request c).2.security
  server : CreatedSent ServerObject.resources request (c.getObject oid = some .server) (answer moments request c)
    c.server.store (handleIncomingRequest moments request c).2.server.store

/-- The object that the path names creates nothing else than the payload describes. -/
structure CreatesNoOther (request : CoapRequest) (c : Objects U) (oid : UInt16) : Prop where
  security : c.getObject oid = some .security → AsCreated SecurityObject.resources request c.security
  server : c.getObject oid = some .server → AsCreated ServerObject.resources request c.server.store

/-- A handler of a PUT or a POST on an object path creates. -/
theorem process_creates {σ : Type} [Object σ] (moments : Moments) {request : CoapRequest}
    (writes : request.method = .Put ∨ request.method = .Post) (oid : UInt16) (o : σ) :
    process moments request ⟨oid,none,none,none⟩ o =
      match Tlv.decode request.payload with
      | .error _ => (({ code := some .BadRequest },none),o)
      | .ok _ => (({ code := some (resultCode .Created (Object.createInstance o none).1) },none),(Object.createInstance o none).2) := by
  unfold process processWrite
  rcases writes with put | post
  · rw [put]
    cases Tlv.decode request.payload <;> rfl
  · rw [post]
    cases Tlv.decode request.payload <;> rfl

theorem security_creates (moments : Moments) {request : CoapRequest}
    (writes : request.method = .Put ∨ request.method = .Post) (oid : UInt16) (o : SecurityObject) :
    (process moments request ⟨oid,none,none,none⟩ o).1.1 = (creation {} request.payload o).1 ∧
      (process moments request ⟨oid,none,none,none⟩ o).2 = (creation {} request.payload o).2 := by
  rw [process_creates moments writes]
  unfold creation
  cases Tlv.decode request.payload <;> exact ⟨rfl,rfl⟩

theorem server_creates (moments : Moments) {request : CoapRequest}
    (writes : request.method = .Put ∨ request.method = .Post) (oid : UInt16) (o : ServerObject) :
    (process moments request ⟨oid,none,none,none⟩ o).1.1 = (creation {} request.payload o.store).1 ∧
      (process moments request ⟨oid,none,none,none⟩ o).2.store = (creation {} request.payload o.store).2 := by
  rw [process_creates moments writes]
  unfold creation
  cases Tlv.decode request.payload <;> exact ⟨rfl,rfl⟩

/-- A call leaves the accounts alone that it is not made of. -/
theorem call_others {α : Type} (c : Objects U) (oid : UInt16) (f : {σ : Type} → [Object σ] → σ → α × σ) (served : Served U) :
    (served ≠ .security → (c.call oid f served).2.security = c.security) ∧
      (served ≠ .server → (c.call oid f served).2.server = c.server) := by
  cases served with
  | security => exact ⟨fun other => absurd rfl other,fun _ => rfl⟩
  | server => exact ⟨fun _ => rfl,fun other => absurd rfl other⟩
  | _ => exact ⟨fun _ => rfl,fun _ => rfl⟩

/-- A PUT or POST on an object path reaches the object, or there is none. -/
theorem handle_object (moments : Moments) {request : CoapRequest} (c : Objects U) {oid : UInt16}
    (writes : request.method = .Put ∨ request.method = .Post)
    (parsed : ObjectPath.parse request.uriPath = some ⟨oid,none,none,none⟩) :
    handleIncomingRequest moments request c =
      match c.getObject oid with
      | none => (({ code := some .NotFound },none),c)
      | some served => c.call oid (fun o => process moments request ⟨oid,none,none,none⟩ o) served := by
  have allowed : ¬ (request.method = .Delete ∧ (!ObjectPath.isInstance ⟨oid,none,none,none⟩) = true) := by
    rcases writes with put | post
    · simp [put]
    · simp [post]
  unfold handleIncomingRequest
  rw [parsed]
  refine (if_neg allowed).trans ?_
  cases c.getObject oid <;> rfl

/-- What a request does to one of the accounts: it creates as the payload describes, or does not reach it. -/
theorem sent_iff {α : Type} (r : Resources α) (target : Served U) (store : Objects U → Instances α) (moments : Moments)
    (request : CoapRequest) (c : Objects U) (oid : UInt16)
    (creates : request.method = .Put ∨ request.method = .Post → c.getObject oid = some target →
      answer moments request c = (creation r.fresh request.payload (store c)).1 ∧
        store (handleIncomingRequest moments request c).2 = (creation r.fresh request.payload (store c)).2)
    (spares : request.method = .Put ∨ request.method = .Post → c.getObject oid ≠ some target →
      store (handleIncomingRequest moments request c).2 = store c) :
    CreatedSent r request (c.getObject oid = some target) (answer moments request c) (store c)
        (store (handleIncomingRequest moments request c).2) ↔
      (c.getObject oid = some target → AsCreated r request (store c)) := by
  by_cases writes : request.method = .Put ∨ request.method = .Post
  · by_cases reached : c.getObject oid = some target
    · obtain ⟨response,after⟩ := creates writes reached
      rw [response, after]
      exact (createdSent_iff r request reached (store c)).trans ⟨fun created _ => created,fun created => created reached⟩
    · exact iff_of_true (createdSent_same r request reached _ (spares writes reached)) (fun here => absurd here reached)
  · have other := createdSent_other r writes (c.getObject oid = some target) (answer moments request c) (store c)
      (store (handleIncomingRequest moments request c).2)
    exact iff_of_true other.1 (fun _ => other.2)

/-- A request on an object path creates what was sent exactly if the object creates nothing else than
    the payload describes. -/
theorem createsSent_iff (moments : Moments) (request : CoapRequest) (c : Objects U) (oid : UInt16)
    (parsed : ObjectPath.parse request.uriPath = some ⟨oid,none,none,none⟩) :
    CreatesSent moments request c oid ↔ CreatesNoOther request c oid := by
  -- The object that the path names is called, and no other.
  have called (served : Served U) (writes : request.method = .Put ∨ request.method = .Post) (reached : c.getObject oid = some served) :
      handleIncomingRequest moments request c = c.call oid (fun o => process moments request ⟨oid,none,none,none⟩ o) served := by
    rw [handle_object moments c writes parsed, reached]
  have spared (writes : request.method = .Put ∨ request.method = .Post) :
      (c.getObject oid ≠ some .security → (handleIncomingRequest moments request c).2.security = c.security) ∧
        (c.getObject oid ≠ some .server → (handleIncomingRequest moments request c).2.server = c.server) := by
    cases found : c.getObject oid with
    | none =>
      rw [handle_object moments c writes parsed, found]
      exact ⟨fun _ => rfl,fun _ => rfl⟩
    | some served =>
      rw [called served writes found]
      have others := call_others c oid (fun o => process moments request ⟨oid,none,none,none⟩ o) served
      exact ⟨fun other => others.1 (fun same => other (congrArg some same)),fun other => others.2 (fun same => other (congrArg some same))⟩
  have security := sent_iff SecurityObject.resources .security Objects.security moments request c oid ?created
    (fun writes => (spared writes).1)
  have server := sent_iff ServerObject.resources .server (fun c => c.server.store) moments request c oid ?made
    (fun writes other => congrArg ServerObject.store ((spared writes).2 other))
  · constructor
    · rintro sent
      exact ⟨security.mp sent.security,server.mp sent.server⟩
    · intro other
      exact ⟨security.mpr other.security,server.mpr other.server⟩
  case created =>
    intro writes reached
    unfold answer
    rw [called .security writes reached]
    exact security_creates moments writes oid c.security
  case made =>
    intro writes reached
    unfold answer
    rw [called .server writes reached]
    exact server_creates moments writes oid c.server

/-- `POST /1` with the instance 5, whose lifetime is ten seconds. -/
def postServer : CoapRequest :=
  { method := .Post, uriPath := lit ['/','1'], payload := [0x03, 0x05, 0xC1, 0x01, 0x0A] }

theorem createsSent_post :
    CreatesSent (fun _ => {}) postServer sampleObjects 1 ↔ CreatesNoOther postServer sampleObjects 1 :=
  createsSent_iff _ _ _ 1 rfl

/-- The instance 1 is created in its place. -/
theorem other_instance_created : ¬ CreatesSent (fun _ => {}) postServer sampleObjects 1 := by
  intro sent
  obtain ⟨records,iid,inst,decoded,created⟩ := sent.server.post rfl rfl rfl
  have payload : Tlv.decode postServer.payload = .ok [⟨.ObjectInstance,5,[0xC1, 0x01, 0x0A],[⟨.Resource,1,[0x0A],[]⟩]⟩] := rfl
  cases payload.symm.trans decoded
  have named : iid = 5 := created.named _ rfl
  have added : (1 : UInt16) ∈ (handleIncomingRequest (fun _ => {}) postServer sampleObjects).2.server.store.instances := by decide
  have absent := created.only 1
  rw [named] at absent
  rw [← AList.lookup_isSome, absent, if_neg (by decide)] at added
  revert added
  decide

end Requests

end Ferriot
