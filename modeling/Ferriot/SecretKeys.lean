import Ferriot.DefinedAnswers
import Ferriot.Runs

/-!
# Secret keys

The Security object lists the secret key among its resources and reads it like
any other: there is no access control. What a server learns of a key it learns by
such a read; no other answer, and no later one, depends on it.
-/
namespace Ferriot
open Tables Requests Runs

section
variable {σ : Type}

/-- The same result, and related states after it. -/
def SameAnswer {α : Type} (R : σ → σ → Prop) (called called' : α × σ) : Prop := called.1 = called'.1 ∧ R called.2 called'.2

/-- What is made of the result is the same too. -/
theorem SameAnswer.map {α β : Type} {R : σ → σ → Prop} {called called' : α × σ} (same : SameAnswer R called called')
    (f : α → β) : SameAnswer R (f called.1,called.2) (f called'.1,called'.2) :=
  ⟨congrArg f same.1,same.2⟩

variable [Object σ]

/-- Related states answer every call alike and stay related, but for reads of secret resources. -/
structure Alike (secret : UInt16 → Prop) (R : σ → σ → Prop) : Prop where
  create : ∀ {o o' : σ}, R o o' → ∀ suggested, SameAnswer R (Object.createInstance o suggested) (Object.createInstance o' suggested)
  delete : ∀ {o o' : σ}, R o o' → ∀ iid, SameAnswer R (Object.deleteInstance o iid) (Object.deleteInstance o' iid)
  types : ∀ {o o' : σ}, R o o' → ∀ iid rid, Object.getResourceType o iid rid = Object.getResourceType o' iid rid
  read : ∀ {o o' : σ}, R o o' → ∀ env iid rid riid, ¬ secret rid →
    SameAnswer R (Object.readResource env o iid rid riid) (Object.readResource env o' iid rid riid)
  write : ∀ {o o' : σ}, R o o' → ∀ env iid rid riid value,
    SameAnswer R (Object.writeResource env o iid rid riid value) (Object.writeResource env o' iid rid riid value)
  execute : ∀ {o o' : σ}, R o o' → ∀ env iid rid arguments,
    (Object.executeResource env o iid rid arguments).1 = (Object.executeResource env o' iid rid arguments).1 ∧
      R (Object.executeResource env o iid rid arguments).2.1 (Object.executeResource env o' iid rid arguments).2.1 ∧
        (Object.executeResource env o iid rid arguments).2.2 = (Object.executeResource env o' iid rid arguments).2.2

/-- A GET of the path reads a secret resource, or all resources of an instance. -/
def Discloses (secret : UInt16 → Prop) (path : ObjectPath) : Prop :=
  path.isObject = true ∨ path.isInstance = true ∨ path.isResource = true ∧ secret (path.resourceId.getD 0)

variable {secret : UInt16 → Prop} {R : σ → σ → Prop} {o o' : σ}

theorem processRead_alike (alike : Alike secret R) (related : R o o') (moments : Moments) {path : ObjectPath}
    (hidden : ¬ Discloses secret path) : SameAnswer R (processRead moments path o) (processRead moments path o') := by
  unfold Discloses at hidden
  rw [not_or, not_or, not_and] at hidden
  obtain ⟨notObject,notInstance,spared⟩ := hidden
  unfold processRead
  rw [if_neg notObject, if_neg notObject, if_neg notInstance, if_neg notInstance]
  by_cases resource : path.isResource = true
  · rw [if_pos resource, if_pos resource]
    have read := alike.read related (moments 0) (path.instanceId.getD 0) (path.resourceId.getD 0)
      path.resourceInstanceId (spared resource)
    dsimp only
    generalize Object.readResource (moments 0) o (path.instanceId.getD 0) _ _ = called at read ⊢
    generalize Object.readResource (moments 0) o' (path.instanceId.getD 0) _ _ = called' at read ⊢
    obtain ⟨result,p⟩ := called
    obtain ⟨result',p'⟩ := called'
    obtain ⟨same,after⟩ := read
    dsimp only at same
    subst same
    cases result with
    | error e => exact ⟨rfl,after⟩
    | ok value =>
      dsimp only
      split
      · exact ⟨rfl,after⟩
      · exact ⟨rfl,after⟩
  · rw [if_neg resource, if_neg resource]
    exact ⟨rfl,related⟩

theorem expectedType_alike (alike : Alike secret R) (related : R o o') (iid rid : UInt16) :
    expectedType o iid rid = expectedType o' iid rid := by
  unfold expectedType
  rw [alike.types related]

theorem writeRecords_alike (alike : Alike secret R) (iid : UInt16) (moments : Moments) (records : List Tlv.TlvRecord)
    (related : R o o') : R (writeRecords iid moments records o) (writeRecords iid moments records o') := by
  induction records generalizing moments o o' with
  | nil => exact related
  | cons record records ih =>
    refine ih moments.later ?_
    unfold writeRecord
    rw [expectedType_alike alike related]
    by_cases resource : record.type = .Resource
    · rw [if_pos resource, if_pos resource]
      cases Tlv.decodeResource record.value (expectedType o' iid record.id) with
      | error e => exact related
      | ok value =>
        obtain ⟨-,after⟩ := alike.write related (moments 0) iid record.id none value
        exact after
    · rw [if_neg resource, if_neg resource]
      exact related

theorem processWrite_alike (alike : Alike secret R) (related : R o o') (moments : Moments) (path : ObjectPath)
    (payload : Bytes) : SameAnswer R (processWrite moments path payload o) (processWrite moments path payload o') := by
  unfold processWrite
  cases Tlv.decode payload with
  | error e => exact ⟨rfl,related⟩
  | ok records =>
    dsimp only
    by_cases resource : path.isResource = true
    · rw [if_pos resource, if_pos resource]
      unfold writeFirst
      cases records with
      | nil => exact ⟨rfl,related⟩
      | cons record records =>
        dsimp only
        rw [expectedType_alike alike related]
        cases Tlv.decodeResource record.value (expectedType o' (path.instanceId.getD 0) (path.resourceId.getD 0)) with
        | error e => exact ⟨rfl,related⟩
        | ok value =>
          exact (alike.write related (moments 0) (path.instanceId.getD 0) (path.resourceId.getD 0) path.resourceInstanceId
            value).map (fun result => ({ code := some (resultCode .Changed result) } : CoapResponse))
    · rw [if_neg resource, if_neg resource]
      by_cases instanceWrite : path.isInstance = true
      · rw [if_pos instanceWrite, if_pos instanceWrite]
        exact ⟨rfl,writeRecords_alike alike _ moments records related⟩
      · rw [if_neg instanceWrite, if_neg instanceWrite]
        by_cases object : path.isObject = true
        · rw [if_pos object, if_pos object]
          exact (alike.create related none).map (fun result => ({ code := some (resultCode .Created result) } : CoapResponse))
        · rw [if_neg object, if_neg object]
          exact ⟨rfl,related⟩

/-- Related states handle a request alike unless it reads a secret. -/
theorem process_alike (alike : Alike secret R) (related : R o o') (moments : Moments) {request : CoapRequest}
    {path : ObjectPath} (hidden : request.method = .Get → ¬ Discloses secret path) :
    SameAnswer R (process moments request path o) (process moments request path o') := by
  unfold process
  cases method : request.method with
  | Get =>
    obtain ⟨same,after⟩ := processRead_alike alike related moments (hidden method)
    exact ⟨congrArg (·,none) same,after⟩
  | Put =>
    obtain ⟨same,after⟩ := processWrite_alike alike related moments path request.payload
    exact ⟨congrArg (·,none) same,after⟩
  | Post =>
    dsimp only
    by_cases resource : path.isResource = true
    · rw [if_pos resource, if_pos resource]
      obtain ⟨same,after,trigger⟩ := alike.execute related (moments 0) (path.instanceId.getD 0) (path.resourceId.getD 0)
        request.payload
      unfold processExecute
      dsimp only
      rw [same, trigger]
      exact ⟨rfl,after⟩
    · rw [if_neg resource, if_neg resource]
      obtain ⟨same,after⟩ := processWrite_alike alike related moments path request.payload
      exact ⟨congrArg (·,none) same,after⟩
  | Delete =>
    obtain ⟨same,after⟩ := alike.delete related (path.instanceId.getD 0)
    unfold processDelete
    dsimp only
    rw [same]
    exact ⟨rfl,after⟩

end

namespace Instances
variable {α : Type}

/-- The same instances but for what is hidden in their values. -/
structure SameBut (hide : α → α) (o o' : Instances α) : Prop where
  instances : mapValues hide o.instances = mapValues hide o'.instances
  nextInstanceId : o.nextInstanceId = o'.nextInstanceId

variable {hide : α → α} {o o' : Instances α}

theorem SameBut.keys (same : SameBut hide o o') : o.instances.keys = o'.instances.keys := by
  have mapped := congrArg AList.keys same.instances
  rwa [keys_mapValues, keys_mapValues] at mapped

theorem SameBut.mem (same : SameBut hide o o') (iid : UInt16) : iid ∈ o.instances ↔ iid ∈ o'.instances := by
  rw [AList.mem_keys, AList.mem_keys, same.keys]

theorem SameBut.lookup (same : SameBut hide o o') (iid : UInt16) :
    (o.instances.lookup iid).map hide = (o'.instances.lookup iid).map hide := by
  rw [← lookup_mapValues, ← lookup_mapValues, same.instances]

theorem createInstance_alike (same : SameBut hide o o') (fresh : α) (suggested : Option UInt16) :
    SameAnswer (SameBut hide) (createInstance fresh o suggested) (createInstance fresh o' suggested) := by
  unfold createInstance
  dsimp only
  rw [same.nextInstanceId]
  by_cases taken : suggested.getD o'.nextInstanceId ∈ o'.instances
  · rw [if_pos taken, if_pos ((same.mem _).mpr taken)]
    exact ⟨rfl,same⟩
  · rw [if_neg taken, if_neg (fun member => taken ((same.mem _).mp member))]
    refine ⟨rfl,?_,rfl⟩
    dsimp only
    rw [mapValues_set, mapValues_set, same.instances]

theorem deleteInstance_alike (same : SameBut hide o o') (iid : UInt16) :
    SameAnswer (SameBut hide) (deleteInstance o iid) (deleteInstance o' iid) := by
  unfold deleteInstance
  by_cases present : iid ∈ o'.instances
  · rw [if_pos present, if_pos ((same.mem iid).mpr present)]
    refine ⟨rfl,?_,same.nextInstanceId⟩
    dsimp only
    rw [mapValues_erase, mapValues_erase, same.instances]
  · rw [if_neg present, if_neg (fun member => present ((same.mem iid).mp member))]
    exact ⟨rfl,same⟩

theorem readResource_alike (same : SameBut hide o o') {read : α → Result ResourceValue}
    (unseen : ∀ inst inst', hide inst = hide inst' → read inst = read inst') (iid : UInt16) :
    readResource read o iid = readResource read o' iid := by
  have found := same.lookup iid
  unfold readResource
  cases looked : o.instances.lookup iid with
  | none =>
    rw [looked] at found
    rw [Option.map_eq_none_iff.mp found.symm]
  | some inst =>
    rw [looked] at found
    obtain ⟨inst',looked',hidden⟩ := Option.map_eq_some_iff.mp found.symm
    rw [looked']
    exact unseen inst inst' hidden.symm

theorem writeResource_alike (same : SameBut hide o o') {write : α → Result α}
    (unseen : ∀ inst inst', hide inst = hide inst' → (write inst).map hide = (write inst').map hide) (iid : UInt16) :
    SameAnswer (SameBut hide) (writeResource write o iid) (writeResource write o' iid) := by
  have found := same.lookup iid
  unfold writeResource
  cases looked : o.instances.lookup iid with
  | none =>
    rw [looked] at found
    rw [Option.map_eq_none_iff.mp found.symm]
    exact ⟨rfl,same⟩
  | some inst =>
    rw [looked] at found
    obtain ⟨inst',looked',hidden⟩ := Option.map_eq_some_iff.mp found.symm
    rw [looked']
    have written := unseen inst inst' hidden.symm
    dsimp only
    cases result : write inst with
    | error e =>
      rw [result] at written
      cases result' : write inst' with
      | error e' =>
        rw [result'] at written
        cases written
        exact ⟨rfl,same⟩
      | ok after' =>
        rw [result'] at written
        cases written
    | ok after =>
      rw [result] at written
      cases result' : write inst' with
      | error e' =>
        rw [result'] at written
        cases written
      | ok after' =>
        rw [result'] at written
        refine ⟨rfl,?_,same.nextInstanceId⟩
        dsimp only
        rw [mapValues_replace, mapValues_replace, same.instances, Except.ok.inj written]

end Instances

namespace SecurityInstance

def withoutKey (inst : SecurityInstance) : SecurityInstance := { inst with secretKey := [] }

/-- Instances that differ in the key differ in no other field. -/
theorem fields {inst inst' : SecurityInstance} (same : inst.withoutKey = inst'.withoutKey) :
    inst = { inst' with secretKey := inst.secretKey } := by
  obtain ⟨uri,bootstrap,mode,identity,server,key,ssid,holdOff,timeout⟩ := inst
  obtain ⟨uri',bootstrap',mode',identity',server',key',ssid',holdOff',timeout'⟩ := inst'
  unfold withoutKey at same
  simp only [SecurityInstance.mk.injEq] at same
  obtain ⟨rfl,rfl,rfl,rfl,rfl,-,rfl,rfl,rfl⟩ := same
  rfl

theorem readResource_unseen {rid : UInt16} (spared : rid ≠ 5) (inst inst' : SecurityInstance)
    (same : inst.withoutKey = inst'.withoutKey) : readResource rid inst = readResource rid inst' := by
  rw [fields same]
  unfold readResource
  split
  all_goals first | rfl | exact absurd rfl spared

theorem writeResource_unseen (rid : UInt16) (value : ResourceValue) (inst inst' : SecurityInstance)
    (same : inst.withoutKey = inst'.withoutKey) :
    (writeResource rid value inst).map withoutKey = (writeResource rid value inst').map withoutKey := by
  rw [fields same]
  unfold writeResource writeTyped
  split
  all_goals first | rfl | (split <;> rfl)

end SecurityInstance

/-- The same Security object but for the keys. -/
abbrev SecurityObject.SameButKeys (o o' : SecurityObject) : Prop := Instances.SameBut SecurityInstance.withoutKey o o'

theorem securityObject_alike : Alike (· = 5) SecurityObject.SameButKeys where
  create same suggested := Instances.createInstance_alike same {} suggested
  delete same iid := Instances.deleteInstance_alike same iid
  types _ _ _ := rfl
  read same _ iid _ _ spared :=
    ⟨Instances.readResource_alike same (SecurityInstance.readResource_unseen spared) iid,same⟩
  write same _ iid rid _ value := Instances.writeResource_alike same (SecurityInstance.writeResource_unseen rid value) iid
  execute same _ _ _ _ := ⟨rfl,same,rfl⟩

variable {U : Type}

/-- The same objects but for the keys of the Security object. -/
structure Objects.SameButKeys (c c' : Objects U) : Prop where
  security : SecurityObject.SameButKeys c.security c'.security
  others : c' = { c with security := c'.security }

/-- A request that reads a key: a GET of the Security object, of an instance of it, or of its resource 5. -/
def ReadsKey (c : Objects U) (request : CoapRequest) : Prop :=
  request.method = .Get ∧ ∃ path, ObjectPath.parse request.uriPath = some path ∧
    c.getObject path.objectId = some .security ∧ Discloses (· = 5) path

/-- The table keeps its places of the Security object. -/
def SamePlaces (c c' : Objects U) : Prop := ∀ oid, c'.getObject oid = some .security ↔ c.getObject oid = some .security

section
variable [Object U]

/-- The responses to a sequence of requests, and the updates that they trigger. -/
def handleRequests (requests : List (Moments × CoapRequest)) (c : Objects U) :
    List (CoapResponse × Trigger) × Objects U :=
  answers (fun request c => handleIncomingRequest request.1 request.2 c) requests c

theorem call_places {α : Type} {c : Objects U} {oid : UInt16} {served : Served U} (found : c.getObject oid = some served)
    (f : {σ : Type} → [Object σ] → σ → α × σ) : SamePlaces c (c.call oid f served).2 := by
  intro other
  cases served with
  | added object =>
    show (set c.table oid _).lookup other = _ ↔ _
    rw [lookup_set]
    by_cases here : other = oid
    · rw [if_pos here, here, found]
      simp
    · rw [if_neg here]
      exact Iff.rfl
  | _ => exact Iff.rfl

/-- A call of another object neither sees the Security object nor changes it. -/
theorem call_elsewhere {α : Type} (c : Objects U) (oid : UInt16) {served : Served U} (other : served ≠ .security)
    (f : {σ : Type} → [Object σ] → σ → α × σ) (o : SecurityObject) :
    (c.call oid f served).2.security = c.security ∧
      ({ c with security := o } : Objects U).call oid f served =
        ((c.call oid f served).1,{ (c.call oid f served).2 with security := o }) := by
  cases served with
  | security => exact absurd rfl other
  | _ => exact ⟨rfl,rfl⟩

theorem handle_places (moments : Moments) (request : CoapRequest) (c : Objects U) :
    SamePlaces c (handleIncomingRequest moments request c).2 := by
  unfold handleIncomingRequest
  cases ObjectPath.parse request.uriPath with
  | none => exact fun _ => Iff.rfl
  | some path =>
    dsimp only
    split
    · exact fun _ => Iff.rfl
    · cases found : c.getObject path.objectId with
      | none => exact fun _ => Iff.rfl
      | some served => exact call_places found _

/-- A request that reads no key is answered without one, and so are the requests after it. -/
theorem handle_alike (moments : Moments) {request : CoapRequest} {c c' : Objects U} (same : c.SameButKeys c')
    (unread : ¬ ReadsKey c request) :
    SameAnswer Objects.SameButKeys (handleIncomingRequest moments request c) (handleIncomingRequest moments request c') := by
  obtain ⟨security,others⟩ := same
  have same : c.SameButKeys c' := ⟨security,others⟩
  have places : ∀ oid, c'.getObject oid = c.getObject oid := by
    intro oid
    rw [others]
    rfl
  unfold handleIncomingRequest
  cases parsed : ObjectPath.parse request.uriPath with
  | none => exact ⟨rfl,same⟩
  | some path =>
    dsimp only
    split
    · exact ⟨rfl,same⟩
    · rw [places]
      cases found : c.getObject path.objectId with
      | none => exact ⟨rfl,same⟩
      | some served =>
        by_cases key : served = .security
        · subst key
          have hidden : request.method = .Get → ¬ Discloses (· = 5) path := by
            intro get discloses
            exact unread ⟨get,path,parsed,found,discloses⟩
          obtain ⟨answer,after⟩ := process_alike securityObject_alike security moments hidden
          refine ⟨answer,after,?_⟩
          show ({ c' with security := _ } : Objects U) = { c with security := _ }
          rw [others]
          rfl
        · obtain ⟨unchanged,elsewhere⟩ := call_elsewhere c path.objectId key
            (fun o => process moments request path o) c'.security
          rw [others]
          dsimp only
          rw [elsewhere]
          refine ⟨rfl,?_,rfl⟩
          rw [unchanged]
          exact security

/-- Two clients that differ only in secret keys answer every sequence of requests alike that reads no key. -/
theorem keys_unseen {c c' : Objects U} (same : c.SameButKeys c') (requests : List (Moments × CoapRequest))
    (unread : ∀ request ∈ requests, ¬ ReadsKey c request.2) :
    (handleRequests requests c).1 = (handleRequests requests c').1 := by
  have start : SamePlaces c c ∧ c.SameButKeys c' := ⟨fun _ => Iff.rfl,same⟩
  refine (answers_alike (R := fun d d' => SamePlaces c d ∧ d.SameButKeys d') ?_ start).1
  rintro request member d d' ⟨places,sameKeys⟩
  have stillUnread : ¬ ReadsKey d request.2 := by
    rintro ⟨get,path,parsed,found,discloses⟩
    exact unread request member ⟨get,path,parsed,(places path.objectId).mp found,discloses⟩
  obtain ⟨answer,after⟩ := handle_alike request.1 sameKeys stillUnread
  refine ⟨answer,?_,after⟩
  intro oid
  exact (handle_places request.1 request.2 d oid).trans (places oid)

end

/-- A client with one account, which holds the key. -/
def keyed (key : Bytes) : Objects LocationObject :=
  { security := (SecurityObject.addServer {} { secretKey := key, shortServerId := 1 }).2 }

theorem keyed_alike (key key' : Bytes) : (keyed key).SameButKeys (keyed key') := ⟨⟨rfl,rfl⟩,rfl⟩

/-- A read of the security mode, and the deletion of the account. -/
def modeRequests : List (Moments × CoapRequest) :=
  [(fun _ => {},{ method := .Get, uriPath := lit ['/','0','/','0','/','2'] }),
    (fun _ => {},{ method := .Delete, uriPath := lit ['/','0','/','0'] })]

theorem keys_unseen_mode : (handleRequests modeRequests (keyed [1])).1 = (handleRequests modeRequests (keyed [2])).1 := by
  refine keys_unseen (keyed_alike [1] [2]) modeRequests ?_
  intro request member
  rcases List.mem_cons.mp member with rfl | later
  · rintro ⟨-,path,parsed,-,discloses⟩
    obtain rfl : (⟨0,some 0,some 2,none⟩ : ObjectPath) = path := Option.some.inj (Eq.trans (by decide +kernel) parsed)
    revert discloses
    unfold Discloses
    decide
  · rcases List.mem_cons.mp later with rfl | none
    · rintro ⟨⟨⟩,-⟩
    · cases none

/-- A read of the secret key. -/
def keyRequest : Moments × CoapRequest := (fun _ => {},{ method := .Get, uriPath := lit ['/','0','/','0','/','5'] })

theorem key_read :
    (keyed [1]).SameButKeys (keyed [2]) ∧ keyRequest.2.method = .Get ∧
      (handleRequests [keyRequest] (keyed [1])).1 ≠ (handleRequests [keyRequest] (keyed [2])).1 :=
  ⟨keyed_alike [1] [2],rfl,by decide +kernel⟩

end Ferriot
