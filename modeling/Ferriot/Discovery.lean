import Ferriot.ReadAnswers

/-!
# What Discover shows

`process_discover` writes the resources of an object, an instance or a resource as
links. Cut at the commas, they are the paths of the resources that the object lists,
and whatever a server can read, write or execute is among them, but for one trigger.
No request reaches it: `handle_incoming_request` answers every GET with a read.
-/
namespace Ferriot
open Tables Requests Delimited

def resourceLink (oid iid rid : UInt16) : Bytes :=
  lit ['<','/'] ++ Client.decimal oid.toNat ++ lit ['/'] ++ Client.decimal iid.toNat ++ lit ['/'] ++ Client.decimal rid.toNat ++ lit ['>']

namespace Requests

section Handlers
variable {σ : Type} [Object σ]

/-- The loop over the resources of an instance, with the flag `first`. -/
def discoverInstance (oid : UInt16) (o : σ) (oss : Bytes × Bool) (iid : UInt16) : Bytes × Bool :=
  (Object.listResources o iid).foldl (fun oss rid => writeNext comma oss (resourceLink oid iid rid)) oss

/-- `process_discover`, once the object is found. An instance need not exist. -/
def processDiscover (path : ObjectPath) (o : σ) : CoapResponse :=
  let linkFormat :=
    if path.isObject then ((Object.listInstances o).foldl (discoverInstance path.objectId o) ([],true)).1
    else if path.isInstance then (discoverInstance path.objectId o ([],true) (path.instanceId.getD 0)).1
    else if path.isResource then resourceLink path.objectId (path.instanceId.getD 0) (path.resourceId.getD 0)
    else []
  { code := some .Content, payload := linkFormat }

/-- The paths of the resources that an object lists for an instance. -/
def resourcePaths (oid : UInt16) (o : σ) (iid : UInt16) : List ObjectPath :=
  (Object.listResources o iid).map (fun rid => ⟨oid,some iid,some rid,none⟩)

/-- The paths that Discover is to show. -/
inductive Discovers (o : σ) : ObjectPath → List ObjectPath → Prop
  | object (oid : UInt16) : Discovers o ⟨oid,none,none,none⟩ ((Object.listInstances o).flatMap (resourcePaths oid o))
  | inst (oid iid : UInt16) : Discovers o ⟨oid,some iid,none,none⟩ (resourcePaths oid o iid)
  | resource (oid iid rid : UInt16) : Discovers o ⟨oid,some iid,some rid,none⟩ [⟨oid,some iid,some rid,none⟩]
  | resourceInstance (oid iid rid riid : UInt16) : Discovers o ⟨oid,some iid,some rid,some riid⟩ []

/-- The payload, cut at its commas, is the paths in this order. -/
def ShowsPaths (payload : Bytes) (paths : List ObjectPath) : Prop :=
  (Client.cutLinks payload).map (fun piece => ObjectPath.parse (Client.strip piece)) = paths.map some

end Handlers

/-- The link of a path with three components. -/
def linkOf (path : ObjectPath) : Bytes := resourceLink path.objectId (path.instanceId.getD 0) (path.resourceId.getD 0)

theorem strip_decimal (n : Nat) : Client.strip (Client.decimal n) = Client.decimal n := by
  refine List.filter_eq_self.mpr ?_
  intro b member
  have range := Client.decimal_byte member
  rw [decide_eq_true_iff]
  constructor
  · rintro rfl
    exact absurd range.2 (by decide)
  · rintro rfl
    exact absurd range.2 (by decide)

theorem strip_resourceLink (oid iid rid : UInt16) :
    Client.strip (resourceLink oid iid rid) = ObjectPath.toString ⟨oid,some iid,some rid,none⟩ := by
  have digits := strip_decimal
  unfold Client.strip at digits ⊢
  unfold resourceLink ObjectPath.toString
  simp only [List.filter_append, digits]
  simp [lit, ObjectPath.slash]

theorem comma_not_mem_resourceLink (oid iid rid : UInt16) : comma ∉ resourceLink oid iid rid := by
  have digits (n : Nat) : comma ∉ Client.decimal n := fun member => absurd (Client.decimal_byte member).1 (by decide)
  unfold resourceLink
  simp only [List.mem_append, not_or]
  exact ⟨⟨⟨⟨⟨⟨by decide,digits oid.toNat⟩,by decide⟩,digits iid.toNat⟩,by decide⟩,digits rid.toNat⟩,by decide⟩

/-- Links without commas come back. -/
theorem cutLinks_intercalate {links : List Bytes} (free : ∀ link ∈ links, comma ∉ link) (written : ∀ link ∈ links, link ≠ []) :
    Client.cutLinks ([comma].intercalate links) = links := by
  cases links with
  | nil => rfl
  | cons link links =>
    have some : [comma].intercalate (link :: links) ≠ [] := by
      rw [intercalate_eq_flatMap]
      simp [written link List.mem_cons_self]
    rw [Client.cutLinks, if_neg some]
    exact List.splitOn_intercalate comma free (List.cons_ne_nil _ _)

/-- A payload of links shows the paths of the links. -/
theorem showsPaths_links {paths : List ObjectPath} (threes : ∀ path ∈ paths, ∃ oid iid rid, path = ⟨oid,some iid,some rid,none⟩) :
    ShowsPaths ([comma].intercalate (paths.map linkOf)) paths := by
  unfold ShowsPaths
  rw [cutLinks_intercalate, List.map_map]
  · refine List.map_congr_left ?_
    intro path member
    obtain ⟨oid,iid,rid,rfl⟩ := threes path member
    have gapless : ObjectPath.Gapless ⟨oid,some iid,some rid,none⟩ := ⟨by simp,by simp⟩
    simp only [Function.comp_apply, linkOf, Option.getD_some]
    rw [strip_resourceLink]
    exact ObjectPath.parse_printed gapless
  · intro link member
    obtain ⟨path,-,rfl⟩ := List.mem_map.mp member
    exact comma_not_mem_resourceLink _ _ _
  · intro link member
    obtain ⟨path,-,rfl⟩ := List.mem_map.mp member
    simp [linkOf, resourceLink, lit]

section Handlers
variable {σ : Type} [Object σ]

theorem discoverInstance_eq (oid : UInt16) (o : σ) (oss : Bytes × Bool) (iid : UInt16) :
    discoverInstance oid o oss iid = ((resourcePaths oid o iid).map linkOf).foldl (writeNext comma) oss := by
  rw [discoverInstance, resourcePaths, List.map_map, List.foldl_map]
  rfl

/-- What Discover shows of an object is what it lists, in order. -/
theorem processDiscover_shows {path : ObjectPath} {paths : List ObjectPath} {o : σ} (discovers : Discovers o path paths) :
    ShowsPaths (processDiscover path o).payload paths := by
  have threes (oid iid : UInt16) : ∀ path ∈ resourcePaths oid o iid, ∃ oid iid rid, path = ⟨oid,some iid,some rid,none⟩ := by
    intro path member
    obtain ⟨rid,-,rfl⟩ := List.mem_map.mp member
    exact ⟨oid,iid,rid,rfl⟩
  cases discovers with
  | object oid =>
    have payload : (processDiscover ⟨oid,none,none,none⟩ o).payload =
        [comma].intercalate (((Object.listInstances o).flatMap (resourcePaths oid o)).map linkOf) := by
      have step : discoverInstance oid o = fun oss iid => ((resourcePaths oid o iid).map linkOf).foldl (writeNext comma) oss := by
        funext oss iid
        exact discoverInstance_eq oid o oss iid
      rw [← foldl_writeNext, List.map_flatMap, List.foldl_flatMap, ← step]
      rfl
    rw [payload]
    refine showsPaths_links ?_
    intro path member
    obtain ⟨iid,-,inside⟩ := List.mem_flatMap.mp member
    exact threes oid iid path inside
  | inst oid iid =>
    have payload : (processDiscover ⟨oid,some iid,none,none⟩ o).payload =
        [comma].intercalate ((resourcePaths oid o iid).map linkOf) := by
      rw [← foldl_writeNext, ← discoverInstance_eq]
      simp [processDiscover, ObjectPath.isObject, ObjectPath.isInstance]
    rw [payload]
    exact showsPaths_links (threes oid iid)
  | resource oid iid rid =>
    have payload : (processDiscover ⟨oid,some iid,some rid,none⟩ o).payload =
        [comma].intercalate ([⟨oid,some iid,some rid,none⟩].map linkOf) := by
      simp [processDiscover, ObjectPath.isObject, ObjectPath.isInstance, ObjectPath.isResource, linkOf]
    rw [payload]
    exact showsPaths_links (by simp)
  | resourceInstance oid iid rid riid => rfl

end Handlers

end Requests

section
variable {U : Type} [Object U]

/-- `process_discover`. -/
def Objects.processDiscover (path : ObjectPath) (c : Objects U) : CoapResponse :=
  match c.getObject path.objectId with
  | none => { code := some .NotFound }
  | some served => (c.call path.objectId (fun o => (Requests.processDiscover path o,o)) served).1

theorem discover_found {c : Objects U} (path : ObjectPath) {served : Served U} (found : c.getObject path.objectId = some served) :
    (c.processDiscover path).code = some .Content ∧
      c.Holds (fun o => ∀ paths, Discovers o path paths → ShowsPaths (c.processDiscover path).payload paths) served := by
  simp only [Objects.processDiscover, found]
  cases served with
  | security => exact ⟨rfl,fun paths => processDiscover_shows⟩
  | server => exact ⟨rfl,fun paths => processDiscover_shows⟩
  | device => exact ⟨rfl,fun paths => processDiscover_shows⟩
  | connectivity => exact ⟨rfl,fun paths => processDiscover_shows⟩
  | firmwareUpdate => exact ⟨rfl,fun paths => processDiscover_shows⟩
  | added object => exact ⟨rfl,fun paths => processDiscover_shows⟩

/-- Discover is answered with Content exactly if the object is there, and then with the paths of the
    resources that the object lists, whether the instance exists or not. -/
theorem discover_shows (c : Objects U) (path : ObjectPath) :
    ((c.processDiscover path).code = some .Content ↔ c.getObject path.objectId ≠ none) ∧
      ∀ served, c.getObject path.objectId = some served →
        c.Holds (fun o => ∀ paths, Discovers o path paths → ShowsPaths (c.processDiscover path).payload paths) served := by
  refine ⟨?_,fun served found => (discover_found path found).2⟩
  cases found : c.getObject path.objectId with
  | none =>
    have missing : c.processDiscover path = { code := some .NotFound } := by simp only [Objects.processDiscover, found]
    rw [missing]
    exact iff_of_false (by rintro ⟨⟩) (fun there => there rfl)
  | some served => exact iff_of_true (discover_found path found).1 (by rintro ⟨⟩)

end

/-- What an object reads, writes or executes it lists, but for the Bootstrap-Request Trigger. -/
class ListsResources (σ : Type) [Object σ] : Prop where
  read : ∀ (env : Env) (o : σ) (iid rid : UInt16) (riid : Option UInt16) (v : ResourceValue),
    (Object.readResource env o iid rid riid).1 = .ok v → rid ∈ Object.listResources o iid
  write : ∀ (env : Env) (o : σ) (iid rid : UInt16) (riid : Option UInt16) (v : ResourceValue),
    (Object.writeResource env o iid rid riid v).1 = .ok () → rid ∈ Object.listResources o iid
  execute : ∀ (env : Env) (o : σ) (iid rid : UInt16) (args : Bytes),
    (Object.executeResource env o iid rid args).1 = .ok () → rid ∈ Object.listResources o iid ∨ Object.id o = 1 ∧ rid = 9

/-- A resource of an instance that is read is listed if the reader of the instance knows it. -/
theorem Instances.read_found {α : Type} {read : α → Result ResourceValue} {o : Instances α} {iid : UInt16} {v : ResourceValue}
    (ok : o.readResource read iid = .ok v) : ∃ inst, read inst = .ok v := by
  simp only [Instances.readResource] at ok
  split at ok
  · cases ok
  · exact ⟨_,ok⟩

theorem Instances.write_found {α : Type} {write : α → Result α} {o : Instances α} {iid : UInt16}
    (ok : (o.writeResource write iid).1 = .ok ()) : ∃ inst inst', write inst = .ok inst' := by
  simp only [Instances.writeResource] at ok
  split at ok
  · cases ok
  · split at ok
    · cases ok
    · next written => exact ⟨_,_,written⟩

theorem SecurityInstance.read_listed {rid : UInt16} {inst : SecurityInstance} {v : ResourceValue}
    (ok : readResource rid inst = .ok v) : rid ∈ SecurityObject.listResources := by
  unfold readResource at ok
  split at ok
  all_goals first | decide | cases ok

theorem SecurityInstance.write_listed {rid : UInt16} {value : ResourceValue} {inst inst' : SecurityInstance}
    (ok : writeResource rid value inst = .ok inst') : rid ∈ SecurityObject.listResources := by
  unfold writeResource at ok
  split at ok
  all_goals first | decide | cases ok

theorem ServerInstance.read_listed {rid : UInt16} {inst : ServerInstance} {v : ResourceValue}
    (ok : readResource rid inst = .ok v) : rid ∈ ServerObject.listResources := by
  unfold readResource at ok
  split at ok
  all_goals first | decide | cases ok

theorem ServerInstance.write_listed {rid : UInt16} {value : ResourceValue} {inst inst' : ServerInstance}
    (ok : writeResource rid value inst = .ok inst') : rid ∈ ServerObject.listResources := by
  unfold writeResource at ok
  split at ok
  all_goals first | decide | cases ok

theorem ServerObject.execute_listed {o : ServerObject} {iid rid : UInt16} (ok : (o.executeResource iid rid).1 = .ok ()) :
    rid ∈ listResources ∨ rid = 9 := by
  unfold executeResource at ok
  split at ok
  · cases ok
  · split at ok
    all_goals first | decide | cases ok

theorem DeviceObject.read_listed {env : Env} {o : DeviceObject} {iid rid : UInt16} {riid : Option UInt16} {v : ResourceValue}
    (ok : o.readResource env iid rid riid = .ok v) : rid ∈ listResources := by
  unfold readResource at ok
  split at ok
  · cases ok
  · split at ok
    all_goals first | decide | cases ok

theorem DeviceObject.write_listed {o o' : DeviceObject} {iid rid : UInt16} {v : ResourceValue}
    (ok : o.writeResource iid rid v = .ok o') : rid ∈ listResources := by
  unfold writeResource at ok
  split at ok
  · cases ok
  · split at ok
    all_goals first | decide | cases ok

theorem DeviceObject.execute_listed {o : DeviceObject} {iid rid : UInt16} (ok : (o.executeResource iid rid).1 = .ok ()) :
    rid ∈ listResources := by
  unfold executeResource at ok
  split at ok
  · cases ok
  · split at ok
    all_goals first | decide | cases ok

theorem ConnectivityObject.read_listed {o : ConnectivityObject} {iid rid : UInt16} {riid : Option UInt16} {v : ResourceValue}
    (ok : o.readResource iid rid riid = .ok v) : rid ∈ listResources := by
  unfold readResource at ok
  split at ok
  · cases ok
  · split at ok
    all_goals first | decide | cases ok

theorem LocationObject.read_listed {env : Env} {o : LocationObject} {iid rid : UInt16} {v : ResourceValue}
    (ok : (o.readResource env iid rid).1 = .ok v) : rid ∈ listResources := by
  simp only [readResource] at ok
  split at ok
  · cases ok
  · simp only [readPosition] at ok
    split at ok
    · split at ok
      all_goals first | decide | cases ok
    · cases ok

namespace Firmware.FirmwareUpdateObject

theorem read_listed {o : FirmwareUpdateObject} {iid rid : UInt16} {riid : Option UInt16} {v : ResourceValue}
    (ok : o.readResource iid rid riid = .ok v) : rid ∈ listResources := by
  unfold readResource at ok
  split at ok
  · cases ok
  · split at ok
    all_goals first | decide | cases ok

theorem write_listed {env : Env} {o : FirmwareUpdateObject} {iid rid : UInt16} {v : ResourceValue}
    (ok : (o.writeResource env iid rid v).1 = .ok ()) : rid ∈ listResources := by
  unfold writeResource at ok
  split at ok
  · cases ok
  · split at ok
    all_goals first | decide | cases ok

theorem execute_listed {env : Env} {o : FirmwareUpdateObject} {iid rid : UInt16}
    (ok : (o.executeResource env iid rid).1 = .ok ()) : rid ∈ listResources := by
  unfold executeResource at ok
  split at ok
  · cases ok
  · split at ok
    all_goals first | decide | cases ok

end Firmware.FirmwareUpdateObject

instance : ListsResources SecurityObject where
  read _ o _ _ _ _ ok := by
    obtain ⟨inst,read⟩ := Instances.read_found (o := o) ok
    exact inst.read_listed read
  write _ o _ _ _ _ ok := by
    obtain ⟨inst,inst',written⟩ := Instances.write_found (o := o) ok
    exact SecurityInstance.write_listed written
  execute _ _ _ _ _ ok := by cases ok

instance : ListsResources ServerObject where
  read _ o _ _ _ _ ok := by
    obtain ⟨inst,read⟩ := Instances.read_found (o := o.store) ok
    exact inst.read_listed read
  write _ o _ _ _ _ ok := by
    obtain ⟨inst,inst',written⟩ := Instances.write_found (o := o.store) ok
    exact ServerInstance.write_listed written
  execute _ _ _ _ _ ok := (ServerObject.execute_listed ok).imp_right fun trigger => ⟨rfl,trigger⟩

theorem stored_ok {σ : Type} {o : σ} {result : Result σ} (ok : (stored o result).1 = .ok ()) : ∃ o', result = .ok o' := by
  cases result with
  | error e => cases ok
  | ok o' => exact ⟨o',rfl⟩

instance : ListsResources DeviceObject where
  read _ _ _ _ _ _ ok := DeviceObject.read_listed ok
  write _ _ _ _ _ _ ok := by
    obtain ⟨o',written⟩ := stored_ok ok
    exact DeviceObject.write_listed written
  execute _ _ _ _ _ ok := .inl (DeviceObject.execute_listed ok)

theorem ConnectivityObject.write_refused (iid : UInt16) : writeResource iid ≠ .ok () := by
  unfold writeResource
  split <;> rintro ⟨⟩

theorem ConnectivityObject.execute_refused (iid : UInt16) : executeResource iid ≠ .ok () := by
  unfold executeResource
  split <;> rintro ⟨⟩

instance : ListsResources ConnectivityObject where
  read _ _ _ _ _ _ ok := ConnectivityObject.read_listed ok
  write _ _ iid _ _ _ ok := absurd ok (ConnectivityObject.write_refused iid)
  execute _ _ iid _ _ ok := absurd ok (ConnectivityObject.execute_refused iid)

instance : ListsResources Firmware.FirmwareUpdateObject where
  read _ _ _ _ _ _ ok := Firmware.FirmwareUpdateObject.read_listed ok
  write _ _ _ _ _ _ ok := Firmware.FirmwareUpdateObject.write_listed ok
  execute _ _ _ _ _ ok := .inl (Firmware.FirmwareUpdateObject.execute_listed ok)

theorem LocationObject.write_refused (iid : UInt16) : writeResource iid ≠ .ok () := by
  unfold writeResource
  split <;> rintro ⟨⟩

theorem LocationObject.execute_refused (iid : UInt16) : executeResource iid ≠ .ok () := by
  unfold executeResource
  split <;> rintro ⟨⟩

instance : ListsResources LocationObject where
  read _ _ _ _ _ _ ok := LocationObject.read_listed ok
  write _ _ iid _ _ _ ok := absurd ok (LocationObject.write_refused iid)
  execute _ _ iid _ _ ok := absurd ok (LocationObject.execute_refused iid)

/-! ### Requests that succeed -/

namespace Requests
variable {σ : Type} [Object σ] [ListsResources σ]

theorem errorToCoapCode_fails (code : ErrorCode) : (errorToCoapCode code).isSuccess = false := by
  cases code <;> rfl

theorem resultCode_succeeds {α : Type} {success : CoapCode} {result : Result α}
    (succeeds : (resultCode success result).isSuccess = true) : ∃ a, result = .ok a := by
  cases result with
  | ok a => exact ⟨a,rfl⟩
  | error e =>
    have fails := errorToCoapCode_fails e.code
    rw [resultCode, fails] at succeeds
    cases succeeds

theorem processRead_listed {moments : Moments} {oid iid rid : UInt16} {o : σ}
    (success : (processRead moments ⟨oid,some iid,some rid,none⟩ o).1.isSuccess = true) : rid ∈ Object.listResources o iid := by
  have answered := processRead_resource moments o oid iid rid
  cases result : (Object.readResource (moments 0) o iid rid none).1 with
  | error e =>
    rw [result] at answered
    have fails := errorToCoapCode_fails e.code
    rw [CoapResponse.isSuccess, answered, Option.any_some, fails] at success
    cases success
  | ok v => exact ListsResources.read _ o iid rid none v result

theorem writeFirst_listed {env : Env} {iid rid : UInt16} {records : List Tlv.TlvRecord} {o : σ}
    (success : (writeFirst env iid rid none records o).1.isSuccess = true) : rid ∈ Object.listResources o iid := by
  cases records with
  | nil => cases success
  | cons record records =>
    simp only [writeFirst] at success
    split at success
    · cases success
    · next value _ =>
      obtain ⟨⟨⟩,written⟩ := resultCode_succeeds success
      exact ListsResources.write _ o iid rid none value written

theorem processWrite_listed {moments : Moments} {oid iid rid : UInt16} {payload : Bytes} {o : σ}
    (success : (processWrite moments ⟨oid,some iid,some rid,none⟩ payload o).1.isSuccess = true) :
    rid ∈ Object.listResources o iid := by
  simp only [processWrite] at success
  split at success
  · cases success
  · exact writeFirst_listed success

theorem processExecute_listed {moments : Moments} {oid iid rid : UInt16} {payload : Bytes} {o : σ}
    (success : (processExecute moments ⟨oid,some iid,some rid,none⟩ payload o).1.1.isSuccess = true) :
    rid ∈ Object.listResources o iid ∨ Object.id o = 1 ∧ rid = 9 := by
  obtain ⟨⟨⟩,executed⟩ := resultCode_succeeds success
  exact ListsResources.execute _ o iid rid payload executed

theorem process_listed {moments : Moments} {request : CoapRequest} (kept : request.method ≠ .Delete) {oid iid rid : UInt16} {o : σ}
    (success : (process moments request ⟨oid,some iid,some rid,none⟩ o).1.1.isSuccess = true) :
    ⟨oid,some iid,some rid,none⟩ ∈ resourcePaths oid o iid ∨ Object.id o = 1 ∧ rid = 9 ∧ request.method = .Post := by
  have listed (member : rid ∈ Object.listResources o iid) :
      (⟨oid,some iid,some rid,none⟩ : ObjectPath) ∈ resourcePaths oid o iid := List.mem_map_of_mem member
  cases method : request.method with
  | Get =>
    simp only [process, method] at success
    exact .inl (listed (processRead_listed success))
  | Put =>
    simp only [process, method] at success
    exact .inl (listed (processWrite_listed success))
  | Post =>
    simp only [process, method] at success
    rcases processExecute_listed success with member | ⟨server,trigger⟩
    · exact .inl (listed member)
    · exact .inr ⟨server,trigger,rfl⟩
  | Delete => exact absurd method kept

/-- The same against the payload of Discover, for a request that the client makes of a PDU. -/
theorem process_discovered [OptionNumbers] {moments : Moments} {pdu : RequestPdu} {method : CoapMethod} (kept : method ≠ .Delete)
    {oid iid rid : UInt16} {o : σ} {payload : Bytes}
    (shown : ∀ paths, Discovers o ⟨oid,some iid,none,none⟩ paths → ShowsPaths payload paths)
    (success : (process moments (pdu.request method) ⟨oid,some iid,some rid,none⟩ o).1.1.isSuccess = true) :
    (∃ paths, ShowsPaths payload paths ∧ ⟨oid,some iid,some rid,none⟩ ∈ paths) ∨
      (Object.id o = 1 ∧ rid = 9 ∧ some method = some .Post) := by
  rcases process_listed kept success with member | ⟨server,trigger,post⟩
  · exact .inl ⟨_,shown _ (.inst oid iid),member⟩
  · exact .inr ⟨server,trigger,congrArg some post⟩

end Requests

/-- Whatever request to a resource is answered with success is to one that Discover of its instance
    shows, unless it executes the Bootstrap-Request Trigger of the Server object. -/
theorem successes_discovered [OptionNumbers] {U : Type} [Object U] [ListsResources U] (moments : Moments) (c : Objects U)
    {pdu : RequestPdu} {oid iid rid : UInt16} (leads : ObjectPath.Leads pdu.pathPieces ⟨oid,some iid,some rid,none⟩)
    (success : (c.answerPdu moments pdu).1.code.any CoapCode.isSuccess = true) :
    (∃ paths, ShowsPaths (c.processDiscover ⟨oid,some iid,none,none⟩).payload paths ∧ ⟨oid,some iid,some rid,none⟩ ∈ paths) ∨
      ∃ served, c.getObject oid = some served ∧
        c.Holds (fun o => Object.id o = 1 ∧ rid = 9 ∧ pdu.method = some .Post) served := by
  cases known : pdu.method with
  | none =>
    simp only [Objects.answerPdu, incomingRequestHandler, known] at success
    cases success
  | some method =>
    have parsed : ObjectPath.parse (pdu.request method).uriPath = some ⟨oid,some iid,some rid,none⟩ :=
      (pdu.parse_uriPath _).mpr leads
    have kept : method ≠ .Delete := by
      rintro rfl
      simp only [Objects.answerPdu, incomingRequestHandler, known, handleIncomingRequest, parsed] at success
      cases success
    cases found : c.getObject oid with
    | none =>
      have missing := Client.answer_missing moments parsed found (fun both => kept both.1)
      simp only [Objects.answerPdu, incomingRequestHandler, known, missing] at success
      cases success
    | some served =>
      rw [answerPdu_found moments known leads kept found, CoapResponse.pdu_code] at success
      have shown := (discover_found ⟨oid,some iid,none,none⟩ found).2
      cases served with
      | security => exact (process_discovered kept shown success).imp_right fun trigger => ⟨_,rfl,trigger⟩
      | server => exact (process_discovered kept shown success).imp_right fun trigger => ⟨_,rfl,trigger⟩
      | device => exact (process_discovered kept shown success).imp_right fun trigger => ⟨_,rfl,trigger⟩
      | connectivity => exact (process_discovered kept shown success).imp_right fun trigger => ⟨_,rfl,trigger⟩
      | firmwareUpdate => exact (process_discovered kept shown success).imp_right fun trigger => ⟨_,rfl,trigger⟩
      | added object => exact (process_discovered kept shown success).imp_right fun trigger => ⟨_,rfl,trigger⟩

attribute [local instance] bigEndianNumbers

/-- The Lifetime of an account is read, so Discover shows it. -/
theorem successes_discovered_lifetime :
    (∃ paths, ShowsPaths (sampleClient.objects.processDiscover ⟨1,some 0,none,none⟩).payload paths ∧ ⟨1,some 0,some 1,none⟩ ∈ paths) ∨
      ∃ served, sampleClient.objects.getObject 1 = some served ∧
        sampleClient.objects.Holds (fun o => Object.id o = 1 ∧ (1 : UInt16) = 9 ∧ getLifetimePdu.method = some .Post) served :=
  successes_discovered (fun _ => {}) sampleClient.objects getLifetimePdu_leads (by decide)

end Ferriot
