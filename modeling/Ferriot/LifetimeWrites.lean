import Ferriot.Requests

/-!
# Writes of a lifetime

What the requests of a server do to the Server instances, as far as they write
lifetimes and trigger updates.
-/
namespace Ferriot
open Tables Requests

/-- The lifetime in the payload of a write: the first record, as an integer. -/
def payloadLifetime (payload : Bytes) : Option UInt32 :=
  match Tlv.decode payload with
  | .ok (record :: _) =>
    match Tlv.deserializeInt record.value with
    | .ok v => some (narrow32 v)
    | .error _ => none
  | _ => none

/-- `PUT /1/x/1` -/
def WritesLifetime (x : UInt16) (request : CoapRequest) : Prop :=
  request.method = .Put ∧ ObjectPath.parse request.uriPath = some ⟨1,some x,some 1,none⟩

instance (x : UInt16) (request : CoapRequest) : Decidable (WritesLifetime x request) :=
  inferInstanceAs (Decidable (_ ∧ _))

/-- The lifetime that a request writes to a Server instance. -/
def lifetimeWritten (x : UInt16) (request : CoapRequest) : Option UInt32 :=
  if WritesLifetime x request then payloadLifetime request.payload else none

/-- The Server instance for a server, with its id. -/
def serverInstance (instances : Table UInt16 ServerInstance) (ssid : UInt16) : Option (UInt16 × ServerInstance) :=
  findEntry instances (fun inst => inst.shortServerId == ssid)

/-- `POST /1/x/8`, the Registration Update Trigger. -/
def TriggersUpdate (x : UInt16) (request : CoapRequest) : Prop :=
  request.method = .Post ∧ ObjectPath.parse request.uriPath = some ⟨1,some x,some 8,none⟩

/-- Of the Server object, a request writes a lifetime or triggers an update. -/
def Usual (request : CoapRequest) : Prop :=
  ∀ path, ObjectPath.parse request.uriPath = some path → path.objectId = 1 →
    ∃ x, WritesLifetime x request ∨ TriggersUpdate x request

/-- What is under the id of the Server object, and nothing else, is the client's Server object. -/
def ServerInPlace {U : Type} (c : Objects U) : Prop :=
  c.getObject 1 = some .server ∧ ∀ oid, c.getObject oid = some .server → oid = 1

/-- The table that the client is built with. -/
theorem serverInPlace_table {U : Type} {c : Objects U} (table : c.table = ({} : Objects U).table) : ServerInPlace c := by
  have entries : c.table.entries =
      [⟨5,.firmwareUpdate⟩, ⟨4,.connectivity⟩, ⟨3,.device⟩, ⟨1,.server⟩, ⟨0,.security⟩] := by rw [table]; rfl
  have looked (oid : UInt16) : c.getObject oid = some .server ↔ oid = 1 := by
    refine AList.mem_lookup_iff.trans ?_
    simp [entries]
  exact ⟨(looked 1).mpr rfl,fun oid => (looked oid).mp⟩

/-- An object of the application under another id leaves the Server object in its place. -/
theorem serverInPlace_set {U : Type} {c : Objects U} {oid : UInt16} (inPlace : ServerInPlace c) (other : oid ≠ 1) (object : U) :
    ServerInPlace { c with table := set c.table oid (.added object) } := by
  refine ⟨?_,?_⟩
  · exact (lookup_set _ _ _ _).trans ((if_neg (Ne.symm other)).trans inPlace.1)
  · intro o there
    have looked := (lookup_set _ _ _ _).symm.trans there
    split at looked
    · cases looked
    · exact inPlace.2 o looked

/-- The instances after a lifetime has been written to one of them, if there is one to write. -/
def writeLifetime (instances : Table UInt16 ServerInstance) (x : UInt16) (written : Option UInt32) :
    Table UInt16 ServerInstance :=
  match written with
  | some lifetime => modify instances x (fun inst => { inst with lifetime := lifetime })
  | none => instances

theorem serverInstance_writeLifetime (instances : Table UInt16 ServerInstance) (x : UInt16) (written : Option UInt32)
    (ssid : UInt16) : serverInstance (writeLifetime instances x written) ssid =
      (serverInstance instances ssid).map (fun e =>
        (e.1,{ e.2 with lifetime := (if x = e.1 then written else none).getD e.2.lifetime })) := by
  cases written with
  | none =>
    simp only [ite_self, Option.getD_none]
    exact Option.map_id'.symm
  | some lifetime =>
    have unseen (inst : ServerInstance) :
      (({ inst with lifetime := lifetime } : ServerInstance).shortServerId == ssid) = (inst.shortServerId == ssid) := rfl
    refine (findEntry_modify x unseen).trans (Option.map_congr ?_)
    intro e _
    by_cases here : x = e.1
    · rw [if_pos here, if_pos here]; rfl
    · rw [if_neg here, if_neg here]; rfl

theorem writeResource_lifetime (o : Instances ServerInstance) (x : UInt16) (v : Int64) :
    (o.writeResource (ServerInstance.writeResource 1 (.int v)) x).2.instances =
      writeLifetime o.instances x (some (narrow32 v)) := by
  simp only [Instances.writeResource, writeLifetime, Tables.modify]
  cases o.instances.lookup x with
  | none => rfl
  | some inst => rfl

theorem processWrite_lifetime (moments : Moments) (payload : Bytes) (x : UInt16) (o : ServerObject) :
    (processWrite moments ⟨1,some x,some 1,none⟩ payload o).2.store.instances =
      writeLifetime o.store.instances x (payloadLifetime payload) := by
  simp only [processWrite, payloadLifetime]
  cases Tlv.decode payload with
  | error e => rfl
  | ok records =>
    cases records with
    | nil => rfl
    | cons record records =>
      have integer : Tlv.decodeResource record.value (expectedType o x 1) =
        (Tlv.deserializeInt record.value).map .int := rfl
      simp only [ObjectPath.isResource, writeFirst, Option.getD_some]
      dsimp only [Option.isSome, Option.isNone, Bool.and_true, if_true]
      rw [integer]
      cases Tlv.deserializeInt record.value with
      | error e => rfl
      | ok v => exact writeResource_lifetime o.store x v

theorem lifetimeWritten_none {x : UInt16} {request : CoapRequest} (other : ¬ WritesLifetime x request) :
    lifetimeWritten x request = none := if_neg other

/-- The instances after a request, and the place of the Server object. -/
def ServersAfter {U : Type} (request : CoapRequest) (c after : Objects U) : Prop :=
  ServerInPlace after ∧ ∀ ssid, serverInstance after.server.store.instances ssid =
    (serverInstance c.server.store.instances ssid).map (fun e =>
      (e.1,{ e.2 with lifetime := (lifetimeWritten e.1 request).getD e.2.lifetime }))

/-- A request that writes no lifetime, and leaves the Server instances as they are. -/
theorem serversAfter_same {request : CoapRequest} {U : Type} {c after : Objects U} (inPlace : ServerInPlace after)
    (same : after.server.store.instances = c.server.store.instances) (none : ∀ x, ¬ WritesLifetime x request) :
    ServersAfter request c after := by
  refine ⟨inPlace,?_⟩
  intro ssid
  simp only [lifetimeWritten_none (none _), same, Option.getD_none]
  exact Option.map_id'.symm

/-- A request that writes no lifetime keeps the instances. -/
theorem ServersAfter.unwritten {request : CoapRequest} {U : Type} {c after : Objects U}
    (servers : ServersAfter request c after) (none : ∀ x, ¬ WritesLifetime x request) (ssid : UInt16) :
    serverInstance after.server.store.instances ssid = serverInstance c.server.store.instances ssid := by
  rw [servers.2]
  simp only [lifetimeWritten_none (none _), Option.getD_none]
  exact Option.map_id'

section
variable {U : Type} [Object U]

theorem serverInPlace_addObject {c : Objects U} (inPlace : ServerInPlace c) (object : U) (other : Object.id object ≠ 1) :
    ServerInPlace (c.addObject object) := serverInPlace_set inPlace other object

/-- A call of another object leaves the Server object alone, and in its place. -/
theorem call_other {c : Objects U} {oid : UInt16} {served : Served U} (inPlace : ServerInPlace c) (other : oid ≠ 1)
    (found : c.getObject oid = some served) {α : Type} (f : {σ : Type} → [Object σ] → σ → α × σ) :
    (c.call oid f served).2.server = c.server ∧ ServerInPlace (c.call oid f served).2 := by
  cases served with
  | server => exact absurd (inPlace.2 oid found) other
  | added object => exact ⟨rfl,serverInPlace_set inPlace other (f object).2⟩
  | _ => exact ⟨rfl,inPlace⟩

theorem handled_write (moments : Moments) {request : CoapRequest} {c : Objects U} {x : UInt16} (inPlace : ServerInPlace c)
    (put : request.method = .Put) (path : ObjectPath.parse request.uriPath = some ⟨1,some x,some 1,none⟩) :
    ServersAfter request c (handleIncomingRequest moments request c).2 := by
  have after : (handleIncomingRequest moments request c).2 =
      { c with server := (processWrite moments ⟨1,some x,some 1,none⟩ request.payload c.server).2 } := by
    simp [handleIncomingRequest, path, put, inPlace.1, Objects.call, process]
  rw [after]
  refine ⟨inPlace,?_⟩
  intro ssid
  rw [processWrite_lifetime, serverInstance_writeLifetime]
  refine Option.map_congr ?_
  intro e _
  by_cases here : x = e.1
  · rw [if_pos here, ← here, lifetimeWritten, if_pos ⟨put,path⟩]
  · rw [if_neg here, lifetimeWritten_none]
    rintro ⟨-,path'⟩
    cases path.symm.trans path'
    exact here rfl

theorem handled_trigger (moments : Moments) {request : CoapRequest} {c : Objects U} {x : UInt16}
    (inPlace : ServerInPlace c) (post : request.method = .Post)
    (path : ObjectPath.parse request.uriPath = some ⟨1,some x,some 8,none⟩) :
    ServersAfter request c (handleIncomingRequest moments request c).2 := by
  have after : (handleIncomingRequest moments request c).2 = c := by
    simp only [handleIncomingRequest, path, inPlace.1, Objects.call, process, post, reduceCtorEq, false_and, if_false]
    rfl
  rw [after]
  refine serversAfter_same inPlace rfl ?_
  intro x' writes
  cases post.symm.trans writes.1

/-- A request of the usual kind does no more to the Server object than write a lifetime. -/
theorem handled_servers (moments : Moments) {request : CoapRequest} {c : Objects U} (inPlace : ServerInPlace c)
    (usual : Usual request) : ServersAfter request c (handleIncomingRequest moments request c).2 := by
  cases parsed : ObjectPath.parse request.uriPath with
  | none =>
    have unwritten (x : UInt16) : ¬ WritesLifetime x request := fun writes => by cases parsed.symm.trans writes.2
    refine serversAfter_same ?_ ?_ unwritten
    · simpa only [handleIncomingRequest, parsed] using inPlace
    · simp only [handleIncomingRequest, parsed]
  | some path =>
    by_cases server : path.objectId = 1
    · obtain ⟨x,⟨put,path'⟩ | ⟨post,path'⟩⟩ := usual path parsed server
      · exact handled_write moments inPlace put path'
      · exact handled_trigger moments inPlace post path'
    · have unwritten (x : UInt16) : ¬ WritesLifetime x request := by
        rintro ⟨-,path'⟩
        cases parsed.symm.trans path'
        exact server rfl
      have kept : (handleIncomingRequest moments request c).2.server = c.server ∧
          ServerInPlace (handleIncomingRequest moments request c).2 := by
        simp only [handleIncomingRequest, parsed]
        split
        · exact ⟨rfl,inPlace⟩
        · split
          · exact ⟨rfl,inPlace⟩
          · next found => exact call_other inPlace server found _
      exact serversAfter_same kept.2 (by rw [kept.1]) unwritten

/-- Only a POST triggers an update. -/
theorem handled_triggers {moments : Moments} {request : CoapRequest} {c : Objects U} {target : UInt16}
    (triggered : (handleIncomingRequest moments request c).1.2 = some target) (x : UInt16) : ¬ WritesLifetime x request := by
  rintro ⟨put,path⟩
  have silent : (handleIncomingRequest moments request c).1.2 = none := by
    simp only [handleIncomingRequest, path, put, reduceCtorEq, false_and, if_false]
    cases c.getObject 1 with
    | none => rfl
    | some served =>
      refine c.call_forall 1 served (f := fun o => process moments request ⟨1,some x,some 1,none⟩ o)
        (P := fun a => a.2 = none) (fun o => ?_)
      simp only [process, put]
  cases silent.symm.trans triggered

end

end Ferriot
