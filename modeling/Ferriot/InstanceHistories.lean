import Ferriot.RefusedRequests
import Ferriot.Histories
import Ferriot.Runs

/-!
# Histories of instances

The Security and the Server object create, delete and write instances by id. Whatever
comes in between, an instance is what its own history says: the creation that it goes
back to, and the accepted writes to it since.
-/
namespace Ferriot
open Tables Runs Histories

/-- An operation on an object with instances. -/
inductive InstanceOperation (α : Type) where
  | createInstance (suggested : Option UInt16)
  | addServer (config : α)
  | deleteInstance (iid : UInt16)
  | writeResource (env : Env) (iid rid : UInt16) (riid : Option UInt16) (value : ResourceValue)
  | readResource (env : Env) (iid rid : UInt16) (riid : Option UInt16)
  | executeResource (env : Env) (iid rid : UInt16) (arguments : Bytes)

/-- What an operation returns. -/
inductive InstanceAnswer where
  | instanceId (result : Result UInt16)
  | unit (result : Result Unit)
  | value (result : Result ResourceValue)

def InstanceAnswer.Rejected : InstanceAnswer → Prop
  | .instanceId result => ∃ e, result = .error e
  | .unit result => ∃ e, result = .error e
  | .value result => ∃ e, result = .error e

/-- An object whose instances are in a store. -/
class HoldsInstances (σ : Type) (α : outParam Type) [Object σ] where
  store : σ → Instances α
  withStore : σ → Instances α → σ
  fresh : α
  /-- `write_resource` on one instance. -/
  write : UInt16 → ResourceValue → α → Result α
  addServer : σ → α → Result UInt16 × σ
  store_withStore (o : σ) (s : Instances α) : store (withStore o s) = s
  withStore_store (o : σ) : withStore o (store o) = o
  listInstances_eq (o : σ) : Object.listInstances o = (store o).listInstances
  createInstance_eq (o : σ) (suggested : Option UInt16) :
    Object.createInstance o suggested = ((store o).createInstance fresh suggested).map id (withStore o)
  addServer_eq (o : σ) (config : α) : addServer o config = ((store o).addServer fresh config).map id (withStore o)
  deleteInstance_eq (o : σ) (iid : UInt16) :
    Object.deleteInstance o iid = ((store o).deleteInstance iid).map id (withStore o)
  writeResource_eq (env : Env) (o : σ) (iid rid : UInt16) (riid : Option UInt16) (value : ResourceValue) :
    Object.writeResource env o iid rid riid value = ((store o).writeResource (write rid value) iid).map id (withStore o)
  readResource_same (env : Env) (o : σ) (iid rid : UInt16) (riid : Option UInt16) :
    (Object.readResource env o iid rid riid).2 = o
  executeResource_same (env : Env) (o : σ) (iid rid : UInt16) (arguments : Bytes) :
    (Object.executeResource env o iid rid arguments).2.1 = o

instance : HoldsInstances SecurityObject SecurityInstance where
  store := id
  withStore _ s := s
  fresh := {}
  write := SecurityInstance.writeResource
  addServer := SecurityObject.addServer
  store_withStore _ _ := rfl
  withStore_store _ := rfl
  listInstances_eq _ := rfl
  createInstance_eq _ _ := rfl
  addServer_eq _ _ := rfl
  deleteInstance_eq _ _ := rfl
  writeResource_eq _ _ _ _ _ _ := rfl
  readResource_same _ _ _ _ _ := rfl
  executeResource_same _ _ _ _ _ := rfl

instance : HoldsInstances ServerObject ServerInstance where
  store := ServerObject.store
  withStore o s := { o with store := s }
  fresh := {}
  write := ServerInstance.writeResource
  addServer := ServerObject.addServer
  store_withStore _ _ := rfl
  withStore_store _ := rfl
  listInstances_eq _ := rfl
  createInstance_eq _ _ := rfl
  addServer_eq _ _ := rfl
  deleteInstance_eq _ _ := rfl
  writeResource_eq _ _ _ _ _ _ := rfl
  readResource_same _ _ _ _ _ := rfl
  executeResource_same _ _ _ _ _ := rfl

namespace Instances
variable {α : Type}

/-- The id is in use, or a new instance gets it. -/
theorem createInstance_cases (fresh : α) (s : Instances α) (suggested : Option UInt16) :
    suggested.getD s.nextInstanceId ∈ s.instances ∧
        createInstance fresh s suggested = (err .BadRequest "Instance already exists",s) ∨
      suggested.getD s.nextInstanceId ∉ s.instances ∧ ∃ after, createInstance fresh s suggested =
          (.ok (suggested.getD s.nextInstanceId),after) ∧
        (∀ iid, after.instances.lookup iid =
          if iid = suggested.getD s.nextInstanceId then some fresh else s.instances.lookup iid) ∧
        after.nextInstanceId = if s.nextInstanceId ≤ suggested.getD s.nextInstanceId then suggested.getD s.nextInstanceId + 1
          else s.nextInstanceId := by
  unfold createInstance
  by_cases taken : suggested.getD s.nextInstanceId ∈ s.instances
  · exact .inl ⟨taken,if_pos taken⟩
  · exact .inr ⟨taken,_,if_neg taken,fun iid => lookup_set s.instances _ iid fresh,rfl⟩

/-- `add_server` creates the instance under the next id, and puts the configuration in it. -/
theorem addServer_cases (fresh : α) (s : Instances α) (config : α) :
    s.nextInstanceId ∈ s.instances ∧ addServer fresh s config = (err .BadRequest "Instance already exists",s) ∨
      s.nextInstanceId ∉ s.instances ∧ ∃ after, addServer fresh s config = (.ok s.nextInstanceId,after) ∧
        (∀ iid, after.instances.lookup iid = if iid = s.nextInstanceId then some config else s.instances.lookup iid) ∧
        after.nextInstanceId = s.nextInstanceId + 1 := by
  unfold addServer
  rcases createInstance_cases fresh s none with ⟨taken,refused⟩ | ⟨free,created,done,lookup,next⟩
  · rw [refused]
    exact .inl ⟨taken,rfl⟩
  · rw [done]
    refine .inr ⟨free,_,rfl,?_,next.trans (if_pos (UInt16.le_refl _))⟩
    intro iid
    show (set created.instances s.nextInstanceId config).lookup iid = _
    rw [lookup_set, lookup]
    dsimp only [Option.getD_none]
    split
    · rfl
    · rfl

theorem deleteInstance_cases (s : Instances α) (iid : UInt16) :
    iid ∉ s.instances ∧ deleteInstance s iid = (err .NotFound "Instance not found",s) ∨
      iid ∈ s.instances ∧ deleteInstance s iid = (.ok (),{ s with instances := s.instances.erase iid }) := by
  unfold deleteInstance
  by_cases there : iid ∈ s.instances
  · exact .inr ⟨there,if_pos there⟩
  · exact .inl ⟨there,if_neg there⟩

theorem lookup_erase (s : Instances α) (iid other : UInt16) :
    (s.instances.erase iid).lookup other = if other = iid then none else s.instances.lookup other := by
  by_cases same : other = iid
  · rw [if_pos same, same]
    exact AList.lookup_erase iid s.instances
  · rw [if_neg same]
    exact AList.lookup_erase_ne same

/-- A write is refused, or changes the instance that it is addressed to. -/
theorem writeResource_cases (write : α → Result α) (s : Instances α) (iid : UInt16) :
    (∃ e, writeResource write s iid = (.error e,s)) ∨
      ∃ old new, s.instances.lookup iid = some old ∧ write old = .ok new ∧
        writeResource write s iid = (.ok (),{ s with instances := s.instances.replace iid new }) := by
  unfold writeResource
  cases found : s.instances.lookup iid with
  | none => exact .inl ⟨_,rfl⟩
  | some old =>
    cases written : write old with
    | error e => exact .inl ⟨e,by simp only [written]⟩
    | ok new => exact .inr ⟨old,new,rfl,written,by simp only [written]⟩

theorem lookup_written {s : Instances α} {iid : UInt16} {old : α} (found : s.instances.lookup iid = some old) (new : α)
    (other : UInt16) :
    (s.instances.replace iid new).lookup other = if other = iid then some new else s.instances.lookup other := by
  by_cases same : other = iid
  · rw [if_pos same, same]
    exact lookup_replace (AList.lookup_isSome.mp (by rw [found]; rfl)) new
  · rw [if_neg same]
    exact lookup_replace_ne s.instances same new

end Instances

/-- What happens to an instance: a change is a resource and the value written to it. -/
abbrev InstanceEvent (α : Type) := Event UInt16 α (UInt16 × ResourceValue)

namespace HoldsInstances
variable {σ α : Type} [Object σ] [HoldsInstances σ α]

def perform (o : σ) : InstanceOperation α → InstanceAnswer × σ
  | .createInstance suggested => (Object.createInstance o suggested).map .instanceId id
  | .addServer config => (addServer o config).map .instanceId id
  | .deleteInstance iid => (Object.deleteInstance o iid).map .unit id
  | .writeResource env iid rid riid value => (Object.writeResource env o iid rid riid value).map .unit id
  | .readResource env iid rid riid => (Object.readResource env o iid rid riid).map .value id
  | .executeResource env iid rid arguments => (Object.executeResource env o iid rid arguments).map .unit Prod.fst

/-- An accepted write of a value to a resource. -/
def written (σ : Type) [Object σ] [HoldsInstances σ α] (change : UInt16 × ResourceValue) (inst : α) : α :=
  (write σ change.1 change.2 inst).toOption.getD inst

/-- What an operation that is accepted means to an instance. -/
def event (σ : Type) [Object σ] [HoldsInstances σ α] : InstanceOperation α → InstanceAnswer → Option (InstanceEvent α)
  | .createInstance _, .instanceId (.ok iid) => some (.created iid (fresh σ))
  | .addServer config, .instanceId (.ok iid) => some (.created iid config)
  | .deleteInstance iid, .unit (.ok _) => some (.deleted iid)
  | .writeResource _ iid rid _ value, .unit (.ok _) => some (.changed iid (rid,value))
  | _, _ => none

/-- An object and its history, after an operation. -/
def record (s : σ × List (InstanceEvent α)) (operation : InstanceOperation α) : σ × List (InstanceEvent α) :=
  ((perform s.1 operation).2,(event σ operation (perform s.1 operation).1).toList ++ s.2)

def RecordStep (s : σ × List (InstanceEvent α)) (operation : InstanceOperation α) (t : σ × List (InstanceEvent α)) : Prop :=
  t = record s operation

/-- The store follows its history, whatever the operation. -/
theorem follows_record {o : σ} {history : List (InstanceEvent α)}
    (follows : Follows (written σ) (store o).instances.lookup history) (operation : InstanceOperation α) :
    Follows (written σ) (store (record (o,history) operation).1).instances.lookup (record (o,history) operation).2 := by
  cases operation with
  | createInstance suggested =>
    simp only [record, perform, createInstance_eq, Prod.map_fst, Prod.map_snd, store_withStore, id]
    rcases (store o).createInstance_cases (fresh σ) suggested with ⟨-,refused⟩ | ⟨-,after,done,lookup,-⟩
    · rw [refused]
      exact follows
    · rw [done]
      exact follows.created lookup
  | addServer config =>
    simp only [record, perform, addServer_eq, Prod.map_fst, Prod.map_snd, store_withStore, id]
    rcases (store o).addServer_cases (fresh σ) config with ⟨-,refused⟩ | ⟨-,after,done,lookup,-⟩
    · rw [refused]
      exact follows
    · rw [done]
      exact follows.created lookup
  | deleteInstance iid =>
    simp only [record, perform, deleteInstance_eq, Prod.map_fst, Prod.map_snd, store_withStore, id]
    rcases (store o).deleteInstance_cases iid with ⟨-,refused⟩ | ⟨-,done⟩
    · rw [refused]
      exact follows
    · rw [done]
      exact follows.deleted ((store o).lookup_erase iid)
  | writeResource env iid rid riid value =>
    simp only [record, perform, writeResource_eq, Prod.map_fst, Prod.map_snd, store_withStore, id]
    rcases (store o).writeResource_cases (write σ rid value) iid with ⟨e,refused⟩ | ⟨old,new,found,accepted,done⟩
    · rw [refused]
      exact follows
    · rw [done]
      have changed : written σ (rid,value) old = new := by
        unfold written
        rw [accepted]
        rfl
      refine follows.changed found ?_
      rw [changed]
      exact Instances.lookup_written found new
  | readResource env iid rid riid =>
    simp only [record, perform, Prod.map_fst, Prod.map_snd, id, readResource_same]
    exact follows
  | executeResource env iid rid arguments =>
    simp only [record, perform, Prod.map_fst, Prod.map_snd, executeResource_same]
    exact follows

/-- An operation that is rejected leaves the object as it was. -/
theorem perform_rejected (o : σ) (operation : InstanceOperation α) (rejected : (perform o operation).1.Rejected) :
    (perform o operation).2 = o := by
  cases operation with
  | createInstance suggested =>
    simp only [perform, createInstance_eq, Prod.map_fst, Prod.map_snd, id] at rejected ⊢
    obtain ⟨e,fails⟩ := rejected
    rw [Instances.createInstance_clean (fresh σ) (store o) suggested e fails, withStore_store]
  | addServer config =>
    simp only [perform, addServer_eq, Prod.map_fst, Prod.map_snd, id] at rejected ⊢
    rcases (store o).addServer_cases (fresh σ) config with ⟨-,refused⟩ | ⟨-,after,done,-⟩
    · rw [refused]
      exact withStore_store o
    · rw [done] at rejected
      obtain ⟨e,⟨⟩⟩ := rejected
  | deleteInstance iid =>
    simp only [perform, deleteInstance_eq, Prod.map_fst, Prod.map_snd, id] at rejected ⊢
    obtain ⟨e,fails⟩ := rejected
    rw [Instances.deleteInstance_clean (store o) iid e fails, withStore_store]
  | writeResource env iid rid riid value =>
    simp only [perform, writeResource_eq, Prod.map_fst, Prod.map_snd, id] at rejected ⊢
    obtain ⟨e,fails⟩ := rejected
    rw [Instances.writeResource_clean (write σ rid value) (store o) iid e fails, withStore_store]
  | readResource env iid rid riid => exact readResource_same env o iid rid riid
  | executeResource env iid rid arguments => exact executeResource_same env o iid rid arguments

/-- The instances are those that the history leaves, each with the value that it leaves, and an
    operation that is rejected changes nothing. -/
structure KeptApart (o : σ) (history : List (InstanceEvent α)) : Prop where
  listed : (Object.listInstances o).Nodup
  live : ∀ iid, iid ∈ Object.listInstances o ↔ ∃ initial changes, Lives iid history initial changes
  held : ∀ iid inst, (store o).getInstance iid = some inst ↔ Holds (written σ) iid history inst
  rejected : ∀ operation, (perform o operation).1.Rejected → (perform o operation).2 = o

theorem keptApart_run {o u : σ} {history : List (InstanceEvent α)} {operations : List (InstanceOperation α)}
    (new : store o = {}) (run : Run RecordStep (o,[]) operations (u,history)) : KeptApart u history := by
  have start : Follows (written σ) (store o).instances.lookup [] := by
    rw [new]
    exact follows_nil (fun _ => rfl)
  have keep : ∀ (s : σ × List (InstanceEvent α)) operation t, Follows (written σ) (store s.1).instances.lookup s.2 →
      RecordStep s operation t → Follows (written σ) (store t.1).instances.lookup t.2 := by
    rintro s operation t before rfl
    exact follows_record before operation
  have follows : Follows (written σ) (store u).instances.lookup history := run.keeps keep start
  refine ⟨?_,?_,follows,perform_rejected u⟩
  · rw [listInstances_eq]
    exact (store u).instances.keys_nodup
  · intro iid
    rw [listInstances_eq, ← follows.isSome_iff, AList.lookup_isSome]
    exact Iff.rfl

end HoldsInstances

open HoldsInstances

/-- In every run of a new Security or Server object, the instances do not interfere. -/
theorem instances_run :
    (∀ (o u : SecurityObject) (history : List (InstanceEvent SecurityInstance)) (operations : List (InstanceOperation SecurityInstance)),
      o = {} → Run RecordStep (o,[]) operations (u,history) → KeptApart u history) ∧
    ∀ (o u : ServerObject) (history : List (InstanceEvent ServerInstance)) (operations : List (InstanceOperation ServerInstance)),
      o.store = {} → Run RecordStep (o,[]) operations (u,history) → KeptApart u history :=
  ⟨fun o _ _ _ => keptApart_run (o := o),fun o _ _ _ => keptApart_run (o := o)⟩

theorem run_record {σ α : Type} [Object σ] [HoldsInstances σ α] (o : σ) (operations : List (InstanceOperation α)) :
    Run RecordStep (o,[]) operations (operations.foldl record (o,[])) := by
  have records (s : σ × List (InstanceEvent α)) (operation : InstanceOperation α) :
      RecordStep s operation (record s operation) := rfl
  exact run_foldl records (o,[]) operations

/-- An id is given out again after a deletion, a creation of an id in use is refused, and one instance is written. -/
def reused {α : Type} (config : α) (rid : UInt16) (value : ResourceValue) : List (InstanceOperation α) :=
  [.createInstance none, .addServer config, .deleteInstance 0, .createInstance (some 1), .createInstance (some 0),
    .writeResource {} 1 rid none value, .readResource {} 0 rid none, .executeResource {} 1 8 []]

/-- The accounts of one server, with a Security and a Server object. -/
theorem instances_run_reused :
    let security := (reused { shortServerId := 7 } 0 (.string (lit ['s']))).foldl record (({} : SecurityObject),[])
    let server := (reused { shortServerId := 7 } 1 (.int 60)).foldl record (({} : ServerObject),[])
    KeptApart security.1 security.2 ∧ security.1.getInstance 1 = some { shortServerId := 7, serverUri := lit ['s'] } ∧
      KeptApart server.1 server.2 ∧ server.1.store.getInstance 1 = some { shortServerId := 7, lifetime := 60 } ∧
        server.1.store.getInstance 0 = some {} :=
  ⟨instances_run.1 {} _ _ _ rfl (run_record _ _),by decide +kernel,instances_run.2 {} _ _ _ rfl (run_record _ _),
    by decide +kernel,by decide +kernel⟩

end Ferriot
