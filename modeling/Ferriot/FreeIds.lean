import Ferriot.InstanceHistories

/-!
# Free instance ids

`create_instance` without an id takes the next one, a 16-bit counter that an id from it on
moves past itself. While no instance has the last of all ids, every id in use is before
the counter; past it the counter starts over, among ids that may be in use.
-/
namespace Ferriot
open Runs HoldsInstances

namespace Instances
variable {α : Type}

/-- The next id is free, or no id is. -/
def NextFree (s : Instances α) : Prop := s.nextInstanceId ∉ s.instances ∨ ∀ iid, iid ∈ s.instances

/-- A new instance with the id leaves a free id to be next, or takes the last free one, or does
    not move the counter. -/
def LeavesFree (s : Instances α) (iid : UInt16) : Prop :=
  iid ∉ s.instances → s.nextInstanceId ≤ iid → iid + 1 ∉ s.instances ∨ ∀ other, other ≠ iid → other ∈ s.instances

theorem succ_ne (iid : UInt16) : iid + 1 ≠ iid := by
  intro same
  have word := congrArg UInt16.toNat same
  have bound := iid.toNat_lt
  rw [UInt16.toNat_add] at word
  have one : (1 : UInt16).toNat = 1 := rfl
  omega

theorem mem_created {s after : Instances α} {iid : UInt16} {initial : α}
    (lookup : ∀ other, after.instances.lookup other = if other = iid then some initial else s.instances.lookup other)
    (other : UInt16) : other ∈ after.instances ↔ other = iid ∨ other ∈ s.instances := by
  rw [← AList.lookup_isSome, ← AList.lookup_isSome, lookup]
  by_cases same : other = iid
  · simp [same]
  · simp [same]

theorem nextFree_created {s after : Instances α} {iid : UInt16} {initial : α} (nextFree : s.NextFree) (free : iid ∉ s.instances)
    (lookup : ∀ other, after.instances.lookup other = if other = iid then some initial else s.instances.lookup other)
    (next : after.nextInstanceId = if s.nextInstanceId ≤ iid then iid + 1 else s.nextInstanceId) :
    after.NextFree ↔ s.LeavesFree iid := by
  have full : (∀ other, other ∈ after.instances) ↔ ∀ other, other ≠ iid → other ∈ s.instances := by
    simp only [mem_created lookup]
    exact forall_congr' fun other => or_iff_not_imp_left
  unfold NextFree LeavesFree
  rw [full, mem_created lookup, not_or, next]
  by_cases from_next : s.nextInstanceId ≤ iid
  · rw [if_pos from_next]
    constructor
    · rintro (⟨-,unused⟩ | all) _ _
      · exact .inl unused
      · exact .inr all
    · intro leaves
      exact (leaves free from_next).imp_left fun unused => ⟨succ_ne iid,unused⟩
  · rw [if_neg from_next]
    refine iff_of_true (.inl ⟨?_,?_⟩) (fun _ le => absurd le from_next)
    · intro same
      exact from_next (same ▸ UInt16.le_refl _)
    · exact nextFree.resolve_right fun all => free (all iid)

theorem nextFree_deleted {s : Instances α} {iid : UInt16} (nextFree : s.NextFree) :
    NextFree { s with instances := s.instances.erase iid } ↔ ((∀ other, other ∈ s.instances) → iid = s.nextInstanceId) := by
  have some : ¬ ∀ other, other ∈ s.instances.erase iid := by
    intro all
    exact ((AList.mem_erase).mp (all iid)).1 rfl
  show s.nextInstanceId ∉ s.instances.erase iid ∨ (∀ other, other ∈ s.instances.erase iid) ↔ _
  rw [or_iff_left some, AList.mem_erase, not_and]
  constructor
  · intro gone all
    by_contra other
    exact gone (Ne.symm other) (all _)
  · intro last other inside
    rcases nextFree with free | all
    · exact free inside
    · exact other (last all).symm

end Instances

namespace HoldsInstances
variable {σ α : Type} [Object σ] [HoldsInstances σ α]

/-- As long as an id is free, an instance is created under a free id when none is asked for. -/
def FindsFree (o : σ) : Prop :=
  (∃ iid, iid ∉ (store o).instances) → ∃ iid, (Object.createInstance o none).1 = .ok iid ∧ iid ∉ (store o).instances

theorem findsFree_iff (o : σ) : FindsFree o ↔ (store o).NextFree := by
  unfold FindsFree Instances.NextFree
  rw [createInstance_eq, ← not_forall]
  rcases (store o).createInstance_cases (fresh σ) none with ⟨taken,refused⟩ | ⟨free,after,done,-⟩
  · rw [refused]
    constructor
    · intro finds
      right
      by_contra some
      obtain ⟨iid,⟨⟩,-⟩ := finds some
    · rintro (unused | all) some
      · exact absurd taken unused
      · exact absurd all some
  · rw [done]
    exact iff_of_true (fun _ => ⟨_,rfl,free⟩) (.inl free)

/-- The object after an operation. -/
def advance (o : σ) (operation : InstanceOperation α) : Option σ := some (perform o operation).2

/-- A creation from the counter on leaves a free id to be next, or takes the last free one; a
    deletion, when every id is in use, frees the next one. -/
def KeepsFree (o : σ) : InstanceOperation α → Prop
  | .createInstance suggested => (store o).LeavesFree (suggested.getD (store o).nextInstanceId)
  | .addServer _ => (store o).LeavesFree (store o).nextInstanceId
  | .deleteInstance iid => (∀ other, other ∈ (store o).instances) → iid = (store o).nextInstanceId
  | _ => True

/-- The operation creates no instance with the last id. -/
def AvoidsLast (o : σ) : InstanceOperation α → Prop
  | .createInstance suggested => suggested.getD (store o).nextInstanceId ≠ 65535
  | .addServer _ => (store o).nextInstanceId ≠ 65535
  | _ => True

/-- What an operation does to the ids in use: nothing, or it takes a free one, or it frees one. -/
theorem perform_cases (o : σ) (operation : InstanceOperation α) :
    ((∀ iid, iid ∈ (store (perform o operation).2).instances ↔ iid ∈ (store o).instances) ∧
        (store (perform o operation).2).nextInstanceId = (store o).nextInstanceId ∧ KeepsFree o operation) ∨
      (∃ iid initial, iid ∉ (store o).instances ∧
        (∀ other, (store (perform o operation).2).instances.lookup other =
          if other = iid then some initial else (store o).instances.lookup other) ∧
        (store (perform o operation).2).nextInstanceId =
          (if (store o).nextInstanceId ≤ iid then iid + 1 else (store o).nextInstanceId) ∧
        (KeepsFree o operation ↔ (store o).LeavesFree iid) ∧ (AvoidsLast o operation → iid ≠ 65535)) ∨
      ∃ iid, store (perform o operation).2 = { store o with instances := (store o).instances.erase iid } ∧
        (KeepsFree o operation ↔ ((∀ other, other ∈ (store o).instances) → iid = (store o).nextInstanceId)) := by
  cases operation with
  | createInstance suggested =>
    simp only [perform, createInstance_eq, Prod.map_snd, store_withStore, id]
    rcases (store o).createInstance_cases (fresh σ) suggested with ⟨taken,refused⟩ | ⟨free,after,done,lookup,next⟩
    · rw [refused]
      exact .inl ⟨fun _ => Iff.rfl,rfl,fun free => absurd taken free⟩
    · rw [done]
      exact .inr (.inl ⟨_,_,free,lookup,next,Iff.rfl,id⟩)
  | addServer config =>
    simp only [perform, addServer_eq, Prod.map_snd, store_withStore, id]
    rcases (store o).addServer_cases (fresh σ) config with ⟨taken,refused⟩ | ⟨free,after,done,lookup,next⟩
    · rw [refused]
      exact .inl ⟨fun _ => Iff.rfl,rfl,fun free => absurd taken free⟩
    · rw [done]
      exact .inr (.inl ⟨_,_,free,lookup,next.trans (if_pos (UInt16.le_refl _)).symm,Iff.rfl,id⟩)
  | deleteInstance iid =>
    simp only [perform, deleteInstance_eq, Prod.map_snd, store_withStore, id]
    rcases (store o).deleteInstance_cases iid with ⟨absent,refused⟩ | ⟨-,done⟩
    · rw [refused]
      exact .inl ⟨fun _ => Iff.rfl,rfl,fun all => absurd (all iid) absent⟩
    · rw [done]
      exact .inr (.inr ⟨iid,rfl,Iff.rfl⟩)
  | writeResource env iid rid riid value =>
    simp only [perform, writeResource_eq, Prod.map_snd, store_withStore, id]
    rcases (store o).writeResource_cases (write σ rid value) iid with ⟨e,refused⟩ | ⟨old,new,found,accepted,done⟩
    · rw [refused]
      exact .inl ⟨fun _ => Iff.rfl,rfl,trivial⟩
    · rw [done]
      exact .inl ⟨fun _ => AList.mem_replace,rfl,trivial⟩
  | readResource env iid rid riid =>
    have same : (perform o (.readResource env iid rid riid)).2 = o := readResource_same env o iid rid riid
    rw [same]
    exact .inl ⟨fun _ => Iff.rfl,rfl,trivial⟩
  | executeResource env iid rid arguments =>
    have same : (perform o (.executeResource env iid rid arguments)).2 = o := executeResource_same env o iid rid arguments
    rw [same]
    exact .inl ⟨fun _ => Iff.rfl,rfl,trivial⟩

theorem nextFree_perform (o : σ) (nextFree : (store o).NextFree) (operation : InstanceOperation α) :
    (store (perform o operation).2).NextFree ↔ KeepsFree o operation := by
  rcases perform_cases o operation with ⟨same,next,keeps⟩ | ⟨iid,initial,free,lookup,next,keeps,-⟩ | ⟨iid,deleted,keeps⟩
  · refine iff_of_true ?_ keeps
    unfold Instances.NextFree at nextFree ⊢
    simpa only [same, next] using nextFree
  · rw [keeps]
    exact Instances.nextFree_created nextFree free lookup next
  · rw [keeps, deleted]
    exact Instances.nextFree_deleted nextFree

theorem findsFree_run {o u : σ} {operations : List (InstanceOperation α)} (new : store o = {})
    (ran : runPartial advance o operations = some u) :
    Always advance FindsFree o operations ↔
      Run (Guarded KeepsFree (fun o operation u => advance o operation = some u)) o operations u := by
  refine always_iff_guarded ?_ ran ?_
  · rintro s operation t finds ⟨⟩
    rw [findsFree_iff] at finds ⊢
    exact nextFree_perform s finds operation
  · rw [findsFree_iff, new]
    exact .inl (AList.notMem_empty _)

/-- Every id in use is before the next one. -/
def BeforeNext (o : σ) : Prop := ∀ iid ∈ (store o).instances, iid < (store o).nextInstanceId

end HoldsInstances

namespace Instances
variable {α : Type}

theorem lt_succ {iid : UInt16} (other : iid ≠ 65535) {before : UInt16} (le : before ≤ iid) : before < iid + 1 := by
  have bound := iid.toNat_lt
  have differs : iid.toNat ≠ 65535 := fun same => other (UInt16.toNat_inj.mp same)
  have one : (1 : UInt16).toNat = 1 := rfl
  rw [UInt16.le_iff_toNat_le] at le
  rw [UInt16.lt_iff_toNat_lt, UInt16.toNat_add]
  omega

theorem before_created {s after : Instances α} {iid : UInt16} {initial : α} (before : ∀ other ∈ s.instances, other < s.nextInstanceId)
    (last : iid ≠ 65535)
    (lookup : ∀ other, after.instances.lookup other = if other = iid then some initial else s.instances.lookup other)
    (next : after.nextInstanceId = if s.nextInstanceId ≤ iid then iid + 1 else s.nextInstanceId) :
    ∀ other ∈ after.instances, other < after.nextInstanceId := by
  intro other inside
  rw [next]
  by_cases from_next : s.nextInstanceId ≤ iid
  · rw [if_pos from_next]
    rcases (mem_created lookup other).mp inside with rfl | old
    · exact lt_succ last (UInt16.le_refl _)
    · exact lt_succ last (UInt16.le_of_lt (UInt16.lt_of_lt_of_le (before other old) from_next))
  · rw [if_neg from_next]
    rcases (mem_created lookup other).mp inside with rfl | old
    · exact UInt16.not_le.mp from_next
    · exact before other old

end Instances

namespace HoldsInstances
variable {σ α : Type} [Object σ] [HoldsInstances σ α]

theorem beforeNext_perform {o : σ} (before : BeforeNext o) {operation : InstanceOperation α} (avoids : AvoidsLast o operation) :
    BeforeNext (perform o operation).2 := by
  unfold BeforeNext at before ⊢
  rcases perform_cases o operation with ⟨same,next,-⟩ | ⟨iid,initial,-,lookup,next,-,last⟩ | ⟨iid,deleted,-⟩
  · intro other inside
    rw [next]
    exact before other ((same other).mp inside)
  · exact Instances.before_created before (last avoids) lookup next
  · rw [deleted]
    intro other inside
    exact before other (AList.mem_erase.mp inside).2

/-- A free id is found after every run that creates no instance with the last id. -/
theorem findsFree_avoiding {o u : σ} {operations : List (InstanceOperation α)} (new : store o = {})
    (run : Run (Guarded AvoidsLast (fun o operation u => advance o operation = some u)) o operations u) : FindsFree u := by
  have start : BeforeNext o := by
    unfold BeforeNext
    rw [new]
    exact fun iid inside => absurd inside (AList.notMem_empty iid)
  have before : BeforeNext u := by
    refine run.keeps ?_ start
    rintro s operation t before ⟨avoids,⟨⟩⟩
    exact beforeNext_perform before avoids
  exact (findsFree_iff u).mpr (.inl fun inside => UInt16.lt_irrefl _ (before _ inside))

end HoldsInstances

/-- In every run of a new Security or Server object, free ids are found all along exactly if every
    operation of the run keeps it so. -/
theorem freeIds_run (o u : SecurityObject) (operations : List (InstanceOperation SecurityInstance)) (p v : ServerObject)
    (serverOperations : List (InstanceOperation ServerInstance)) :
    (o = {} → runPartial advance o operations = some u →
      (Always advance FindsFree o operations ↔
        Run (Guarded KeepsFree (fun o operation u => advance o operation = some u)) o operations u)) ∧
    (p.store = {} → runPartial advance p serverOperations = some v →
      (Always advance FindsFree p serverOperations ↔
        Run (Guarded KeepsFree (fun p operation v => advance p operation = some v)) p serverOperations v)) :=
  ⟨findsFree_run (o := o),findsFree_run (o := p)⟩

/-- The ids 0 and 65535 are taken, one after the other. -/
def wrapped {α : Type} : List (InstanceOperation α) := [.createInstance none, .createInstance (some 65535)]

theorem freeIds_wrapped :
    (∃ u, runPartial advance ({} : SecurityObject) wrapped = some u ∧ (Always advance FindsFree ({} : SecurityObject) wrapped ↔
      Run (Guarded KeepsFree (fun o operation u => advance o operation = some u)) ({} : SecurityObject) wrapped u)) ∧
    ∃ u, runPartial advance ({} : ServerObject) wrapped = some u ∧ (Always advance FindsFree ({} : ServerObject) wrapped ↔
      Run (Guarded KeepsFree (fun o operation u => advance o operation = some u)) ({} : ServerObject) wrapped u) :=
  ⟨⟨_,rfl,(freeIds_run {} _ wrapped {} {} []).1 rfl rfl⟩,⟨_,rfl,(freeIds_run {} {} [] {} _ wrapped).2 rfl rfl⟩⟩

/-- Then no instance can be created, though 65534 ids are free. -/
theorem wrapped_refused :
    (∃ u, runPartial advance ({} : SecurityObject) wrapped = some u ∧ (1 : UInt16) ∉ u.instances ∧
      (Object.createInstance u none).1 = err .BadRequest "Instance already exists" ∧ ¬ FindsFree u) ∧
    ∃ u, runPartial advance ({} : ServerObject) wrapped = some u ∧ (1 : UInt16) ∉ u.store.instances ∧
      (Object.createInstance u none).1 = err .BadRequest "Instance already exists" ∧ ¬ FindsFree u := by
  refine ⟨⟨_,rfl,by decide,rfl,?_⟩,⟨_,rfl,by decide,rfl,?_⟩⟩
  · intro finds
    obtain ⟨iid,⟨⟩,-⟩ := finds ⟨1,by decide⟩
  · intro finds
    obtain ⟨iid,⟨⟩,-⟩ := finds ⟨1,by decide⟩

end Ferriot
