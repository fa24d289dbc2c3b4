import Ferriot.Bystanders
import Ferriot.Overwriting
import Ferriot.WriteBack

/-!
# Requests that come again

A PUT on an instance or a resource, or a DELETE, that comes more than once is as if only
the last had come, whatever requests of these kinds come in between. The firmware object
is the exception: there a write starts a download or a verification.
-/
namespace Ferriot
open Tables Overwriting

/-- What a request may do to an object: a write to one of its resources, or the deletion of an instance. -/
inductive Change where
  | write (iid rid : UInt16) (riid : Option UInt16) (value : ResourceValue)
  | delete (iid : UInt16)

def Change.iid : Change → UInt16
  | .write iid _ _ _ => iid
  | .delete iid => iid

def Change.apply {σ : Type} [Object σ] (env : Env) : Change → σ → σ
  | .write iid rid riid value, o => (Object.writeResource env o iid rid riid value).2
  | .delete iid, o => (Object.deleteInstance o iid).2

/-- An object whose writes and deletions overwrite: they take no account of the moment, nor of what
    the object holds. -/
class Overwritten (σ : Type) [Object σ] : Prop where
  types (o o' : σ) : Object.getResourceType o = Object.getResourceType o'
  timeless (env env' : Env) (change : Change) (o : σ) : change.apply env o = change.apply env' o
  overwrites : Overwrites (Change.apply {} : Change → σ → σ)

/-- The instance after a write, which may be refused. -/
def keep {α : Type} (write : UInt16 → ResourceValue → α → Result α) (resource : UInt16 × ResourceValue) (inst : α) : α :=
  match write resource.1 resource.2 inst with
  | .ok inst => inst
  | .error _ => inst

/-- A write to a resource that one alternative is stored in leaves or puts each thing that is shown. -/
theorem keep_typed {α β V : Type} {write : UInt16 → ResourceValue → α → Result α} {rid : UInt16} {value : ResourceValue}
    {alternative : ResourceValue → Option β} {store : β → α → α}
    (typed : ∀ inst, write rid value inst = writeTyped alternative (fun v => store v inst) value) (shown : α → V)
    (stores : ∀ v, (∀ inst, shown (store v inst) = shown inst) ∨ ∀ inst inst', shown (store v inst) = shown (store v inst')) :
    (∀ inst, shown (keep write (rid,value) inst) = shown inst) ∨
      ∀ inst inst', shown (keep write (rid,value) inst) = shown (keep write (rid,value) inst') := by
  cases found : alternative value with
  | none =>
    have refused (inst : α) : keep write (rid,value) inst = inst := by simp only [keep, typed, writeTyped, found, err]
    simp only [refused]
    exact .inl (fun _ => trivial)
  | some v =>
    have written (inst : α) : keep write (rid,value) inst = store v inst := by simp only [keep, typed, writeTyped, found]
    simp only [written]
    exact stores v

namespace Instances
variable {α : Type}

/-- What a change makes of the instance that it is for. -/
def changeInstance (write : UInt16 → ResourceValue → α → Result α) : Change → α → Option α
  | .write _ rid _ value, inst => some (keep write (rid,value) inst)
  | .delete _, _ => none

theorem changeInstance_overwrites {write : UInt16 → ResourceValue → α → Result α} (overwrites : Overwrites (fun r => keep write r)) :
    Overwrites (fun a (inst : Option α) => inst.bind (changeInstance write a)) where
  twice a inst := by
    cases inst with
    | none => rfl
    | some inst =>
      cases a with
      | write _ rid _ value => exact congrArg some (overwrites.twice (rid,value) inst)
      | delete _ => rfl
  between a b inst := by
    cases inst with
    | none => rfl
    | some inst =>
      cases a with
      | delete _ => cases b <;> rfl
      | write _ rid _ value =>
        cases b with
        | write _ rid' _ value' => exact congrArg some (overwrites.between (rid,value) (rid',value') inst)
        | delete _ => rfl

/-- What a change makes of an entry of the table. -/
def changeEntry (write : UInt16 → ResourceValue → α → Result α) (a : Change) (e : Sigma (fun _ : UInt16 => α)) :
    Option (Sigma (fun _ : UInt16 => α)) :=
  if e.1 = a.iid then (changeInstance write a e.2).map (fun inst => ⟨e.1,inst⟩) else some e

/-- What a change makes of a store. -/
def changed (write : UInt16 → ResourceValue → α → Result α) : Change → Instances α → Instances α
  | .write iid rid _ value, o => (o.writeResource (write rid value) iid).2
  | .delete iid, o => (o.deleteInstance iid).2

theorem changed_entries (write : UInt16 → ResourceValue → α → Result α) (a : Change) (o : Instances α) :
    (o.changed write a).instances.entries = o.instances.entries.filterMap (changeEntry write a) ∧
      (o.changed write a).nextInstanceId = o.nextInstanceId := by
  cases a with
  | write iid rid riid value =>
    have whole : (o.writeResource (write rid value) iid).2 =
        { o with instances := Tables.modify o.instances iid (keep write (rid,value)) } := by
      unfold Tables.modify
      cases found : o.instances.lookup iid with
      | none => simp only [writeResource, found]
      | some inst =>
        cases taken : write rid value inst with
        | ok after =>
          rw [writeResource_ok found taken]
          simp only [keep, taken]
        | error e =>
          have present : iid ∈ o.instances := AList.lookup_isSome.mp (by rw [found]; rfl)
          have same := set_same found
          rw [writeResource_error found taken]
          unfold Tables.set at same
          rw [if_pos present] at same
          simp only [keep, taken, same]
    show (o.writeResource (write rid value) iid).2.instances.entries = _ ∧ (o.writeResource (write rid value) iid).2.nextInstanceId = _
    rw [whole]
    refine ⟨(entries_modify o.instances iid _).trans (List.filterMap_congr fun e _ => ?_),rfl⟩
    unfold changeEntry changeInstance Change.iid
    split_ifs <;> rfl
  | delete iid =>
    show (o.deleteInstance iid).2.instances.entries = _ ∧ (o.deleteInstance iid).2.nextInstanceId = _
    unfold deleteInstance
    by_cases present : iid ∈ o.instances
    · rw [if_pos present]
      exact ⟨entries_erase o.instances iid,rfl⟩
    · rw [if_neg present]
      refine ⟨((List.filterMap_congr ?_).trans List.filterMap_some).symm,rfl⟩
      intro e member
      have differs : e.1 ≠ iid := by
        rintro rfl
        exact present (AList.mem_keys.mpr (List.mem_keys_of_mem member))
      exact if_neg differs

theorem changed_overwrites {write : UInt16 → ResourceValue → α → Result α} (overwrites : Overwrites (keep write)) :
    Overwrites (changed write) := by
  have entries := ((changeInstance_overwrites overwrites).keyed Change.iid).elements.within
    (Prod.fst : List (Sigma (fun _ : UInt16 => α)) × UInt16 → _) (fun whole l => (l,whole.2)) (fun _ _ => rfl) (fun _ _ _ => rfl)
  refine entries.of_injective (fun o => (o.instances.entries,o.nextInstanceId)) ?_ ?_
  · rintro ⟨⟨l,_⟩,n⟩ ⟨⟨l',_⟩,n'⟩ same
    cases same
    rfl
  · intro a o
    obtain ⟨after,next⟩ := changed_entries write a o
    exact Prod.ext after next

end Instances

theorem ofUInt8_inj (v w : UInt8) (same : (.ok (ofUInt8 v) : Result ResourceValue) = .ok (ofUInt8 w)) : v = w := by
  have narrowed := congrArg narrow8 (ResourceValue.int.inj (Except.ok.inj same))
  rwa [narrow8_ofUInt8, narrow8_ofUInt8] at narrowed
theorem ofUInt16_inj (v w : UInt16) (same : (.ok (ofUInt16 v) : Result ResourceValue) = .ok (ofUInt16 w)) : v = w := by
  have narrowed := congrArg narrow16 (ResourceValue.int.inj (Except.ok.inj same))
  rwa [narrow16_ofUInt16, narrow16_ofUInt16] at narrowed
theorem ofUInt32_inj (v w : UInt32) (same : (.ok (ofUInt32 v) : Result ResourceValue) = .ok (ofUInt32 w)) : v = w := by
  have narrowed := congrArg narrow32 (ResourceValue.int.inj (Except.ok.inj same))
  rwa [narrow32_ofUInt32, narrow32_ofUInt32] at narrowed

namespace SecurityInstance

/-- An instance is what its resources show that are both read and written. -/
theorem ext_reads {inst inst' : SecurityInstance}
    (same : ∀ rid : {rid // rid ∈ readWrite}, readResource rid.1 inst = readResource rid.1 inst') : inst = inst' := by
  obtain ⟨uri,bootstrap,mode,identity,serverKey,secret,ssid,holdOff,timeout⟩ := inst
  obtain ⟨uri',bootstrap',mode',identity',serverKey',secret',ssid',holdOff',timeout'⟩ := inst'
  have shown (rid : UInt16) (member : rid ∈ readWrite) : readResource rid _ = readResource rid _ := same ⟨rid,member⟩
  cases shown 0 (by decide)
  cases shown 1 (by decide)
  cases ofUInt8_inj mode mode' (shown 2 (by decide))
  cases shown 3 (by decide)
  cases shown 4 (by decide)
  cases shown 5 (by decide)
  cases ofUInt16_inj ssid ssid' (shown 10 (by decide))
  cases ofUInt32_inj holdOff holdOff' (shown 11 (by decide))
  cases ofUInt32_inj timeout timeout' (shown 12 (by decide))
  rfl

theorem keep_overwrites : Overwrites (keep writeResource) := by
  refine Overwrites.of_shown (fun (place : {rid // rid ∈ readWrite}) => readResource place.1) (fun _ _ => ext_reads) ?_
  rintro ⟨rid,value⟩ ⟨place,shown⟩
  by_cases known : rid ∈ readWrite
  · simp only [readWrite, List.mem_cons, List.not_mem_nil, or_false] at known shown
    rcases known with rfl | rfl | rfl | rfl | rfl | rfl | rfl | rfl | rfl
    all_goals
      refine keep_typed (fun _ => rfl) (readResource place) (fun v => ?_)
      rcases shown with rfl | rfl | rfl | rfl | rfl | rfl | rfl | rfl | rfl
      all_goals first | exact .inl (fun _ => rfl) | exact .inr (fun _ _ => rfl)
  · refine .inl (fun inst => congrArg (readResource place) ?_)
    simp only [readWrite, List.mem_cons, List.not_mem_nil, or_false, not_or] at known
    simp [keep, writeResource, known, err]

end SecurityInstance

namespace ServerInstance

theorem ext_reads {inst inst' : ServerInstance}
    (same : ∀ rid : {rid // rid ∈ readWrite}, readResource rid.1 inst = readResource rid.1 inst') : inst = inst' := by
  obtain ⟨ssid,lifetime,minPeriod,maxPeriod,timeout,storing,binding⟩ := inst
  obtain ⟨ssid',lifetime',minPeriod',maxPeriod',timeout',storing',binding'⟩ := inst'
  have shown (rid : UInt16) (member : rid ∈ readWrite) : readResource rid _ = readResource rid _ := same ⟨rid,member⟩
  cases ofUInt16_inj ssid ssid' (shown 0 (by decide))
  cases ofUInt32_inj lifetime lifetime' (shown 1 (by decide))
  cases ofUInt32_inj minPeriod minPeriod' (shown 2 (by decide))
  cases ofUInt32_inj maxPeriod maxPeriod' (shown 3 (by decide))
  cases ofUInt32_inj timeout timeout' (shown 5 (by decide))
  cases shown 6 (by decide)
  cases shown 7 (by decide)
  rfl

theorem keep_overwrites : Overwrites (keep writeResource) := by
  refine Overwrites.of_shown (fun (place : {rid // rid ∈ readWrite}) => readResource place.1) (fun _ _ => ext_reads) ?_
  rintro ⟨rid,value⟩ ⟨place,shown⟩
  by_cases known : rid ∈ readWrite
  · simp only [readWrite, List.mem_cons, List.not_mem_nil, or_false] at known shown
    rcases known with rfl | rfl | rfl | rfl | rfl | rfl | rfl
    all_goals
      refine keep_typed (fun _ => rfl) (readResource place) (fun v => ?_)
      rcases shown with rfl | rfl | rfl | rfl | rfl | rfl | rfl
      all_goals first | exact .inl (fun _ => rfl) | exact .inr (fun _ _ => rfl)
  · refine .inl (fun inst => congrArg (readResource place) ?_)
    simp only [readWrite, List.mem_cons, List.not_mem_nil, or_false, not_or] at known
    simp [keep, writeResource, known, err]

end ServerInstance

instance : Overwritten SecurityObject where
  types _ _ := rfl
  timeless _ _ change _ := by cases change <;> rfl
  overwrites := by
    refine (Instances.changed_overwrites SecurityInstance.keep_overwrites).of_injective id Function.injective_id ?_
    intro a o
    cases a <;> rfl

instance : Overwritten ServerObject where
  types _ _ := rfl
  timeless _ _ change _ := by cases change <;> rfl
  overwrites := by
    have within := (Instances.changed_overwrites ServerInstance.keep_overwrites).within ServerObject.store
      (fun o store => { o with store := store }) (fun _ _ => rfl) (fun _ _ _ => rfl)
    refine within.of_injective id Function.injective_id ?_
    intro a o
    cases a <;> rfl

/-- A change to an object that is left as it is. -/
theorem overwrites_still {σ : Type} [Object σ] (still : ∀ (change : Change) (o : σ), change.apply {} o = o) :
    Overwrites (Change.apply {} : Change → σ → σ) where
  twice a o := by rw [still, still]
  between a b o := by rw [still a o, still a (b.apply {} o)]

instance : Overwritten ConnectivityObject where
  types _ _ := rfl
  timeless _ _ change _ := by cases change <;> rfl
  overwrites := overwrites_still (fun change _ => by cases change <;> rfl)

instance : Overwritten LocationObject where
  types _ _ := rfl
  timeless _ _ change _ := by cases change <;> rfl
  overwrites := overwrites_still (fun change _ => by cases change <;> rfl)

namespace DeviceObject

/-- What a change makes of a device: the UTC offset and the time zone are put, all else is left. -/
theorem change_cases (a : Change) :
    (∀ o : DeviceObject, a.apply {} o = o) ∨
    (∃ v, ∀ o : DeviceObject, a.apply {} o = { o with config := { o.config with utcOffset := v } }) ∨
    (∃ v, ∀ o : DeviceObject, a.apply {} o = { o with config := { o.config with timezone := v } }) := by
  cases a with
  | delete iid => exact .inl (fun _ => rfl)
  | write iid rid riid value =>
    show (∀ o : DeviceObject, (stored o (o.writeResource iid rid value)).2 = o) ∨
      (∃ v, ∀ o : DeviceObject, (stored o (o.writeResource iid rid value)).2 = { o with config := { o.config with utcOffset := v } }) ∨
      (∃ v, ∀ o : DeviceObject, (stored o (o.writeResource iid rid value)).2 = { o with config := { o.config with timezone := v } })
    by_cases first : iid = 0
    · subst first
      cases text : value.asString with
      | none =>
        refine .inl (fun o => ?_)
        unfold writeResource
        split
        · rfl
        · split <;> simp [stored, writeTyped, text, err]
      | some v =>
        by_cases offset : rid = 14
        · subst offset
          refine .inr (.inl ⟨v,fun o => ?_⟩)
          simp [writeResource, stored, writeTyped, text]
        · by_cases zone : rid = 15
          · subst zone
            refine .inr (.inr ⟨v,fun o => ?_⟩)
            simp [writeResource, stored, writeTyped, text]
          · refine .inl (fun o => ?_)
            unfold writeResource
            split
            · rfl
            · split <;> simp_all [stored]
    · refine .inl (fun o => ?_)
      unfold writeResource
      rw [if_pos first]
      rfl

end DeviceObject

instance : Overwritten DeviceObject where
  types _ _ := rfl
  timeless _ _ change _ := by cases change <;> rfl
  overwrites := by
    constructor
    · intro a o
      rcases DeviceObject.change_cases a with left | ⟨v,put⟩ | ⟨v,put⟩ <;> simp [*]
    · intro a b o
      rcases DeviceObject.change_cases a with left | ⟨v,put⟩ | ⟨v,put⟩ <;>
        rcases DeviceObject.change_cases b with left' | ⟨w,put'⟩ | ⟨w,put'⟩ <;> simp [*]

/-! ### Requests -/

/-- A PUT that is not for a whole object, or a DELETE. -/
def Repeatable (pdu : RequestPdu) : Prop :=
  pdu.code = 3 ∧ (∀ path, ObjectPath.parse pdu.uriPath = some path → path.isObject = false) ∨ pdu.code = 4

namespace Requests
variable {σ : Type} [Object σ]

/-- The change that a record stands for, if its value decodes under the type of its resource. -/
def recordChange (o : σ) (iid rid : UInt16) (riid : Option UInt16) (record : Tlv.TlvRecord) : Option Change :=
  match Tlv.decodeResource record.value (expectedType o iid rid) with
  | .ok value => some (.write iid rid riid value)
  | .error _ => none

/-- The changes that a request makes to the object that its path leads to. -/
def changes (pdu : RequestPdu) (path : ObjectPath) (o : σ) : List Change :=
  if pdu.code = 3 then
    match Tlv.decode pdu.payload with
    | .error _ => []
    | .ok records =>
      if path.isResource then
        (records.take 1).filterMap (recordChange o (path.instanceId.getD 0) (path.resourceId.getD 0) path.resourceInstanceId)
      else if path.isInstance then
        (records.filter (fun record => record.type = .Resource)).filterMap
          (fun record => recordChange o (path.instanceId.getD 0) record.id none record)
      else []
  else if path.isInstance then [.delete (path.instanceId.getD 0)]
  else []

variable [Overwritten σ]

theorem recordChange_same (o o' : σ) (iid rid : UInt16) (riid : Option UInt16) (record : Tlv.TlvRecord) :
    recordChange o iid rid riid record = recordChange o' iid rid riid record := by
  unfold recordChange expectedType
  rw [Overwritten.types o o']

/-- What the object holds has no part in what is changed. -/
theorem changes_same (pdu : RequestPdu) (path : ObjectPath) (o o' : σ) : changes pdu path o = changes pdu path o' := by
  unfold changes
  simp only [recordChange_same o o']

theorem writeRecord_changes (env : Env) (iid : UInt16) (record : Tlv.TlvRecord) (resource : record.type = .Resource) (o o' : σ) :
    writeRecord env iid record o = applyAll (Change.apply {}) (recordChange o' iid record.id none record).toList o := by
  rw [recordChange_same o' o]
  unfold writeRecord recordChange
  rw [if_pos resource]
  cases Tlv.decodeResource record.value (expectedType o iid record.id) with
  | error e => rfl
  | ok value => exact Overwritten.timeless env {} (.write iid record.id none value) o

theorem writeRecords_changes (iid : UInt16) (moments : Moments) (records : List Tlv.TlvRecord) (o o' : σ) :
    writeRecords iid moments records o =
      applyAll (Change.apply {}) ((records.filter (fun record => record.type = .Resource)).filterMap
        (fun record => recordChange o' iid record.id none record)) o := by
  induction records generalizing moments o with
  | nil => rfl
  | cons record records ih =>
    rw [writeRecords, ih]
    by_cases resource : record.type = .Resource
    · rw [List.filter_cons_of_pos (by simpa using resource), writeRecord_changes _ _ _ resource o o', List.filterMap_cons]
      cases recordChange o' iid record.id none record <;> rfl
    · rw [List.filter_cons_of_neg (by simpa using resource)]
      unfold writeRecord
      rw [if_neg resource]

theorem writeFirst_changes (env : Env) (iid rid : UInt16) (riid : Option UInt16) (records : List Tlv.TlvRecord) (o o' : σ) :
    (writeFirst env iid rid riid records o).2 =
      applyAll (Change.apply {}) ((records.take 1).filterMap (recordChange o' iid rid riid)) o := by
  cases records with
  | nil => rfl
  | cons record records =>
    rw [List.take_succ_cons, List.take_zero, List.filterMap_cons, recordChange_same o' o]
    cases decoded : Tlv.decodeResource record.value (expectedType o iid rid) with
    | error e =>
      simp only [writeFirst, recordChange, decoded]
      rfl
    | ok value =>
      simp only [writeFirst, recordChange, decoded]
      exact Overwritten.timeless env {} (.write iid rid riid value) o

theorem process_changes [OptionNumbers] (moments : Moments) {pdu : RequestPdu} {path : ObjectPath} {method : CoapMethod}
    (known : pdu.method = some method) (repeatable : pdu.code = 3 ∧ path.isObject = false ∨ pdu.code = 4 ∧ path.isInstance = true)
    (o o' : σ) :
    (process moments (pdu.request method) path o).2 = applyAll (Change.apply {}) (changes pdu path o') o := by
  rcases repeatable with ⟨put,notObject⟩ | ⟨delete,names⟩
  · obtain rfl : method = .Put := by simpa [RequestPdu.method, put] using known.symm
    simp only [process, processWrite, RequestPdu.request, changes, put, ↓reduceIte]
    cases Tlv.decode pdu.payload with
    | error e => rfl
    | ok records =>
      dsimp only
      by_cases single : path.isResource = true
      · rw [if_pos single, if_pos single]
        exact writeFirst_changes _ _ _ _ records o o'
      · rw [if_neg single, if_neg single]
        by_cases names : path.isInstance = true
        · rw [if_pos names, if_pos names]
          exact writeRecords_changes _ moments records o o'
        · rw [if_neg names, if_neg names, if_neg (by simp [notObject])]
          rfl
  · obtain rfl : method = .Delete := by simpa [RequestPdu.method, delete] using known.symm
    have other : pdu.code ≠ 3 := by simp [delete]
    simp only [process, processDelete, RequestPdu.request, changes, names, if_neg other, ↓reduceIte]
    rfl

/-- The changes that a request makes to the object under an id. -/
def changesTo (oid : UInt16) (pdu : RequestPdu) (o : σ) : List Change :=
  match ObjectPath.parse pdu.uriPath with
  | none => []
  | some path => if path.objectId = oid then changes pdu path o else []

/-- What a request makes of the object under an id. -/
def overwrite (oid : UInt16) (pdu : RequestPdu) (o : σ) : σ := applyAll (Change.apply {}) (changesTo oid pdu o) o

theorem changesTo_same (oid : UInt16) (pdu : RequestPdu) (o o' : σ) : changesTo oid pdu o = changesTo oid pdu o' := by
  unfold changesTo
  simp only [changes_same pdu _ o o']

theorem overwrite_overwrites (oid : UInt16) : Overwrites (overwrite oid : RequestPdu → σ → σ) := by
  have fixed (o : σ) : Overwrites (overwrite oid : RequestPdu → σ → σ) := by
    have same : (overwrite oid : RequestPdu → σ → σ) = fun pdu => applyAll (Change.apply {}) (changesTo oid pdu o) := by
      funext pdu o'
      unfold overwrite
      rw [changesTo_same oid pdu o' o]
    rw [same]
    exact Overwritten.overwrites.sequences.comap _
  exact ⟨fun pdu o => (fixed o).twice pdu o,fun a b o => (fixed o).between a b o⟩

end Requests

namespace Content
variable {U : Type} [Object U]

theorem call_call {α β : Type} (content : Content U) (f : {σ : Type} → [Object σ] → σ → α × σ)
    (g : {σ : Type} → [Object σ] → σ → β × σ) : ((content.call f).2.call g).2 = (content.call (fun o => g (f o).2)).2 := by
  cases content <;> rfl

/-- Two calls that leave every object alike whose changes overwrite. -/
theorem call_alike [Overwritten U] {α β : Type} {content : Content U} (other : ∀ o, content ≠ .firmwareUpdate o)
    {f : {σ : Type} → [Object σ] → σ → α × σ} {g : {σ : Type} → [Object σ] → σ → β × σ}
    (alike : ∀ {σ : Type} [Object σ] [Overwritten σ] (o : σ), (f o).2 = (g o).2) : (content.call f).2 = (content.call g).2 := by
  cases content with
  | firmwareUpdate o => exact absurd rfl (other o)
  | security o => exact congrArg Content.security (alike o)
  | server o => exact congrArg Content.server (alike o)
  | device o => exact congrArg Content.device (alike o)
  | connectivity o => exact congrArg Content.connectivity (alike o)
  | added object => exact congrArg Content.added (alike object)

end Content

namespace Objects
variable {U : Type} [Object U]
open Requests Runs

/-- What some requests make of the object under an id. -/
def overwritten (oid : UInt16) (pdus : List RequestPdu) (content : Content U) : Content U :=
  (content.call (fun o => ((),applyAll (overwrite oid) pdus o))).2

/-- A request that changes nothing under an id. -/
theorem overwritten_none {oid : UInt16} {pdu : RequestPdu}
    (none : ∀ {σ : Type} [Object σ] (o : σ), changesTo oid pdu o = []) (content : Option (Content U)) :
    content.map (overwritten oid [pdu]) = content := by
  cases content with
  | none => rfl
  | some content => cases content <;> simp [overwritten, Content.call, applyAll, overwrite, none]

theorem overwritten_spared {oid : UInt16} (pdus : List RequestPdu) {content : Option (Content U)}
    (other : ∀ o, content ≠ some (.firmwareUpdate o)) (o : Firmware.FirmwareUpdateObject) :
    content.map (overwritten oid pdus) ≠ some (.firmwareUpdate o) := by
  intro same
  obtain ⟨content',found,made⟩ := Option.map_eq_some_iff.mp same
  cases content' with
  | firmwareUpdate o' => exact other o' found
  | _ => cases made

section

variable [Overwritten U] [OptionNumbers]

theorem serve_overwritten {c : Objects U} (inPlace : c.InPlace) {request : Moments × RequestPdu}
    (repeatable : Repeatable request.2) {oid : UInt16} (other : ∀ o, c.content oid ≠ some (.firmwareUpdate o)) :
    (serve request c).2.InPlace ∧ (serve request c).2.content oid = (c.content oid).map (overwritten oid [request.2]) := by
  cases parsed : ObjectPath.parse request.2.uriPath with
  | none =>
    obtain ⟨answer,served⟩ := serve_nowhere (U := U) request parsed
    rw [served, overwritten_none (fun o => by simp [changesTo, parsed])]
    exact ⟨inPlace,rfl⟩
  | some path =>
    obtain ⟨-,after,contents⟩ := serve_reply inPlace request parsed
    refine ⟨after,?_⟩
    rw [contents]
    by_cases here : oid = path.objectId
    · subst here
      rw [if_pos rfl]
      obtain ⟨method,known,which⟩ : ∃ method, request.2.method = some method ∧
          (method = .Put ∧ request.2.code = 3 ∧ path.isObject = false ∨ method = .Delete ∧ request.2.code = 4) := by
        rcases repeatable with ⟨put,notObject⟩ | delete
        · exact ⟨.Put,by simp [RequestPdu.method, put],.inl ⟨rfl,put,notObject path parsed⟩⟩
        · exact ⟨.Delete,by simp [RequestPdu.method, delete],.inr ⟨rfl,delete⟩⟩
      by_cases refused : method = .Delete ∧ (!path.isInstance) = true
      · have delete : request.2.code = 4 := by
          rcases which with ⟨rfl,-⟩ | ⟨-,delete⟩
          · cases refused.1
          · exact delete
        rw [overwritten_none (fun o => by simp [changesTo, parsed, changes, delete, show path.isInstance = false by simpa using refused.2])]
        simp only [reply, known]
        rw [if_pos refused]
      · have changed {σ : Type} [Object σ] [Overwritten σ] (o : σ) :
            (process request.1 (request.2.request method) path o).2 = applyAll (overwrite path.objectId) [request.2] o := by
          have made : changesTo path.objectId request.2 o = changes request.2 path o := by
            simp only [changesTo, parsed, ↓reduceIte]
          show _ = overwrite path.objectId request.2 o
          unfold overwrite
          rw [made]
          refine process_changes request.1 known ?_ o o
          rcases which with ⟨-,put⟩ | ⟨rfl,delete⟩
          · exact .inl put
          · exact .inr ⟨delete,by simpa using refused⟩
        cases found : c.content path.objectId with
        | none =>
          simp only [reply, known]
          rw [if_neg refused]
          rfl
        | some content =>
          simp only [reply, known]
          rw [if_neg refused]
          exact congrArg some (Content.call_alike (fun o same => other o (same ▸ found)) changed)
    · rw [if_neg here, overwritten_none (fun o => by simp [changesTo, parsed, Ne.symm here])]

theorem run_overwritten {requests : List (Moments × RequestPdu)} (repeatable : ∀ request ∈ requests, Repeatable request.2)
    {c : Objects U} (inPlace : c.InPlace) {oid : UInt16} (other : ∀ o, c.content oid ≠ some (.firmwareUpdate o)) :
    (answers serve requests c).2.content oid = (c.content oid).map (overwritten oid (requests.map Prod.snd)) := by
  induction requests generalizing c with
  | nil =>
    show c.content oid = _
    cases c.content oid with
    | none => rfl
    | some content => cases content <;> rfl
  | cons request requests ih =>
    obtain ⟨after,changed⟩ := serve_overwritten inPlace (repeatable request List.mem_cons_self) other
    have later := ih (fun r member => repeatable r (List.mem_cons_of_mem _ member)) after
      (by rw [changed]; exact overwritten_spared _ other)
    show (answers serve requests (serve request c).2).2.content oid = _
    rw [later, changed, Option.map_map]
    cases c.content oid with
    | none => rfl
    | some content => exact congrArg some (content.call_call _ _)

/-- Of the same PUTs and DELETEs, only the last count: serve each of them once, in the order of their
    last times and at any moments, and every object but the firmware ends up the same. -/
theorem duplicates_forgotten {c : Objects U} (inPlace : c.InPlace) {requests kept : List (Moments × RequestPdu)}
    (repeatable : ∀ request ∈ requests, Repeatable request.2)
    (last : kept.map Prod.snd = (requests.map Prod.snd).dedup) (oid : UInt16) (other : c.getObject oid ≠ some .firmwareUpdate) :
    (answers serve kept c).2.content oid = (answers serve requests c).2.content oid := by
  have spared (o : Firmware.FirmwareUpdateObject) : c.content oid ≠ some (.firmwareUpdate o) := by
    intro same
    obtain ⟨served,found,behind⟩ := Option.map_eq_some_iff.mp same
    cases served with
    | firmwareUpdate => exact other found
    | _ => cases behind
  have keeps : ∀ request ∈ kept, Repeatable request.2 := by
    intro request member
    have once : request.2 ∈ (requests.map Prod.snd).dedup := last ▸ List.mem_map_of_mem member
    obtain ⟨request',member',same⟩ := List.mem_map.mp (List.mem_dedup.mp once)
    exact same ▸ repeatable request' member'
  rw [run_overwritten repeatable inPlace spared, run_overwritten keeps inPlace spared, last]
  have same {σ : Type} [Object σ] [Overwritten σ] (o : σ) := (overwrite_overwrites (σ := σ) oid).dedup (requests.map Prod.snd) o
  cases found : c.content oid with
  | none => rfl
  | some content =>
    exact congrArg some (Content.call_alike (fun o same => spared o (same ▸ found)) same)

end

attribute [local instance] bigEndianNumbers

/-- A lifetime is set, and another one, and the first again. -/
def putLifetimePdu (seconds : UInt8) : RequestPdu :=
  { code := 3, options := [(11,lit ['1']), (11,lit ['0']), (11,lit ['1'])], payload := [0xC1, 0x01, seconds] }

theorem putLifetime_repeatable (seconds : UInt8) : Repeatable (putLifetimePdu seconds) := by
  refine .inl ⟨rfl,fun path parsed => ?_⟩
  have text : (putLifetimePdu seconds).uriPath = (putLifetimePdu 0).uriPath := rfl
  rw [text, show ObjectPath.parse (putLifetimePdu 0).uriPath = some ⟨1,some 0,some 1,none⟩ by decide] at parsed
  cases parsed
  rfl

theorem duplicates_forgotten_lifetime :
    (answers serve [(fun _ => {},putLifetimePdu 60), (fun _ => {},putLifetimePdu 30)] sampleClient.objects).2.content 1 =
      (answers serve [(fun _ => {},putLifetimePdu 30), (fun _ => {},putLifetimePdu 60), (fun _ => {},putLifetimePdu 30)]
        sampleClient.objects).2.content 1 := by
  refine duplicates_forgotten sampleClient_objectsInPlace ?_ (by decide) 1 ?_
  · simp [putLifetime_repeatable]
  · rw [show sampleClient.objects.getObject 1 = some .server from rfl]
    simp

end Objects

end Ferriot
