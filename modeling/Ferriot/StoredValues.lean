import Ferriot.Accounts
import Ferriot.TlvValues

/-!
# What the accounts store

A write of a Security or Server resource copies strings, flags and bytes, and
casts a 64-bit integer to the width of its field without a look at its range.
-/
namespace Ferriot

/-- A number cut to its low bits is the number exactly if it is in range. -/
theorem cut_eq_iff (n : Int64) (low : UInt64) (top : Nat) (some : 0 < top) (narrow : top ≤ 4294967296)
    (cut : low.toNat = n.toUInt64.toNat % top) : low.toInt64 = n ↔ 0 ≤ n.toInt ∧ n.toInt < top := by
  have bits : n.toInt = if 2 * n.toUInt64.toNat < 2 ^ 64 then (n.toUInt64.toNat : Int) else n.toUInt64.toNat - 2 ^ 64 :=
    Tlv.toInt_of_bits n.toUInt64
  have room := Nat.mod_lt n.toUInt64.toNat some
  have bound := n.toUInt64.toNat_lt
  rw [← Int64.toInt_inj, Tlv.toInt_of_bits, cut]
  constructor
  · intro kept
    rw [if_pos (by omega)] at kept
    omega
  · rintro ⟨low,high⟩
    have inside : n.toUInt64.toNat < top := by
      split_ifs at bits <;> omega
    rw [Nat.mod_eq_of_lt inside, if_pos (by omega), bits, if_pos (by omega)]

theorem ofUInt8_narrow8 (n : Int64) : ofUInt8 (narrow8 n) = .int n ↔ 0 ≤ n.toInt ∧ n.toInt ≤ 255 := by
  have kept := cut_eq_iff n (narrow8 n).toUInt64 256 (by decide) (by decide) (by simp [narrow8])
  simp only [ofUInt8, ResourceValue.int.injEq, kept]
  omega

theorem ofUInt16_narrow16 (n : Int64) : ofUInt16 (narrow16 n) = .int n ↔ 0 ≤ n.toInt ∧ n.toInt ≤ 65535 := by
  have kept := cut_eq_iff n (narrow16 n).toUInt64 65536 (by decide) (by decide) (by simp [narrow16])
  simp only [ofUInt16, ResourceValue.int.injEq, kept]
  omega

theorem ofUInt32_narrow32 (n : Int64) : ofUInt32 (narrow32 n) = .int n ↔ 0 ≤ n.toInt ∧ n.toInt ≤ 4294967295 := by
  have kept := cut_eq_iff n (narrow32 n).toUInt64 4294967296 (by decide) (by decide) (by simp [narrow32])
  simp only [ofUInt32, ResourceValue.int.injEq, kept]
  omega

/-- A number that the field of the resource cannot hold; `limit` is the greatest number it can. -/
def Overflows (limit : UInt16 → Option Int) (rid : UInt16) (v : ResourceValue) : Prop :=
  ∃ n top, v = .int n ∧ limit rid = some top ∧ ¬ (0 ≤ n.toInt ∧ n.toInt ≤ top)

theorem overflows_int {limit : UInt16 → Option Int} {rid : UInt16} {top : Int} (field : limit rid = some top) (n : Int64) :
    Overflows limit rid (.int n) ↔ ¬ (0 ≤ n.toInt ∧ n.toInt ≤ top) := by
  constructor
  · rintro ⟨_,_,same,found,outside⟩
    cases same
    rw [field] at found
    cases found
    exact outside
  · intro outside
    exact ⟨n,top,rfl,field,outside⟩

theorem overflows_other {limit : UInt16 → Option Int} {rid : UInt16} (field : limit rid = none) (v : ResourceValue) :
    ¬ Overflows limit rid v := by
  rintro ⟨_,_,-,found,-⟩
  rw [field] at found
  cases found

/-- How a resource of an instance is written and read: a value that the write takes is read
    back unless it overflows, and one that overflows is taken. -/
structure Copies {α : Type} (limit : UInt16 → Option Int) (read : UInt16 → α → Result ResourceValue)
    (write : UInt16 → ResourceValue → α → Result α) : Prop where
  readsBack (rid : UInt16) (v : ResourceValue) (inst after : α) (taken : write rid v inst = .ok after) :
    read rid after = .ok v ↔ ¬ Overflows limit rid v
  taken (rid : UInt16) (v : ResourceValue) (inst : α) (overflows : Overflows limit rid v) :
    ∃ after, write rid v inst = .ok after

theorem writeTyped_ok {α β : Type} {alternative : ResourceValue → Option α} {store : α → β} {value : ResourceValue}
    {after : β} (taken : writeTyped alternative store value = .ok after) :
    ∃ v, alternative value = some v ∧ after = store v := by
  simp only [writeTyped] at taken
  cases found : alternative value with
  | none => simp [found, err] at taken
  | some v =>
    simp only [found, Except.ok.injEq] at taken
    exact ⟨v,rfl,taken.symm⟩

theorem asInt_some {value : ResourceValue} {n : Int64} (found : value.asInt = some n) : value = .int n := by
  cases value <;> simp_all [ResourceValue.asInt]
theorem asBool_some {value : ResourceValue} {b : Bool} (found : value.asBool = some b) : value = .bool b := by
  cases value <;> simp_all [ResourceValue.asBool]
theorem asString_some {value : ResourceValue} {s : Bytes} (found : value.asString = some s) : value = .string s := by
  cases value <;> simp_all [ResourceValue.asString]
theorem asOpaque_some {value : ResourceValue} {s : Bytes} (found : value.asOpaque = some s) : value = .opaqueBytes s := by
  cases value <;> simp_all [ResourceValue.asOpaque]

section
variable {α β : Type} {limit : UInt16 → Option Int} {rid : UInt16} {read : α → Result ResourceValue}
  {value : ResourceValue} {after : α}

/-- A field that narrows an integer. -/
theorem copies_int {top : Int} {store : Int64 → α} {narrowed : Int64 → ResourceValue} (field : limit rid = some top)
    (kept : ∀ n, narrowed n = .int n ↔ 0 ≤ n.toInt ∧ n.toInt ≤ top) (reads : ∀ n, read (store n) = .ok (narrowed n))
    (taken : writeTyped (·.asInt) store value = .ok after) : read after = .ok value ↔ ¬ Overflows limit rid value := by
  obtain ⟨n,found,rfl⟩ := writeTyped_ok taken
  cases asInt_some found
  rw [overflows_int field, not_not, ← kept, reads, Except.ok.injEq]

/-- A field that holds every value of its alternative. -/
theorem copies_whole {alternative : ResourceValue → Option β} {store : β → α} {wrap : β → ResourceValue}
    (field : limit rid = none) (only : ∀ {v b}, alternative v = some b → v = wrap b)
    (reads : ∀ b, read (store b) = .ok (wrap b)) (taken : writeTyped alternative store value = .ok after) :
    read after = .ok value ↔ ¬ Overflows limit rid value := by
  obtain ⟨b,found,rfl⟩ := writeTyped_ok taken
  rw [only found]
  exact iff_of_true (reads b) (overflows_other field _)

end

namespace ServerInstance

/-- The greatest number that the field of a resource holds. -/
def limit (rid : UInt16) : Option Int :=
  match rid with
  | 0 => some 65535
  | 1 | 2 | 3 | 5 => some 4294967295
  | _ => none

theorem copies : Copies limit readResource writeResource where
  readsBack rid v inst after taken := by
    simp only [writeResource] at taken
    split at taken
    · exact copies_int rfl ofUInt16_narrow16 (fun _ => rfl) taken
    · exact copies_int rfl ofUInt32_narrow32 (fun _ => rfl) taken
    · exact copies_int rfl ofUInt32_narrow32 (fun _ => rfl) taken
    · exact copies_int rfl ofUInt32_narrow32 (fun _ => rfl) taken
    · exact copies_int rfl ofUInt32_narrow32 (fun _ => rfl) taken
    · exact copies_whole rfl asBool_some (fun _ => rfl) taken
    · exact copies_whole rfl asString_some (fun _ => rfl) taken
    · cases taken
  taken rid v inst overflows := by
    obtain ⟨n,top,rfl,field,-⟩ := overflows
    simp only [limit] at field
    split at field
    all_goals first | exact ⟨_,rfl⟩ | cases field

end ServerInstance

namespace SecurityInstance

/-- The greatest number that the field of a resource holds. -/
def limit (rid : UInt16) : Option Int :=
  match rid with
  | 2 => some 255
  | 10 => some 65535
  | 11 | 12 => some 4294967295
  | _ => none

theorem copies : Copies limit readResource writeResource where
  readsBack rid v inst after taken := by
    simp only [writeResource] at taken
    split at taken
    · exact copies_whole rfl asString_some (fun _ => rfl) taken
    · exact copies_whole rfl asBool_some (fun _ => rfl) taken
    · exact copies_int rfl ofUInt8_narrow8 (fun _ => rfl) taken
    · exact copies_whole rfl asOpaque_some (fun _ => rfl) taken
    · exact copies_whole rfl asOpaque_some (fun _ => rfl) taken
    · exact copies_whole rfl asOpaque_some (fun _ => rfl) taken
    · exact copies_int rfl ofUInt16_narrow16 (fun _ => rfl) taken
    · exact copies_int rfl ofUInt32_narrow32 (fun _ => rfl) taken
    · exact copies_int rfl ofUInt32_narrow32 (fun _ => rfl) taken
    · cases taken
  taken rid v inst overflows := by
    obtain ⟨n,top,rfl,field,-⟩ := overflows
    simp only [limit] at field
    split at field
    all_goals first | exact ⟨_,rfl⟩ | cases field

end SecurityInstance

/-- A write that is accepted is read back, and a number that the field cannot hold is refused. -/
structure StoresAccepted {σ : Type} [Object σ] (limit : UInt16 → Option Int) (o : σ) (iid rid : UInt16)
    (v : ResourceValue) : Prop where
  readBack (env env' : Env) (riid riid' : Option UInt16)
    (accepted : (Object.writeResource env o iid rid riid v).1 = .ok ()) :
    (Object.readResource env' (Object.writeResource env o iid rid riid v).2 iid rid riid').1 = .ok v
  refused (env : Env) (riid : Option UInt16) (overflows : Overflows limit rid v) :
    ∃ e, (Object.writeResource env o iid rid riid v).1 = .error e

namespace Instances
variable {α : Type} {o : Instances α} {iid : UInt16} {inst after : α}

theorem writeResource_ok {write : α → Result α} (found : o.instances.lookup iid = some inst)
    (taken : write inst = .ok after) :
    o.writeResource write iid = (.ok (),{ o with instances := o.instances.replace iid after }) := by
  simp only [writeResource, found, taken]

theorem writeResource_error {write : α → Result α} {e : Error} (found : o.instances.lookup iid = some inst)
    (refused : write inst = .error e) : o.writeResource write iid = (.error e,o) := by
  simp only [writeResource, found, refused]

theorem readResource_some {read : α → Result ResourceValue} (found : o.instances.lookup iid = some inst) :
    o.readResource read iid = read inst := by
  simp only [readResource, found]

/-- The store as the write and the read of one resource find it. -/
theorem stores_iff {limit : UInt16 → Option Int} {read : UInt16 → α → Result ResourceValue}
    {write : UInt16 → ResourceValue → α → Result α} (copies : Copies limit read write) (o : Instances α)
    (iid rid : UInt16) (v : ResourceValue) :
    (((o.writeResource (write rid v) iid).1 = .ok () →
      (o.writeResource (write rid v) iid).2.readResource (read rid) iid = .ok v) ∧
        (Overflows limit rid v → ∃ e, (o.writeResource (write rid v) iid).1 = .error e)) ↔
      ¬ (iid ∈ o.instances ∧ Overflows limit rid v) := by
  rw [← AList.lookup_isSome]
  cases found : o.instances.lookup iid with
  | none => simp [writeResource, found, err]
  | some inst =>
    cases written : write rid v inst with
    | error e =>
      have inside : ¬ Overflows limit rid v := by
        intro overflows
        obtain ⟨after,taken⟩ := copies.taken rid v inst overflows
        rw [written] at taken
        cases taken
      simp [writeResource_error found written, inside]
    | ok after =>
      have present : iid ∈ o.instances := AList.lookup_isSome.mp (by rw [found]; rfl)
      have stored : (o.instances.replace iid after).lookup iid = some after := Tables.lookup_replace present after
      rw [writeResource_ok found written, readResource_some stored, copies.readsBack rid v inst after written]
      simp

end Instances

theorem SecurityObject.stores_iff (o : SecurityObject) (iid rid : UInt16) (v : ResourceValue) :
    StoresAccepted SecurityInstance.limit o iid rid v ↔
      ¬ (iid ∈ o.instances ∧ Overflows SecurityInstance.limit rid v) := by
  rw [← Instances.stores_iff SecurityInstance.copies]
  constructor
  · rintro ⟨readBack,refused⟩
    exact ⟨readBack {} {} none none,refused {} none⟩
  · rintro ⟨readBack,refused⟩
    exact ⟨fun _ _ _ _ => readBack,fun _ _ => refused⟩

theorem ServerObject.stores_iff (o : ServerObject) (iid rid : UInt16) (v : ResourceValue) :
    StoresAccepted ServerInstance.limit o iid rid v ↔
      ¬ (iid ∈ o.store.instances ∧ Overflows ServerInstance.limit rid v) := by
  rw [← Instances.stores_iff ServerInstance.copies]
  constructor
  · rintro ⟨readBack,refused⟩
    exact ⟨readBack {} {} none none,refused {} none⟩
  · rintro ⟨readBack,refused⟩
    exact ⟨fun _ _ _ _ => readBack,fun _ _ => refused⟩

/-- The accounts store what they accept, except for a number out of the range of its field. -/
theorem storesAccepted_iff (security : SecurityObject) (server : ServerObject) (iid rid : UInt16) (v : ResourceValue) :
    (StoresAccepted SecurityInstance.limit security iid rid v ↔
      ¬ (iid ∈ security.instances ∧ Overflows SecurityInstance.limit rid v)) ∧
    (StoresAccepted ServerInstance.limit server iid rid v ↔
      ¬ (iid ∈ server.store.instances ∧ Overflows ServerInstance.limit rid v)) :=
  ⟨security.stores_iff iid rid v,server.stores_iff iid rid v⟩

/-- A lifetime of 2^32 seconds is stored as 0. -/
theorem lifetime_wraps :
    ¬ StoresAccepted ServerInstance.limit (ServerObject.addServer {} { shortServerId := 1 }).2 0 1 (.int 4294967296) := by
  intro stores
  have readBack := stores.readBack {} {} none none rfl
  cases readBack

end Ferriot
