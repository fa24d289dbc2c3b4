import Ferriot.InstanceWrites
import Ferriot.PathText

/-!
# What a registration advertises

The payload of a registration, cut at its commas, names every instance that the
client serves once, by its path.
-/
namespace Ferriot
open Tables Requests

def comma : UInt8 := 44

/-- What the interface says of `list_instances`: it lists the instances that `has_instance` knows, each once. -/
class ListsInstances (σ : Type) [Object σ] : Prop where
  nodup (o : σ) : (Object.listInstances o).Nodup
  mem (o : σ) (iid : UInt16) : iid ∈ Object.listInstances o ↔ Object.hasInstance o iid = true

theorem Instances.mem_listInstances {α : Type} (o : Instances α) (iid : UInt16) :
    iid ∈ o.listInstances ↔ o.hasInstance iid = true :=
  AList.mem_keys.symm.trans AList.lookup_isSome.symm

theorem SingleInstance.mem_listInstances (iid : UInt16) :
    iid ∈ SingleInstance.listInstances ↔ SingleInstance.hasInstance iid = true := by
  unfold SingleInstance.listInstances SingleInstance.hasInstance
  rw [List.mem_singleton, beq_iff_eq]

instance : ListsInstances SecurityObject := ⟨fun o => o.instances.keys_nodup,Instances.mem_listInstances⟩
instance : ListsInstances ServerObject := ⟨fun o => o.store.instances.keys_nodup,fun o => o.store.mem_listInstances⟩
instance : ListsInstances DeviceObject := ⟨fun _ => List.nodup_singleton 0,fun _ => SingleInstance.mem_listInstances⟩
instance : ListsInstances ConnectivityObject := ⟨fun _ => List.nodup_singleton 0,fun _ => SingleInstance.mem_listInstances⟩
instance : ListsInstances Firmware.FirmwareUpdateObject := ⟨fun _ => List.nodup_singleton 0,fun _ => SingleInstance.mem_listInstances⟩
instance : ListsInstances LocationObject := ⟨fun _ => List.nodup_singleton 0,fun _ => SingleInstance.mem_listInstances⟩

namespace Client
variable {U : Type} [Object U]

/-- The instances that an entry of the object table lists. -/
def listed (c : Client U) (e : Sigma (fun _ : UInt16 => Served U)) : List UInt16 :=
  (c.objects.call e.1 (fun o => (Object.listInstances o,o)) e.2).1

/-- The loops of `build_registration_payload`, with the flag `first`. -/
def payloadLoops (c : Client U) : Bytes :=
  (c.objects.table.entries.foldl
    (fun oss e => (c.listed e).foldl (fun oss iid => Delimited.writeNext comma oss (instanceLink e.1 iid)) oss) ([],true)).1

/-- The links of the payload, in the order of the loops. -/
def links (c : Client U) : List Bytes := c.objects.table.entries.flatMap (fun e => (c.listed e).map (instanceLink e.1))

theorem payloadLoops_eq (c : Client U) : c.payloadLoops = c.buildRegistrationPayload := by
  have joined := Delimited.foldl_writeNext comma c.links
  unfold links at joined
  rw [List.foldl_flatMap] at joined
  simp only [List.foldl_map] at joined
  exact joined

/-- The pieces between commas; the empty payload has none. -/
def cutLinks (payload : Bytes) : List Bytes := if payload = [] then [] else payload.splitOn comma

/-- A piece without `<` and `>`. -/
def strip (piece : Bytes) : Bytes := piece.filter (fun b => b ≠ 60 ∧ b ≠ 62)

/-- The strings that the payload advertises. -/
def advertised (c : Client U) : List Bytes := (cutLinks c.buildRegistrationPayload).map strip

/-- The client serves an instance: an object stands in its table that has the instance. -/
def Serves (c : Client U) (path : ObjectPath) : Prop :=
  ∃ oid iid served, path = ⟨oid,some iid,none,none⟩ ∧ c.objects.getObject oid = some served ∧
    c.objects.Holds (fun o => Object.hasInstance o iid = true) served

/-- The strings are all different, each is the path of an instance that the client serves, and
    each such instance has exactly one. -/
structure AdvertisesServed (c : Client U) : Prop where
  once : c.advertised.Nodup
  parsed : ∀ text ∈ c.advertised, ∃ path, ObjectPath.parse text = some path ∧ c.Serves path
  served : ∀ path, c.Serves path → ∃! text, text ∈ c.advertised ∧ ObjectPath.parse text = some path

theorem decimal_byte {n : Nat} {b : UInt8} (member : b ∈ decimal n) : 48 ≤ b.toNat ∧ b.toNat ≤ 57 := by
  unfold decimal lit at member
  obtain ⟨digit,inside,rfl⟩ := List.mem_map.mp member
  obtain ⟨byte,range⟩ := ObjectPath.digit_byte inside
  rwa [byte]

/-- A link is the text of its path between angle brackets. -/
theorem strip_link (oid iid : UInt16) : strip (instanceLink oid iid) = ObjectPath.toString ⟨oid,some iid,none,none⟩ := by
  have digits (n : Nat) : (decimal n).filter (fun b => b ≠ 60 ∧ b ≠ 62) = decimal n := by
    refine List.filter_eq_self.mpr ?_
    intro b member
    have range := decimal_byte member
    rw [decide_eq_true_iff]
    constructor
    · rintro rfl
      exact absurd range.2 (by decide)
    · rintro rfl
      exact absurd range.2 (by decide)
  unfold strip instanceLink ObjectPath.toString
  rw [List.filter_append, List.filter_append, List.filter_append, List.filter_append, digits, digits]
  simp [lit, ObjectPath.slash]

theorem link_free (oid iid : UInt16) : comma ∉ instanceLink oid iid := by
  have digits (n : Nat) : comma ∉ decimal n := fun member => absurd (decimal_byte member).1 (by decide)
  unfold instanceLink
  simp only [List.mem_append, not_or]
  exact ⟨⟨⟨⟨by decide,digits oid.toNat⟩,by decide⟩,digits iid.toNat⟩,by decide⟩

/-- Cutting the payload gives the links back. -/
theorem cutLinks_payload (c : Client U) : cutLinks c.buildRegistrationPayload = c.links := by
  have free : ∀ link ∈ c.links, comma ∉ link := by
    intro link member
    obtain ⟨e,-,inside⟩ := List.mem_flatMap.mp member
    obtain ⟨iid,-,rfl⟩ := List.mem_map.mp inside
    exact link_free e.1 iid
  have payload : c.buildRegistrationPayload = [comma].intercalate c.links := rfl
  unfold cutLinks
  rw [payload]
  cases same : c.links with
  | nil => rfl
  | cons link links =>
    have written : [comma].intercalate (link :: links) ≠ [] := by
      have member : link ∈ c.links := same ▸ List.mem_cons_self
      obtain ⟨e,-,inside⟩ := List.mem_flatMap.mp member
      obtain ⟨iid,-,rfl⟩ := List.mem_map.mp inside
      rw [Delimited.intercalate_eq_flatMap]
      simp [instanceLink, lit]
    rw [if_neg written, ← same]
    exact List.splitOn_intercalate comma free (by rw [same]; simp)

/-- The paths of the instances that the objects list. -/
def instancePaths (c : Client U) : List ObjectPath :=
  c.objects.table.entries.flatMap (fun e => (c.listed e).map (fun iid => ⟨e.1,some iid,none,none⟩))

theorem advertised_eq (c : Client U) : c.advertised = c.instancePaths.map ObjectPath.toString := by
  unfold advertised instancePaths
  rw [cutLinks_payload]
  unfold links
  rw [List.map_flatMap, List.map_flatMap]
  refine List.flatMap_congr ?_
  intro e _
  rw [List.map_map, List.map_map]
  exact List.map_congr_left (fun iid _ => strip_link e.1 iid)

theorem instancePath_gapless {c : Client U} {path : ObjectPath} (member : path ∈ c.instancePaths) : path.Gapless := by
  obtain ⟨e,-,inside⟩ := List.mem_flatMap.mp member
  obtain ⟨iid,-,rfl⟩ := List.mem_map.mp inside
  exact ⟨fun resource => absurd rfl resource,fun resource => absurd rfl resource⟩

section
variable [ListsInstances U]

theorem nodup_listed (c : Client U) (e : Sigma (fun _ : UInt16 => Served U)) : (c.listed e).Nodup := by
  obtain ⟨oid,served⟩ := e
  cases served with
  | security => exact ListsInstances.nodup c.objects.security
  | server => exact ListsInstances.nodup c.objects.server
  | device => exact ListsInstances.nodup c.objects.device
  | connectivity => exact ListsInstances.nodup c.objects.connectivity
  | firmwareUpdate => exact ListsInstances.nodup c.objects.firmwareUpdate
  | added object => exact ListsInstances.nodup object

theorem mem_listed (c : Client U) (oid iid : UInt16) (served : Served U) :
    iid ∈ c.listed ⟨oid,served⟩ ↔ c.objects.Holds (fun o => Object.hasInstance o iid = true) served := by
  cases served with
  | security => exact ListsInstances.mem c.objects.security iid
  | server => exact ListsInstances.mem c.objects.server iid
  | device => exact ListsInstances.mem c.objects.device iid
  | connectivity => exact ListsInstances.mem c.objects.connectivity iid
  | firmwareUpdate => exact ListsInstances.mem c.objects.firmwareUpdate iid
  | added object => exact ListsInstances.mem object iid

theorem mem_instancePaths (c : Client U) (path : ObjectPath) : path ∈ c.instancePaths ↔ c.Serves path := by
  unfold instancePaths Serves
  rw [List.mem_flatMap]
  constructor
  · rintro ⟨⟨oid,served⟩,entry,inside⟩
    obtain ⟨iid,listed,rfl⟩ := List.mem_map.mp inside
    exact ⟨oid,iid,served,rfl,AList.mem_lookup_iff.mpr entry,(mem_listed c oid iid served).mp listed⟩
  · rintro ⟨oid,iid,served,rfl,found,has⟩
    refine ⟨⟨oid,served⟩,AList.mem_lookup_iff.mp found,List.mem_map.mpr ⟨iid,?_,rfl⟩⟩
    exact (mem_listed c oid iid served).mpr has

/-- The objects stand under different ids, and an object lists no instance twice. -/
theorem nodup_instancePaths (c : Client U) : c.instancePaths.Nodup := by
  refine List.nodup_flatMap.mpr ⟨?_,?_⟩
  · intro e _
    refine (nodup_listed c e).map ?_
    rintro iid iid' ⟨⟩
    rfl
  · have distinct : c.objects.table.entries.Pairwise (fun e e' => e.1 ≠ e'.1) :=
      List.pairwise_map.mp c.objects.table.nodupKeys
    refine distinct.imp ?_
    intro e e' different path inside inside'
    obtain ⟨iid,-,rfl⟩ := List.mem_map.mp inside
    obtain ⟨iid',-,same⟩ := List.mem_map.mp inside'
    exact different (congrArg ObjectPath.objectId same).symm

theorem advertises_served (c : Client U) : c.AdvertisesServed := by
  have printed {path : ObjectPath} (member : path ∈ c.instancePaths) : ObjectPath.parse path.toString = some path :=
    ObjectPath.parse_printed (instancePath_gapless member)
  refine ⟨?_,?_,?_⟩
  · rw [advertised_eq]
    refine (nodup_instancePaths c).map_on ?_
    intro path member path' member' same
    have parsed := printed member
    rw [same, printed member'] at parsed
    exact (Option.some.inj parsed).symm
  · intro text member
    rw [advertised_eq] at member
    obtain ⟨path,inside,rfl⟩ := List.mem_map.mp member
    exact ⟨path,printed inside,(mem_instancePaths c path).mp inside⟩
  · intro path served
    have inside := (mem_instancePaths c path).mpr served
    rw [advertised_eq]
    refine ⟨path.toString,⟨List.mem_map_of_mem inside,printed inside⟩,?_⟩
    rintro text ⟨member,parsed⟩
    obtain ⟨path',inside',rfl⟩ := List.mem_map.mp member
    rw [printed inside'] at parsed
    rw [Option.some.inj parsed]

end

theorem advertises_served_sample : sampleClient.AdvertisesServed := advertises_served sampleClient

end Client

end Ferriot
