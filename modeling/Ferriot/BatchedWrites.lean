import Ferriot.ReadAnswers

/-!
# Payloads one after the other

A payload that decodes, with anything after it, decodes to its records and then to
those of the rest. So an instance write may be split between two records or batched,
and it is refused as a whole, before anything is written, if its rest does not decode.
-/
namespace Ferriot

namespace Tlv
open Framing

theorem decode_front {front : Bytes} {first : List TlvRecord} (done : decode front = .ok first) (back : Bytes) :
    decode (front ++ back) = (decode back).map (first ++ ·) :=
  (parseRecord_exact (decodeLevels 8)).readAll_append done back

/-- A payload that is cut decodes to the records before the cut and those after it, or its front ends inside
    a record and fails as malformed. -/
theorem decode_cut (front back : Bytes) :
    (∃ first, decode front = .ok first ∧ decode (front ++ back) = (decode back).map (first ++ ·)) ∨
      EndsInside front ∧ ∃ e, decode front = .error e ∧ e.code = .DecodingError := by
  cases done : decode front with
  | ok first => exact .inl ⟨first,rfl,decode_front done back⟩
  | error e => exact .inr ⟨decodeLevels_refused done,e,rfl,decodeLevels_error done⟩

end Tlv

open Tables Requests

/-- The moments after so many. -/
def Moments.after (moments : Moments) (n : Nat) : Moments := fun k => moments (k + n)

namespace Requests
variable {σ : Type} [Object σ]

theorem writeRecords_append (iid : UInt16) (moments : Moments) (first others : List Tlv.TlvRecord) (o : σ) :
    writeRecords iid moments (first ++ others) o =
      writeRecords iid (moments.after first.length) others (writeRecords iid moments first o) := by
  induction first generalizing moments o with
  | nil => rfl
  | cons record first ih =>
    rw [List.cons_append, writeRecords, ih]
    rfl

/-- An instance write of a payload that goes on after some records. -/
theorem process_batched (moments : Moments) {path : ObjectPath} (names : path.isInstance = true) {front : Bytes}
    {first : List Tlv.TlvRecord} (decoded : Tlv.decode front = .ok first) (request : CoapRequest)
    (put : request.method = .Put) (back : Bytes) (o : σ) :
    process moments { request with payload := front ++ back } path o =
      match Tlv.decode back with
      | .error _ => (({ code := some .BadRequest },none),o)
      | .ok _ =>
        process (moments.after first.length) { request with payload := back } path
          (process moments { request with payload := front } path o).2 := by
  have single : path.isResource = false := by
    simp only [ObjectPath.isInstance, ObjectPath.isResource, Bool.and_eq_true, Option.isNone_iff_eq_none] at names ⊢
    simp [names.2]
  have whole := Tlv.decode_front decoded back
  simp only [process, put, processWrite, whole, decoded, names, single, Bool.false_eq_true, ↓reduceIte]
  cases rest : Tlv.decode back with
  | error e => rfl
  | ok others =>
    simp only [Except.map]
    rw [writeRecords_append]

theorem process_written {moments : Moments} {path : ObjectPath} (names : path.isInstance = true) {request : CoapRequest}
    (put : request.method = .Put) {records : List Tlv.TlvRecord} (decoded : Tlv.decode request.payload = .ok records) (o : σ) :
    (process moments request path o).1 = ({ code := some .Changed },none) := by
  have single : path.isResource = false := by
    simp only [ObjectPath.isInstance, ObjectPath.isResource, Bool.and_eq_true, Option.isNone_iff_eq_none] at names ⊢
    simp [names.2]
  simp only [process, put, processWrite, decoded, names, single, Bool.false_eq_true, ↓reduceIte]

end Requests

namespace Objects
variable {U : Type} [Object U]

/-- Two calls through a pointer, the second of what the first has left. -/
theorem call_then {α : Type} {c : Objects U} {oid : UInt16} {served : Served U} (found : c.getObject oid = some served)
    (f g : {σ : Type} → [Object σ] → σ → α × σ) :
    ∃ served', (c.call oid f served).2.getObject oid = some served' ∧
      (c.call oid f served).2.call oid g served' = c.call oid (fun o => g (f o).2) served := by
  cases served with
  | added object =>
    have present : oid ∈ c.table := AList.lookup_isSome.mp (by rw [show c.table.lookup oid = _ from found]; rfl)
    refine ⟨.added (f object).2,?_,?_⟩
    · simp only [getObject, call, lookup_set, ↓reduceIte]
    · simp only [call]
      rw [set_set present]
  | _ => exact ⟨_,found,rfl⟩

theorem call_congr {α : Type} (c : Objects U) (oid : UInt16) (served : Served U) {f g : {σ : Type} → [Object σ] → σ → α × σ}
    (same : ∀ {σ : Type} [Object σ] (o : σ), f o = g o) : c.call oid f served = c.call oid g served := by
  cases served <;> simp only [call, same]

end Objects

/-- An instance write whose payload decodes up to a point: if the rest decodes too, it is two writes, one
    after the other; if it does not, nothing is written. -/
theorem batched_writes [OptionNumbers] {U : Type} [Object U] (moments : Moments) (c : Objects U)
    {pdu : RequestPdu} (put : pdu.code = 3) {path : ObjectPath} (leads : ObjectPath.Leads pdu.pathPieces path)
    (names : path.isInstance = true) (there : c.getObject path.objectId ≠ none) {front back : Bytes} {first : List Tlv.TlvRecord}
    (decoded : Tlv.decode front = .ok first) :
    (∀ e, Tlv.decode back = .error e →
      c.answerPdu moments { pdu with payload := front ++ back } = ({ code := some .BadRequest },some (none,c))) ∧
    (∀ others, Tlv.decode back = .ok others →
      ∃ c', c.answerPdu moments { pdu with payload := front } = ({ code := some .Changed },some (none,c')) ∧
        c.answerPdu moments { pdu with payload := front ++ back } =
          c'.answerPdu (moments.after first.length) { pdu with payload := back }) := by
  obtain ⟨served,found⟩ := Option.ne_none_iff_exists'.mp there
  have method (payload : Bytes) : ({ pdu with payload := payload } : RequestPdu).method = some .Put := by
    simp [RequestPdu.method, put]
  have leads (payload : Bytes) : ObjectPath.Leads ({ pdu with payload := payload } : RequestPdu).pathPieces path := leads
  refine ⟨?_,?_⟩
  · intro e failed
    have refused {σ : Type} [Object σ] (o : σ) :
        process moments (({ pdu with payload := front ++ back } : RequestPdu).request .Put) path o =
          (({ code := some .BadRequest },none),o) := by
      have batched := process_batched moments names decoded (pdu.request .Put) rfl back o
      rwa [failed] at batched
    have fixed := (Objects.call_fixed found
      (fun o => process moments (({ pdu with payload := front ++ back } : RequestPdu).request .Put) path o)
      (· = ({ code := some .BadRequest },none))).mpr
        (Objects.holds_all c served (fun o => ⟨congrArg Prod.fst (refused o),congrArg Prod.snd (refused o)⟩))
    rw [answerPdu_found moments (method _) (leads _) (by simp) found, fixed.1, fixed.2]
    rfl
  · intro others rest
    have written {σ : Type} [Object σ] (o : σ) :
        (process moments (({ pdu with payload := front } : RequestPdu).request .Put) path o).1 = ({ code := some .Changed },none) :=
      process_written names rfl decoded o
    have batched {σ : Type} [Object σ] (o : σ) :
        process moments (({ pdu with payload := front ++ back } : RequestPdu).request .Put) path o =
          process (moments.after first.length) (({ pdu with payload := back } : RequestPdu).request .Put) path
            (process moments (({ pdu with payload := front } : RequestPdu).request .Put) path o).2 := by
      have batched := process_batched moments names decoded (pdu.request .Put) rfl back o
      rwa [rest] at batched
    obtain ⟨served',found',twice⟩ := Objects.call_then found
      (fun o => process moments (({ pdu with payload := front } : RequestPdu).request .Put) path o)
      (fun o => process (moments.after first.length) (({ pdu with payload := back } : RequestPdu).request .Put) path o)
    have answered := Objects.call_forall c path.objectId served
      (P := fun a : CoapResponse × Trigger => a = ({ code := some .Changed },none)) written
    refine ⟨(c.call path.objectId
      (fun o => process moments (({ pdu with payload := front } : RequestPdu).request .Put) path o) served).2,?_,?_⟩
    · rw [answerPdu_found moments (method _) (leads _) (by simp) found, answered]
      rfl
    · rw [answerPdu_found moments (method _) (leads _) (by simp) found,
        answerPdu_found (moments.after first.length) (method _) (leads _) (by simp) found', twice,
        Objects.call_congr c path.objectId served batched]

/-- The Lifetime and the Binding of an account, in one payload or in two. -/
def putBoth : RequestPdu := { code := 3, options := [(11,lit ['1']), (11,lit ['0'])] }

def lifetimeRecord : Bytes := [0xC1, 0x01, 0x3C]

def bindingRecord : Bytes := [0xC1, 0x07, 0x55]

attribute [local instance] bigEndianNumbers

theorem batched_writes_account :
    (∀ e, Tlv.decode bindingRecord = .error e →
      sampleClient.objects.answerPdu (fun _ => {}) { putBoth with payload := lifetimeRecord ++ bindingRecord } =
        ({ code := some .BadRequest },some (none,sampleClient.objects))) ∧
    (∀ others, Tlv.decode bindingRecord = .ok others →
      ∃ c', sampleClient.objects.answerPdu (fun _ => {}) { putBoth with payload := lifetimeRecord } =
          ({ code := some .Changed },some (none,c')) ∧
        sampleClient.objects.answerPdu (fun _ => {}) { putBoth with payload := lifetimeRecord ++ bindingRecord } =
          c'.answerPdu (Moments.after (fun _ => {}) 1) { putBoth with payload := bindingRecord }) :=
  batched_writes (fun _ => {}) sampleClient.objects (show putBoth.code = 3 from rfl)
    ((putBoth.parse_uriPath ⟨1,some 0,none,none⟩).mp (by decide)) rfl (by decide)
    (show Tlv.decode lifetimeRecord = .ok [⟨.Resource,1,[0x3C],[]⟩] from rfl)

end Ferriot
