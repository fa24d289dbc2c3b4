import Ferriot.IncomingRequests

/-!
# Requests to other objects

Every object of a client answers as if the requests to the other objects had not been
made: the answers depend on the requests to the object alone, in whatever order the
requests of the servers come in.
-/
namespace Ferriot
open Tables Requests Runs

/-- An object as the table leads to it. -/
inductive Content (U : Type) where
  | security (o : SecurityObject)
  | server (o : ServerObject)
  | device (o : DeviceObject)
  | connectivity (o : ConnectivityObject)
  | firmwareUpdate (o : Firmware.FirmwareUpdateObject)
  | added (object : U)

/-- A call of the object. -/
def Content.call {U α : Type} [Object U] (f : {σ : Type} → [Object σ] → σ → α × σ) : Content U → α × Content U
  | .security o => ((f o).1,.security (f o).2)
  | .server o => ((f o).1,.server (f o).2)
  | .device o => ((f o).1,.device (f o).2)
  | .connectivity o => ((f o).1,.connectivity (f o).2)
  | .firmwareUpdate o => ((f o).1,.firmwareUpdate (f o).2)
  | .added object => ((f object).1,.added (f object).2)

namespace Objects
variable {U : Type}

/-- What a pointer of the table leads to. -/
def behind (c : Objects U) : Served U → Content U
  | .security => .security c.security
  | .server => .server c.server
  | .device => .device c.device
  | .connectivity => .connectivity c.connectivity
  | .firmwareUpdate => .firmwareUpdate c.firmwareUpdate
  | .added object => .added object

def content (c : Objects U) (oid : UInt16) : Option (Content U) := (c.table.lookup oid).map c.behind

/-- The id under which the client enters an object of its own. -/
def Own (oid : UInt16) : Served U → Prop
  | .security => oid = 0
  | .server => oid = 1
  | .device => oid = 3
  | .connectivity => oid = 4
  | .firmwareUpdate => oid = 5
  | .added _ => True

/-- The objects of the client stand under no id but their own. -/
def InPlace (c : Objects U) : Prop := ∀ oid served, c.table.lookup oid = some served → Own oid served

theorem inPlace_start {c : Objects U} (table : c.table = ({} : Objects U).table) : c.InPlace := by
  intro oid served found
  rw [table] at found
  simp only [lookup_set, AList.lookup_empty] at found
  split_ifs at found with five four three one zero <;> cases found
  · exact five
  · exact four
  · exact three
  · exact one
  · exact zero

theorem own_unique {a b : UInt16} {served : Served U} (own : ∀ object, served ≠ .added object) (first : Own a served)
    (second : Own b served) : a = b := by
  cases served with
  | added object => exact absurd rfl (own object)
  | _ => exact Eq.trans first (Eq.symm second)

variable [Object U]

/-- Objects that the application adds change nothing about that. -/
theorem inPlace_addObject {c : Objects U} (inPlace : c.InPlace) (object : U) : (c.addObject object).InPlace := by
  intro oid served found
  simp only [addObject, lookup_set] at found
  split_ifs at found
  · cases found
    trivial
  · exact inPlace oid served found

/-- A call of an object of the client changes that object, and nothing else. -/
theorem call_own {α : Type} (c : Objects U) (oid : UInt16) {served : Served U} (own : ∀ object, served ≠ .added object)
    (f : {σ : Type} → [Object σ] → σ → α × σ) :
    (c.call oid f served).2.table = c.table ∧ (c.call oid f served).2.behind served = ((c.behind served).call f).2 ∧
      ∀ s, s ≠ served → (c.call oid f served).2.behind s = c.behind s := by
  cases served with
  | added object => exact absurd rfl (own object)
  | _ =>
    refine ⟨rfl,rfl,?_⟩
    intro s differs
    cases s <;> first | rfl | exact absurd rfl differs

theorem call_answer {α : Type} (c : Objects U) (oid : UInt16) (served : Served U) (f : {σ : Type} → [Object σ] → σ → α × σ) :
    (c.call oid f served).1 = ((c.behind served).call f).1 := by
  cases served <;> rfl

/-- A call through a pointer is a call of what it leads to, and touches nothing else. -/
theorem call_content {α : Type} {c : Objects U} (inPlace : c.InPlace) {oid : UInt16} {served : Served U}
    (found : c.getObject oid = some served) (f : {σ : Type} → [Object σ] → σ → α × σ) :
    (c.call oid f served).2.InPlace ∧
      ∀ other, (c.call oid f served).2.content other = if other = oid then some ((c.behind served).call f).2 else c.content other := by
  have found : c.table.lookup oid = some served := found
  by_cases added : ∃ object, served = .added object
  · obtain ⟨object,rfl⟩ := added
    refine ⟨?_,?_⟩
    · intro other s entry
      simp only [call, lookup_set] at entry
      split_ifs at entry
      · cases entry
        trivial
      · exact inPlace other s entry
    · intro other
      simp only [content, call, lookup_set]
      split_ifs
      · rfl
      · rfl
  · have own : ∀ object, served ≠ .added object := fun object same => added ⟨object,same⟩
    obtain ⟨table,changed,others⟩ := call_own c oid own f
    refine ⟨?_,?_⟩
    · intro other s entry
      rw [table] at entry
      exact inPlace other s entry
    · intro other
      simp only [content, table]
      by_cases here : other = oid
      · rw [if_pos here, here, found, Option.map_some, changed]
      · rw [if_neg here]
        cases entry : c.table.lookup other with
        | none => rfl
        | some s =>
          have differs : s ≠ served := by
            rintro rfl
            exact here (own_unique own (inPlace other s entry) (inPlace oid s found))
          exact congrArg some (others s differs)

/-- The answer to a PDU and the update it triggers, if the handler is called. -/
def serve [OptionNumbers] (request : Moments × RequestPdu) (c : Objects U) : (ResponsePdu × Option Trigger) × Objects U :=
  let (response,after) := c.answerPdu request.1 request.2
  ((response,after.map Prod.fst),(after.map Prod.snd).getD c)

/-- The answer of one object, or of none, to a PDU that leads to a path, and the object after it. -/
def reply [OptionNumbers] (request : Moments × RequestPdu) (path : ObjectPath) (content : Option (Content U)) :
    (ResponsePdu × Option Trigger) × Option (Content U) :=
  match request.2.method with
  | none => (({ code := some .MethodNotAllowed },none),content)
  | some method =>
    if method = .Delete ∧ !path.isInstance then (({ code := some .MethodNotAllowed },some none),content)
    else
      match content with
      | none => (({ code := some .NotFound },some none),none)
      | some o =>
        let ((response,trigger),o) := o.call (fun o => process request.1 (request.2.request method) path o)
        ((response.pdu,some trigger),some o)

/-- The client answers a PDU by the object that it leads to, and leaves all others alone. -/
theorem serve_reply [OptionNumbers] {c : Objects U} (inPlace : c.InPlace) (request : Moments × RequestPdu) {path : ObjectPath}
    (parsed : ObjectPath.parse request.2.uriPath = some path) :
    (serve request c).1 = (reply request path (c.content path.objectId)).1 ∧ (serve request c).2.InPlace ∧
      ∀ oid, (serve request c).2.content oid =
        if oid = path.objectId then (reply request path (c.content path.objectId)).2 else c.content oid := by
  have unchanged (oid : UInt16) : c.content oid = if oid = path.objectId then c.content path.objectId else c.content oid := by
    split_ifs with same
    · rw [same]
    · rfl
  cases known : request.2.method with
  | none =>
    have served : serve request c = (({ code := some .MethodNotAllowed },none),c) := by
      simp only [serve, answerPdu, incomingRequestHandler, known]
      rfl
    have replied : reply request path (c.content path.objectId) = (({ code := some .MethodNotAllowed },none),c.content path.objectId) := by
      simp only [reply, known]
    rw [served, replied]
    exact ⟨rfl,inPlace,unchanged⟩
  | some method =>
    have parsed : ObjectPath.parse (request.2.request method).uriPath = some path := parsed
    by_cases refused : method = .Delete ∧ (!path.isInstance) = true
    · have refused' : (request.2.request method).method = .Delete ∧ (!path.isInstance) = true := refused
      have served : serve request c = (({ code := some .MethodNotAllowed },some none),c) := by
        simp only [serve, answerPdu, incomingRequestHandler, known, handleIncomingRequest, parsed]
        rw [if_pos refused']
        rfl
      have replied : reply request path (c.content path.objectId) =
          (({ code := some .MethodNotAllowed },some none),c.content path.objectId) := by
        simp only [reply, known]
        rw [if_pos refused]
      rw [served, replied]
      exact ⟨rfl,inPlace,unchanged⟩
    · have allowed : ¬ ((request.2.request method).method = .Delete ∧ (!path.isInstance) = true) := refused
      cases found : c.getObject path.objectId with
      | none =>
        have served : serve request c = (({ code := some .NotFound },some none),c) := by
          simp only [serve, answerPdu, incomingRequestHandler, known]
          rw [Client.answer_missing request.1 parsed found allowed]
          rfl
        have missing : c.content path.objectId = none := congrArg (Option.map c.behind) found
        have replied : reply request path (c.content path.objectId) = (({ code := some .NotFound },some none),c.content path.objectId) := by
          simp only [reply, known, missing]
          rw [if_neg refused]
        rw [served, replied]
        exact ⟨rfl,inPlace,unchanged⟩
      | some entry =>
        have served : serve request c =
            (((c.call path.objectId (fun o => process request.1 (request.2.request method) path o) entry).1.1.pdu,
              some (c.call path.objectId (fun o => process request.1 (request.2.request method) path o) entry).1.2),
              (c.call path.objectId (fun o => process request.1 (request.2.request method) path o) entry).2) := by
          simp only [serve, answerPdu, incomingRequestHandler, known]
          rw [answer_found parsed found allowed]
          rfl
        have there : c.content path.objectId = some (c.behind entry) := congrArg (Option.map c.behind) found
        have replied : reply request path (c.content path.objectId) =
            ((((c.behind entry).call (fun o => process request.1 (request.2.request method) path o)).1.1.pdu,
              some ((c.behind entry).call (fun o => process request.1 (request.2.request method) path o)).1.2),
              some ((c.behind entry).call (fun o => process request.1 (request.2.request method) path o)).2) := by
          simp only [reply, known, there]
          rw [if_neg refused]
        obtain ⟨after,contents⟩ := call_content inPlace found (fun o => process request.1 (request.2.request method) path o)
        rw [served, replied, call_answer]
        exact ⟨rfl,after,contents⟩

/-- A PDU that leads nowhere is refused, and every client refuses it alike. -/
theorem serve_nowhere [OptionNumbers] (request : Moments × RequestPdu) (nowhere : ObjectPath.parse request.2.uriPath = none) :
    ∃ answer, ∀ c : Objects U, serve request c = (answer,c) := by
  cases known : request.2.method with
  | none =>
    refine ⟨({ code := some .MethodNotAllowed },none),?_⟩
    intro c
    simp only [serve, answerPdu, incomingRequestHandler, known]
    rfl
  | some method =>
    refine ⟨({ code := some .BadRequest },some none),?_⟩
    intro c
    have refused : ObjectPath.parse (request.2.request method).uriPath = none := nowhere
    simp only [serve, answerPdu, incomingRequestHandler, known, handleIncomingRequest, refused]
    rfl

/-- Two clients show the same under the ids. -/
structure SameUnder (ids : UInt16 → Bool) (c c' : Objects U) : Prop where
  left : c.InPlace
  right : c'.InPlace
  same : ∀ oid, ids oid = true → c.content oid = c'.content oid

/-- The request is for one of the objects, or for none at all. -/
def concerns (ids : UInt16 → Bool) (request : Moments × RequestPdu) : Bool :=
  match ObjectPath.parse request.2.uriPath with
  | none => true
  | some path => ids path.objectId

theorem serve_alike [OptionNumbers] {ids : UInt16 → Bool} {request : Moments × RequestPdu} {c c' : Objects U}
    (concerned : concerns ids request = true) (same : SameUnder ids c c') :
    (serve request c).1 = (serve request c').1 ∧ SameUnder ids (serve request c).2 (serve request c').2 := by
  cases parsed : ObjectPath.parse request.2.uriPath with
  | none =>
    obtain ⟨answer,served⟩ := serve_nowhere (U := U) request parsed
    rw [served, served]
    exact ⟨rfl,same⟩
  | some path =>
    simp only [concerns, parsed] at concerned
    have here := same.same path.objectId concerned
    obtain ⟨answered,inPlace,contents⟩ := serve_reply same.left request parsed
    obtain ⟨answered',inPlace',contents'⟩ := serve_reply same.right request parsed
    refine ⟨by rw [answered, answered', here],inPlace,inPlace',?_⟩
    intro oid inside
    rw [contents, contents', here, same.same oid inside]

theorem serve_unseen [OptionNumbers] {ids : UInt16 → Bool} {request : Moments × RequestPdu} {c c' : Objects U}
    (other : concerns ids request = false) (same : SameUnder ids c c') : SameUnder ids (serve request c).2 c' := by
  cases parsed : ObjectPath.parse request.2.uriPath with
  | none =>
    simp only [concerns, parsed] at other
    cases other
  | some path =>
    simp only [concerns, parsed] at other
    obtain ⟨-,inPlace,contents⟩ := serve_reply same.left request parsed
    refine ⟨inPlace,same.right,?_⟩
    intro oid inside
    have differs : oid ≠ path.objectId := by
      rintro rfl
      rw [inside] at other
      cases other
    rw [contents, if_neg differs]
    exact same.same oid inside

/-- Requests to other objects change nothing for some objects: leave them out, and the requests to these
    objects get the same answers, trigger the same updates, and leave these objects the same. -/
theorem bystanders_unheard [OptionNumbers] (ids : UInt16 → Bool) {c : Objects U} (inPlace : c.InPlace)
    (requests : List (Moments × RequestPdu)) :
    answersTo (concerns ids) requests (answers serve requests c).1 = (answers serve (requests.filter (concerns ids)) c).1 ∧
      ∀ oid, ids oid = true →
        (answers serve requests c).2.content oid = (answers serve (requests.filter (concerns ids)) c).2.content oid := by
  have start : SameUnder ids c c := ⟨inPlace,inPlace,fun _ _ => rfl⟩
  obtain ⟨same,after⟩ := answers_without (R := SameUnder ids) (fun _ _ _ => serve_alike) (fun _ _ _ => serve_unseen) requests start
  exact ⟨same,after.same⟩

/-- A server deletes the account of another one. -/
def deleteAccountPdu : RequestPdu := { code := 4, options := [(11,lit ['1']), (11,lit ['0'])] }

/-- The deletion of an account between two reads of the firmware. -/
def readsAndDeletion : List (Moments × RequestPdu) :=
  [(fun _ => {},Client.getFirmwarePdu), (fun _ => {},deleteAccountPdu), (fun _ => {},Client.getFirmwarePdu)]

theorem sampleClient_objectsInPlace : sampleClient.objects.InPlace := inPlace_start rfl

def firmwareOnly (oid : UInt16) : Bool := oid == 5

attribute [local instance] bigEndianNumbers

theorem bystanders_unheard_firmware :
    answersTo (concerns firmwareOnly) readsAndDeletion (answers serve readsAndDeletion sampleClient.objects).1 =
        (answers serve (readsAndDeletion.filter (concerns firmwareOnly)) sampleClient.objects).1 ∧
      ∀ oid, firmwareOnly oid = true → (answers serve readsAndDeletion sampleClient.objects).2.content oid =
        (answers serve (readsAndDeletion.filter (concerns firmwareOnly)) sampleClient.objects).2.content oid :=
  bystanders_unheard firmwareOnly sampleClient_objectsInPlace readsAndDeletion

end Objects

end Ferriot
