import Ferriot.RegistrationPayload

/-!
# Requests on the wire

`incoming_request_handler` makes a request of a PDU: the code names the method, the
Uri-Path options are joined to a path, and the last Content-Format that is not empty
counts. Which PDUs lead to which path is decided by the pieces that the slashes cut,
inside the options and between them.
-/
namespace Ferriot
open Tables Requests Delimited

/-- libcoap's numbers in options: `coap_decode_var_bytes` reads what `coap_encode_var_safe` writes into
    two bytes. -/
class OptionNumbers where
  coapDecodeVarBytes : Bytes → UInt32
  coapEncodeVarSafe : UInt16 → Bytes
  decode_encode : ∀ value, (coapDecodeVarBytes (coapEncodeVarSafe value)).toUInt16 = value

open OptionNumbers

/-- Big-endian, without leading zeros. -/
@[reducible] def bigEndianNumbers : OptionNumbers where
  coapDecodeVarBytes bytes := bytes.foldl (fun n b => (n <<< 8) + b.toUInt32) 0
  coapEncodeVarSafe value :=
    if value = 0 then [] else if value < 256 then [value.toUInt8] else [(value >>> 8).toUInt8, value.toUInt8]
  decode_encode := by
    intro value
    have bound := value.toNat_lt
    apply UInt16.toNat_inj.mp
    split_ifs with zero short
    · subst zero
      rfl
    · have short : value.toNat < 256 := UInt16.lt_iff_toNat_lt.mp short
      simp only [List.foldl_cons, List.foldl_nil, UInt32.toNat_toUInt16, UInt32.toNat_add, UInt32.toNat_shiftLeft,
        UInt8.toNat_toUInt32, UInt16.toNat_toUInt8]
      simp
      omega
    · simp only [List.foldl_cons, List.foldl_nil, UInt32.toNat_toUInt16, UInt32.toNat_add, UInt32.toNat_shiftLeft,
        UInt8.toNat_toUInt32, UInt16.toNat_toUInt8, UInt16.toNat_shiftRight]
      simp [Nat.shiftLeft_eq, Nat.shiftRight_eq_div_pow]
      omega

/-- A request PDU: code, options in their order, and payload. -/
structure RequestPdu where
  code : UInt8
  options : List (UInt16 × Bytes) := []
  payload : Bytes := []
deriving DecidableEq, Repr

/-- A response PDU. The code is unknown where the handler has left it without a value. -/
structure ResponsePdu where
  code : Option CoapCode
  options : List (UInt16 × Bytes) := []
  payload : Bytes := []
deriving DecidableEq, Repr

namespace RequestPdu

def method (pdu : RequestPdu) : Option CoapMethod :=
  match pdu.code with
  | 1 => some .Get
  | 2 => some .Post
  | 3 => some .Put
  | 4 => some .Delete
  | _ => none

/-- A Uri-Path option is appended to the path. -/
def appendPath (uriPath : Bytes) (option : UInt16 × Bytes) : Bytes :=
  if option.1 = CoapOption.UriPath then joinNext ObjectPath.slash uriPath option.2 else uriPath

/-- The path of the request, after a slash unless it is empty. -/
def uriPath (pdu : RequestPdu) : Bytes :=
  let uriPath := pdu.options.foldl appendPath []
  if uriPath.isEmpty then uriPath else ObjectPath.slash :: uriPath

/-- A Content-Format option with a value; `static_cast` cuts it to 16 bits. -/
def takeFormat [OptionNumbers] (format : ContentFormat) (option : UInt16 × Bytes) : ContentFormat :=
  if option.1 = CoapOption.ContentFormat ∧ 0 < option.2.length then ⟨(coapDecodeVarBytes option.2).toUInt16⟩ else format

def contentFormat [OptionNumbers] (pdu : RequestPdu) : ContentFormat := pdu.options.foldl takeFormat .TlvLwm2m

/-- The request that the handler gets. -/
def request [OptionNumbers] (pdu : RequestPdu) (method : CoapMethod) : CoapRequest :=
  { method := method, uriPath := pdu.uriPath, payload := pdu.payload, contentFormat := pdu.contentFormat }

/-- The values of the Uri-Path options. -/
def segments (pdu : RequestPdu) : List Bytes := (pdu.options.filter (fun o => o.1 = CoapOption.UriPath)).map Prod.snd

/-- The pieces of the path: empty options at the front are passed over, and a slash inside an
    option cuts it. -/
def pathPieces (pdu : RequestPdu) : List Bytes :=
  (pdu.segments.dropWhile List.isEmpty).flatMap (·.splitOn ObjectPath.slash)

end RequestPdu

/-- The response as a PDU: a Content-Format goes only with a payload. -/
def CoapResponse.pdu [OptionNumbers] (r : CoapResponse) : ResponsePdu :=
  if r.payload.isEmpty then { code := r.code }
  else { code := r.code, options := [(CoapOption.ContentFormat,coapEncodeVarSafe r.contentFormat.value)], payload := r.payload }

/-- `incoming_request_handler`, with the request handler if one is set. The second part is what
    the handler leaves, if it is called. -/
def incomingRequestHandler [OptionNumbers] {α : Type} (handler : Option (CoapRequest → CoapResponse × α)) (pdu : RequestPdu) :
    ResponsePdu × Option α :=
  match handler with
  | none => ({ code := some .NotFound },none)
  | some handler =>
    match pdu.method with
    | none => ({ code := some .MethodNotAllowed },none)
    | some method =>
      let (response,after) := handler (pdu.request method)
      (response.pdu,some after)

namespace ObjectPath

/-- A text of numbers is made of their segments. -/
theorem spells_iff (text : Bytes) (values : List UInt16) :
    Spells text values ↔ ∃ segments, List.Forall₂ Number segments values ∧ text = segments.flatMap (slash :: ·) := by
  constructor
  · intro spells
    induction spells with
    | nil => exact ⟨[],.nil,rfl⟩
    | cons number _ ih =>
      obtain ⟨segments,all,rfl⟩ := ih
      exact ⟨_ :: segments,.cons number all,rfl⟩
  · rintro ⟨segments,all,rfl⟩
    induction all with
    | nil => exact .nil
    | cons number _ ih => exact .cons number ih

theorem numbers_free {segments : List Bytes} {values : List UInt16} (all : List.Forall₂ Number segments values) :
    ∀ segment ∈ segments, slash ∉ segment := by
  induction all with
  | nil => simp
  | cons number _ ih =>
    rintro segment member
    rcases List.mem_cons.mp member with rfl | later
    · exact fun inside => number.unslashed slash inside rfl
    · exact ih segment later

/-- The text after a slash spells numbers exactly if its pieces are numbers. -/
theorem spells_pieces (body : Bytes) (values : List UInt16) :
    Spells (slash :: body) values ↔ List.Forall₂ Number (body.splitOn slash) values := by
  constructor
  · intro spells
    obtain ⟨segments,all,same⟩ := (spells_iff _ _).mp spells
    cases segments with
    | nil => cases same
    | cons first others =>
      have body_eq : body = [slash].intercalate (first :: others) := by
        rw [intercalate_eq_flatMap]
        exact (List.cons.inj same).2
      rwa [body_eq, List.splitOn_intercalate slash (numbers_free all) (List.cons_ne_nil _ _)]
  · intro all
    exact (spells_iff _ _).mpr ⟨_,all,(flatMap_splitOn slash body).symm⟩

/-- The pieces lead to the path: all of them are numbers, at most four, or the first four are and
    the last of the others is not empty. -/
def Leads (pieces : List Bytes) (path : ObjectPath) : Prop :=
  ∃ values, Denotes values path ∧
    (values.length ≤ 4 ∧ List.Forall₂ Number pieces values ∨
      values.length = 4 ∧ ∃ numbers more, pieces = numbers ++ more ∧ List.Forall₂ Number numbers values ∧ more ≠ [] ∧
        more.getLast? ≠ some [])

theorem splitOn_free {l piece : Bytes} (member : piece ∈ l.splitOn slash) : slash ∉ piece := by
  by_cases empty : piece = []
  · simp [empty]
  · have kept : piece ∈ pieces slash l := List.mem_filter.mpr ⟨member,by simpa using empty⟩
    exact (mem_pieces kept).2.1

theorem goesOn_pieces (body : Bytes) (values : List UInt16) :
    GoesOn (slash :: body) values ↔
      values.length = 4 ∧ ∃ numbers more, body.splitOn slash = numbers ++ more ∧ List.Forall₂ Number numbers values ∧
        more ≠ [] ∧ more.getLast? ≠ some [] := by
  constructor
  · rintro ⟨four,front,rest,same,spells,written,last⟩
    obtain ⟨numbers,rfl⟩ : ∃ numbers, front = slash :: numbers := by
      cases spells with
      | nil => cases four
      | cons number more => exact ⟨_,rfl⟩
    have cut : body = numbers ++ slash :: rest := (List.cons.inj same).2
    refine ⟨four,numbers.splitOn slash,rest.splitOn slash,?_,(spells_pieces _ _).mp spells,List.splitOn_ne_nil _ _,?_⟩
    · rw [cut, List.splitOn_append_cons_self]
    · rw [ne_eq, getLast?_splitOn]
      rintro (empty | ends)
      · exact written empty
      · exact last ends
  · rintro ⟨four,numbers,more,cut,all,some,last⟩
    have spells : Spells (numbers.flatMap (slash :: ·)) values := (spells_iff _ _).mpr ⟨numbers,all,rfl⟩
    have free : ∀ piece ∈ more, slash ∉ piece :=
      fun piece member => splitOn_free (cut ▸ List.mem_append_right numbers member)
    have text := flatMap_splitOn slash body
    rw [cut, List.flatMap_append] at text
    obtain ⟨first,others,rfl⟩ := List.exists_cons_of_ne_nil some
    have rest := intercalate_eq_flatMap slash first others
    have pieces := List.splitOn_intercalate slash free some
    refine ⟨four,_,[slash].intercalate (first :: others),?_,spells,?_,?_⟩
    · rw [← text, rest]
      rfl
    · intro empty
      refine last ?_
      rw [← pieces]
      exact (getLast?_splitOn slash _).mpr (.inl empty)
    · intro ends
      refine last ?_
      rw [← pieces]
      exact (getLast?_splitOn slash _).mpr (.inr ends)

theorem parse_pieces (body : Bytes) (path : ObjectPath) :
    parse (slash :: body) = some path ↔ Leads (body.splitOn slash) path := by
  constructor
  · intro parsed
    obtain ⟨values,denotes,⟨bound,spells⟩ | goesOn⟩ := parse_sound parsed
    · exact ⟨values,denotes,.inl ⟨bound,(spells_pieces _ _).mp spells⟩⟩
    · exact ⟨values,denotes,.inr ((goesOn_pieces _ _).mp goesOn)⟩
  · rintro ⟨values,denotes,⟨bound,all⟩ | goesOn⟩
    · exact parse_complete denotes (.inl ⟨bound,(spells_pieces _ _).mpr all⟩)
    · exact parse_complete denotes (.inr ((goesOn_pieces _ _).mpr goesOn))

theorem not_leads_nil (path : ObjectPath) : ¬ Leads [] path := by
  rintro ⟨values,denotes,⟨-,all⟩ | ⟨-,numbers,more,empty,-,some,-⟩⟩
  · cases all
    cases denotes.object
  · exact some (List.append_eq_nil_iff.mp empty.symm).2

end ObjectPath

namespace RequestPdu

/-- The loop over the options joins the segments. -/
theorem foldl_appendPath (options : List (UInt16 × Bytes)) (uriPath : Bytes) :
    options.foldl appendPath uriPath =
      ((options.filter (fun o => o.1 = CoapOption.UriPath)).map Prod.snd).foldl (joinNext ObjectPath.slash) uriPath := by
  induction options generalizing uriPath with
  | nil => rfl
  | cons o options ih =>
    rw [List.foldl_cons, ih, appendPath]
    by_cases segment : o.1 = CoapOption.UriPath
    · simp [segment]
    · simp [segment]

/-- A PDU is taken for a path exactly if its pieces lead to it. -/
theorem parse_uriPath (pdu : RequestPdu) (path : ObjectPath) :
    ObjectPath.parse pdu.uriPath = some path ↔ ObjectPath.Leads pdu.pathPieces path := by
  have joined : pdu.options.foldl appendPath [] =
      [ObjectPath.slash].intercalate (pdu.segments.dropWhile List.isEmpty) := by
    rw [foldl_appendPath, foldl_joinNext]
    rfl
  have head := List.head?_dropWhile_not List.isEmpty pdu.segments
  unfold uriPath pathPieces
  rw [joined]
  generalize pdu.segments.dropWhile List.isEmpty = values at head ⊢
  cases values with
  | nil => exact iff_of_false (by rintro ⟨⟩) (ObjectPath.not_leads_nil path)
  | cons first others =>
    have written : first ≠ [] := by simpa using head
    have present : ([ObjectPath.slash].intercalate (first :: others)).isEmpty = false := by
      rw [intercalate_eq_flatMap]
      simp [written]
    dsimp only
    rw [present, if_neg (by simp), ← splitOn_joined]
    exact ObjectPath.parse_pieces _ path

end RequestPdu

/-! ### Answers -/

/-- The answer of the client's objects to a PDU, the registration update it triggers, and the
    objects after it. -/
def Objects.answerPdu [OptionNumbers] {U : Type} [Object U] (moments : Moments) (pdu : RequestPdu) (c : Objects U) :
    ResponsePdu × Option (Trigger × Objects U) :=
  incomingRequestHandler
    (some (fun request => let ((response,trigger),c) := handleIncomingRequest moments request c; (response,trigger,c))) pdu

/-- A PDU with a method is handled under the path that its pieces lead to. If they lead to none, it is
    refused with Bad Request, and no object is called. -/
theorem routed_exactly [OptionNumbers] {U : Type} [Object U] (moments : Moments) {pdu : RequestPdu} {method : CoapMethod}
    (known : pdu.method = some method) (c : Objects U) :
    (∀ path, ObjectPath.Leads pdu.pathPieces path ↔ ObjectPath.parse (pdu.request method).uriPath = some path) ∧
      ((¬ ∃ path, ObjectPath.Leads pdu.pathPieces path) →
        c.answerPdu moments pdu = ({ code := some .BadRequest },some (none,c))) := by
  refine ⟨fun path => (pdu.parse_uriPath path).symm,?_⟩
  intro nowhere
  have refused : ObjectPath.parse (pdu.request method).uriPath = none := by
    rw [Option.eq_none_iff_forall_ne_some]
    intro path parsed
    exact nowhere ⟨path,(pdu.parse_uriPath path).mp parsed⟩
  simp only [Objects.answerPdu, incomingRequestHandler, known, handleIncomingRequest, refused]
  rfl

section
attribute [local instance] bigEndianNumbers

/-- The option `3/0/` is cut into three pieces, the last of them empty. -/
theorem routed_exactly_slash :
    (∀ path, ObjectPath.Leads [[51], [48], []] path ↔ ObjectPath.parse (lit ['/','3','/','0','/']) = some path) ∧
      ((¬ ∃ path, ObjectPath.Leads [[51], [48], []] path) →
        (Objects.answerPdu (fun _ => {}) { code := 1, options := [(11,lit ['3','/','0','/'])] } ({} : Objects LocationObject)).1 =
          { code := some .BadRequest }) := by
  have known : ({ code := 1, options := [(11,lit ['3','/','0','/'])] } : RequestPdu).method = some .Get := rfl
  obtain ⟨exact,refused⟩ := routed_exactly (U := LocationObject) (fun _ => {}) known {}
  exact ⟨exact,fun nowhere => congrArg Prod.fst (refused nowhere)⟩

end

@[simp] theorem CoapResponse.pdu_code [OptionNumbers] (r : CoapResponse) : r.pdu.code = r.code := by
  simp only [CoapResponse.pdu]
  split <;> rfl

namespace Client
variable {U : Type} [Object U]

/-- Content for what is there, and Not Found for what is not. -/
def FoundOrNot (present : Prop) (code : Option CoapCode) : Prop :=
  (present → code = some .Content) ∧ (¬ present → code = some .NotFound)

theorem processRead_inst {σ : Type} [Object σ] (moments : Moments) (oid iid : UInt16) (o : σ) :
    FoundOrNot (Object.hasInstance o iid = true) (processRead moments ⟨oid,some iid,none,none⟩ o).1.code := by
  simp only [processRead, ObjectPath.isObject, ObjectPath.isInstance, Option.isNone_some, Option.isSome_some,
    Option.isNone_none, Bool.and_self, Bool.false_eq_true, ↓reduceIte, Option.getD_some]
  split
  · next present => exact ⟨fun _ => rfl,fun missing => absurd present missing⟩
  · next missing => exact ⟨fun present => absurd present missing,fun _ => rfl⟩

theorem answer_missing (moments : Moments) {request : CoapRequest} {c : Objects U} {path : ObjectPath}
    (parsed : ObjectPath.parse request.uriPath = some path) (missing : c.getObject path.objectId = none)
    (allowed : ¬ (request.method = .Delete ∧ (!path.isInstance) = true)) :
    handleIncomingRequest moments request c = (({ code := some .NotFound },none),c) := by
  simp only [handleIncomingRequest]
  simp only [parsed, missing]
  rw [if_neg allowed]

/-- The client answers the GET of an instance with Content exactly if it serves the instance. -/
theorem answerPdu_inst [OptionNumbers] (moments : Moments) {pdu : RequestPdu} (get : pdu.code = 1) {oid iid : UInt16}
    (leads : ObjectPath.Leads pdu.pathPieces ⟨oid,some iid,none,none⟩) (c : Client U) :
    FoundOrNot (c.Serves ⟨oid,some iid,none,none⟩) (c.objects.answerPdu moments pdu).1.code := by
  have parsed := (pdu.parse_uriPath _).mpr leads
  have method : pdu.method = some .Get := by simp [RequestPdu.method, get]
  have answered : (c.objects.answerPdu moments pdu).1.code =
      (handleIncomingRequest moments (pdu.request .Get) c.objects).1.1.code := by
    simp only [Objects.answerPdu, incomingRequestHandler, method, CoapResponse.pdu_code]
  have got : ¬ ((pdu.request .Get).method = .Delete ∧ (!ObjectPath.isInstance ⟨oid,some iid,none,none⟩) = true) := by
    rintro ⟨⟨⟩,-⟩
  have parsed : ObjectPath.parse (pdu.request .Get).uriPath = some ⟨oid,some iid,none,none⟩ := parsed
  rw [answered]
  cases found : c.objects.getObject oid with
  | none =>
    rw [answer_missing moments parsed found got]
    refine ⟨?_,fun _ => rfl⟩
    rintro ⟨_,_,served,⟨⟩,here,-⟩
    rw [found] at here
    cases here
  | some served =>
    have serves : c.Serves ⟨oid,some iid,none,none⟩ ↔ c.objects.Holds (fun o => Object.hasInstance o iid = true) served := by
      constructor
      · rintro ⟨_,_,served',⟨⟩,here,has⟩
        rw [found] at here
        cases here
        exact has
      · exact fun has => ⟨oid,iid,served,rfl,found,has⟩
    rw [answer_found parsed found got, serves]
    simp only [process, RequestPdu.request]
    cases served with
    | security => exact processRead_inst moments oid iid c.objects.security
    | server => exact processRead_inst moments oid iid c.objects.server
    | device => exact processRead_inst moments oid iid c.objects.device
    | connectivity => exact processRead_inst moments oid iid c.objects.connectivity
    | firmwareUpdate => exact processRead_inst moments oid iid c.objects.firmwareUpdate
    | added object => exact processRead_inst moments oid iid object

/-- Every GET that leads to an instance is answered with Content if a registration would advertise the
    instance, and with Not Found if it would not. -/
theorem advertised_answered [OptionNumbers] [ListsInstances U] (moments : Moments) (c : Client U)
    {pdu : RequestPdu} (get : pdu.code = 1) {path : ObjectPath} (leads : ObjectPath.Leads pdu.pathPieces path)
    (names : path.isInstance = true) :
    FoundOrNot (∃ text ∈ c.advertised, ObjectPath.parse text = some path) (c.objects.answerPdu moments pdu).1.code := by
  obtain ⟨oid,iid,rfl⟩ : ∃ oid iid, path = ⟨oid,some iid,none,none⟩ := by
    have parsed := (pdu.parse_uriPath path).mpr leads
    cases ObjectPath.parse_shape parsed with
    | object o => cases names
    | «instance» o i => exact ⟨o,i,rfl⟩
    | resource o i r => cases names
    | resourceInstance o i r ri => cases names
  have advertised : (∃ text ∈ c.advertised, ObjectPath.parse text = some ⟨oid,some iid,none,none⟩) ↔
      c.Serves ⟨oid,some iid,none,none⟩ := by
    rw [advertised_eq, ← mem_instancePaths]
    constructor
    · rintro ⟨text,member,parsed⟩
      obtain ⟨path,inside,rfl⟩ := List.mem_map.mp member
      rw [ObjectPath.parse_printed (instancePath_gapless inside), Option.some.injEq] at parsed
      rwa [← parsed]
    · intro inside
      exact ⟨_,List.mem_map_of_mem inside,ObjectPath.parse_printed (instancePath_gapless inside)⟩
  rw [advertised]
  exact answerPdu_inst moments get leads c

attribute [local instance] bigEndianNumbers

/-- A server reads the Firmware Update object, whose path it sends in two options, and asks for TLV. -/
def getFirmwarePdu : RequestPdu := { code := 1, options := [(11,lit ['5']), (11,lit ['0']), (17,[0x2D, 0x16])] }

theorem getFirmwarePdu_leads : ObjectPath.Leads getFirmwarePdu.pathPieces ⟨5,some 0,none,none⟩ :=
  (getFirmwarePdu.parse_uriPath _).mp (by decide)

theorem advertised_answered_firmware :
    FoundOrNot (∃ text ∈ sampleClient.advertised, ObjectPath.parse text = some ⟨5,some 0,none,none⟩)
      (sampleClient.objects.answerPdu (fun _ => {}) getFirmwarePdu).1.code :=
  advertised_answered (fun _ => {}) sampleClient rfl getFirmwarePdu_leads rfl

end Client

end Ferriot
