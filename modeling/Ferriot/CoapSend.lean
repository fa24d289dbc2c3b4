import Ferriot.Coap

/-!
# Waiting for a response

`CoapClientImpl::send` points `current_response_` at a record of its own and runs
libcoap until that record is completed or time is up. Meanwhile libcoap hands over
response PDUs and requests of the server, and the handler of a request may call
`send` again on the same connection. A nested call points `current_response_` at
its own record and leaves it null when it returns.
-/
namespace Ferriot.CoapSend

/-- A response PDU. -/
structure Pdu where
  token : Bytes
  code : CoapCode
  options : List (UInt16 × Bytes)
  payload : Bytes
deriving DecidableEq, Repr

/-- Location-Path, Location-Query and Content-Format are kept, other options are not. -/
def recorded (option : UInt16 × Bytes) : Bool :=
  option.1 = CoapOption.LocationPath || option.1 = CoapOption.LocationQuery || option.1 = CoapOption.ContentFormat

-- The comment in the source gives Location-Query the number 15, which is Uri-Query.
example : recorded (20,[]) = true ∧ recorded (15,[]) = false := by decide

/-- What `response_handler` writes into the pending response. -/
def absorb (response : CoapResponse) (pdu : Pdu) : CoapResponse :=
  { response with
    code := some pdu.code
    options := response.options ++ pdu.options.filter recorded
    payload := if pdu.payload = [] then response.payload else pdu.payload }

/-- The response that a PDU carries. -/
def responseOf (pdu : Pdu) : CoapResponse := absorb {} pdu

structure PendingResponse where
  completed : Bool := false
  response : CoapResponse := {}
  token : Bytes
deriving DecidableEq, Repr

/-- The `memcpy` of a 64-bit counter into the eight token bytes. -/
def tokenBytes (value : UInt64) : Bytes := (List.range 8).map (fun k => (value >>> UInt64.ofNat (8 * k)).toUInt8)

/-- How a nested call of `send` goes, up to its wait. -/
inductive Start where
  /-- It fails before the record is tracked: not connected, no PDU, or a payload too
      large, in which case it has taken a token. -/
  | early (tokenTaken : Bool)
  /-- `coap_send` refuses the PDU: the record was tracked, and is so no more. -/
  | refused
  | sent
deriving DecidableEq, Repr

/-- What libcoap does during a wait, in order. -/
inductive Script where
  /-- The call of `coap_io_process` returns, and the loop with it: the response is there or time is up. -/
  | ends
  /-- The call of `coap_io_process` returns and the loop goes on. -/
  | polled (after : Script)
  | response (pdu : Pdu) (after : Script)
  /-- A request whose handling sends nothing on this connection. -/
  | request (after : Script)
  /-- A request whose handling calls `send`; `during` is what happens in its wait. -/
  | send (start : Start) (during after : Script)
deriving DecidableEq, Repr

/-- The state of a call that waits. -/
structure Waiting where
  nextToken : UInt64
  pending : PendingResponse
  /-- `current_response_` points to this call's record; otherwise it is null. -/
  current : Bool
deriving DecidableEq, Repr

/-- `response_handler`. -/
def Waiting.responseHandler (w : Waiting) (pdu : Pdu) : Waiting :=
  if w.current ∧ pdu.token = w.pending.token then
    { w with pending := { w.pending with completed := true, response := absorb w.pending.response pdu } }
  else w

/-- A call whose request libcoap has just taken. -/
def Waiting.fresh (nextToken : UInt64) : Waiting := ⟨nextToken,{ token := tokenBytes nextToken },true⟩

/-- The loop of `send`: its result and the token counter, if the script is one
    that the loop follows. -/
def wait : Script → Waiting → Option (Result CoapResponse × UInt64)
  | .ends, w =>
    if w.pending.completed then some (.ok w.pending.response,w.nextToken)
    else some (err .Timeout "Request timeout",w.nextToken)
  | .polled after, w => if w.pending.completed then none else wait after w
  | .response pdu after, w => wait after (w.responseHandler pdu)
  | .request after, w => wait after w
  | .send start during after, w =>
    match start with
    | .early tokenTaken => wait after { w with nextToken := if tokenTaken then w.nextToken + 1 else w.nextToken }
    | .refused => wait after { w with nextToken := w.nextToken + 1, current := false }
    | .sent =>
      match wait during (.fresh (w.nextToken + 1)) with
      | some (_,nextToken) => wait after { w with nextToken := nextToken, current := false }
      | none => none

/-- A call of `send` on a connection whose token counter is given, once `coap_send` has taken the PDU. -/
def send (nextToken : UInt64) (script : Script) : Option (Result CoapResponse) :=
  (wait script (.fresh (nextToken + 1))).map Prod.fst

/-- Every response PDU of the script, also those delivered while a nested call waits. -/
def Script.delivered : Script → List Pdu
  | .ends => []
  | .polled after => after.delivered
  | .response pdu after => pdu :: after.delivered
  | .request after => after.delivered
  | .send start during after => (if start = .sent then during.delivered else []) ++ after.delivered

/-- The responses with the token that arrive before a nested call takes `current_response_` over. -/
def Script.heard (token : Bytes) : Script → List Pdu
  | .ends => []
  | .polled after => after.heard token
  | .response pdu after => if pdu.token = token then pdu :: after.heard token else after.heard token
  | .request after => after.heard token
  | .send (.early _) _ after => after.heard token
  | .send _ _ _ => []

/-- The responses with the token, heard or not. -/
def Script.responses (token : Bytes) (script : Script) : List Pdu := script.delivered.filter (fun pdu => pdu.token = token)

/-- No response is lost: each one with the call's token is what the call returns. -/
def NoResponseLost (nextToken : UInt64) (script : Script) : Prop :=
  ∀ result, send nextToken script = some result →
    ∀ pdu ∈ script.responses (tokenBytes (nextToken + 1)), result = .ok (responseOf pdu)

/-- No response with the token arrives; or one is heard, and all that arrive are
    copies of one response, heard once or without an option to record. -/
def HeardOut (token : Bytes) (script : Script) : Prop :=
  script.responses token = [] ∨
    script.heard token ≠ [] ∧ (∀ p ∈ script.responses token, ∀ q ∈ script.responses token, responseOf p = responseOf q) ∧
      ((script.heard token).length = 1 ∨ ∀ p ∈ script.heard token, p.options.filter recorded = [])

theorem heard_sub (token : Bytes) (script : Script) : ∀ p ∈ script.heard token, p ∈ script.responses token := by
  simp only [Script.responses]
  induction script with
  | ends => simp [Script.heard]
  | polled after ih => exact ih
  | request after ih => exact ih
  | response pdu after ih =>
    intro p member
    simp only [Script.heard] at member
    simp only [Script.delivered, List.filter_cons]
    split at member
    · next same =>
      rw [if_pos (by simpa using same)]
      rcases List.mem_cons.mp member with rfl | later
      · exact List.mem_cons_self
      · exact List.mem_cons_of_mem _ (ih p later)
    · next other =>
      rw [if_neg (by simpa using other)]
      exact ih p member
  | send start during after _ ih =>
    intro p member
    cases start with
    | early tokenTaken => exact ih p member
    | refused => cases member
    | sent => cases member

/-- A call that `current_response_` does not point to keeps its record to the end. -/
theorem wait_ignored {script : Script} {w : Waiting} {result : Result CoapResponse} {next : UInt64}
    (ignored : w.current = false) (ran : wait script w = some (result,next)) :
    result = if w.pending.completed then .ok w.pending.response else err .Timeout "Request timeout" := by
  induction script generalizing w with
  | ends =>
    simp only [wait] at ran
    split at ran
    · next completed => cases ran; rw [if_pos completed]
    · next waiting => cases ran; rw [if_neg waiting]
  | polled after ih =>
    simp only [wait] at ran
    split at ran
    · cases ran
    · exact ih ignored ran
  | response pdu after ih =>
    have same : w.responseHandler pdu = w := by simp [Waiting.responseHandler, ignored]
    rw [wait, same] at ran
    exact ih ignored ran
  | request after ih => exact ih ignored ran
  | send start during after _ ih =>
    cases start with
    | early tokenTaken =>
      rw [wait] at ran
      exact ih (w := { w with nextToken := if tokenTaken then w.nextToken + 1 else w.nextToken }) ignored ran
    | refused => exact ih (w := { w with nextToken := _, current := false }) rfl ran
    | sent =>
      rw [wait] at ran
      split at ran
      · exact ih (w := { w with nextToken := _, current := false }) rfl ran
      · cases ran

/-- The loop returns what it has heard, or times out. -/
theorem wait_heard {script : Script} {w : Waiting} {result : Result CoapResponse} {next : UInt64}
    (pointed : w.current = true) (ran : wait script w = some (result,next)) :
    result =
      if w.pending.completed ∨ script.heard w.pending.token ≠ [] then
        .ok ((script.heard w.pending.token).foldl absorb w.pending.response)
      else err .Timeout "Request timeout" := by
  induction script generalizing w with
  | ends =>
    simp only [wait] at ran
    simp only [Script.heard, ne_eq, not_true_eq_false, or_false, List.foldl_nil]
    split at ran
    · next completed => cases ran; rw [if_pos completed]
    · next waiting => cases ran; rw [if_neg waiting]
  | polled after ih =>
    simp only [wait] at ran
    split at ran
    · cases ran
    · exact ih pointed ran
  | response pdu after ih =>
    rw [wait] at ran
    by_cases same : pdu.token = w.pending.token
    · have taken : w.responseHandler pdu =
          { w with pending := { w.pending with completed := true, response := absorb w.pending.response pdu } } := by
        simp [Waiting.responseHandler, pointed, same]
      rw [taken] at ran
      refine (ih ?_ ran).trans ?_
      · exact pointed
      · simp [Script.heard, same]
    · have kept : w.responseHandler pdu = w := by simp [Waiting.responseHandler, same]
      rw [kept] at ran
      rw [ih pointed ran]
      simp only [Script.heard, if_neg same]
  | request after ih => exact ih pointed ran
  | send start during after _ ih =>
    cases start with
    | early tokenTaken =>
      rw [wait] at ran
      exact ih (w := { w with nextToken := if tokenTaken then w.nextToken + 1 else w.nextToken }) pointed ran
    | refused =>
      rw [wait_ignored (w := { w with nextToken := _, current := false }) rfl ran]
      simp [Script.heard]
    | sent =>
      rw [wait] at ran
      split at ran
      · rw [wait_ignored (w := { w with nextToken := _, current := false }) rfl ran]
        simp [Script.heard]
      · cases ran

theorem foldl_absorb_options (response : CoapResponse) (pdus : List Pdu) :
    (pdus.foldl absorb response).options = response.options ++ pdus.flatMap (fun p => p.options.filter recorded) := by
  induction pdus generalizing response with
  | nil => simp
  | cons p pdus ih =>
    rw [List.foldl_cons, ih, List.flatMap_cons, ← List.append_assoc]
    rfl

/-- A copy of a response without recorded options changes nothing. -/
theorem absorb_copy {response : CoapResponse} {p : Pdu} (copy : responseOf p = response)
    (bare : p.options.filter recorded = []) : absorb response p = response := by
  subst copy
  by_cases empty : p.payload = [] <;> simp [responseOf, absorb, bare, empty]

theorem foldl_absorb_copies {response : CoapResponse} {pdus : List Pdu}
    (copies : ∀ p ∈ pdus, responseOf p = response ∧ p.options.filter recorded = []) :
    pdus.foldl absorb response = response := by
  induction pdus with
  | nil => rfl
  | cons p pdus ih =>
    obtain ⟨copy,bare⟩ := copies p List.mem_cons_self
    rw [List.foldl_cons, absorb_copy copy bare]
    exact ih (fun q member => copies q (List.mem_cons_of_mem _ member))

/-- Several copies of one response that together record no more options than each, record none. -/
theorem copies_bare {o : List (UInt16 × Bytes)} {pdus : List Pdu} (several : pdus.length ≠ 1)
    (copies : ∀ p ∈ pdus, p.options.filter recorded = o)
    (together : pdus ≠ [] → pdus.flatMap (fun p => p.options.filter recorded) = o) :
    ∀ p ∈ pdus, p.options.filter recorded = [] := by
  match pdus, several, copies, together with
  | [], _, _, _ => simp
  | [_], several, _, _ => exact absurd rfl several
  | first :: second :: pdus, _, copies, together =>
    have joined := congrArg List.length (together (by simp))
    rw [List.flatMap_cons, List.flatMap_cons, copies first (by simp), copies second (by simp)] at joined
    simp only [List.length_append] at joined
    have bare : o = [] := List.eq_nil_of_length_eq_zero (by omega)
    intro p member
    rw [copies p member, bare]

theorem responseOf_options (p : Pdu) : (responseOf p).options = p.options.filter recorded := rfl

/-- Copies of one response, heard once or without an option to record, amount to it. -/
theorem foldl_heard {pdus : List Pdu} {response : CoapResponse} (some : pdus ≠ [])
    (copies : ∀ p ∈ pdus, responseOf p = response)
    (once : pdus.length = 1 ∨ ∀ p ∈ pdus, p.options.filter recorded = []) : pdus.foldl absorb {} = response := by
  cases pdus with
  | nil => exact absurd rfl some
  | cons first others =>
    rw [List.foldl_cons]
    show others.foldl absorb (responseOf first) = response
    rw [copies first List.mem_cons_self]
    rcases once with single | bare
    · have alone : others = [] := by simpa using single
      rw [alone]
      rfl
    · refine foldl_absorb_copies ?_
      intro p member
      have inHeard : p ∈ first :: others := List.mem_cons_of_mem _ member
      exact ⟨copies p inHeard,bare p inHeard⟩

/-- Copies that amount to the response they carry are one, or have no option to record. -/
theorem heard_once {pdus : List Pdu} (copies : ∀ p ∈ pdus, responseOf p = pdus.foldl absorb {}) :
    pdus.length = 1 ∨ ∀ p ∈ pdus, p.options.filter recorded = [] := by
  by_cases once : pdus.length = 1
  · exact .inl once
  · right
    have options := foldl_absorb_options {} pdus
    refine copies_bare once ?_ (fun _ => options.symm)
    intro p member
    rw [← responseOf_options, copies p member]

/-- No response is lost to a nested request exactly if the call hears its response
    out: while `current_response_` points to the call, and as one response. -/
theorem noResponseLost_iff (nextToken : UInt64) (script : Script) (returns : ∃ result, send nextToken script = some result) :
    NoResponseLost nextToken script ↔ HeardOut (tokenBytes (nextToken + 1)) script := by
  obtain ⟨result,sent⟩ := returns
  obtain ⟨⟨result',next⟩,ran,rfl⟩ := Option.map_eq_some_iff.mp sent
  have heard := wait_heard (w := .fresh (nextToken + 1)) rfl ran
  have arrives := heard_sub (tokenBytes (nextToken + 1)) script
  simp only [Waiting.fresh, Bool.false_eq_true, false_or] at heard
  simp only [NoResponseLost, HeardOut]
  rw [sent]
  generalize tokenBytes (nextToken + 1) = token at heard arrives ⊢
  constructor
  · intro kept
    have kept : ∀ p ∈ script.responses token, result' = .ok (responseOf p) := kept result' rfl
    by_cases none : script.responses token = []
    · exact .inl none
    · obtain ⟨p,arrived⟩ := List.exists_mem_of_ne_nil _ none
      have some : script.heard token ≠ [] := by
        intro nothing
        rw [if_neg (by simp [nothing]), kept p arrived] at heard
        cases heard
      rw [if_pos some] at heard
      have one : ∀ q ∈ script.responses token, responseOf q = (script.heard token).foldl absorb {} := by
        intro q arrives
        have same := kept q arrives
        rw [heard] at same
        exact (Except.ok.inj same).symm
      right
      refine ⟨some,fun p pIn q qIn => (one p pIn).trans (one q qIn).symm,?_⟩
      exact heard_once (fun q member => one q (arrives q member))
  · intro out result same p arrived
    cases same
    rcases out with none | ⟨some,copies,once⟩
    · rw [none] at arrived
      cases arrived
    · rw [heard, if_pos some]
      refine congrArg Except.ok ?_
      exact foldl_heard some (fun q member => copies q (arrives q member) p arrived) once

/-- The answer of the server to a request, by the token of the request. -/
def changed (token : UInt64) : Pdu := ⟨tokenBytes token,.Changed,[],[]⟩

/-- A response after a request that sends nothing is heard. -/
theorem noResponseLost_plain :
    NoResponseLost 0 (.request (.polled (.response (changed 1) .ends))) ↔
      HeardOut (tokenBytes 1) (.request (.polled (.response (changed 1) .ends))) :=
  noResponseLost_iff 0 _ ⟨_,rfl⟩

/-- A request makes the client send, and gets its response; the response to the
    first call, delivered next, is lost and that call times out. -/
theorem nested_send_loses : ¬ NoResponseLost 0 (.send .sent (.response (changed 2) .ends) (.polled (.response (changed 1) .ends))) := by
  intro kept
  have timedOut : send 0 (.send .sent (.response (changed 2) .ends) (.polled (.response (changed 1) .ends))) =
      some (err .Timeout "Request timeout") := rfl
  have lost := kept _ timedOut (changed 1) (by decide)
  cases lost

end Ferriot.CoapSend
