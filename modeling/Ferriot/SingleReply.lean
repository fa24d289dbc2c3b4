import Ferriot.CoapSend
import Mathlib.Data.List.Induction

/-!
# Several responses in one wait

libcoap may hand over several responses before the loop of `send` looks again.
Each one overwrites the code of the pending response, adds its options to those
already there, and replaces the payload unless its own is empty.
-/
namespace Ferriot.CoapSend

/-- No request of the script makes the client send. -/
def Script.Unnested : Script → Prop
  | .ends => True
  | .polled after => after.Unnested
  | .response _ after => after.Unnested
  | .request after => after.Unnested
  | .send _ _ _ => False

/-- The response has the code, the recorded options and the payload of the PDU. -/
def Carries (r : CoapResponse) (pdu : Pdu) : Prop :=
  r.code = some pdu.code ∧ r.options = pdu.options.filter recorded ∧ r.payload = pdu.payload

/-- What the call returns is one response with its token. -/
def OneReply (nextToken : UInt64) (script : Script) : Prop :=
  ∀ r, send nextToken script = some (.ok r) →
    ∃ pdu ∈ script.delivered, pdu.token = tokenBytes (nextToken + 1) ∧ Carries r pdu

/-- The last payload that is not empty, if there is one. -/
def lastPayload (pdus : List Pdu) : Bytes := ((pdus.map Pdu.payload).filter (· ≠ [])).getLast?.getD []

/-- Among the responses before and after it, one prevails: no other has an option to record, the
    last one has its code, and no other payload has replaced its own. -/
def Prevails (before : List Pdu) (pdu : Pdu) (after : List Pdu) : Prop :=
  (∀ other ∈ before ++ after, other.options.filter recorded = []) ∧
    (∀ last, after.getLast? = some last → last.code = pdu.code) ∧ lastPayload (before ++ pdu :: after) = pdu.payload

/-- There is no response, or one prevails. -/
def Undisputed (pdus : List Pdu) : Prop :=
  pdus = [] ∨ ∃ before pdu after, pdus = before ++ pdu :: after ∧ Prevails before pdu after

theorem foldl_absorb_code (response : CoapResponse) (before : List Pdu) (pdu : Pdu) (after : List Pdu) :
    ((before ++ pdu :: after).foldl absorb response).code = some ((after.getLast?.getD pdu).code) := by
  rw [List.foldl_append, List.foldl_cons]
  generalize before.foldl absorb response = earlier
  cases after using List.reverseRecOn with
  | nil => rfl
  | append_singleton after last _ =>
    rw [List.foldl_append, List.getLast?_concat]
    rfl

theorem absorb_payload (response : CoapResponse) (pdu : Pdu) :
    (absorb response pdu).payload = if pdu.payload = [] then response.payload else pdu.payload := rfl

theorem foldl_absorb_payload (pdus : List Pdu) : (pdus.foldl absorb {}).payload = lastPayload pdus := by
  unfold lastPayload
  induction pdus using List.reverseRecOn with
  | nil => rfl
  | append_singleton pdus last ih =>
    rw [List.foldl_append, List.foldl_cons, List.foldl_nil, absorb_payload, ih, List.map_append, List.filter_append]
    by_cases empty : last.payload = []
    · simp [empty]
    · simp [empty]

/-- The recorded options of several responses are those of one exactly if the others have none. -/
theorem flatMap_others (f : Pdu → List (UInt16 × Bytes)) (before : List Pdu) (pdu : Pdu) (after : List Pdu) :
    (before ++ pdu :: after).flatMap f = f pdu ↔ ∀ other ∈ before ++ after, f other = [] := by
  rw [List.flatMap_append, List.flatMap_cons, ← List.flatMap_eq_nil_iff, List.flatMap_append]
  constructor
  · intro same
    have lengths := congrArg List.length same
    simp only [List.length_append] at lengths
    have none : ((before.flatMap f) ++ (after.flatMap f)).length = 0 := by
      rw [List.length_append]
      omega
    exact List.eq_nil_of_length_eq_zero none
  · intro none
    obtain ⟨noneBefore,noneAfter⟩ := List.append_eq_nil_iff.mp none
    rw [noneBefore, noneAfter, List.nil_append, List.append_nil]

/-- Several responses amount to one of them exactly if it prevails. -/
theorem carries_iff (before : List Pdu) (pdu : Pdu) (after : List Pdu) :
    Carries ((before ++ pdu :: after).foldl absorb {}) pdu ↔ Prevails before pdu after := by
  unfold Carries Prevails
  rw [foldl_absorb_code, foldl_absorb_options, foldl_absorb_payload, List.nil_append,
    flatMap_others (fun p => p.options.filter recorded)]
  constructor
  · rintro ⟨code,options,payload⟩
    refine ⟨options,?_,payload⟩
    intro last found
    rw [found] at code
    exact Option.some.inj code
  · rintro ⟨options,code,payload⟩
    refine ⟨?_,options,payload⟩
    cases found : after.getLast? with
    | none => rfl
    | some last => exact congrArg some (code last found)

/-- While nothing is sent in between, every response with the token is heard. -/
theorem heard_unnested {script : Script} (unnested : script.Unnested) (token : Bytes) :
    script.heard token = script.responses token := by
  unfold Script.responses
  induction script with
  | ends => rfl
  | polled after ih => exact ih unnested
  | request after ih => exact ih unnested
  | response pdu after ih =>
    unfold Script.heard Script.delivered
    rw [ih unnested]
    by_cases same : pdu.token = token
    · rw [if_pos same, List.filter_cons_of_pos (by simpa using same)]
    · rw [if_neg same, List.filter_cons_of_neg (by simpa using same)]
  | send start during after _ _ => exact unnested.elim

/-- What `send` returns without a nested call. -/
theorem send_unnested {nextToken : UInt64} {script : Script} {result : Result CoapResponse} (unnested : script.Unnested)
    (sent : send nextToken script = some result) :
    result =
      if script.responses (tokenBytes (nextToken + 1)) ≠ [] then
        .ok ((script.responses (tokenBytes (nextToken + 1))).foldl absorb {})
      else err .Timeout "Request timeout" := by
  unfold send at sent
  obtain ⟨⟨result',next⟩,ran,rfl⟩ := Option.map_eq_some_iff.mp sent
  have heard := wait_heard (w := .fresh (nextToken + 1)) rfl ran
  rw [← heard_unnested unnested]
  simpa only [Waiting.fresh, Bool.false_eq_true, false_or] using heard

/-- A call that is not nested returns one response exactly if one prevails among those with its token. -/
theorem oneReply_iff (nextToken : UInt64) (script : Script) (unnested : script.Unnested)
    (returns : ∃ result, send nextToken script = some result) :
    OneReply nextToken script ↔ Undisputed (script.responses (tokenBytes (nextToken + 1))) := by
  obtain ⟨result,sent⟩ := returns
  have returned := send_unnested unnested sent
  have arrived (pdu : Pdu) : pdu ∈ script.responses (tokenBytes (nextToken + 1)) ↔
      pdu ∈ script.delivered ∧ pdu.token = tokenBytes (nextToken + 1) := by
    unfold Script.responses
    rw [List.mem_filter, decide_eq_true_eq]
  unfold OneReply Undisputed
  rw [sent]
  generalize script.responses (tokenBytes (nextToken + 1)) = responses at returned arrived ⊢
  by_cases none : responses = []
  · rw [if_neg (not_not_intro none)] at returned
    rw [returned]
    refine iff_of_true ?_ (.inl none)
    rintro r ⟨⟩
  · rw [if_pos none] at returned
    rw [returned]
    constructor
    · intro one
      obtain ⟨pdu,delivered,token,carries⟩ := one _ rfl
      obtain ⟨before,after,split⟩ := List.append_of_mem ((arrived pdu).mpr ⟨delivered,token⟩)
      rw [split] at carries
      exact .inr ⟨before,pdu,after,split,(carries_iff before pdu after).mp carries⟩
    · intro undisputed r same
      cases same
      obtain ⟨before,pdu,after,split,prevails⟩ := undisputed.resolve_left none
      have member : pdu ∈ responses := by
        rw [split]
        exact List.mem_append_right before List.mem_cons_self
      obtain ⟨delivered,token⟩ := (arrived pdu).mp member
      refine ⟨pdu,delivered,token,?_⟩
      rw [split]
      exact (carries_iff before pdu after).mpr prevails

/-- 2.01 with the location `/rd/7`, by the token of the request. -/
def createdAt (token : UInt64) : Pdu := ⟨tokenBytes token,.Created,[(8,lit ['r','d']), (8,lit ['7'])],[]⟩

/-- A response to an earlier request, and the response. -/
theorem oneReply_stale :
    OneReply 1 (.response (changed 1) (.polled (.response (createdAt 2) .ends))) ↔
      Undisputed ((Script.response (changed 1) (.polled (.response (createdAt 2) .ends))).responses (tokenBytes 2)) :=
  oneReply_iff 1 _ trivial ⟨_,rfl⟩

/-- The response arrives twice, and its location is doubled. -/
theorem repeated_reply_mixed :
    Script.Unnested (.response (createdAt 1) (.response (createdAt 1) .ends)) ∧
      ¬ OneReply 0 (.response (createdAt 1) (.response (createdAt 1) .ends)) := by
  refine ⟨trivial,?_⟩
  intro one
  obtain ⟨pdu,delivered,-,-,options,-⟩ := one _ rfl
  have same : pdu = createdAt 1 := by simpa [Script.delivered] using delivered
  subst same
  revert options
  decide

end Ferriot.CoapSend
