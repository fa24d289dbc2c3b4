import Ferriot.OpenConnections

/-!
# Events of a session

libcoap reports on a session by events, and `connected_` follows them. So a connection
may be down while its session is there, and up again later, but it is never up without
a session: what `send` hands a PDU to is what the latest `connect` of the object opened.
-/
namespace Ferriot
open Runs

/-- A `coap_event_t`. -/
inductive SessionEvent where
  | DtlsConnected | SessionConnected | DtlsClosed | SessionClosed | SessionFailed
  | other (code : Nat)
deriving DecidableEq, Repr

/-- What the event says about the connection. -/
def SessionEvent.up : SessionEvent → Option Bool
  | .DtlsConnected | .SessionConnected => some true
  | .DtlsClosed | .SessionClosed | .SessionFailed => some false
  | .other _ => none

namespace CoapClientImpl

/-- `event_handler`, for a session whose data is the object. -/
def eventHandler (event : SessionEvent) (o : CoapClientImpl) : CoapClientImpl :=
  match event with
  | .DtlsConnected | .SessionConnected => { o with connected := true }
  | .DtlsClosed | .SessionClosed | .SessionFailed => { o with connected := false }
  | .other _ => o

/-- The session that `send` makes its PDU for, if it gets so far; `none` stands for a null pointer. -/
def sendsOver (o : CoapClientImpl) : Result (Option Session) :=
  if !o.connected then err .InvalidState "Not connected" else .ok o.session

theorem eventHandler_eq (event : SessionEvent) (o : CoapClientImpl) :
    o.eventHandler event = { o with connected := event.up.getD o.connected } := by
  cases event <;> rfl

/-- After `connect` the object is connected exactly if it has a session. -/
theorem connect_connected (lib : Libcoap) (config : ConnectionConfig) (o : CoapClientImpl) (n : Initialized) :
    (connect lib config o n).2.1.connected = (Ferriot.connect lib config).toOption.isSome := by
  rw [← (connect_refines lib config o n).2]
  rcases o.connect_cases lib config n with ⟨-,out⟩ | ⟨-,e,out⟩ | ⟨-,o',whole,out⟩
  · rw [out]
    rfl
  · rw [out]
    rfl
  · rw [out]
    show o'.connected = o'.session.isSome
    rw [whole.connected, Option.isSome_iff_ne_none.mpr whole.session]

end CoapClientImpl

/-- A call, or an event that libcoap reports on the session of the object at the place. -/
inductive TransportAction where
  | call (call : TransportCall)
  | event (place : Nat) (event : SessionEvent)

namespace Transport

/-- There has to be an object at the place, and for an event it has to have a session. -/
def act (t : Transport) : TransportAction → Option Transport
  | .call call => t.step call
  | .event place event =>
    (t.objects[place]?).bind (fun o =>
      if o.session.isSome then some (t.put place (o.eventHandler event,t.initialized)) else none)

def Act (t : Transport) (action : TransportAction) (u : Transport) : Prop := t.act action = some u

/-- The session that a call leaves to the object at the place. -/
def leaves (place : Nat) : TransportAction → Option (Option Session)
  | .call (.connect p lib config) => if p = place then some (connect lib config).toOption else none
  | .call (.disconnect p) => if p = place then some none else none
  | .call .create | .event _ _ => none

/-- What a call or an event says about the connection of the object at the place. -/
def reports (place : Nat) : TransportAction → Option Bool
  | .call (.connect p lib config) => if p = place then some (connect lib config).toOption.isSome else none
  | .call (.disconnect p) => if p = place then some false else none
  | .call .create => none
  | .event p event => if p = place then event.up else none

/-- The object is as its history says. -/
structure AsReported (actions : List TransportAction) (place : Nat) (o : CoapClientImpl) : Prop where
  session : o.session = (latest (leaves place) actions).join
  connected : o.connected = (latest (reports place) actions).getD false
  held : o.connected = true → o.session ≠ none

/-- Every object is as its history says, and where there is no object, there is no history. -/
structure Reported (actions : List TransportAction) (t : Transport) : Prop where
  objects : ∀ place o, t.objects[place]? = some o → AsReported actions place o
  fresh : ∀ place, t.objects[place]? = none → latest (leaves place) actions = none ∧ latest (reports place) actions = none

theorem AsReported.other {actions : List TransportAction} {place : Nat} {o : CoapClientImpl} (reported : AsReported actions place o)
    {action : TransportAction} (leaves : leaves place action = none) (reports : reports place action = none) :
    AsReported (actions ++ [action]) place o := by
  obtain ⟨session,connected,held⟩ := reported
  refine ⟨?_,?_,held⟩
  · rwa [latest_concat, leaves]
  · rwa [latest_concat, reports]

/-- What one object does is of no concern to the others. -/
theorem Reported.put {actions : List TransportAction} {t : Transport} (reported : Reported actions t) {place : Nat}
    {o : CoapClientImpl} (here : t.objects[place]? = some o) {action : TransportAction}
    (others : ∀ p, p ≠ place → leaves p action = none ∧ reports p action = none) (o' : CoapClientImpl × Initialized)
    (after : AsReported (actions ++ [action]) place o'.1) : Reported (actions ++ [action]) (t.put place o') := by
  have inside : place < t.objects.length := (List.getElem?_eq_some_iff.mp here).1
  constructor
  · intro p o'' there
    simp only [Transport.put, List.getElem?_set] at there
    by_cases same : place = p
    · subst same
      rw [if_pos rfl, if_pos inside] at there
      cases there
      exact after
    · rw [if_neg same] at there
      obtain ⟨leaves,reports⟩ := others p (Ne.symm same)
      exact (reported.objects p o'' there).other leaves reports
  · intro p absent
    simp only [Transport.put, List.getElem?_set] at absent
    by_cases same : place = p
    · subst same
      rw [if_pos rfl, if_pos inside] at absent
      cases absent
    · rw [if_neg same] at absent
      obtain ⟨leaves,reports⟩ := others p (Ne.symm same)
      rw [latest_concat, latest_concat, leaves, reports]
      exact reported.fresh p absent

/-- A new object has no history. -/
theorem reported_create {actions : List TransportAction} {t u : Transport} (reported : Reported actions t)
    (acted : Act t (.call .create) u) : Reported (actions ++ [.call .create]) u := by
  cases acted
  constructor
  · intro place o there
    rw [List.getElem?_append] at there
    split at there
    · exact (reported.objects place o there).other rfl rfl
    · next outside =>
      have new : o = {} := by
        have member := List.mem_of_getElem? there
        simpa using member
      subst new
      obtain ⟨leaves,reports⟩ := reported.fresh place (List.getElem?_eq_none (by omega))
      refine AsReported.other ⟨?_,?_,?_⟩ rfl rfl
      · rw [leaves]
        rfl
      · rw [reports]
        rfl
      · rintro ⟨⟩
  · intro place absent
    rw [latest_concat, latest_concat]
    refine reported.fresh place (List.getElem?_eq_none ?_)
    have beyond := List.getElem?_eq_none_iff.mp absent
    simp only [List.length_append, List.length_singleton] at beyond
    omega

theorem asReported_connect (actions : List TransportAction) (place : Nat) (lib : Libcoap) (config : ConnectionConfig)
    (o : CoapClientImpl) (initialized : Initialized) :
    AsReported (actions ++ [.call (.connect place lib config)]) place (o.connect lib config initialized).2.1 := by
  have session := (o.connect_refines lib config initialized).2
  have connected := o.connect_connected lib config initialized
  refine ⟨?_,?_,?_⟩
  · rw [latest_concat, leaves, if_pos rfl]
    exact session
  · rw [latest_concat, reports, if_pos rfl]
    exact connected
  · intro up
    rw [connected] at up
    rw [session]
    exact Option.isSome_iff_ne_none.mp up

theorem asReported_disconnect (actions : List TransportAction) (place : Nat) (o : CoapClientImpl) (initialized : Initialized) :
    AsReported (actions ++ [.call (.disconnect place)]) place (o.disconnect initialized).1 := by
  rw [CoapClientImpl.disconnect_eq]
  refine ⟨?_,?_,?_⟩
  · rw [latest_concat, leaves, if_pos rfl]
    rfl
  · rw [latest_concat, reports, if_pos rfl]
    rfl
  · rintro ⟨⟩

/-- An event may tell something of the connection, and leaves the session. -/
theorem AsReported.event {actions : List TransportAction} {place : Nat} {o : CoapClientImpl}
    (reported : AsReported actions place o) (there : o.session.isSome = true) (event : SessionEvent) :
    AsReported (actions ++ [.event place event]) place (o.eventHandler event) := by
  obtain ⟨session,connected,-⟩ := reported
  rw [CoapClientImpl.eventHandler_eq]
  refine ⟨?_,?_,fun _ => Option.isSome_iff_ne_none.mp there⟩
  · rw [latest_concat]
    exact session
  · rw [latest_concat, reports, if_pos rfl]
    dsimp only
    rw [connected]
    cases event.up <;> rfl

theorem reported_act {actions : List TransportAction} {t u : Transport} (reported : Reported actions t)
    {action : TransportAction} (acted : Act t action u) : Reported (actions ++ [action]) u := by
  cases action with
  | call call =>
    cases call with
    | create => exact reported_create reported acted
    | connect place lib config =>
      obtain ⟨o,here,rfl⟩ := Option.map_eq_some_iff.mp acted
      have others (p : Nat) (other : p ≠ place) :
          leaves p (.call (.connect place lib config)) = none ∧ reports p (.call (.connect place lib config)) = none :=
        ⟨if_neg (Ne.symm other),if_neg (Ne.symm other)⟩
      exact reported.put here others _ (asReported_connect actions place lib config o t.initialized)
    | disconnect place =>
      obtain ⟨o,here,rfl⟩ := Option.map_eq_some_iff.mp acted
      have others (p : Nat) (other : p ≠ place) :
          leaves p (.call (.disconnect place)) = none ∧ reports p (.call (.disconnect place)) = none :=
        ⟨if_neg (Ne.symm other),if_neg (Ne.symm other)⟩
      exact reported.put here others _ (asReported_disconnect actions place o t.initialized)
  | event place event =>
    obtain ⟨o,here,handled⟩ := Option.bind_eq_some_iff.mp acted
    split at handled
    · next there =>
      cases handled
      have others (p : Nat) (other : p ≠ place) :
          leaves p (.event place event) = none ∧ reports p (.event place event) = none :=
        ⟨rfl,if_neg (Ne.symm other)⟩
      exact reported.put here others _ ((reported.objects place o here).event there event)
    · cases handled

theorem reported_run {before actions : List TransportAction} {t u : Transport} (reported : Reported before t)
    (run : Run Act t actions u) : Reported (before ++ actions) u := by
  induction run generalizing before with
  | nil => rwa [List.append_nil]
  | cons first _ ih =>
    have later := ih (reported_act reported first)
    rwa [List.append_assoc] at later

/-- After any calls and events, `send` gets to a session exactly if the latest report on the object was
    that it is connected; the session is the one that its latest call left, and never a null pointer. -/
theorem sends_run {actions : List TransportAction} {t : Transport} (run : Run Act {} actions t) {place : Nat}
    {o : CoapClientImpl} (there : t.objects[place]? = some o) :
    o.sendsOver ≠ .ok none ∧
      ∀ session, o.sendsOver = .ok session ↔
        latest (reports place) actions = some true ∧ latest (leaves place) actions = some session := by
  have initial : Reported [] {} := ⟨by simp,fun _ _ => ⟨rfl,rfl⟩⟩
  obtain ⟨session,connected,held⟩ := (reported_run initial run).objects place o there
  rw [List.nil_append] at session connected
  unfold CoapClientImpl.sendsOver
  cases up : o.connected with
  | false =>
    rw [up] at connected
    refine ⟨by rintro ⟨⟩,fun s => iff_of_false (by rintro ⟨⟩) ?_⟩
    rintro ⟨told,-⟩
    rw [told] at connected
    cases connected
  | true =>
    obtain ⟨s,opened⟩ := Option.ne_none_iff_exists'.mp (held up)
    have told : latest (reports place) actions = some true := by
      rw [up] at connected
      cases heard : latest (reports place) actions with
      | none => simp [heard] at connected
      | some b => simpa [heard] using connected.symm
    have left : latest (leaves place) actions = some (some s) := Option.join_eq_some_iff.mp (session.symm.trans opened)
    rw [opened, told, left]
    refine ⟨by rintro ⟨⟩,fun s' => ?_⟩
    constructor
    · rintro ⟨⟩
      exact ⟨rfl,rfl⟩
    · rintro ⟨-,same⟩
      cases same
      rfl

/-- The session is lost and comes back. -/
def recoveredRun : List TransportAction :=
  [.call .create, .call (.connect 0 Client.plainLibcoap { serverUri := lit ['c','o','a','p',':','/','/','s'] }),
    .event 0 .SessionFailed, .event 0 .SessionConnected]

theorem sends_recovered : ∃ t o, runPartial act {} recoveredRun = some t ∧ t.objects[0]? = some o ∧
    o.sendsOver ≠ .ok none ∧
      ∀ session, o.sendsOver = .ok session ↔
        latest (reports 0) recoveredRun = some true ∧ latest (leaves 0) recoveredRun = some session := by
  obtain ⟨t,ran⟩ : ∃ t, runPartial act {} recoveredRun = some t := ⟨_,rfl⟩
  obtain ⟨o,there⟩ : ∃ o, t.objects[0]? = some o := by
    cases ran
    exact ⟨_,rfl⟩
  exact ⟨t,o,ran,there,sends_run ((runPartial_iff act _ _ _).mp ran) there⟩

end Transport

end Ferriot
