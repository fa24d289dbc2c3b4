import Ferriot.Client

/-!
# What waiting can do to a client

While the client waits for a response, requests of the servers change its objects
and may make it update registrations it already has. Nothing else happens: no
registration is added or dropped, and no connection but those of registered
servers, and the one waited on, changes.
-/
namespace Ferriot
open Tables Requests

/-- An entry that neither begins a call nor asks for a registration. -/
def Entry.Passive : Entry → Prop
  | .called _ => False
  | .sent _ (.register _) _ => False
  | _ => True

/-- The events take the session of the connection they are delivered on down. -/
def Events.Loses : Events → Prop
  | .done => False
  | .session up after => up = false ∨ after.Loses
  | .request _ _ _ _ _ _ after => after.Loses

namespace Client
variable {U : Type}

/-- No connection to the server is down. -/
def Up (c : Client U) (ssid : UInt16) : Prop := ∀ conn, c.connections.lookup ssid = some conn → conn.connected = true

/-- What only `start`, `stop` and the reconnection change. -/
def control (c : Client U) : Bool × Bool × UInt16 × UInt16 × Int :=
  (c.running,c.reconnecting,c.reconnectAttempts,c.reconnectSsid,c.nextReconnectTime)

theorem control_eq {c d : Client U} (same : d.control = c.control) :
    d.running = c.running ∧ d.reconnecting = c.reconnecting ∧ d.reconnectAttempts = c.reconnectAttempts ∧
      d.reconnectSsid = c.reconnectSsid ∧ d.nextReconnectTime = c.nextReconnectTime := by
  simpa only [control, Prod.mk.injEq] using same

/-- Between the states, nothing but passive entries has been noted. -/
def Grown (c d : Client U) : Prop := ∃ new, d.log = new ++ c.log ∧ ∀ e ∈ new, e.Passive

theorem Grown.same {c d : Client U} (same : d.log = c.log) : Grown c d := ⟨[],same,by simp⟩

theorem Grown.trans {c d e : Client U} (first : Grown c d) (second : Grown d e) : Grown c e := by
  obtain ⟨old,oldLog,oldPassive⟩ := first
  obtain ⟨new,newLog,newPassive⟩ := second
  refine ⟨new ++ old,?_,?_⟩
  · rw [newLog, oldLog, List.append_assoc]
  · intro x member
    rcases List.mem_append.mp member with late | early
    · exact newPassive x late
    · exact oldPassive x early

/-- The second state is the first after a wait in which only the connections of
    registered servers, and those named, may have gone down. -/
structure Waited (lossy : UInt16 → Prop) (c d : Client U) : Prop where
  registrations : ∀ s, s ∈ d.registrations ↔ s ∈ c.registrations
  connections : ∀ s, s ∈ d.connections ↔ s ∈ c.connections
  up : ∀ s, ¬ lossy s → s ∉ c.registrations → c.Up s → d.Up s
  control : d.control = c.control
  log : Grown c d

variable {lossy : UInt16 → Prop}

theorem Waited.refl (c : Client U) : Waited lossy c c :=
  ⟨fun _ => Iff.rfl,fun _ => Iff.rfl,fun _ _ _ up => up,rfl,.same rfl⟩

theorem Waited.trans {c d e : Client U} (first : Waited lossy c d) (second : Waited lossy d e) : Waited lossy c e := by
  refine ⟨fun s => (second.registrations s).trans (first.registrations s),
    fun s => (second.connections s).trans (first.connections s),?_,second.control.trans first.control,
    first.log.trans second.log⟩
  intro s kept unregistered up
  exact second.up s kept (fun member => unregistered ((first.registrations s).mp member)) (first.up s kept unregistered up)

theorem Waited.weaken {lossy' : UInt16 → Prop} {c d : Client U} (waited : Waited lossy c d)
    (covered : ∀ s, lossy s → lossy' s ∨ s ∈ c.registrations) : Waited lossy' c d := by
  refine ⟨waited.registrations,waited.connections,?_,waited.control,waited.log⟩
  intro s kept unregistered
  refine waited.up s ?_ unregistered
  intro lost
  rcases covered s lost with again | registered
  · exact kept again
  · exact unregistered registered

/-- The connections that may have gone down forgotten. -/
theorem Waited.forget {c d : Client U} (waited : Waited lossy c d) : Waited (fun _ => True) c d :=
  waited.weaken (fun _ _ => .inl trivial)

theorem waited_note {c : Client U} {e : Entry} (passive : e.Passive) : Waited lossy c (c.note e) :=
  ⟨fun _ => Iff.rfl,fun _ => Iff.rfl,fun _ _ _ up => up,rfl,[e],rfl,by simpa using passive⟩

theorem waited_setState (c : Client U) (new : ClientState) : Waited lossy c (c.setState new) := by
  simp only [setState]
  split
  · exact .refl c
  · exact ⟨fun _ => Iff.rfl,fun _ => Iff.rfl,fun _ _ _ up => up,rfl,[_],rfl,by simp [Entry.Passive]⟩

theorem waited_objects (c : Client U) (objects : Objects U) : Waited lossy c { c with objects := objects } :=
  ⟨fun _ => Iff.rfl,fun _ => Iff.rfl,fun _ _ _ up => up,rfl,.same rfl⟩

theorem waited_sessionEvent (c : Client U) (ssid : UInt16) (up : Bool) (covered : up = false → lossy ssid) :
    Waited lossy c (c.sessionEvent ssid up) := by
  refine ⟨fun _ => Iff.rfl,fun s => mem_modify _ _ _ _,?_,rfl,.same rfl⟩
  intro s kept _ before conn found
  simp only [sessionEvent] at found
  rw [lookup_modify] at found
  split at found
  · next same =>
    obtain ⟨_,_,rfl⟩ := Option.map_eq_some_iff.mp found
    cases up with
    | true => rfl
    | false => exact absurd (same ▸ covered rfl) kept
  · exact before conn found

theorem waited_renew (c : Client U) (ssid : UInt16) (now : Int) : Waited lossy c (c.renew ssid now) := by
  simp only [renew]
  split
  · exact ⟨fun s => mem_modify _ _ _ _,fun _ => Iff.rfl,fun _ _ _ up => up,rfl,.same rfl⟩
  · exact .refl c

theorem waited_noteAccepted (c : Client U) (ssid : UInt16) (operation : Operation) (now : Int) :
    Waited lossy c (c.noteAccepted ssid operation now) := by
  simp only [noteAccepted]
  split
  · exact waited_note trivial
  · exact .refl c

/-- A request other than a registration is no more than its wait. -/
theorem waited_sendWith {wait : Client U → Client U} {ssid : UInt16} {operation : Operation}
    (plain : ∀ request, (Entry.sent ssid operation request).Passive) (request : CoapRequest) (refused : Option Error)
    (outcome : Result CoapResponse) (c : Client U)
    (waits : ∀ d : Client U, Waited lossy c d → Waited lossy d (wait d)) :
    Waited lossy c (sendWith wait ssid operation request refused outcome c).2 := by
  simp only [sendWith]
  split
  · cases refused with
    | some e => exact .refl c
    | none =>
      have noted : Waited lossy c (c.note (.sent ssid operation request)) := waited_note (plain request)
      exact noted.trans (waits _ noted)
  · exact .refl c

theorem waited_updateWith {wait : Client U → Client U} {ssid : UInt16} {refused : Option Error}
    {outcome : Result CoapResponse} {now : Int} (c : Client U)
    (waits : ∀ d : Client U, ssid ∈ d.registrations → Waited lossy d (wait d)) :
    Waited lossy c (updateWith wait ssid refused outcome now c).2 := by
  simp only [updateWith]
  cases found : c.registrations.lookup ssid with
  | none => exact .refl c
  | some reg =>
    have registered : ssid ∈ c.registrations := AList.lookup_isSome.mp (by rw [found]; rfl)
    cases c.connections.lookup ssid with
    | none => exact .refl c
    | some conn =>
      have updating : Waited lossy c (c.setState .Updating) := waited_setState c .Updating
      have stays (d : Client U) (waited : Waited lossy (c.setState .Updating) d) : ssid ∈ d.registrations :=
        (waited.registrations ssid).mpr ((updating.registrations ssid).mpr registered)
      have plain (request : CoapRequest) : (Entry.sent ssid .update request).Passive := trivial
      have sent (request : CoapRequest) : Waited lossy (c.setState .Updating)
          (sendWith wait ssid .update request refused outcome (c.setState .Updating)).2 :=
        waited_sendWith plain request refused outcome _ (fun d waited => waits d (stays d waited))
      have through := updating.trans (sent { method := .Post, uriPath := reg.location, contentFormat := .LinkFormat })
      dsimp only
      generalize sendWith wait ssid .update _ refused outcome (c.setState .Updating) = ended at through ⊢
      obtain ⟨response,d⟩ := ended
      cases response with
      | error e => exact through.trans (waited_setState d .Registered)
      | ok r =>
        dsimp only
        split
        · exact through.trans ((waited_renew d ssid now).trans
            ((waited_noteAccepted _ ssid .update now).trans (waited_setState _ .Registered)))
        · exact through.trans (waited_setState d .Registered)

/-- Opening a connection leaves all but the connections as it was. -/
theorem openConnection_cases (ssid : UInt16) (connect : Result Unit) (c : Client U) :
    ∃ connections new, (openConnection ssid connect c).2 = { c with connections := connections, log := new ++ c.log } ∧
      (∀ e ∈ new, ∃ config, e = .connect ssid config) ∧
        ∀ s, s ≠ ssid → connections.lookup s = c.connections.lookup s := by
  simp only [openConnection]
  split
  · exact ⟨c.connections,[],rfl,by simp,fun _ _ => rfl⟩
  · cases connect with
    | error e => exact ⟨c.connections,[_],rfl,by simp,fun _ _ => rfl⟩
    | ok opened =>
      refine ⟨_,[_],rfl,by simp,?_⟩
      intro s other
      exact (lookup_set _ _ _ _).trans (if_neg other)

/-- The end of a deregistration: the registration is dropped, and the state settled. -/
theorem dropRegistration_cases (c : Client U) (ssid : UInt16) (state : ClientState) :
    let d := ({ c with registrations := c.registrations.erase ssid }.notify (.onDeregistered ssid)).setState state
    (∀ s, s ∈ d.registrations ↔ s ∈ c.registrations ∧ s ≠ ssid) ∧ d.control = c.control ∧ Grown c d := by
  have noted : Waited (fun _ => True) { c with registrations := c.registrations.erase ssid }
      ({ c with registrations := c.registrations.erase ssid }.notify (.onDeregistered ssid)) := waited_note trivial
  have settled := noted.trans (waited_setState _ state)
  refine ⟨?_,settled.control,settled.log⟩
  intro s
  rw [settled.registrations, AList.mem_erase, and_comm]

section
variable [Object U]

/-- Answering a request is no more than the wait of the update it triggers. -/
theorem waited_serve {wait : UInt16 → Client U → Client U} {moments : Moments} {request : CoapRequest}
    {refused : Option Error} {outcome : Result CoapResponse} {now : Int} (c : Client U)
    (waits : ∀ (target : UInt16) (d : Client U), target ∈ d.registrations → Waited lossy d (wait target d)) :
    Waited lossy c (serve wait moments request refused outcome now c) := by
  have handled : Waited lossy c { c with objects := (handleIncomingRequest moments request c.objects).2 } :=
    waited_objects c _
  unfold serve
  dsimp only
  split
  · next target _ => exact (handled.trans (waited_updateWith _ (waits target))).trans (waited_note trivial)
  · exact handled.trans (waited_note trivial)

/-- What libcoap delivers on a connection during a wait. -/
theorem waited_deliver (events : Events) (ssid : UInt16) (c : Client U) :
    Waited (fun s => s = ssid ∧ events.Loses) c (deliver events ssid c) := by
  induction events generalizing ssid c with
  | done => exact .refl c
  | session up after ih =>
    rw [deliver]
    have event : Waited (fun s => s = ssid ∧ (Events.session up after).Loses) c (c.sessionEvent ssid up) :=
      waited_sessionEvent c ssid up (fun down => ⟨rfl,.inl down⟩)
    exact event.trans ((ih ssid _).weaken (fun s lost => .inl ⟨lost.1,.inr lost.2⟩))
  | request moments request refused during outcome now after duringIh afterIh =>
    rw [deliver]
    refine Waited.trans (waited_serve c ?_) (afterIh ssid _)
    intro target d registered
    -- An update waits on the connection of a server that is registered.
    refine (duringIh target d).weaken (fun s lost => .inr ?_)
    rw [lost.1]
    exact registered

theorem waited_updateRegistration (ssid : UInt16) (a : Answer) (c : Client U) :
    Waited lossy c (updateRegistration ssid a c).2 := by
  refine waited_updateWith c (fun d registered => (waited_deliver a.during ssid d).weaken (fun s lost => .inr ?_))
  rw [lost.1]
  exact registered

theorem waited_checkRegistrationUpdates (now : Int) (answers : UInt16 → Answer) (c : Client U) :
    Waited lossy c (checkRegistrationUpdates now answers c) := by
  refine List.foldlRecOn _ _ (Waited.refl c) (fun d waited ssid _ => waited.trans ?_)
  unfold checkRegistrationUpdate
  split
  · dsimp only
    split
    · exact waited_updateRegistration ssid _ d
    · exact .refl d
  · exact .refl d

theorem waited_pollConnections (during : UInt16 → Events) (c : Client U) :
    Waited (fun s => (during s).Loses) c (pollConnections during c) := by
  refine List.foldlRecOn _ _ (Waited.refl c) (fun d waited ssid _ => waited.trans ?_)
  refine (waited_deliver (during ssid) ssid d).weaken (fun s lost => .inl ?_)
  rw [lost.1]
  exact lost.2

/-- The request of a registration, on a connection that is open. -/
def attempt (ssid : UInt16) (a : RegisterAnswer) (srv : ServerInstance) (c : Client U) :
    Result CoapResponse × Client U :=
  send ssid (.register srv.lifetime) ((c.setState .Registering).registrationRequest srv) a.toAnswer
    (c.setState .Registering)

/-- The ways a registration goes: an instance is missing, the connection cannot be
    opened, the request fails or is rejected, or it is accepted. -/
inductive RegisterOutcome (ssid : UInt16) (a : RegisterAnswer) (c : Client U) : Result Unit → Client U → Prop
  | missing (e : Error) : RegisterOutcome ssid a c (.error e) c
  | unopened {e : Error} {d : Client U} (opened : openConnection ssid a.connect c = (.error e,d)) (e' : Error) :
      RegisterOutcome ssid a c (.error e') d
  | failed {srv : ServerInstance} {d : Client U} (found : c.objects.server.findByShortServerId ssid = some srv)
      (opened : openConnection ssid a.connect c = (.ok (),d)) (e : Error) :
      RegisterOutcome ssid a c (.error e) ((attempt ssid a srv d).2.setState .Error)
  | accepted {srv : ServerInstance} {d : Client U} {r : CoapResponse}
      (found : c.objects.server.findByShortServerId ssid = some srv)
      (opened : openConnection ssid a.connect c = (.ok (),d)) (answered : (attempt ssid a srv d).1 = .ok r)
      (success : r.isSuccess = true) (located : r.getLocationPath ≠ []) :
      RegisterOutcome ssid a c (.ok ()) (storeRegistration ssid r.getLocationPath srv.lifetime a (attempt ssid a srv d).2)

theorem registerWithServer_outcome (ssid : UInt16) (a : RegisterAnswer) (c : Client U) :
    RegisterOutcome ssid a c (registerWithServer ssid a c).1 (registerWithServer ssid a c).2 := by
  simp only [registerWithServer]
  cases SecurityObject.findByShortServerId c.objects.security ssid with
  | none => exact .missing _
  | some _ =>
    cases found : c.objects.server.findByShortServerId ssid with
    | none => exact .missing _
    | some srv =>
      rcases opened : openConnection ssid a.connect c with ⟨e | ⟨⟩,d⟩
      · exact .unopened opened _
      · have failed := RegisterOutcome.failed (a := a) found opened
        have accepted := fun r => RegisterOutcome.accepted (a := a) (r := r) found opened
        simp only [attempt] at failed accepted
        dsimp only
        generalize send ssid (.register srv.lifetime) _ a.toAnswer (d.setState .Registering) = ended at failed accepted ⊢
        obtain ⟨response,d'⟩ := ended
        cases response with
        | error e => exact failed _
        | ok r =>
          dsimp only
          cases success : r.isSuccess with
          | false => exact failed _
          | true =>
            by_cases located : r.getLocationPath = []
            · rw [if_pos located]
              exact failed _
            · rw [if_neg located]
              exact accepted r rfl success located

theorem waited_sendDeregister (ssid : UInt16) (reg : Registration) (a : Answer) (c : Client U) :
    Waited (fun _ => True) c (sendDeregister ssid reg a c) := by
  simp only [sendDeregister]
  cases c.connections.lookup ssid with
  | none => exact .refl c
  | some conn =>
    have plain (request : CoapRequest) : (Entry.sent ssid .deregister request).Passive := trivial
    exact (waited_setState c .Deregistering).trans (waited_sendWith plain _ a.refused a.outcome _
      (fun d _ => (waited_deliver a.during ssid d).forget))

/-- A deregistration drops the registration and no other. -/
theorem deregister_cases (ssid : UInt16) (a : Answer) (c : Client U) :
    (∀ s, s ∈ (deregister ssid a c).2.registrations ↔ s ∈ c.registrations ∧ s ≠ ssid) ∧
      (deregister ssid a c).2.control = c.control ∧ Grown c (deregister ssid a c).2 := by
  simp only [deregister]
  cases found : c.registrations.lookup ssid with
  | none =>
    have absent : ssid ∉ c.registrations := AList.lookup_eq_none.mp found
    exact ⟨fun s => ⟨fun member => ⟨member,fun same => absent (same ▸ member)⟩,And.left⟩,rfl,.same rfl⟩
  | some reg =>
    have sent := waited_sendDeregister ssid reg a c
    dsimp only
    generalize sendDeregister ssid reg a c = d at sent ⊢
    obtain ⟨registrations,control,grown⟩ :=
      dropRegistration_cases d ssid (if (d.registrations.erase ssid).keys = [] then .Idle else .Registered)
    exact ⟨fun s => (registrations s).trans (and_congr_left' (sent.registrations s)),control.trans sent.control,
      sent.log.trans grown⟩

end

end Client

end Ferriot
