import Ferriot.ClientWaits

/-!
# What each call leaves behind

The tables, the state and the reconnection after each call of the application:
which servers are registered, which are connected, and what the client reports.
-/
namespace Ferriot
open Tables Requests

namespace Client
variable {U : Type}

/-- After a wait the state is what it was, or that of an update of a registered server. -/
structure Kept (c d : Client U) : Prop where
  waited : Waited (fun _ => True) c d
  state : d.state = c.state ∨ d.state = .Registered ∧ ∃ s, s ∈ d.registrations
  config : d.reconnectConfig = c.reconnectConfig

theorem Kept.refl (c : Client U) : Kept c c := ⟨.refl c,.inl rfl,rfl⟩

theorem Kept.trans {c d e : Client U} (first : Kept c d) (second : Kept d e) : Kept c e := by
  refine ⟨first.waited.trans second.waited,?_,second.config.trans first.config⟩
  rcases second.state with same | settled
  · rcases first.state with before | ⟨registered,s,member⟩
    · exact .inl (same.trans before)
    · exact .inr ⟨same.trans registered,s,(second.waited.registrations s).mpr member⟩
  · exact .inr settled

@[simp] theorem setState_state (c : Client U) (new : ClientState) : (c.setState new).state = new := by
  simp only [setState]
  split
  · assumption
  · rfl

@[simp] theorem setState_registrations (c : Client U) (new : ClientState) :
    (c.setState new).registrations = c.registrations := by
  simp only [setState]
  split <;> rfl

@[simp] theorem setState_connections (c : Client U) (new : ClientState) :
    (c.setState new).connections = c.connections := by
  simp only [setState]
  split <;> rfl

@[simp] theorem setState_control (c : Client U) (new : ClientState) : (c.setState new).control = c.control := by
  simp only [setState]
  split <;> rfl

@[simp] theorem setState_config (c : Client U) (new : ClientState) :
    (c.setState new).reconnectConfig = c.reconnectConfig := by
  simp only [setState]
  split <;> rfl

theorem renew_config (c : Client U) (ssid : UInt16) (now : Int) : (c.renew ssid now).reconnectConfig = c.reconnectConfig := by
  simp only [renew]
  split <;> rfl

theorem noteAccepted_config (c : Client U) (ssid : UInt16) (operation : Operation) (now : Int) :
    (c.noteAccepted ssid operation now).reconnectConfig = c.reconnectConfig := by
  simp only [noteAccepted]
  split <;> rfl

theorem sendWith_config {wait : Client U → Client U} (waits : ∀ d, (wait d).reconnectConfig = d.reconnectConfig)
    (ssid : UInt16) (operation : Operation) (request : CoapRequest) (refused : Option Error)
    (outcome : Result CoapResponse) (c : Client U) :
    (sendWith wait ssid operation request refused outcome c).2.reconnectConfig = c.reconnectConfig := by
  simp only [sendWith]
  split
  · cases refused with
    | some e => rfl
    | none => exact waits _
  · rfl

theorem kept_updateWith {wait : Client U → Client U} {ssid : UInt16} {refused : Option Error}
    {outcome : Result CoapResponse} {now : Int} (c : Client U) (waits : ∀ d : Client U, Kept d (wait d)) :
    Kept c (updateWith wait ssid refused outcome now c).2 := by
  have waited : Waited (fun _ => True) c (updateWith wait ssid refused outcome now c).2 :=
    waited_updateWith c (fun d _ => (waits d).waited)
  cases found : c.registrations.lookup ssid with
  | none =>
    simp only [updateWith, found]
    exact .refl c
  | some reg =>
    cases connected : c.connections.lookup ssid with
    | none =>
      simp only [updateWith, found, connected]
      exact .refl c
    | some conn =>
      have registered : ssid ∈ c.registrations := AList.lookup_isSome.mp (by rw [found]; rfl)
      have kept := sendWith_config (fun d => (waits d).config) ssid .update
        { method := .Post, uriPath := reg.location, contentFormat := .LinkFormat } refused outcome (c.setState .Updating)
      refine ⟨waited,.inr ⟨?_,ssid,(waited.registrations ssid).mpr registered⟩,?_⟩
      · simp only [updateWith, found, connected]
        split
        · simp
        · split <;> simp
      · simp only [updateWith, found, connected]
        split
        · simpa using kept
        · split <;> simpa [noteAccepted_config, renew_config] using kept

/-- What opening a connection does not touch, and where it leads. -/
theorem opened_cases {ssid : UInt16} {connect : Result Unit} {c d : Client U} {result : Result Unit}
    (opened : openConnection ssid connect c = (result,d)) :
    d.registrations = c.registrations ∧ d.control = c.control ∧ d.state = c.state ∧
      (∀ s ∈ c.connections, s ∈ d.connections) ∧ (result = .ok () → ssid ∈ d.connections) := by
  simp only [openConnection] at opened
  split at opened
  · next present =>
    cases opened
    exact ⟨rfl,rfl,rfl,fun _ => id,fun _ => present⟩
  · cases connect with
    | error e =>
      cases opened
      exact ⟨rfl,rfl,rfl,fun _ => id,by rintro ⟨⟩⟩
    | ok =>
      cases opened
      exact ⟨rfl,rfl,rfl,fun s member => (mem_set _ _ _ _).mpr (.inr member),fun _ => (mem_set _ _ _ _).mpr (.inl rfl)⟩

/-- The end of a registration: it is stored, and the state settled. -/
theorem storeRegistration_cases (ssid : UInt16) (location : Bytes) (lifetime : UInt32) (a : RegisterAnswer) (c : Client U) :
    let d := storeRegistration ssid location lifetime a c
    (∀ s, s ∈ d.registrations ↔ s = ssid ∨ s ∈ c.registrations) ∧ (∀ s, s ∈ d.connections ↔ s ∈ c.connections) ∧
      d.control = c.control ∧ d.state = .Registered := by
  let stored : Client U :=
    { c with registrations := set c.registrations ssid ⟨location,ssid,a.registeredAt,a.now + seconds lifetime.toNat⟩ }
  have waited : Waited (fun _ => True) stored (storeRegistration ssid location lifetime a c) :=
    ((waited_noteAccepted stored ssid (.register lifetime) a.now).trans (waited_setState _ .Registered)).trans
      (waited_note trivial)
  refine ⟨fun s => (waited.registrations s).trans (mem_set _ _ _ _),waited.connections,waited.control,?_⟩
  exact setState_state _ .Registered

/-- The handling of a loss. -/
structure Lost (ssid : UInt16) (c d : Client U) : Prop where
  before : c.state = .Registered ∧ c.reconnecting = false
  reconnecting : d.reconnecting = true
  reconnectSsid : d.reconnectSsid = ssid
  attempts : d.reconnectAttempts = 0
  state : d.state = .Error
  registrations : ∀ s, s ∈ d.registrations ↔ s ∈ c.registrations ∧ s ≠ ssid
  connections : d.connections = c.connections
  config : d.reconnectConfig = c.reconnectConfig

theorem handleConnectionLost_cases (ssid : UInt16) (now : Int) {c : Client U}
    (before : c.state = .Registered ∧ c.reconnecting = false) : Lost ssid c (handleConnectionLost ssid now c) := by
  obtain ⟨-,errored,-⟩ := control_eq (setState_control { c with reconnecting := true } .Error)
  simp only [handleConnectionLost, before.2, Bool.false_eq_true, ↓reduceIte, notify, note]
  refine ⟨before,errored,rfl,rfl,?_,?_,?_,?_⟩
  · simp
  · intro s
    simp [AList.mem_erase, and_comm]
  · simp
  · simp

/-- The health check handles one loss, or finds none, or does not look. -/
theorem checkConnectionHealth_cases (now lostAt : Int) (c : Client U) :
    checkConnectionHealth now lostAt c = c ∧ (c.state = .Registered → c.reconnecting = false → c.lostConnection now = none) ∨
      ∃ ssid, Lost ssid c (checkConnectionHealth now lostAt c) := by
  simp only [checkConnectionHealth]
  by_cases skipped : c.state ≠ .Registered ∨ c.reconnecting = true
  · rw [if_pos skipped]
    refine .inl ⟨rfl,?_⟩
    intro registered quiet
    simp [registered, quiet] at skipped
  · rw [if_neg skipped]
    have before : c.state = .Registered ∧ c.reconnecting = false := by simpa using skipped
    cases lost : c.lostConnection now with
    | none => exact .inl ⟨rfl,fun _ _ => rfl⟩
    | some ssid => exact .inr ⟨ssid,handleConnectionLost_cases ssid lostAt before⟩

/-- A reconnection is given up: it is disabled, or the retries are used up. -/
def GivesUp (c : Client U) : Prop :=
  c.reconnectConfig.enabled = false ∨
    0 < c.reconnectConfig.maxRetries ∧ c.reconnectConfig.maxRetries ≤ c.reconnectAttempts

section
variable [Object U]

theorem kept_serve {wait : UInt16 → Client U → Client U} {moments : Moments} {request : CoapRequest}
    {refused : Option Error} {outcome : Result CoapResponse} {now : Int} (c : Client U)
    (waits : ∀ (target : UInt16) (d : Client U), Kept d (wait target d)) :
    Kept c (serve wait moments request refused outcome now c) := by
  have handled : Kept c { c with objects := (handleIncomingRequest moments request c.objects).2 } :=
    ⟨waited_objects c _,.inl rfl,rfl⟩
  have served (d : Client U) (response : CoapResponse) : Kept d (d.note (.served request response)) :=
    ⟨waited_note trivial,.inl rfl,rfl⟩
  simp only [serve]
  split
  · next target _ => exact (handled.trans (kept_updateWith _ (waits target))).trans (served _ _)
  · exact handled.trans (served _ _)

theorem kept_deliver (events : Events) (ssid : UInt16) (c : Client U) : Kept c (deliver events ssid c) := by
  induction events generalizing ssid c with
  | done => exact .refl c
  | session up after ih =>
    rw [deliver]
    have event : Kept c (c.sessionEvent ssid up) := ⟨waited_sessionEvent c ssid up (fun _ => trivial),.inl rfl,rfl⟩
    exact event.trans (ih ssid _)
  | request moments request refused during outcome now after duringIh afterIh =>
    rw [deliver]
    exact (kept_serve c duringIh).trans (afterIh ssid _)

theorem kept_updateRegistration (ssid : UInt16) (a : Answer) (c : Client U) : Kept c (updateRegistration ssid a c).2 :=
  kept_updateWith c (kept_deliver a.during ssid)

theorem kept_checkRegistrationUpdates (now : Int) (answers : UInt16 → Answer) (c : Client U) :
    Kept c (checkRegistrationUpdates now answers c) := by
  refine List.foldlRecOn _ _ (Kept.refl c) (fun d kept ssid _ => kept.trans ?_)
  simp only [checkRegistrationUpdate]
  split
  · split
    · exact kept_updateRegistration ssid _ d
    · exact .refl d
  · exact .refl d

theorem kept_pollConnections (during : UInt16 → Events) (c : Client U) : Kept c (pollConnections during c) :=
  List.foldlRecOn _ _ (Kept.refl c) (fun d kept ssid _ => kept.trans (kept_deliver (during ssid) ssid d))

/-- The request of a registration keeps the tables. -/
theorem attempt_cases (ssid : UInt16) (a : RegisterAnswer) (srv : ServerInstance) (c : Client U) :
    (∀ s, s ∈ (attempt ssid a srv c).2.registrations ↔ s ∈ c.registrations) ∧
      (∀ s, s ∈ (attempt ssid a srv c).2.connections ↔ s ∈ c.connections) ∧
        (attempt ssid a srv c).2.control = c.control := by
  have registering : Waited (fun _ => True) c (c.setState .Registering) := waited_setState c .Registering
  simp only [attempt, send, sendWith]
  split
  · cases a.refused with
    | some e => exact ⟨registering.registrations,registering.connections,registering.control⟩
    | none =>
      have waited := (waited_deliver a.during ssid ((c.setState .Registering).note
        (.sent ssid (.register srv.lifetime) ((c.setState .Registering).registrationRequest srv)))).forget
      refine ⟨?_,?_,waited.control.trans registering.control⟩
      · intro s
        exact (waited.registrations s).trans (registering.registrations s)
      · intro s
        exact (waited.connections s).trans (registering.connections s)
  · exact ⟨registering.registrations,registering.connections,registering.control⟩

/-- What `register_with_server` leaves behind. -/
structure Registering (ssid : UInt16) (c : Client U) (result : Result Unit) (d : Client U) : Prop where
  control : d.control = c.control
  connections : ∀ s ∈ c.connections, s ∈ d.connections
  registrations : ∀ s, s ∈ d.registrations ↔ result = .ok () ∧ s = ssid ∨ s ∈ c.registrations
  connected : result = .ok () → ssid ∈ d.connections
  accepted : result = .ok () → d.state = .Registered
  failed : ∀ e, result = .error e → d.state = c.state ∨ d.state = .Error

theorem register_cases (ssid : UInt16) (a : RegisterAnswer) (c : Client U) :
    Registering ssid c (registerWithServer ssid a c).1 (registerWithServer ssid a c).2 := by
  have outcome := registerWithServer_outcome ssid a c
  generalize (registerWithServer ssid a c).1 = result at outcome ⊢
  generalize (registerWithServer ssid a c).2 = d at outcome ⊢
  cases outcome with
  | missing e => exact ⟨rfl,fun _ => id,by simp,by simp,by simp,fun _ _ => .inl rfl⟩
  | unopened opened e =>
    obtain ⟨registrations,control,state,connections,-⟩ := opened_cases opened
    exact ⟨control,connections,by simp [registrations],by simp,by simp,fun _ _ => .inl state⟩
  | @failed srv d found opened e =>
    obtain ⟨registrations,control,state,connections,-⟩ := opened_cases opened
    obtain ⟨sameRegistrations,sameConnections,sameControl⟩ := attempt_cases ssid a srv d
    refine ⟨?_,?_,by simp [sameRegistrations, registrations],by simp,by simp,fun _ _ => .inr (by simp)⟩
    · rw [setState_control, sameControl, control]
    · intro s member
      rw [setState_connections]
      exact (sameConnections s).mpr (connections s member)
  | @accepted srv d r found opened answered success located =>
    obtain ⟨registrations,control,state,connections,connected⟩ := opened_cases opened
    obtain ⟨sameRegistrations,sameConnections,sameControl⟩ := attempt_cases ssid a srv d
    obtain ⟨storedRegistrations,storedConnections,storedControl,settled⟩ :=
      storeRegistration_cases ssid r.getLocationPath srv.lifetime a (attempt ssid a srv d).2
    refine ⟨storedControl.trans (sameControl.trans control),?_,?_,?_,fun _ => settled,by simp⟩
    · intro s member
      exact (storedConnections s).mpr ((sameConnections s).mpr (connections s member))
    · intro s
      rw [storedRegistrations, sameRegistrations, registrations]
      simp
    · intro _
      exact (storedConnections ssid).mpr ((sameConnections ssid).mpr (connected rfl))

/-- `deregister` keeps the connections and settles the state, unless there is nothing to do. -/
theorem deregister_settles (ssid : UInt16) (a : Answer) (c : Client U) :
    (∀ s, s ∈ (deregister ssid a c).2.connections ↔ s ∈ c.connections) ∧
      ((deregister ssid a c).2 = c ∨
        (deregister ssid a c).2.state = .Idle ∧ (∀ s, s ∉ (deregister ssid a c).2.registrations) ∨
        (deregister ssid a c).2.state = .Registered ∧ ∃ s, s ∈ (deregister ssid a c).2.registrations) := by
  cases found : c.registrations.lookup ssid with
  | none => simp [deregister, found]
  | some reg =>
    have sent := waited_sendDeregister ssid reg a c
    let dropped (d : Client U) : Client U :=
      { d with registrations := d.registrations.erase ssid }.notify (.onDeregistered ssid)
    have ended : (deregister ssid a c).2 = (dropped (sendDeregister ssid reg a c)).setState
        (if (dropped (sendDeregister ssid reg a c)).registrations.keys = [] then .Idle else .Registered) := by
      simp only [deregister, found, dropped]
    rw [ended]
    have connections : ∀ s, s ∈ (dropped (sendDeregister ssid reg a c)).connections ↔ s ∈ c.connections := sent.connections
    generalize dropped (sendDeregister ssid reg a c) = d at connections ⊢
    refine ⟨fun s => by rw [setState_connections, connections],.inr ?_⟩
    simp only [setState_state, setState_registrations]
    by_cases empty : d.registrations.keys = []
    · refine .inl ⟨if_pos empty,?_⟩
      intro s member
      simpa [empty] using AList.mem_keys.mp member
    · refine .inr ⟨if_neg empty,?_⟩
      obtain ⟨s,member⟩ := List.exists_mem_of_ne_nil _ empty
      exact ⟨s,AList.mem_keys.mpr member⟩

/-- A poll up to its health check. -/
def healthChecked (answers : PollAnswers) (c : Client U) : Client U :=
  checkConnectionHealth answers.healthAt answers.lostAt
    (checkRegistrationUpdates answers.updatesAt answers.updates (pollConnections answers.during c))

theorem poll_eq (answers : PollAnswers) (c : Client U) :
    poll answers c =
      if (healthChecked answers c).reconnecting ∧ (healthChecked answers c).nextReconnectTime ≤ answers.reconnectAt then
        tryReconnect (healthChecked answers c).reconnectSsid answers.register answers.failedAt (healthChecked answers c)
      else healthChecked answers c := rfl

/-- What precedes the health check of a poll. -/
theorem kept_beforeHealth (answers : PollAnswers) (c : Client U) :
    Kept c (checkRegistrationUpdates answers.updatesAt answers.updates (pollConnections answers.during c)) :=
  (kept_pollConnections answers.during c).trans (kept_checkRegistrationUpdates answers.updatesAt answers.updates _)

theorem tryReconnect_cases (ssid : UInt16) (a : RegisterAnswer) (failedAt : Int) (c : Client U) :
    (GivesUp c ∧ (tryReconnect ssid a failedAt c).reconnecting = false ∧ (tryReconnect ssid a failedAt c).state = c.state ∧
      (tryReconnect ssid a failedAt c).registrations = c.registrations ∧
        (tryReconnect ssid a failedAt c).connections = c.connections) ∨
    ¬ GivesUp c ∧ ∃ result e, Registering ssid (c.beginAttempt ssid) result e ∧
      (tryReconnect ssid a failedAt c).state = e.state ∧ (tryReconnect ssid a failedAt c).registrations = e.registrations ∧
        (tryReconnect ssid a failedAt c).connections = e.connections ∧
          (result ≠ .ok () → (tryReconnect ssid a failedAt c).reconnecting = c.reconnecting) := by
  simp only [tryReconnect, GivesUp]
  cases enabled : c.reconnectConfig.enabled with
  | false => exact .inl ⟨.inl rfl,rfl,rfl,rfl,rfl⟩
  | true =>
    simp only [Bool.not_true, Bool.false_eq_true, ↓reduceIte, reduceCtorEq, false_or]
    by_cases exhausted : 0 < c.reconnectConfig.maxRetries ∧ c.reconnectConfig.maxRetries ≤ c.reconnectAttempts
    · rw [if_pos exhausted]
      exact .inl ⟨exhausted,rfl,rfl,rfl,rfl⟩
    · rw [if_neg exhausted]
      refine .inr ⟨exhausted,_,_,register_cases ssid a (c.beginAttempt ssid),?_⟩
      obtain ⟨-,reconnecting,-⟩ := control_eq (register_cases ssid a (c.beginAttempt ssid)).control
      simp only [reconnect]
      generalize registerWithServer ssid a (c.beginAttempt ssid) = ended at reconnecting ⊢
      rcases ended with ⟨e | ⟨⟩,d⟩
      · exact ⟨rfl,rfl,rfl,fun _ => reconnecting⟩
      · exact ⟨rfl,rfl,rfl,fun other => absurd rfl other⟩

end

end Client

end Ferriot
