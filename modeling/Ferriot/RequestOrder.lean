import Ferriot.Callbacks
import Ferriot.ServerLocations

/-!
# Requests between the callbacks

The callbacks tell when a registration begins, where, and when it ends. Whatever calls
are made and whatever is served while they wait, an update or a deregistration leaves
only in between, and goes to the location that was told.
-/
namespace Ferriot
open Tables Requests Runs

/-- The location of the registration with a server, as the callbacks so far tell it. -/
def toldLocation (s : UInt16) : List Entry → Option Bytes
  | [] => none
  | .notified (.onRegistered ssid reg) :: earlier => if ssid = s then some reg.location else toldLocation s earlier
  | .notified (.onDeregistered ssid) :: earlier => if ssid = s then none else toldLocation s earlier
  | .notified (.onConnectionLost ssid) :: earlier => if ssid = s then none else toldLocation s earlier
  | _ :: earlier => toldLocation s earlier

/-- An update or a deregistration, after the callbacks made before it. -/
def InOrder : Entry → List Entry → Prop
  | .sent ssid .update request, earlier =>
    toldLocation ssid earlier = some request.uriPath ∧ request.method = .Post ∧ request.payload = []
  | .sent ssid .deregister request, earlier =>
    toldLocation ssid earlier = some request.uriPath ∧ request.method = .Delete ∧ request.payload = []
  | _, _ => True

/-- The callbacks have told what is known, and no request was out of order. -/
structure Ordered (known : UInt16 → Option Bytes) (log : List Entry) : Prop where
  told : ∀ s, toldLocation s log = known s
  requests : Throughout InOrder log

variable {known : UInt16 → Option Bytes}

/-- An entry that tells nothing of a registration. -/
theorem Ordered.cons {log : List Entry} {e : Entry} (ordered : Ordered known log)
    (untold : ∀ s, toldLocation s (e :: log) = toldLocation s log) (fits : InOrder e log) : Ordered known (e :: log) :=
  ⟨fun s => (untold s).trans (ordered.told s),fits,ordered.requests⟩

/-- The callback that tells of a registration. -/
theorem Ordered.registered {log : List Entry} (ordered : Ordered known log) (ssid : UInt16) (reg : Registration) :
    Ordered (Function.update known ssid (some reg.location)) (.notified (.onRegistered ssid reg) :: log) := by
  refine ⟨?_,trivial,ordered.requests⟩
  intro s
  simp only [toldLocation]
  by_cases here : ssid = s
  · rw [if_pos here, here, Function.update_self]
  · rw [if_neg here, Function.update_of_ne (Ne.symm here)]
    exact ordered.told s

/-- The callbacks that tell of its end. -/
theorem Ordered.ended {log : List Entry} (ordered : Ordered known log) {ssid : UInt16} {n : Notification}
    (ends : n = .onDeregistered ssid ∨ n = .onConnectionLost ssid) :
    Ordered (Function.update known ssid none) (.notified n :: log) := by
  have told (s : UInt16) : toldLocation s (.notified n :: log) = if ssid = s then none else toldLocation s log := by
    rcases ends with rfl | rfl <;> rfl
  refine ⟨?_,trivial,ordered.requests⟩
  intro s
  rw [told]
  by_cases here : ssid = s
  · rw [if_pos here, here, Function.update_self]
  · rw [if_neg here, Function.update_of_ne (Ne.symm here)]
    exact ordered.told s

namespace Client
variable {U : Type}

/-- What is registered has been told. -/
def Telling (c : Client U) : Prop := Ordered c.location c.log

theorem ordered_setState {c : Client U} (ordered : Ordered known c.log) (new : ClientState) :
    Ordered known (c.setState new).log := by
  simp only [setState]
  split
  · exact ordered
  · exact ordered.cons (fun _ => rfl) trivial

theorem ordered_noteAccepted {c : Client U} (ordered : Ordered known c.log) (ssid : UInt16) (operation : Operation)
    (now : Int) : Ordered known (c.noteAccepted ssid operation now).log := by
  simp only [noteAccepted]
  split
  · exact ordered.cons (fun _ => rfl) trivial
  · exact ordered

theorem Telling.same {c d : Client U} (telling : Telling c) (log : d.log = c.log)
    (location : ∀ s, d.location s = c.location s) : Telling d := by
  have same : d.location = c.location := funext location
  unfold Telling
  rwa [same, log]

theorem Telling.note {c : Client U} {e : Entry} (telling : Telling c)
    (untold : ∀ s, toldLocation s (e :: c.log) = toldLocation s c.log) (fits : InOrder e c.log) : Telling (c.note e) :=
  Ordered.cons telling untold fits

theorem Telling.setState {c : Client U} (telling : Telling c) (new : ClientState) : Telling (c.setState new) := by
  have same : (c.setState new).location = c.location := funext (fun _ => setState_location c new)
  have ordered := ordered_setState telling new
  rwa [← same] at ordered

theorem Telling.noteAccepted {c : Client U} (telling : Telling c) (ssid : UInt16) (operation : Operation) (now : Int) :
    Telling (c.noteAccepted ssid operation now) := by
  have same : (c.noteAccepted ssid operation now).location = c.location :=
    funext (fun _ => noteAccepted_location c ssid operation now)
  have ordered := ordered_noteAccepted telling ssid operation now
  rwa [← same] at ordered

theorem Telling.renew {c : Client U} (telling : Telling c) (ssid : UInt16) (now : Int) : Telling (c.renew ssid now) := by
  simp only [Client.renew]
  split
  · refine telling.same rfl ?_
    intro s
    simp only [location]
    rw [lookup_modify]
    by_cases here : s = ssid
    · rw [if_pos here, Option.map_map, here]
      rfl
    · rw [if_neg here]
  · exact telling

/-- A registration that is dropped, and the callback that tells of it. -/
theorem Telling.erase {c : Client U} (telling : Telling c) {ssid : UInt16} {n : Notification}
    (ends : n = .onDeregistered ssid ∨ n = .onConnectionLost ssid) :
    Telling ({ c with registrations := c.registrations.erase ssid }.notify n) := by
  have known : ({ c with registrations := c.registrations.erase ssid }.notify n).location =
      Function.update c.location ssid none := by
    funext s
    show ((c.registrations.erase ssid).lookup s).map Registration.location = _
    by_cases here : s = ssid
    · rw [here, AList.lookup_erase, Function.update_self]
      rfl
    · rw [AList.lookup_erase_ne here, Function.update_of_ne here]
      rfl
  have ordered := Ordered.ended telling ends
  rwa [← known] at ordered

theorem Telling.sendWith {wait : Client U → Client U} (waits : ∀ d, Telling d → Telling (wait d)) {c : Client U}
    (telling : Telling c) {ssid : UInt16} {operation : Operation} {request : CoapRequest}
    (fits : InOrder (.sent ssid operation request) c.log) (refused : Option Error) (outcome : Result CoapResponse) :
    Telling (Client.sendWith wait ssid operation request refused outcome c).2 := by
  simp only [Client.sendWith]
  split
  · cases refused with
    | some e => exact telling
    | none => exact waits _ (telling.note (fun _ => rfl) fits)
  · exact telling

theorem Telling.updateWith {wait : Client U → Client U} (waits : ∀ d, Telling d → Telling (wait d)) {c : Client U}
    (telling : Telling c) (ssid : UInt16) (refused : Option Error) (outcome : Result CoapResponse) (now : Int) :
    Telling (Client.updateWith wait ssid refused outcome now c).2 := by
  simp only [Client.updateWith]
  cases found : c.registrations.lookup ssid with
  | none => exact telling
  | some reg =>
    cases c.connections.lookup ssid with
    | none => exact telling
    | some conn =>
      have updating := telling.setState .Updating
      have told : toldLocation ssid (c.setState .Updating).log = some reg.location := by
        rw [updating.told, setState_location]
        exact location_found found rfl
      have fits : InOrder (.sent ssid .update { method := .Post, uriPath := reg.location, contentFormat := .LinkFormat })
          (c.setState .Updating).log := ⟨told,rfl,rfl⟩
      have sent := Telling.sendWith waits updating fits refused outcome
      dsimp only
      generalize Client.sendWith wait ssid .update _ refused outcome (c.setState .Updating) = ended at sent ⊢
      obtain ⟨response,d⟩ := ended
      cases response with
      | error e => exact sent.setState .Registered
      | ok r =>
        dsimp only
        split
        · exact ((sent.renew ssid now).noteAccepted ssid .update now).setState .Registered
        · exact sent.setState .Registered

/-- A registration is told once it is stored and the state has changed. -/
theorem Telling.storeRegistration {c : Client U} (telling : Telling c) (ssid : UInt16) (path : Bytes) (lifetime : UInt32)
    (a : RegisterAnswer) : Telling (Client.storeRegistration ssid path lifetime a c) := by
  let reg : Registration := ⟨path,ssid,a.registeredAt,a.now + seconds lifetime.toNat⟩
  let stored : Client U := { c with registrations := set c.registrations ssid reg }
  have before : Ordered c.location ((stored.noteAccepted ssid (.register lifetime) a.now).setState .Registered).log :=
    ordered_setState (ordered_noteAccepted (c := stored) telling ssid _ a.now) .Registered
  have known : (Client.storeRegistration ssid path lifetime a c).location =
      Function.update c.location ssid (some reg.location) := by
    funext s
    show (((stored.noteAccepted ssid (.register lifetime) a.now).setState .Registered).location s) = _
    rw [setState_location, noteAccepted_location]
    show ((set c.registrations ssid reg).lookup s).map Registration.location = _
    rw [lookup_set]
    by_cases here : s = ssid
    · rw [if_pos here, here, Function.update_self]
      rfl
    · rw [if_neg here, Function.update_of_ne here]
      rfl
  have ordered := before.registered ssid reg
  rwa [← known] at ordered

theorem Telling.openConnection {c : Client U} (telling : Telling c) (ssid : UInt16) (connect : Result Unit) :
    Telling (Client.openConnection ssid connect c).2 := by
  simp only [Client.openConnection]
  split
  · exact telling
  · cases connect with
    | error e => exact telling.note (fun _ => rfl) trivial
    | ok u => exact telling.note (fun _ => rfl) trivial

theorem Telling.handleConnectionLost {c : Client U} (telling : Telling c) (ssid : UInt16) (now : Int) :
    Telling (Client.handleConnectionLost ssid now c) := by
  simp only [Client.handleConnectionLost]
  split
  · exact telling
  · have busy : Telling { c with reconnecting := true } := telling
    have lost := (busy.setState .Error).erase (n := .onConnectionLost ssid) (.inr rfl)
    exact Telling.note (e := .notified (.onError .ConnectionFailed "Connection to server lost"))
      (lost.same rfl (fun _ => rfl)) (fun _ => rfl) trivial

theorem Telling.checkConnectionHealth {c : Client U} (telling : Telling c) (now lostAt : Int) :
    Telling (Client.checkConnectionHealth now lostAt c) := by
  simp only [Client.checkConnectionHealth]
  split
  · exact telling
  · cases c.lostConnection now with
    | none => exact telling
    | some ssid => exact telling.handleConnectionLost ssid lostAt

theorem Reordered.telling {c d : Client U} (reordered : Reordered c d) (telling : Telling c) : Telling d := by
  obtain ⟨-,registrations,rest⟩ := reordered
  refine telling.same (by rw [rest]) ?_
  intro s
  unfold location
  rw [AList.perm_lookup registrations]

section
variable [Object U]

theorem Telling.deliver (events : Events) (ssid : UInt16) {c : Client U} (telling : Telling c) :
    Telling (Client.deliver events ssid c) := by
  induction events generalizing ssid c with
  | done => exact telling
  | session up after ih => exact ih ssid (telling.same rfl (fun _ => rfl))
  | request moments request refused during outcome now after duringIh afterIh =>
    rw [Client.deliver]
    refine afterIh ssid ?_
    have handled : Telling { c with objects := (handleIncomingRequest moments request c.objects).2 } := telling
    simp only [serve]
    split
    · next target _ =>
      exact (handled.updateWith (fun d => duringIh target) target refused outcome now).note (fun _ => rfl) trivial
    · exact handled.note (fun _ => rfl) trivial

theorem Telling.updateRegistration {c : Client U} (telling : Telling c) (ssid : UInt16) (a : Answer) :
    Telling (Client.updateRegistration ssid a c).2 :=
  telling.updateWith (fun _ => Telling.deliver a.during ssid) ssid a.refused a.outcome a.now

theorem Telling.send {c : Client U} (telling : Telling c) {ssid : UInt16} {operation : Operation} {request : CoapRequest}
    (fits : InOrder (.sent ssid operation request) c.log) (a : Answer) :
    Telling (Client.send ssid operation request a c).2 :=
  Telling.sendWith (fun _ => Telling.deliver a.during ssid) telling fits a.refused a.outcome

/-- A registration request is sent at any time. -/
theorem Telling.sendRegister {c : Client U} (telling : Telling c) (ssid : UInt16) (lifetime : UInt32) (request : CoapRequest)
    (a : Answer) : Telling (Client.send ssid (.register lifetime) request a c).2 := by
  have fits : InOrder (.sent ssid (.register lifetime) request) c.log := trivial
  exact telling.send fits a

theorem Telling.registerWithServer {c : Client U} (telling : Telling c) (ssid : UInt16) (a : RegisterAnswer) :
    Telling (Client.registerWithServer ssid a c).2 := by
  have outcome := registerWithServer_outcome ssid a c
  have opens := telling.openConnection ssid a.connect
  generalize (Client.registerWithServer ssid a c).1 = result at outcome
  generalize (Client.registerWithServer ssid a c).2 = e at outcome ⊢
  cases outcome with
  | missing => exact telling
  | unopened opened => rwa [opened] at opens
  | @failed srv d found opened =>
    rw [opened] at opens
    exact ((opens.setState .Registering).sendRegister ssid srv.lifetime _ a.toAnswer).setState .Error
  | @accepted srv d r found opened answered success located =>
    rw [opened] at opens
    exact ((opens.setState .Registering).sendRegister ssid srv.lifetime _ a.toAnswer).storeRegistration ssid _ srv.lifetime a

theorem Telling.deregister {c : Client U} (telling : Telling c) (ssid : UInt16) (a : Answer) :
    Telling (Client.deregister ssid a c).2 := by
  simp only [Client.deregister]
  cases found : c.registrations.lookup ssid with
  | none => exact telling
  | some reg =>
    have leaving := telling.setState .Deregistering
    have told : toldLocation ssid (c.setState .Deregistering).log = some reg.location := by
      rw [leaving.told, setState_location]
      exact location_found found rfl
    have sent : Telling (sendDeregister ssid reg a c) := by
      simp only [sendDeregister]
      cases c.connections.lookup ssid with
      | none => exact telling
      | some conn =>
        have fits : InOrder (.sent ssid .deregister
            { method := .Delete, uriPath := reg.location, contentFormat := .LinkFormat })
            (c.setState .Deregistering).log := ⟨told,rfl,rfl⟩
        exact leaving.send fits a
    exact (sent.erase (.inl rfl)).setState _

/-- Every registration has been dropped and told before the tables are cleared. -/
theorem Telling.stop {c : Client U} (telling : Telling c) (onEventThread : Bool) (answers : UInt16 → Answer) :
    Telling (Client.stop onEventThread answers c) := by
  have ended : Telling { c with running := false } := telling
  simp only [Client.stop]
  split
  · exact ended
  · have left := deregister_all answers c.registrations.keys { c with running := false }
    have dropped : Telling (c.registrations.keys.foldl (fun c ssid => (Client.deregister ssid (answers ssid) c).2)
        { c with running := false }) :=
      List.foldlRecOn _ _ ended (fun d telling ssid _ => telling.deregister ssid (answers ssid))
    generalize c.registrations.keys.foldl (fun c ssid => (Client.deregister ssid (answers ssid) c).2)
      { c with running := false } = d at left dropped ⊢
    have none (s : UInt16) : d.registrations.lookup s = none := by
      rw [AList.lookup_eq_none, left]
      rintro ⟨member,absent⟩
      exact absent (AList.mem_keys.mp member)
    have cleared : Telling { d with connections := ∅, registrations := ∅ } :=
      dropped.same rfl (fun s => by simp [location, none])
    exact cleared.setState .Idle

theorem Telling.tryReconnect {c : Client U} (telling : Telling c) (ssid : UInt16) (a : RegisterAnswer) (failedAt : Int) :
    Telling (Client.tryReconnect ssid a failedAt c) := by
  simp only [Client.tryReconnect]
  split
  · exact telling
  · split
    · exact Telling.note (c := { c with reconnecting := false }) telling (fun _ => rfl) trivial
    · have announced := Telling.note (c := { c with reconnectAttempts := c.reconnectAttempts + 1 }) telling
        (e := .notified (.onReconnecting ssid (c.reconnectAttempts + 1))) (fun _ => rfl) trivial
      have begun : Telling (c.beginAttempt ssid) := announced.same rfl (fun _ => rfl)
      have registered := begun.registerWithServer ssid a
      simp only [reconnect]
      generalize Client.registerWithServer ssid a (c.beginAttempt ssid) = ended at registered ⊢
      rcases ended with ⟨e | ⟨⟩,d⟩
      · exact registered
      · exact Telling.note (c := { d with reconnecting := false, reconnectAttempts := 0 }) registered (fun _ => rfl) trivial

theorem Telling.poll {c : Client U} (telling : Telling c) (answers : PollAnswers) : Telling (Client.poll answers c) := by
  have polled : Telling (pollConnections answers.during c) :=
    List.foldlRecOn _ _ telling (fun d telling ssid _ => Telling.deliver (answers.during ssid) ssid telling)
  have updated : Telling (checkRegistrationUpdates answers.updatesAt answers.updates
      (pollConnections answers.during c)) := by
    refine List.foldlRecOn _ _ polled (fun d telling ssid _ => ?_)
    simp only [checkRegistrationUpdate]
    split
    · split
      · exact telling.updateRegistration ssid _
      · exact telling
    · exact telling
  have checked : Telling (healthChecked answers c) := updated.checkConnectionHealth answers.healthAt answers.lostAt
  rw [poll_eq]
  split
  · exact checked.tryReconnect _ answers.register answers.failedAt
  · exact checked

theorem telling_step (c : Client U) (action : Action) (d : Client U) (telling : Telling c) (stepped : Step c action d) :
    Telling d := by
  obtain ⟨between,reordered,rfl⟩ := stepped
  have called : Telling (between.note (.called action.call)) := (reordered.telling telling).note (fun _ => rfl) trivial
  unfold perform
  generalize between.note (.called action.call) = b at called ⊢
  cases action with
  | register ssid a => exact called.registerWithServer ssid a
  | update ssid a => exact called.updateRegistration ssid a
  | deregister ssid a => exact called.deregister ssid a
  | start =>
    simp only [act, start]
    split
    · exact called
    · exact Telling.setState (c := { b with running := true }) called .Idle
  | stop onEventThread answers => exact called.stop onEventThread answers
  | poll answers => exact called.poll answers

/-- In every run of a new client an update or a deregistration goes to a server only after the
    callback that tells of a registration with it and before the one that tells of its end,
    and to the location told. -/
theorem inOrder_run {c d : Client U} (fresh : c.Fresh) {actions : List Action} (run : Run Step c actions d) :
    Throughout InOrder d.log := by
  have first : Telling c := by
    refine ⟨?_,?_⟩
    · intro s
      simp [location, fresh.log, fresh.registrations, toldLocation]
    · rw [fresh.log]
      trivial
  exact (run.keeps telling_step first).requests

end

/-- Registering, an update that is not answered, and a deregistration. -/
def leaving : List Action := [.register 1 created, unanswered, .deregister 1 { outcome := err .Timeout "Request timeout" }]

/-- The update and the deregistration are sent, to the location `/rd/7`. -/
theorem inOrder_leaving :
    .sent 1 .update { method := .Post, uriPath := lit ['/','r','d','/','7'], contentFormat := .LinkFormat } ∈
        (leaving.foldl perform sampleClient).log ∧
      .sent 1 .deregister { method := .Delete, uriPath := lit ['/','r','d','/','7'], contentFormat := .LinkFormat } ∈
        (leaving.foldl perform sampleClient).log ∧
      Throughout InOrder (leaving.foldl perform sampleClient).log :=
  ⟨by decide +kernel,by decide +kernel,inOrder_run sampleClient_fresh (run_perform sampleClient leaving)⟩

end Client

end Ferriot
