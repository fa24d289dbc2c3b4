import Ferriot.CallOutcomes
import Ferriot.Iterators

/-!
# Calls from callbacks

The client calls back while it is in the middle of a call, and holds its lock: when the
state changes, when the application is told of something, and when a server's
request is handled. As the lock is recursive, a callback may call the client again.
The thread is the stack of the calls it is in, innermost first, each at a place in its
code; between two places the code runs without calling back. Beside the two tables the
machine keeps which entry stands under each key, as an iterator is at an entry.
-/
namespace Ferriot
open Tables Requests Runs Iterators

/-- Where a call is in its code. -/
inductive Place where
  /-- In a callback, or in the handler of a server's request. -/
  | callback
  /-- `update_registration` has looked up the registration and set the state, and makes its request. -/
  | updating (it : Iterator UInt16)
  | updateWaits (it : Iterator UInt16)
  /-- `deregister` has looked up the registration and set the state, and makes its request. -/
  | deregistering (it : Iterator UInt16)
  | deregisterWaits (it : Iterator UInt16)
  /-- `deregister` is about to erase the registration. -/
  | erasing (it : Iterator UInt16)
  /-- `deregister` has told the application, and is about to set the state. -/
  | erased
  /-- `register_with_server` has a connection and has set the state, and makes its request. -/
  | registering (ssid : UInt16) (srv : ServerInstance)
  | registerWaits (ssid : UInt16) (srv : ServerInstance)
  /-- The last thing a function does is to set the state, or to tell the application. -/
  | returning
  /-- `poll` is between two connections of those it started with. -/
  | polling (started : Entries UInt16)
  | pollWaits (started : Entries UInt16) (ssid : UInt16)
  /-- `check_registration_updates` is between two registrations. -/
  | checking
  | visiting (it : Iterator UInt16)
  /-- `poll` is about to check the health of the connections. -/
  | health
  /-- `handle_connection_lost` has set the state, and is about to drop the registration. -/
  | losing (ssid : UInt16)
  /-- `poll` is about to see to a reconnection. -/
  | reconnecting
  /-- `try_reconnect` has announced the attempt, and is about to close the connection. -/
  | attempting (ssid : UInt16)
  | attempted (ssid : UInt16)
  | starting
  /-- `stop` has these servers to deregister from. -/
  | stopping (ids : List UInt16)
  | stopped

/-- A call of the application, on this thread. -/
inductive PublicCall where
  | register (ssid : UInt16) (connect : Result Unit)
  | update (ssid : UInt16)
  | deregister (ssid : UInt16)
  | start
  | stop (onEventThread : Bool)
  | poll

/-- What the thread does next. -/
inductive Act where
  | call (call : PublicCall)
  | callBack
  /-- A callback returns. -/
  | resume
  /-- What libcoap delivers in a wait. -/
  | session (up : Bool)
  | serve (moments : Moments) (request : CoapRequest)
  | send (refused : Option Error)
  /-- A wait is over. -/
  | answer (a : RegisterAnswer)
  | erase
  | settle
  | return
  | visit (ssid : UInt16) (now : Int)
  | advance
  | endLoop
  | health (now : Int)
  | drop (now : Int)
  | reconnect (now : Int)
  | attempt (connect : Result Unit)
  | resolve (registered : Bool) (failedAt : Int)
  | leave
  | clear
  /-- The two tables may come to iterate in another order. -/
  | reorder

namespace Place

/-- The code sets the state here, or tells the application. -/
def callsBack : Place → Bool
  | .updating _ | .deregistering _ | .erased | .registering _ _ | .returning | .losing _ | .attempting _ | .starting
  | .stopped => true
  | _ => false

/-- The connection that is waited on. -/
def waitsOn : Place → Option UInt16
  | .updateWaits it | .deregisterWaits it => some it.key
  | .registerWaits ssid _ | .pollWaits _ ssid => some ssid
  | _ => none

/-- The function returns from here. -/
def returns : Place → Bool
  | .returning | .starting | .stopped => true
  | _ => false

/-- `start` and `stop` hold the lifecycle lock. -/
def locks : Place → Bool
  | .starting | .stopping _ | .stopped => true
  | _ => false

/-- The iterator to a registration. -/
def holds : Place → Option (Iterator UInt16)
  | .updating it | .updateWaits it | .deregistering it | .deregisterWaits it | .erasing it | .visiting it => some it
  | _ => none

/-- The connections that are iterated over, as they were at the start. -/
def iterates : Place → Option (Entries UInt16)
  | .polling started | .pollWaits started _ => some started
  | _ => none

end Place

def PublicCall.locks : PublicCall → Bool
  | .start | .stop _ => true
  | _ => false

/-- A thread in the client, with the entries of the tables of registrations and connections. -/
structure Reentry (U : Type) where
  client : Client U
  registrations : Entries UInt16 := .ofKeys (fun s => s ∈ client.registrations)
  connections : Entries UInt16 := .ofKeys (fun s => s ∈ client.connections)
  stack : List Place := []

namespace Client
variable {U : Type} [Object U]

/-- `update_registration` after its request. -/
def endUpdate (ssid : UInt16) (a : Answer) (c : Client U) : Client U :=
  match a.outcome with
  | .error _ => c.setState .Registered
  | .ok r =>
    if r.isSuccess then ((c.renew ssid a.now).noteAccepted ssid .update a.now).setState .Registered else c.setState .Registered

/-- A request goes out. -/
def GoesOut (c : Client U) (ssid : UInt16) (refused : Option Error) : Prop :=
  c.connections.lookup ssid = some ⟨true⟩ ∧ refused = none

end Client

namespace Reentry
variable {U : Type} [Object U]

/-- `update_registration` up to its first place. -/
def enterUpdate (ssid : UInt16) (t : Reentry U) : Reentry U :=
  match t.client.registrations.lookup ssid, t.client.connections.lookup ssid with
  | some _,some _ =>
    { t with client := t.client.setState .Updating, stack := .updating (t.registrations.find ssid) :: t.stack }
  | _,_ => t

/-- `deregister` up to its first place. -/
def enterDeregister (ssid : UInt16) (t : Reentry U) : Reentry U :=
  match t.client.registrations.lookup ssid, t.client.connections.lookup ssid with
  | some _,some _ =>
    { t with client := t.client.setState .Deregistering, stack := .deregistering (t.registrations.find ssid) :: t.stack }
  | some _,none => { t with stack := .erasing (t.registrations.find ssid) :: t.stack }
  | none,_ => t

/-- The connection of a registration, opened if there is none. -/
def openConnection (ssid : UInt16) (connect : Result Unit) (t : Reentry U) : Result Unit × Reentry U :=
  match t.client.openConnection ssid connect with
  | (.error e,c) => (.error e,{ t with client := c })
  | (.ok (),c) => (.ok (),{ t with client := c, connections := t.connections.insert ssid })

/-- `register_with_server` up to its first place. -/
def enterRegister (ssid : UInt16) (connect : Result Unit) (t : Reentry U) : Reentry U :=
  match SecurityObject.findByShortServerId t.client.objects.security ssid, t.client.objects.server.findByShortServerId ssid with
  | some _,some srv =>
    match t.openConnection ssid connect with
    | (.error _,t) => t
    | (.ok (),t) => { t with client := t.client.setState .Registering, stack := .registering ssid srv :: t.stack }
  | _,_ => t

def enter : PublicCall → Reentry U → Reentry U
  | .register ssid connect, t => t.enterRegister ssid connect
  | .update ssid, t => t.enterUpdate ssid
  | .deregister ssid, t => t.enterDeregister ssid
  | .start, t =>
    if t.client.running then t
    else { t with client := { t.client with running := true }.setState .Idle, stack := .starting :: t.stack }
  | .stop onEventThread, t =>
    { t with
      client := { t.client with running := false }
      stack := if onEventThread then t.stack else .stopping t.client.registrations.keys :: t.stack }
  | .poll, t => { t with stack := .polling t.connections :: t.stack }

/-- One registration of `check_registration_updates`, up to the update. -/
def enterCheck (ssid : UInt16) (now : Int) (t : Reentry U) : Reentry U :=
  match t.client.registrations.lookup ssid, t.client.objects.server.findByShortServerId ssid with
  | some reg,some srv =>
    let threshold := t.client.config.updateThreshold srv.lifetime.toNat
    if reg.expiresAt - now ≤ seconds srv.lifetime.toNat - seconds threshold then t.enterUpdate ssid else t
  | _,_ => t

/-- `register_with_server` after its request. -/
def endRegister (ssid : UInt16) (srv : ServerInstance) (a : RegisterAnswer) (t : Reentry U) : Reentry U :=
  match a.outcome with
  | .error _ => { t with client := t.client.setState .Error }
  | .ok r =>
    if !r.isSuccess then { t with client := t.client.setState .Error }
    else if r.getLocationPath = [] then { t with client := t.client.setState .Error }
    else
      { t with
        client := t.client.storeRegistration ssid r.getLocationPath srv.lifetime a
        registrations := t.registrations.insert ssid }

/-- A call comes from outside or from a callback. -/
def MayCall : List Place → Prop
  | [] => True
  | place :: _ => place = .callback

/-- From one place to the next. -/
inductive Step : Reentry U → Act → Reentry U → Prop
  /-- `start` and `stop` get the lifecycle lock. -/
  | call {t} (call : PublicCall) (may : MayCall t.stack) (free : call.locks = true → ∀ place ∈ t.stack, place.locks = false) :
      Step t (.call call) (t.enter call)
  | callBack {c r n place rest} (may : place.callsBack = true) :
      Step ⟨c,r,n,place :: rest⟩ .callBack ⟨c,r,n,.callback :: place :: rest⟩
  | resume {c r n rest} : Step ⟨c,r,n,.callback :: rest⟩ .resume ⟨c,r,n,rest⟩
  | return {c r n place rest} (last : place.returns = true) : Step ⟨c,r,n,place :: rest⟩ .return ⟨c,r,n,rest⟩
  | reorder {c d r n stack} (reordered : Client.Reordered c d) : Step ⟨c,r,n,stack⟩ .reorder ⟨d,r,n,stack⟩
  | session {c r n place rest ssid} (waits : place.waitsOn = some ssid) (up : Bool) :
      Step ⟨c,r,n,place :: rest⟩ (.session up) ⟨c.sessionEvent ssid up,r,n,place :: rest⟩
  /-- The handler may call the client, as a callback may. -/
  | serve {c r n place rest ssid} (waits : place.waitsOn = some ssid) (moments : Moments) (request : CoapRequest) :
      Step ⟨c,r,n,place :: rest⟩ (.serve moments request)
        ⟨{ c with objects := (handleIncomingRequest moments request c.objects).2 }.note
            (.served request (handleIncomingRequest moments request c.objects).1.1),
          r,n,.callback :: place :: rest⟩
  -- `update_registration`
  | sendUpdate {c r n it rest refused reg} (found : c.registrations.lookup it.key = some reg) (goes : c.GoesOut it.key refused) :
      Step ⟨c,r,n,.updating it :: rest⟩ (.send refused)
        ⟨c.note (.sent it.key .update { method := .Post, uriPath := reg.location, contentFormat := .LinkFormat }),
          r,n,.updateWaits it :: rest⟩
  | failUpdate {c r n it rest refused reg} (found : c.registrations.lookup it.key = some reg) (present : it.key ∈ c.connections)
      (stays : ¬ c.GoesOut it.key refused) :
      Step ⟨c,r,n,.updating it :: rest⟩ (.send refused) ⟨c.setState .Registered,r,n,.returning :: rest⟩
  | endUpdate {c r n it rest} (a : RegisterAnswer) :
      Step ⟨c,r,n,.updateWaits it :: rest⟩ (.answer a) ⟨c.endUpdate it.key a.toAnswer,r,n,.returning :: rest⟩
  -- `deregister`
  | sendDeregister {c r n it rest refused reg} (found : c.registrations.lookup it.key = some reg)
      (goes : c.GoesOut it.key refused) :
      Step ⟨c,r,n,.deregistering it :: rest⟩ (.send refused)
        ⟨c.note (.sent it.key .deregister { method := .Delete, uriPath := reg.location, contentFormat := .LinkFormat }),
          r,n,.deregisterWaits it :: rest⟩
  | failDeregister {c r n it rest refused reg} (found : c.registrations.lookup it.key = some reg)
      (present : it.key ∈ c.connections) (stays : ¬ c.GoesOut it.key refused) :
      Step ⟨c,r,n,.deregistering it :: rest⟩ (.send refused) ⟨c,r,n,.erasing it :: rest⟩
  | endDeregister {c r n it rest} (a : RegisterAnswer) :
      Step ⟨c,r,n,.deregisterWaits it :: rest⟩ (.answer a) ⟨c,r,n,.erasing it :: rest⟩
  | erase {c r n it rest} :
      Step ⟨c,r,n,.erasing it :: rest⟩ .erase
        ⟨{ c with registrations := c.registrations.erase it.key }.notify (.onDeregistered it.key),
          r.erase it.key,n,.erased :: rest⟩
  | settle {c r n rest} :
      Step ⟨c,r,n,.erased :: rest⟩ .settle
        ⟨c.setState (if c.registrations.keys = [] then .Idle else .Registered),r,n,.returning :: rest⟩
  -- `register_with_server`
  | sendRegister {c r n ssid srv rest refused} (goes : c.GoesOut ssid refused) :
      Step ⟨c,r,n,.registering ssid srv :: rest⟩ (.send refused)
        ⟨c.note (.sent ssid (.register srv.lifetime) (c.registrationRequest srv)),r,n,.registerWaits ssid srv :: rest⟩
  | failRegister {c r n ssid srv rest refused} (present : ssid ∈ c.connections) (stays : ¬ c.GoesOut ssid refused) :
      Step ⟨c,r,n,.registering ssid srv :: rest⟩ (.send refused) ⟨c.setState .Error,r,n,.returning :: rest⟩
  | endRegister {c r n ssid srv rest} (a : RegisterAnswer) :
      Step ⟨c,r,n,.registerWaits ssid srv :: rest⟩ (.answer a) (endRegister ssid srv a ⟨c,r,n,.returning :: rest⟩)
  -- `poll`
  | pollConnection {c r n started ssid rest} (now : Int) (present : ssid ∈ c.connections) :
      Step ⟨c,r,n,.polling started :: rest⟩ (.visit ssid now) ⟨c,r,n,.pollWaits started ssid :: rest⟩
  | nextConnection {c r n started ssid rest} :
      Step ⟨c,r,n,.pollWaits started ssid :: rest⟩ .advance ⟨c,r,n,.polling started :: rest⟩
  | endConnections {c r n started rest} : Step ⟨c,r,n,.polling started :: rest⟩ .endLoop ⟨c,r,n,.checking :: rest⟩
  | checkRegistration {c r n ssid rest} (now : Int) (present : ssid ∈ c.registrations) :
      Step ⟨c,r,n,.checking :: rest⟩ (.visit ssid now) (enterCheck ssid now ⟨c,r,n,.visiting (r.find ssid) :: rest⟩)
  | nextRegistration {c r n it rest} : Step ⟨c,r,n,.visiting it :: rest⟩ .advance ⟨c,r,n,.checking :: rest⟩
  | endRegistrations {c r n rest} : Step ⟨c,r,n,.checking :: rest⟩ .endLoop ⟨c,r,n,.health :: rest⟩
  | healthy {c r n rest now}
      (well : c.state ≠ .Registered ∨ c.reconnecting = true ∨ c.lostConnection now = none) :
      Step ⟨c,r,n,.health :: rest⟩ (.health now) ⟨c,r,n,.reconnecting :: rest⟩
  | lose {c r n ssid rest now} (registered : c.state = .Registered) (quiet : c.reconnecting = false)
      (lost : c.lostConnection now = some ssid) :
      Step ⟨c,r,n,.health :: rest⟩ (.health now)
        ⟨{ c with reconnecting := true }.setState .Error,r,n,.losing ssid :: .reconnecting :: rest⟩
  | drop {c r n ssid rest} (now : Int) :
      Step ⟨c,r,n,.losing ssid :: rest⟩ (.drop now)
        ⟨({ c with
            reconnectAttempts := 0
            reconnectSsid := ssid
            nextReconnectTime := now
            registrations := c.registrations.erase ssid }.notify (.onConnectionLost ssid)).notify
              (.onError .ConnectionFailed "Connection to server lost"),
          r.erase ssid,n,.returning :: rest⟩
  | noReconnect {c r n rest now} (early : ¬ (c.reconnecting = true ∧ c.nextReconnectTime ≤ now)) :
      Step ⟨c,r,n,.reconnecting :: rest⟩ (.reconnect now) ⟨c,r,n,rest⟩
  | disabled {c r n rest now} (due : c.reconnecting = true ∧ c.nextReconnectTime ≤ now) (off : c.reconnectConfig.enabled = false) :
      Step ⟨c,r,n,.reconnecting :: rest⟩ (.reconnect now) ⟨{ c with reconnecting := false },r,n,rest⟩
  | exhausted {c r n rest now} (due : c.reconnecting = true ∧ c.nextReconnectTime ≤ now) (on : c.reconnectConfig.enabled = true)
      (used : 0 < c.reconnectConfig.maxRetries ∧ c.reconnectConfig.maxRetries ≤ c.reconnectAttempts) :
      Step ⟨c,r,n,.reconnecting :: rest⟩ (.reconnect now)
        ⟨{ c with reconnecting := false }.notify (.onError .ConnectionFailed "Max reconnection attempts reached"),
          r,n,.returning :: rest⟩
  | reconnect {c r n rest now} (due : c.reconnecting = true ∧ c.nextReconnectTime ≤ now) (goesOn : ¬ c.GivesUp) :
      Step ⟨c,r,n,.reconnecting :: rest⟩ (.reconnect now)
        ⟨{ c with reconnectAttempts := c.reconnectAttempts + 1 }.notify (.onReconnecting c.reconnectSsid (c.reconnectAttempts + 1)),
          r,n,.attempting c.reconnectSsid :: rest⟩
  | attempt {c r n ssid rest} (connect : Result Unit) :
      Step ⟨c,r,n,.attempting ssid :: rest⟩ (.attempt connect)
        (enterRegister ssid connect
          ⟨{ c with connections := c.connections.erase ssid },r,n.erase ssid,.attempted ssid :: rest⟩)
  | reconnected {c r n ssid rest} (failedAt : Int) :
      Step ⟨c,r,n,.attempted ssid :: rest⟩ (.resolve true failedAt)
        ⟨{ c with reconnecting := false, reconnectAttempts := 0 }.notify (.onReconnected ssid),r,n,.returning :: rest⟩
  | backOff {c r n ssid rest} (failedAt : Int) :
      Step ⟨c,r,n,.attempted ssid :: rest⟩ (.resolve false failedAt)
        ⟨{ c with nextReconnectTime := failedAt + seconds c.calculateBackoff },r,n,rest⟩
  -- `stop`
  | leave {c r n ssid ids rest} :
      Step ⟨c,r,n,.stopping (ssid :: ids) :: rest⟩ .leave (enterDeregister ssid ⟨c,r,n,.stopping ids :: rest⟩)
  | clear {c r n rest} :
      Step ⟨c,r,n,.stopping [] :: rest⟩ .clear
        ⟨{ c with connections := ∅, registrations := ∅ }.setState .Idle,r.clear,n.clear,.stopped :: rest⟩

/-- The iterator that the code uses next. -/
def Uses (t : Reentry U) (act : Act) (it : Iterator UInt16) : Prop :=
  match act, t.stack with
  | .send _,.updating here :: _ => here = it
  | .answer a,.updateWaits here :: _ =>
    here = it ∧ (∃ r, a.outcome = .ok r ∧ r.isSuccess = true) ∧
      (t.client.objects.server.findByShortServerId here.key).isSome = true
  | .send _,.deregistering here :: _ => here = it
  | .erase,.erasing here :: _ => here = it
  | .advance,.visiting here :: _ => here = it
  | _,_ => False

/-- The registration that is used next is there, and is the one that was looked up. The connections that
    are iterated over are those it was started with: none has come or gone since. -/
structure Safe (t : Reentry U) : Prop where
  used : ∀ act it, t.Uses act it → it.key ∈ t.client.registrations ∧ t.registrations.Live it
  iterated : ∀ place ∈ t.stack, ∀ started, place.iterates = some started →
    t.connections = started ∧ ∀ s, s ∈ t.client.connections ↔ started.Has s

/-! ### Calls in which nothing calls the client -/

section
variable {ssid : UInt16} {refused : Option Error} {c : Client U} (operation : Operation) (request : CoapRequest)
  (outcome : Result CoapResponse) (wait : Client U → Client U)

omit [Object U] in
theorem sendWith_goes (goes : c.GoesOut ssid refused) :
    c.sendWith wait ssid operation request refused outcome = (outcome,wait (c.note (.sent ssid operation request))) := by
  obtain ⟨up,rfl⟩ := goes
  unfold Client.sendWith
  rw [up]

omit [Object U] in
theorem sendWith_stays (stays : ¬ c.GoesOut ssid refused) :
    ∃ e, c.sendWith wait ssid operation request refused outcome = (.error e,c) := by
  unfold Client.sendWith
  cases found : c.connections.lookup ssid with
  | none => exact ⟨_,rfl⟩
  | some conn =>
    obtain ⟨connected⟩ := conn
    cases connected with
    | false => exact ⟨_,rfl⟩
    | true =>
      cases refused with
      | none => exact absurd ⟨found,rfl⟩ stays
      | some e => exact ⟨e,rfl⟩

end

theorem updateRegistration_goes {ssid : UInt16} {reg : Registration} {conn : Connection} {a : Answer} {c : Client U}
    (found : c.registrations.lookup ssid = some reg) (connected : c.connections.lookup ssid = some conn)
    (goes : (c.setState .Updating).GoesOut ssid a.refused) :
    (c.updateRegistration ssid a).2 = Client.endUpdate ssid a (Client.deliver a.during ssid ((c.setState .Updating).note
      (.sent ssid .update { method := .Post, uriPath := reg.location, contentFormat := .LinkFormat }))) := by
  unfold Client.updateRegistration Client.updateWith
  rw [found, connected]
  dsimp only
  rw [sendWith_goes _ _ _ _ goes]
  unfold Client.endUpdate
  cases a.outcome with
  | error e => rfl
  | ok r =>
    dsimp only
    by_cases success : r.isSuccess = true
    · rw [if_pos success, if_pos success]
    · rw [if_neg success, if_neg success]

theorem updateRegistration_stays {ssid : UInt16} {reg : Registration} {conn : Connection} {a : Answer} {c : Client U}
    (found : c.registrations.lookup ssid = some reg) (connected : c.connections.lookup ssid = some conn)
    (stays : ¬ (c.setState .Updating).GoesOut ssid a.refused) :
    (c.updateRegistration ssid a).2 = (c.setState .Updating).setState .Registered := by
  unfold Client.updateRegistration Client.updateWith
  rw [found, connected]
  dsimp only
  obtain ⟨e,unsent⟩ := sendWith_stays .update { method := .Post, uriPath := reg.location, contentFormat := .LinkFormat }
    a.outcome (fun d => Client.deliver a.during ssid d) stays
  rw [unsent]

/-- Steps lead to the client, with this stack. -/
def Comes (t : Reentry U) (c : Client U) (stack : List Place) : Prop := ∃ acts r n, Run Step t acts ⟨c,r,n,stack⟩

section
variable {t u : Reentry U} {act : Act} {c d : Client U} {stack stack' : List Place}

theorem Comes.here {r n : Entries UInt16} : Comes ⟨c,r,n,stack⟩ c stack := ⟨[],r,n,.nil _⟩

theorem Comes.step (first : Step t act u) (comes : Comes u c stack) : Comes t c stack := by
  obtain ⟨acts,r,n,ran⟩ := comes
  exact ⟨act :: acts,r,n,.cons first ran⟩

theorem Comes.trans (first : Comes t c stack) (second : ∀ r n, Comes ⟨c,r,n,stack⟩ d stack') : Comes t d stack' := by
  obtain ⟨acts,r,n,ran⟩ := first
  obtain ⟨others,r',n',rest⟩ := second r n
  exact ⟨acts ++ others,r',n',ran.append rest⟩

/-- A call that is about to return. -/
theorem Comes.returns {r n : Entries UInt16} : Comes ⟨c,r,n,.returning :: stack⟩ c stack := .step (.return rfl) .here

end

variable (r n : Entries UInt16) (stack : List Place)

/-- `update_registration` from its first place on. -/
theorem comes_update (ssid : UInt16) {a : RegisterAnswer} (quiet : a.during = .done) (c : Client U) :
    Comes (enterUpdate ssid ⟨c,r,n,stack⟩) (c.updateRegistration ssid a.toAnswer).2 stack := by
  unfold enterUpdate
  dsimp only
  cases found : c.registrations.lookup ssid with
  | none =>
    unfold Client.updateRegistration Client.updateWith
    rw [found]
    exact .here
  | some reg =>
    cases connected : c.connections.lookup ssid with
    | none =>
      unfold Client.updateRegistration Client.updateWith
      rw [found, connected]
      exact .here
    | some conn =>
      dsimp only
      have found : (c.setState .Updating).registrations.lookup (r.find ssid).key = some reg := by
        rw [Client.setState_registrations]
        exact found
      by_cases goes : (c.setState .Updating).GoesOut ssid a.refused
      · rw [updateRegistration_goes (by rwa [Client.setState_registrations] at found) connected goes, quiet]
        exact .step (.sendUpdate found goes) (.step (.endUpdate a) .returns)
      · rw [updateRegistration_stays (by rwa [Client.setState_registrations] at found) connected goes]
        have present : ssid ∈ (c.setState .Updating).connections := by
          rw [Client.setState_connections]
          exact AList.lookup_isSome.mp (by rw [connected]; rfl)
        exact .step (.failUpdate found present goes) .returns

/-- The end of `deregister`. -/
theorem comes_erasing (c : Client U) (it : Iterator UInt16) :
    Comes ⟨c,r,n,.erasing it :: stack⟩
      (({ c with registrations := c.registrations.erase it.key }.notify (.onDeregistered it.key)).setState
        (if (c.registrations.erase it.key).keys = [] then .Idle else .Registered)) stack :=
  .step .erase (.step .settle .returns)

/-- `deregister` from its first place on. -/
theorem comes_deregister (ssid : UInt16) {a : RegisterAnswer} (quiet : a.during = .done) (c : Client U) :
    Comes (enterDeregister ssid ⟨c,r,n,stack⟩) (c.deregister ssid a.toAnswer).2 stack := by
  unfold enterDeregister Client.deregister Client.sendDeregister
  dsimp only
  cases found : c.registrations.lookup ssid with
  | none => exact .here
  | some reg =>
    cases connected : c.connections.lookup ssid with
    | none => exact comes_erasing r n stack c (r.find ssid)
    | some conn =>
      dsimp only
      have found : (c.setState .Deregistering).registrations.lookup (r.find ssid).key = some reg := by
        rw [Client.setState_registrations]
        exact found
      unfold Client.send
      by_cases goes : (c.setState .Deregistering).GoesOut ssid a.refused
      · rw [sendWith_goes _ _ _ _ goes, quiet]
        exact .step (.sendDeregister found goes) (.step (.endDeregister a) (comes_erasing r n stack _ _))
      · obtain ⟨e,unsent⟩ := sendWith_stays .deregister
          { method := .Delete, uriPath := reg.location, contentFormat := .LinkFormat } a.outcome
          (Client.deliver a.during ssid) goes
        have present : ssid ∈ (c.setState .Deregistering).connections := by
          rw [Client.setState_connections]
          exact AList.lookup_isSome.mp (by rw [connected]; rfl)
        rw [unsent]
        exact .step (.failDeregister found present goes) (comes_erasing r n stack _ _)

/-- `register_with_server` after its request. -/
theorem comes_endRegister (ssid : UInt16) (srv : ServerInstance) (a : RegisterAnswer) (c : Client U) :
    Comes (endRegister ssid srv a ⟨c,r,n,.returning :: stack⟩)
      (match a.outcome with
      | .error _ => c.setState .Error
      | .ok answer =>
        if !answer.isSuccess then c.setState .Error
        else if answer.getLocationPath = [] then c.setState .Error
        else c.storeRegistration ssid answer.getLocationPath srv.lifetime a) stack := by
  unfold endRegister
  cases a.outcome with
  | error e => exact .returns
  | ok answer =>
    dsimp only
    by_cases failed : (!answer.isSuccess) = true
    · rw [if_pos failed, if_pos failed]
      exact .returns
    · rw [if_neg failed, if_neg failed]
      by_cases lost : answer.getLocationPath = []
      · rw [if_pos lost, if_pos lost]
        exact .returns
      · rw [if_neg lost, if_neg lost]
        exact .returns

/-- `register_with_server` from its first place on. -/
theorem comes_register (ssid : UInt16) {a : RegisterAnswer} (quiet : a.during = .done) (c : Client U) :
    Comes (enterRegister ssid a.connect ⟨c,r,n,stack⟩) (c.registerWithServer ssid a).2 stack := by
  unfold enterRegister Client.registerWithServer
  dsimp only
  cases SecurityObject.findByShortServerId c.objects.security ssid with
  | none => exact .here
  | some inst =>
    cases c.objects.server.findByShortServerId ssid with
    | none => exact .here
    | some srv =>
      unfold openConnection
      dsimp only
      rcases opened : c.openConnection ssid a.connect with ⟨e | ⟨⟩,d⟩
      · exact .here
      · dsimp only
        unfold Client.send
        by_cases goes : (d.setState .Registering).GoesOut ssid a.refused
        · rw [sendWith_goes _ _ _ _ goes, quiet]
          refine .step (.sendRegister goes) (.step (.endRegister a) ?_)
          have ended := comes_endRegister r (n.insert ssid) stack ssid srv a
            ((d.setState .Registering).note (.sent ssid (.register srv.lifetime) ((d.setState .Registering).registrationRequest srv)))
          cases outcome : a.outcome with
          | error e =>
            rw [outcome] at ended
            exact ended
          | ok answer =>
            rw [outcome] at ended
            dsimp only at ended ⊢
            by_cases failed : (!answer.isSuccess) = true
            · rw [if_pos failed] at ended ⊢
              exact ended
            · rw [if_neg failed] at ended ⊢
              by_cases lost : answer.getLocationPath = []
              · rw [if_pos lost] at ended ⊢
                exact ended
              · rw [if_neg lost] at ended ⊢
                exact ended
        · obtain ⟨e,unsent⟩ := sendWith_stays (.register srv.lifetime) ((d.setState .Registering).registrationRequest srv)
            a.outcome (Client.deliver a.during ssid) goes
          have present : ssid ∈ (d.setState .Registering).connections := by
            rw [Client.setState_connections]
            obtain ⟨-,-,-,-,there⟩ := Client.opened_cases opened
            exact there rfl
          rw [unsent]
          exact .step (.failRegister present goes) .returns

/-- `stop` deregisters from the servers one after the other. -/
theorem comes_leave {answers : UInt16 → Answer} (quiet : ∀ s, (answers s).during = .done) (ids : List UInt16) (c : Client U) :
    Comes ⟨c,r,n,.stopping ids :: stack⟩ (ids.foldl (fun c ssid => (c.deregister ssid (answers ssid)).2) c)
      (.stopping [] :: stack) := by
  induction ids generalizing c r n with
  | nil => exact .here
  | cons ssid ids ih =>
    have left := comes_deregister r n (.stopping ids :: stack) ssid (a := { toAnswer := answers ssid }) (quiet ssid) c
    exact .step .leave (left.trans (fun r n => ih r n _))

/-- The body of `check_registration_updates` is an update, or nothing. -/
theorem enterCheck_cases (ssid : UInt16) (now : Int) (answers : UInt16 → Answer) (t : Reentry U) :
    t.enterCheck ssid now = t.enterUpdate ssid ∧
        t.client.checkRegistrationUpdate now answers ssid = (t.client.updateRegistration ssid (answers ssid)).2 ∨
      t.enterCheck ssid now = t ∧ t.client.checkRegistrationUpdate now answers ssid = t.client := by
  unfold enterCheck Client.checkRegistrationUpdate
  cases t.client.registrations.lookup ssid with
  | none => exact .inr ⟨rfl,rfl⟩
  | some reg =>
    cases t.client.objects.server.findByShortServerId ssid with
    | none => exact .inr ⟨rfl,rfl⟩
    | some srv =>
      dsimp only
      by_cases due :
          reg.expiresAt - now ≤ seconds srv.lifetime.toNat - seconds (t.client.config.updateThreshold srv.lifetime.toNat)
      · rw [if_pos due, if_pos due]
        exact .inl ⟨rfl,rfl⟩
      · rw [if_neg due, if_neg due]
        exact .inr ⟨rfl,rfl⟩

/-- `check_registration_updates` visits the registrations one after the other. -/
theorem comes_checks {answers : UInt16 → Answer} (quiet : ∀ s, (answers s).during = .done) (now : Int) (ids : List UInt16)
    (c : Client U) (present : ∀ s ∈ ids, s ∈ c.registrations) :
    Comes ⟨c,r,n,.checking :: stack⟩ (ids.foldl (Client.checkRegistrationUpdate now answers) c) (.checking :: stack) := by
  induction ids generalizing c r n with
  | nil => exact .here
  | cons ssid ids ih =>
    have checked : Comes (enterCheck ssid now ⟨c,r,n,.visiting (r.find ssid) :: stack⟩)
        (c.checkRegistrationUpdate now answers ssid) (.visiting (r.find ssid) :: stack) ∧
          ∀ s ∈ c.registrations, s ∈ (c.checkRegistrationUpdate now answers ssid).registrations := by
      rcases enterCheck_cases ssid now answers ⟨c,r,n,.visiting (r.find ssid) :: stack⟩ with
        ⟨entered,updated⟩ | ⟨entered,unchanged⟩
      · rw [entered, updated]
        refine ⟨comes_update r n (.visiting (r.find ssid) :: stack) ssid (a := { toAnswer := answers ssid }) (quiet ssid) c,?_⟩
        intro s before
        exact ((Client.kept_updateRegistration ssid (answers ssid) c).waited.registrations s).mpr before
      · rw [entered, unchanged]
        exact ⟨.here,fun _ => id⟩
    obtain ⟨checked,kept⟩ := checked
    refine .step (.checkRegistration now (present ssid List.mem_cons_self)) (checked.trans ?_)
    intro r n
    refine .step .nextRegistration (ih r n _ ?_)
    intro s member
    exact kept s (present s (List.mem_cons_of_mem _ member))

theorem comes_health (now lostAt : Int) (c : Client U) :
    Comes ⟨c,r,n,.health :: stack⟩ (c.checkConnectionHealth now lostAt) (.reconnecting :: stack) := by
  unfold Client.checkConnectionHealth
  by_cases skipped : c.state ≠ .Registered ∨ c.reconnecting = true
  · rw [if_pos skipped]
    have well : c.state ≠ .Registered ∨ c.reconnecting = true ∨ c.lostConnection now = none := by
      rcases skipped with other | busy
      · exact .inl other
      · exact .inr (.inl busy)
    exact .step (.healthy well) .here
  · rw [if_neg skipped]
    rw [not_or, not_not, Bool.not_eq_true] at skipped
    obtain ⟨registered,quiet⟩ := skipped
    cases lost : c.lostConnection now with
    | none => exact .step (.healthy (.inr (.inr lost))) .here
    | some ssid =>
      have handled : c.handleConnectionLost ssid lostAt =
          ({ ({ c with reconnecting := true }.setState .Error) with
            reconnectAttempts := 0
            reconnectSsid := ssid
            nextReconnectTime := lostAt
            registrations := ({ c with reconnecting := true }.setState .Error).registrations.erase ssid }.notify
              (.onConnectionLost ssid)).notify (.onError .ConnectionFailed "Connection to server lost") := by
        unfold Client.handleConnectionLost
        rw [if_neg (by rw [quiet]; decide)]
      dsimp only
      rw [handled]
      exact .step (.lose registered quiet lost) (.step (.drop lostAt) .returns)

theorem comes_reconnect {answers : PollAnswers} (quiet : answers.register.during = .done) (c : Client U) :
    Comes ⟨c,r,n,.reconnecting :: stack⟩
      (if c.reconnecting ∧ c.nextReconnectTime ≤ answers.reconnectAt then
        c.tryReconnect c.reconnectSsid answers.register answers.failedAt
      else c) stack := by
  by_cases due : c.reconnecting = true ∧ c.nextReconnectTime ≤ answers.reconnectAt
  · rw [if_pos due]
    unfold Client.tryReconnect
    cases on : c.reconnectConfig.enabled with
    | false => exact .step (.disabled due on) .here
    | true =>
      rw [if_neg (by decide)]
      by_cases used : 0 < c.reconnectConfig.maxRetries ∧ c.reconnectConfig.maxRetries ≤ c.reconnectAttempts
      · rw [if_pos used]
        exact .step (.exhausted due on used) .returns
      · rw [if_neg used]
        have goesOn : ¬ c.GivesUp := by
          rintro (off | retries)
          · rw [on] at off
            cases off
          · exact used retries
        have registered := comes_register r (n.erase c.reconnectSsid) (.attempted c.reconnectSsid :: stack) c.reconnectSsid quiet
          (c.beginAttempt c.reconnectSsid)
        unfold Client.reconnect
        refine .step (.reconnect due goesOn) (.step (.attempt answers.register.connect) ?_)
        rcases result : Client.registerWithServer c.reconnectSsid answers.register (c.beginAttempt c.reconnectSsid) with ⟨e | ⟨⟩,d⟩
        · rw [result] at registered
          exact registered.trans (fun r n => .step (.backOff answers.failedAt) .here)
        · rw [result] at registered
          exact registered.trans (fun r n => .step (.reconnected answers.failedAt) .returns)
  · rw [if_neg due]
    exact .step (.noReconnect due) .here

/-- Nothing is delivered in the waits of the call. -/
def Quiet : Action → Prop
  | .register _ a => a.during = .done
  | .update _ a => a.during = .done
  | .deregister _ a => a.during = .done
  | .start => True
  | .stop _ answers => ∀ s, (answers s).during = .done
  | .poll answers => (∀ s, answers.during s = .done) ∧ (∀ s, (answers.updates s).during = .done) ∧ answers.register.during = .done

/-- A call in which nothing calls the client goes from place to place, and ends as the call does. -/
theorem run_act (c : Client U) (action : Action) (quiet : Quiet action) : Comes { client := c } (c.act action) [] := by
  have locks : ∀ place ∈ ([] : List Place), place.locks = false := by
    rintro place ⟨⟩
  have opens (call : PublicCall) : Step { client := c } (.call call) (enter call { client := c }) :=
    .call call trivial (fun _ => locks)
  cases action with
  | register ssid a => exact .step (opens (.register ssid a.connect)) (comes_register _ _ [] ssid quiet c)
  | update ssid a => exact .step (opens (.update ssid)) (comes_update _ _ [] ssid (a := { toAnswer := a }) quiet c)
  | deregister ssid a =>
    exact .step (opens (.deregister ssid)) (comes_deregister _ _ [] ssid (a := { toAnswer := a }) quiet c)
  | start =>
    have first := opens .start
    dsimp only [enter] at first
    unfold Client.act Client.start
    by_cases running : c.running = true
    · rw [if_pos running] at first ⊢
      exact .step first .here
    · rw [if_neg running] at first ⊢
      exact .step first (.step (.return rfl) .here)
  | stop onEventThread answers =>
    cases onEventThread with
    | true => exact .step (opens (.stop true)) .here
    | false =>
      have left := comes_leave (.ofKeys (fun s => s ∈ c.registrations)) (.ofKeys (fun s => s ∈ c.connections)) [] quiet
        c.registrations.keys { c with running := false }
      exact .step (opens (.stop false)) (left.trans (fun r n => .step .clear (.step (.return rfl) .here)))
  | poll answers =>
    obtain ⟨during,updates,register⟩ := quiet
    have polled : Client.pollConnections answers.during c = c := by
      unfold Client.pollConnections
      simp only [during]
      exact List.foldlRecOn (motive := fun d => d = c) _ _ rfl (fun d same _ _ => same)
    have acted : c.act (.poll answers) = c.poll answers := rfl
    rw [acted, Client.poll_eq, Client.healthChecked, polled]
    refine .step (opens .poll) (.step .endConnections ?_)
    have checked := comes_checks (.ofKeys (fun s => s ∈ c.registrations)) (.ofKeys (fun s => s ∈ c.connections)) [] updates
      answers.updatesAt c.registrations.keys c (fun s => AList.mem_keys.mpr)
    refine checked.trans (fun r n => .step .endRegistrations ?_)
    exact (comes_health r n [] answers.healthAt answers.lostAt _).trans (fun r n => comes_reconnect r n [] register _)

end Reentry

end Ferriot
