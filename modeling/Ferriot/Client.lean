import Ferriot.Requests
import Ferriot.Runs

/-!
# The client

Registration, update, deregistration, polling and reconnection, with what the
client finds outside: the answers of the servers, the readings of the two clocks,
and what libcoap delivers while the client waits for a response. Times are in
nanoseconds. What the client does is kept in a log, latest entry first.
-/
namespace Ferriot
open Tables Requests Runs

inductive ClientState where
  | Idle | Registering | Registered | Updating | Deregistering | BootstrapPending | Bootstrapping | Error
deriving DecidableEq, Repr

structure Registration where
  location : Bytes
  shortServerId : UInt16
  registeredAt : Int
  expiresAt : Int
deriving DecidableEq, Repr

structure ClientConfig where
  endpointName : Bytes := []
  /-- `duration_cast<seconds>(lifetime * update_trigger_threshold)`, a floating-point product. -/
  updateThreshold : Nat → Int := fun lifetime => lifetime * 4 / 5

structure ReconnectionConfig where
  enabled : Bool := true
  maxRetries : UInt16 := 0
  initialBackoff : Int := 2
  maxBackoff : Int := 300
  /-- `duration_cast<seconds>` of the back-off times `backoff_multiplier`, a floating-point product. -/
  nextBackoff : Int → Int := fun backoff => backoff * 2

/-- A `CoapClient` that has been connected once. -/
structure Connection where
  connected : Bool := true
deriving DecidableEq, Repr

inductive Call where
  | register (ssid : UInt16)
  | update (ssid : UInt16)
  | deregister (ssid : UInt16)
  | start
  | stop
  | poll
deriving DecidableEq, Repr

/-- What a request to the server is for; a registration carries the lifetime. -/
inductive Operation where
  | register (lifetime : UInt32)
  | update
  | deregister
deriving DecidableEq, Repr

/-- The application's callbacks. -/
inductive Notification where
  | onStateChange (oldState newState : ClientState)
  | onRegistered (ssid : UInt16) (registration : Registration)
  | onDeregistered (ssid : UInt16)
  | onError (code : ErrorCode) (message : String)
  | onConnectionLost (ssid : UInt16)
  | onReconnecting (ssid attempt : UInt16)
  | onReconnected (ssid : UInt16)
deriving DecidableEq, Repr

inductive Entry where
  /-- The application calls the client. -/
  | called (call : Call)
  | connect (ssid : UInt16) (config : ConnectionConfig)
  /-- A request goes out to a server. -/
  | sent (ssid : UInt16) (operation : Operation) (request : CoapRequest)
  /-- A registration or update has been accepted, and the expiry stored at the given time. -/
  | accepted (ssid : UInt16) (operation : Operation) (now expiresAt : Int)
  /-- A request of a server has been answered. -/
  | served (request : CoapRequest) (response : CoapResponse)
  | notified (notification : Notification)
deriving DecidableEq, Repr

/-- What libcoap delivers on a connection while the client waits, in order. -/
inductive Events where
  | done
  /-- The session is established, closed or lost. -/
  | session (up : Bool) (after : Events)
  /-- A request of the server. If it triggers a registration update, `refused` is the error of an
      update that never goes out; otherwise `during` happens in its wait, which ends with `outcome`. -/
  | request (moments : Moments) (request : CoapRequest) (refused : Option Error) (during : Events)
      (outcome : Result CoapResponse) (now : Int) (after : Events)

/-- What becomes of a request of the client, and the time it is over. -/
structure Answer where
  refused : Option Error := none
  during : Events := .done
  outcome : Result CoapResponse
  now : Int := 0

/-- What becomes of a registration. -/
structure RegisterAnswer extends Answer where
  connect : Result Unit := .ok ()
  registeredAt : Int := 0

/-- What one poll finds: the events of each connection, and the answers and clock
    readings of each part. -/
structure PollAnswers where
  during : UInt16 → Events := fun _ => .done
  updatesAt : Int := 0
  updates : UInt16 → Answer := fun _ => { outcome := err .Timeout "Request timeout" }
  healthAt : Int := 0
  lostAt : Int := 0
  reconnectAt : Int := 0
  register : RegisterAnswer := { outcome := err .Timeout "Request timeout" }
  failedAt : Int := 0

structure Client (U : Type) where
  config : ClientConfig := {}
  reconnectConfig : ReconnectionConfig := {}
  objects : Objects U := {}
  connections : Table UInt16 Connection := ∅
  registrations : Table UInt16 Registration := ∅
  state : ClientState := .Idle
  running : Bool := false
  reconnecting : Bool := false
  reconnectAttempts : UInt16 := 0
  reconnectSsid : UInt16 := 0
  nextReconnectTime : Int := 0
  log : List Entry := []

/-- Seconds as nanoseconds. -/
def seconds (s : Int) : Int := s * 1000000000

namespace Client
variable {U : Type} [Object U]

def note (c : Client U) (e : Entry) : Client U := { c with log := e :: c.log }

def notify (c : Client U) (n : Notification) : Client U := c.note (.notified n)

def setState (c : Client U) (new : ClientState) : Client U :=
  if c.state = new then c else { c with state := new }.notify (.onStateChange c.state new)

/-- `event_handler` of the connection. -/
def sessionEvent (c : Client U) (ssid : UInt16) (up : Bool) : Client U :=
  { c with connections := modify c.connections ssid (fun _ => ⟨up⟩) }

/-- `CoapClient::send`; `wait` is what happens to the client until the outcome is there. -/
def sendWith (wait : Client U → Client U) (ssid : UInt16) (operation : Operation) (request : CoapRequest)
    (refused : Option Error) (outcome : Result CoapResponse) (c : Client U) : Result CoapResponse × Client U :=
  match c.connections.lookup ssid with
  | some ⟨true⟩ =>
    match refused with
    | some e => (.error e,c)
    | none => (outcome,wait (c.note (.sent ssid operation request)))
  | _ => (err .InvalidState "Not connected",c)

/-- The new expiry of an accepted update, if there still is a Server instance. -/
def renew (c : Client U) (ssid : UInt16) (now : Int) : Client U :=
  match c.objects.server.findByShortServerId ssid with
  | some srv =>
    { c with
      registrations :=
        modify c.registrations ssid (fun reg => { reg with expiresAt := now + seconds srv.lifetime.toNat }) }
  | none => c

/-- Notes the expiry that an accepted request leaves. -/
def noteAccepted (c : Client U) (ssid : UInt16) (operation : Operation) (now : Int) : Client U :=
  match c.registrations.lookup ssid with
  | some reg => c.note (.accepted ssid operation now reg.expiresAt)
  | none => c

/-- `update_registration`, with the wait of its request as a parameter. -/
def updateWith (wait : Client U → Client U) (ssid : UInt16) (refused : Option Error) (outcome : Result CoapResponse)
    (now : Int) (c : Client U) : Result Unit × Client U :=
  match c.registrations.lookup ssid with
  | none => (err .NotFound "Not registered with this server",c)
  | some reg =>
    match c.connections.lookup ssid with
    | none => (err .InvalidState "No connection to server",c)
    | some _ =>
      let request : CoapRequest := { method := .Post, uriPath := reg.location, contentFormat := .LinkFormat }
      let (response,c) := sendWith wait ssid .update request refused outcome (c.setState .Updating)
      match response with
      | .error _ => (err .BadRequest "Update failed",c.setState .Registered)
      | .ok r =>
        if r.isSuccess then (.ok (),((c.renew ssid now).noteAccepted ssid .update now).setState .Registered)
        else (err .BadRequest "Update failed",c.setState .Registered)

/-- The handler of a server's request: the update it triggers runs before it returns. -/
def serve (wait : UInt16 → Client U → Client U) (moments : Moments) (request : CoapRequest) (refused : Option Error)
    (outcome : Result CoapResponse) (now : Int) (c : Client U) : Client U :=
  let handled := handleIncomingRequest moments request c.objects
  let c := { c with objects := handled.2 }
  let c :=
    match handled.1.2 with
    | some target => (updateWith (wait target) target refused outcome now c).2
    | none => c
  c.note (.served request handled.1.1)

/-- `coap_io_process` on the connection to a server. -/
def deliver : Events → UInt16 → Client U → Client U
  | .done, _, c => c
  | .session up after, ssid, c => deliver after ssid (c.sessionEvent ssid up)
  | .request moments request refused during outcome now after, ssid, c =>
    deliver after ssid (serve (fun target c => deliver during target c) moments request refused outcome now c)

def send (ssid : UInt16) (operation : Operation) (request : CoapRequest) (a : Answer) (c : Client U) :
    Result CoapResponse × Client U :=
  sendWith (deliver a.during ssid) ssid operation request a.refused a.outcome c

/-! ### Registration -/

/-- A number in decimal, as streams and `std::to_string` print it. -/
def decimal (n : Nat) : Bytes := lit (Nat.toDigits 10 n)

def instanceLink (oid iid : UInt16) : Bytes :=
  lit ['<','/'] ++ decimal oid.toNat ++ lit ['/'] ++ decimal iid.toNat ++ lit ['>']

/-- `build_registration_payload`. -/
def buildRegistrationPayload (c : Client U) : Bytes :=
  let links := c.objects.table.entries.flatMap (fun e =>
    (c.objects.call e.1 (fun o => (Object.listInstances o,o)) e.2).1.map (instanceLink e.1))
  (links.intersperse (lit [','])).flatten

def registrationRequest (c : Client U) (srv : ServerInstance) : CoapRequest :=
  { method := .Post
    uriPath := lit ['/','r','d','?','e','p','='] ++ c.config.endpointName ++ lit ['&','l','t','='] ++
      decimal srv.lifetime.toNat ++ lit ['&','l','w','m','2','m','=','1','.','1','&','b','='] ++ srv.binding
    payload := c.buildRegistrationPayload
    contentFormat := .LinkFormat }

/-- The first Security instance for the server. -/
def securityInstance (c : Client U) (ssid : UInt16) : UInt16 :=
  ((findEntry c.objects.security.instances (fun inst => inst.shortServerId == ssid)).map Prod.fst).getD 0

/-- The connection of a registration, opened if there is none. -/
def openConnection (ssid : UInt16) (connect : Result Unit) (c : Client U) : Result Unit × Client U :=
  if ssid ∈ c.connections then (.ok (),c)
  else
    let config := SecurityObject.toConnectionConfig c.objects.security (c.securityInstance ssid)
    let c := c.note (.connect ssid config)
    match connect with
    | .error e => (.error e,c)
    | .ok () => (.ok (),{ c with connections := set c.connections ssid {} })

/-- An accepted registration is stored. -/
def storeRegistration (ssid : UInt16) (location : Bytes) (lifetime : UInt32) (a : RegisterAnswer) (c : Client U) : Client U :=
  let reg : Registration := ⟨location,ssid,a.registeredAt,a.now + seconds lifetime.toNat⟩
  let c := { c with registrations := set c.registrations ssid reg }
  ((c.noteAccepted ssid (.register lifetime) a.now).setState .Registered).notify (.onRegistered ssid reg)

/-- `register_with_server`. -/
def registerWithServer (ssid : UInt16) (a : RegisterAnswer) (c : Client U) : Result Unit × Client U :=
  match SecurityObject.findByShortServerId c.objects.security ssid with
  | none => (err .NotFound "No security instance for server",c)
  | some _ =>
    match c.objects.server.findByShortServerId ssid with
    | none => (err .NotFound "No server instance for server",c)
    | some srv =>
      match openConnection ssid a.connect c with
      | (.error e,c) => (err e.code ("Connection failed: " ++ e.message),c)
      | (.ok (),c) =>
        let c := c.setState .Registering
        let (response,c) := send ssid (.register srv.lifetime) (c.registrationRequest srv) a.toAnswer c
        match response with
        | .error e => (err e.code ("Registration failed: " ++ e.message),c.setState .Error)
        | .ok r =>
          if !r.isSuccess then (err .BadRequest "Registration rejected by server",c.setState .Error)
          else if r.getLocationPath = [] then
            (err .BadRequest "Server did not return Location-Path in registration response",c.setState .Error)
          else (.ok (),storeRegistration ssid r.getLocationPath srv.lifetime a c)

/-- `update_registration`. -/
def updateRegistration (ssid : UInt16) (a : Answer) (c : Client U) : Result Unit × Client U :=
  updateWith (deliver a.during ssid) ssid a.refused a.outcome a.now c

/-- The DELETE of a deregistration, whose outcome is ignored. -/
def sendDeregister (ssid : UInt16) (reg : Registration) (a : Answer) (c : Client U) : Client U :=
  match c.connections.lookup ssid with
  | none => c
  | some _ =>
    let request : CoapRequest := { method := .Delete, uriPath := reg.location, contentFormat := .LinkFormat }
    (send ssid .deregister request a (c.setState .Deregistering)).2

/-- `deregister`; the connection stays. -/
def deregister (ssid : UInt16) (a : Answer) (c : Client U) : Result Unit × Client U :=
  match c.registrations.lookup ssid with
  | none => (.ok (),c)
  | some reg =>
    let c := sendDeregister ssid reg a c
    let c := { c with registrations := c.registrations.erase ssid }.notify (.onDeregistered ssid)
    (.ok (),c.setState (if c.registrations.keys = [] then .Idle else .Registered))

def start (c : Client U) : Result Unit × Client U :=
  if c.running then (err .InvalidState "Client already running",c)
  else (.ok (),{ c with running := true }.setState .Idle)

/-- On the event thread, in a callback, `stop` only ends the event loop. -/
def stop (onEventThread : Bool) (answers : UInt16 → Answer) (c : Client U) : Client U :=
  let c := { c with running := false }
  if onEventThread then c
  else
    let c := c.registrations.keys.foldl (fun c ssid => (deregister ssid (answers ssid) c).2) c
    { c with connections := ∅, registrations := ∅ }.setState .Idle

/-! ### Polling and reconnection -/

/-- One registration of `check_registration_updates`. -/
def checkRegistrationUpdate (now : Int) (answers : UInt16 → Answer) (c : Client U) (ssid : UInt16) : Client U :=
  match c.registrations.lookup ssid, c.objects.server.findByShortServerId ssid with
  | some reg, some srv =>
    let threshold := c.config.updateThreshold srv.lifetime.toNat
    if reg.expiresAt - now ≤ seconds srv.lifetime.toNat - seconds threshold then
      (updateRegistration ssid (answers ssid) c).2
    else c
  | _, _ => c

def checkRegistrationUpdates (now : Int) (answers : UInt16 → Answer) (c : Client U) : Client U :=
  c.registrations.keys.foldl (checkRegistrationUpdate now answers) c

def handleConnectionLost (ssid : UInt16) (now : Int) (c : Client U) : Client U :=
  if c.reconnecting then c
  else
    let c := { c with reconnecting := true }.setState .Error
    let c :=
      { c with
        reconnectAttempts := 0
        reconnectSsid := ssid
        nextReconnectTime := now
        registrations := c.registrations.erase ssid }
    (c.notify (.onConnectionLost ssid)).notify (.onError .ConnectionFailed "Connection to server lost")

/-- The first registration that has expired, or else the first connection that is down. -/
def lostConnection (now : Int) (c : Client U) : Option UInt16 :=
  match findEntry c.registrations (fun reg => reg.expiresAt < now) with
  | some (ssid,_) => some ssid
  | none => (findEntry c.connections (fun conn => !conn.connected)).map Prod.fst

def checkConnectionHealth (now lostAt : Int) (c : Client U) : Client U :=
  if c.state ≠ .Registered ∨ c.reconnecting then c
  else
    match c.lostConnection now with
    | some ssid => handleConnectionLost ssid lostAt c
    | none => c

/-- The loop of `calculate_backoff`. -/
def backoffLoop (config : ReconnectionConfig) : Nat → Int → Int
  | 0, backoff => backoff
  | rounds+1, backoff =>
    let next := config.nextBackoff backoff
    if config.maxBackoff < next then config.maxBackoff else backoffLoop config rounds next

def calculateBackoff (c : Client U) : Int :=
  backoffLoop c.reconnectConfig (c.reconnectAttempts.toNat - 1) c.reconnectConfig.initialBackoff

/-- A new attempt is counted and announced, and the old connection closed. -/
def beginAttempt (ssid : UInt16) (c : Client U) : Client U :=
  let c := { c with reconnectAttempts := c.reconnectAttempts + 1 }
  let c := c.notify (.onReconnecting ssid c.reconnectAttempts)
  { c with connections := c.connections.erase ssid }

/-- The attempt of `try_reconnect`. -/
def reconnect (ssid : UInt16) (a : RegisterAnswer) (failedAt : Int) (c : Client U) : Client U :=
  match registerWithServer ssid a (c.beginAttempt ssid) with
  | (.ok (),c) => { c with reconnecting := false, reconnectAttempts := 0 }.notify (.onReconnected ssid)
  | (.error _,c) => { c with nextReconnectTime := failedAt + seconds c.calculateBackoff }

def tryReconnect (ssid : UInt16) (a : RegisterAnswer) (failedAt : Int) (c : Client U) : Client U :=
  if !c.reconnectConfig.enabled then { c with reconnecting := false }
  else if 0 < c.reconnectConfig.maxRetries ∧ c.reconnectConfig.maxRetries ≤ c.reconnectAttempts then
    { c with reconnecting := false }.notify (.onError .ConnectionFailed "Max reconnection attempts reached")
  else reconnect ssid a failedAt c

/-- `coap_io_process` on every connection. -/
def pollConnections (during : UInt16 → Events) (c : Client U) : Client U :=
  c.connections.keys.foldl (fun c ssid => deliver (during ssid) ssid c) c

def poll (answers : PollAnswers) (c : Client U) : Client U :=
  let c := pollConnections answers.during c
  let c := checkRegistrationUpdates answers.updatesAt answers.updates c
  let c := checkConnectionHealth answers.healthAt answers.lostAt c
  if c.reconnecting ∧ c.nextReconnectTime ≤ answers.reconnectAt then
    tryReconnect c.reconnectSsid answers.register answers.failedAt c
  else c

end Client

/-- A call of the application, or of the event loop, with what it finds. -/
inductive Action where
  | register (ssid : UInt16) (a : RegisterAnswer)
  | update (ssid : UInt16) (a : Answer)
  | deregister (ssid : UInt16) (a : Answer)
  | start
  | stop (onEventThread : Bool) (answers : UInt16 → Answer)
  | poll (answers : PollAnswers)

def Action.call : Action → Call
  | .register ssid _ => .register ssid
  | .update ssid _ => .update ssid
  | .deregister ssid _ => .deregister ssid
  | .start => .start
  | .stop _ _ => .stop
  | .poll _ => .poll

namespace Client
variable {U : Type} [Object U]

def act (c : Client U) : Action → Client U
  | .register ssid a => (registerWithServer ssid a c).2
  | .update ssid a => (updateRegistration ssid a c).2
  | .deregister ssid a => (deregister ssid a c).2
  | .start => (start c).2
  | .stop onEventThread answers => stop onEventThread answers c
  | .poll answers => poll answers c

/-- The call is noted and carried out. -/
def perform (c : Client U) (action : Action) : Client U := (c.note (.called action.call)).act action

/-- The two tables that grow in a run may iterate in another order from one call to the next. -/
structure Reordered (c d : Client U) : Prop where
  connections : d.connections.entries.Perm c.connections.entries
  registrations : d.registrations.entries.Perm c.registrations.entries
  rest : d = { c with connections := d.connections, registrations := d.registrations }

def Step (c : Client U) (action : Action) (d : Client U) : Prop :=
  ∃ reordered, Reordered c reordered ∧ d = reordered.perform action

theorem step_perform (c : Client U) (action : Action) : Step c action (c.perform action) :=
  ⟨c,⟨.refl _,.refl _,rfl⟩,rfl⟩

/-- A run without reorderings. -/
theorem run_perform (c : Client U) (actions : List Action) : Run Step c actions (actions.foldl perform c) :=
  run_foldl step_perform c actions

/-- A client that has done nothing yet, with any objects and configuration. -/
structure Fresh (c : Client U) : Prop where
  connections : c.connections = ∅
  registrations : c.registrations = ∅
  reconnecting : c.reconnecting = false
  log : c.log = []

end Client

/-! ### A client with one server -/

def sampleUri : Bytes := lit ['c','o','a','p',':','/','/','1','2','7','.','0','.','0','.','1',':','5','6','8','3']

/-- A client with the accounts of one server, whose lifetime is a minute. -/
def sampleClient : Client LocationObject :=
  { objects :=
    { security := (SecurityObject.addServer {} { serverUri := sampleUri, shortServerId := 1 }).2
      server := (ServerObject.addServer { registrationUpdateCallback := true } { shortServerId := 1, lifetime := 60 }).2 } }

theorem sampleClient_fresh : sampleClient.Fresh := ⟨rfl,rfl,rfl,rfl⟩

/-- 2.01 with the location `/rd/7`, at once. -/
def created : RegisterAnswer :=
  { outcome := .ok { code := some .Created, options := [(8,lit ['r','d']), (8,lit ['7'])] } }

/-- The session with the server 1 is lost. -/
def losing : PollAnswers := { during := fun ssid => if ssid = 1 then .session false .done else .done }

end Ferriot
