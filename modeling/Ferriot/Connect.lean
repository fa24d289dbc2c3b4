import Ferriot.DeadConnections

/-!
# Opening a session

`connect` takes the protocol of the session from the scheme of the URI. It looks at
the security mode only for the secure schemes: `coaps` without security is refused,
while a plaintext scheme opens a plaintext session whatever the mode is.
-/
namespace Ferriot
open Tables Requests Runs

inductive Proto where
  | Udp | Dtls
deriving DecidableEq, Repr

structure Session where
  proto : Proto
  psk : Option PskCredentials := none
deriving DecidableEq, Repr

/-- What `connect` asks of libcoap: a context, the parts of a URI, the address of a host,
    and a session. -/
structure Libcoap where
  newContext : Bool := true
  splitUri : Bytes → Option Uri
  resolve : Uri → Bool → Option Bytes := fun uri _ => some uri.host
  newSession : Bytes → Session → Bool := fun _ _ => true

def setupDtlsPsk (psk : PskCredentials) : Result PskCredentials :=
  if psk.identity = [] then err .BadRequest "PSK identity cannot be empty"
  else if psk.key = [] then err .BadRequest "PSK key cannot be empty"
  else .ok psk

def setupDtlsRpk (_ : RpkCredentials) : Result Unit := err .NotImplemented "RPK support not yet implemented"

/-- The credentials of a DTLS session. -/
def setupDtls (config : ConnectionConfig) : Result (Option PskCredentials) :=
  match config.securityMode with
  | .Psk =>
    match config.psk with
    | none => err .BadRequest "PSK credentials required"
    | some psk => (setupDtlsPsk psk).map some
  | .Rpk =>
    match config.rpk with
    | none => err .BadRequest "RPK credentials required"
    | some rpk => (setupDtlsRpk rpk).map (fun _ => none)
  | .NoSec => err .BadRequest "Security mode mismatch"
  | .Certificate => err .NotImplemented "Certificate mode not yet implemented"

/-- `use_dtls` -/
def Uri.useDtls (uri : Uri) : Bool := uri.scheme = .Coaps || uri.scheme = .CoapsTcp

/-- `connect`, whose result is the session it opens. -/
def connect (lib : Libcoap) (config : ConnectionConfig) : Result Session :=
  if !lib.newContext then err .InternalServerError "Failed to create CoAP context"
  else
    match lib.splitUri config.serverUri with
    | none => err .BadRequest "Invalid server URI"
    | some uri =>
      match if uri.useDtls then setupDtls config else .ok none with
      | .error e => .error e
      | .ok psk =>
        match lib.resolve uri uri.useDtls with
        | none => err .ConnectionFailed "Failed to resolve server address"
        | some address =>
          let session : Session := ⟨if uri.useDtls then .Dtls else .Udp,psk⟩
          if lib.newSession address session then .ok session
          else err .ConnectionFailed "Failed to create CoAP session"

/-- libcoap opens a plaintext session for the URI. -/
def Libcoap.OpensPlaintext (lib : Libcoap) (serverUri : Bytes) : Prop :=
  lib.newContext = true ∧ ∃ uri, lib.splitUri serverUri = some uri ∧ uri.useDtls = false ∧
    ∃ address, lib.resolve uri false = some address ∧ lib.newSession address ⟨.Udp,none⟩ = true

/-- What `connect` has found when it opens a session. -/
theorem connect_ok (lib : Libcoap) (config : ConnectionConfig) (session : Session) :
    connect lib config = .ok session ↔
      lib.newContext = true ∧ ∃ uri, lib.splitUri config.serverUri = some uri ∧
        ∃ psk, (if uri.useDtls then setupDtls config else .ok none) = .ok psk ∧
          session = ⟨if uri.useDtls then .Dtls else .Udp,psk⟩ ∧
            ∃ address, lib.resolve uri uri.useDtls = some address ∧ lib.newSession address session = true := by
  unfold connect
  cases lib.newContext with
  | false => simp
  | true =>
    cases lib.splitUri config.serverUri with
    | none => simp
    | some uri =>
      simp only [Bool.not_true, Bool.false_eq_true, ↓reduceIte, true_and, Option.some.injEq, exists_eq_left']
      generalize (if uri.useDtls then setupDtls config else .ok none) = setup
      cases setup with
      | error e => simp
      | ok psk =>
        simp only [Except.ok.injEq, exists_eq_left']
        cases lib.resolve uri uri.useDtls with
        | none => simp
        | some address =>
          simp only [Option.some.injEq, exists_eq_left']
          by_cases opened : lib.newSession address ⟨if uri.useDtls then .Dtls else .Udp,psk⟩ = true
          · rw [if_pos opened, Except.ok.injEq]
            constructor
            · rintro rfl
              exact ⟨rfl,opened⟩
            · rintro ⟨rfl,-⟩
              rfl
          · rw [if_neg opened]
            refine iff_of_false (by rintro ⟨⟩) ?_
            rintro ⟨rfl,accepted⟩
            exact opened accepted

/-- A session that is not DTLS is opened exactly for a plaintext scheme. -/
theorem connect_plaintext (lib : Libcoap) (config : ConnectionConfig) :
    (∃ session, connect lib config = .ok session ∧ session.proto ≠ .Dtls) ↔ lib.OpensPlaintext config.serverUri := by
  unfold Libcoap.OpensPlaintext
  constructor
  · rintro ⟨session,opened,plaintext⟩
    obtain ⟨context,uri,found,psk,setup,rfl,address,resolved,accepted⟩ := (connect_ok lib config session).mp opened
    cases dtls : uri.useDtls with
    | true => simp [dtls] at plaintext
    | false =>
      simp only [dtls, Bool.false_eq_true, ↓reduceIte, Except.ok.injEq] at setup resolved accepted
      subst setup
      exact ⟨context,uri,found,dtls,address,resolved,accepted⟩
  · rintro ⟨context,uri,found,plaintext,address,resolved,accepted⟩
    refine ⟨⟨.Udp,none⟩,(connect_ok lib config _).mpr ⟨context,uri,found,none,?_,?_,address,?_,accepted⟩,by simp⟩
    · simp [plaintext]
    · simp [plaintext]
    · rw [plaintext, resolved]

/-- A plaintext scheme opens nothing but plaintext sessions. -/
theorem connect_scheme {lib : Libcoap} {config : ConnectionConfig} {session : Session} {uri : Uri}
    (opened : connect lib config = .ok session) (found : lib.splitUri config.serverUri = some uri)
    (plaintext : uri.useDtls = false) : session.proto ≠ .Dtls := by
  obtain ⟨-,uri',found',psk,-,rfl,-⟩ := (connect_ok lib config session).mp opened
  cases found.symm.trans found'
  simp [plaintext]

theorem toConnectionConfig_uri {o : SecurityObject} {iid : UInt16} {inst : SecurityInstance}
    (found : o.instances.lookup iid = some inst) : (SecurityObject.toConnectionConfig o iid).serverUri = inst.serverUri := by
  unfold SecurityObject.toConnectionConfig
  rw [found]
  dsimp only
  split <;> rfl

namespace Client
variable {U : Type}

/-- The instance that a registration takes the address from is the one found for the server. -/
theorem securityInstance_found {c : Client U} {ssid : UInt16} {inst : SecurityInstance}
    (found : SecurityObject.findByShortServerId c.objects.security ssid = some inst) :
    c.objects.security.instances.lookup (c.securityInstance ssid) = some inst := by
  unfold SecurityObject.findByShortServerId Instances.findByShortServerId at found
  obtain ⟨⟨iid,inst'⟩,first,same⟩ := Option.map_eq_some_iff.mp found
  obtain rfl : inst' = inst := same
  unfold securityInstance
  rw [first]
  exact (findEntry_some first).1

/-- `connect` with what the client knows of the server. -/
def connectServer (lib : Libcoap) (ssid : UInt16) (c : Client U) : Result Session :=
  connect lib (SecurityObject.toConnectionConfig c.objects.security (c.securityInstance ssid))

/-- A registration opens the session. -/
def Opens (lib : Libcoap) (ssid : UInt16) (c : Client U) (session : Session) : Prop :=
  HasAccount c ssid ∧ ssid ∉ c.connections ∧ connectServer lib ssid c = .ok session

/-- A registration opens a plaintext session to a server whose instance asks for security. -/
def Downgrades (lib : Libcoap) (ssid : UInt16) (c : Client U) : Prop :=
  HasAccount c ssid ∧ ssid ∉ c.connections ∧
    ∃ inst, SecurityObject.findByShortServerId c.objects.security ssid = some inst ∧ inst.securityMode ≠ 3 ∧
      lib.OpensPlaintext inst.serverUri

section
variable [Object U]

/-- `register_with_server` over libcoap. -/
def registerOver (lib : Libcoap) (ssid : UInt16) (a : RegisterAnswer) (c : Client U) : Result Unit × Client U :=
  registerWithServer ssid { a with connect := (connectServer lib ssid c).map (fun _ => ()) } c

/-- A registration that has its accounts and a connection keeps the connection. -/
theorem registered_connection {ssid : UInt16} {a : RegisterAnswer} {c d : Client U} (account : HasAccount c ssid)
    (opened : openConnection ssid a.connect c = (.ok (),d)) : ssid ∈ (registerWithServer ssid a c).2.connections := by
  obtain ⟨security,server⟩ := account
  obtain ⟨_,foundSecurity⟩ := Option.isSome_iff_exists.mp security
  obtain ⟨srv,foundServer⟩ := Option.isSome_iff_exists.mp server
  obtain ⟨-,-,-,-,connected⟩ := opened_cases opened
  have kept : ssid ∈ (attempt ssid a srv d).2.connections :=
    ((attempt_cases ssid a srv d).2.1 ssid).mpr (connected rfl)
  unfold attempt at kept
  unfold registerWithServer
  rw [foundSecurity, foundServer]
  dsimp only
  rw [opened]
  dsimp only
  generalize send ssid (.register srv.lifetime) _ a.toAnswer (d.setState .Registering) = ended at kept ⊢
  obtain ⟨response,e⟩ := ended
  cases response with
  | error _ => rwa [setState_connections]
  | ok r =>
    dsimp only
    split
    · rwa [setState_connections]
    · split
      · rwa [setState_connections]
      · obtain ⟨-,connections,-⟩ := storeRegistration_cases ssid r.getLocationPath srv.lifetime a e
        exact (connections ssid).mpr kept

/-- A registration adds a connection exactly if it opens a session. -/
theorem opens_iff {lib : Libcoap} {ssid : UInt16} {c : Client U} (a : RegisterAnswer) (absent : ssid ∉ c.connections) :
    ssid ∈ (registerOver lib ssid a c).2.connections ↔ ∃ session, Opens lib ssid c session := by
  unfold registerOver
  generalize answer : ({ a with connect := (connectServer lib ssid c).map (fun _ => ()) } : RegisterAnswer) = a'
  have connects : a'.connect = (connectServer lib ssid c).map (fun _ => ()) := by rw [← answer]
  constructor
  · intro added
    unfold registerWithServer at added
    cases security : SecurityObject.findByShortServerId c.objects.security ssid with
    | none =>
      rw [security] at added
      exact absurd added absent
    | some inst =>
      cases server : c.objects.server.findByShortServerId ssid with
      | none =>
        rw [security, server] at added
        exact absurd added absent
      | some srv =>
        cases connected : connectServer lib ssid c with
        | error e =>
          obtain ⟨d,unopened,same⟩ : ∃ d, openConnection ssid a'.connect c = (.error e,d) ∧ d.connections = c.connections := by
            unfold openConnection
            rw [if_neg absent, connects, connected]
            exact ⟨_,rfl,rfl⟩
          rw [security, server, unopened] at added
          exact absurd (same ▸ added) absent
        | ok session => exact ⟨session,⟨by rw [security]; rfl,by rw [server]; rfl⟩,absent,connected⟩
  · rintro ⟨session,account,-,connected⟩
    have connects' : a'.connect = .ok () := by rw [connects, connected]; rfl
    have opens := (opened_iff ssid a'.connect c).mpr (.inr connects')
    exact registered_connection account (d := (openConnection ssid a'.connect c).2) (Prod.ext opens rfl)

/-- No silent downgrade: a session that is not DTLS is opened only for an instance without
    security, and a plaintext scheme with any other mode is refused when the registration connects. -/
structure NoDowngrade (lib : Libcoap) (ssid : UInt16) (a : RegisterAnswer) (c : Client U) : Prop where
  encrypted : ∀ session inst, Opens lib ssid c session →
    SecurityObject.findByShortServerId c.objects.security ssid = some inst → session.proto ≠ .Dtls → inst.securityMode = 3
  refused : ∀ inst uri, SecurityObject.findByShortServerId c.objects.security ssid = some inst →
    lib.splitUri inst.serverUri = some uri → uri.useDtls = false → inst.securityMode ≠ 3 → ssid ∉ c.connections →
      ∃ e, (registerOver lib ssid a c).1 = .error e

/-- There is no downgrade exactly if no plaintext scheme stands with a mode other than NoSec
    where libcoap would open the session. -/
theorem noDowngrade_iff (lib : Libcoap) (ssid : UInt16) (a : RegisterAnswer) (c : Client U) :
    NoDowngrade lib ssid a c ↔ ¬ Downgrades lib ssid c := by
  constructor
  · rintro noDowngrade ⟨account,absent,inst,found,mode,plaintext⟩
    have uri := toConnectionConfig_uri (securityInstance_found found)
    rw [← uri] at plaintext
    obtain ⟨session,opened,proto⟩ := (connect_plaintext lib _).mpr plaintext
    exact mode (noDowngrade.encrypted session inst ⟨account,absent,opened⟩ found proto)
  · intro spared
    constructor
    · rintro session inst ⟨account,absent,opened⟩ found proto
      by_contra mode
      have uri := toConnectionConfig_uri (securityInstance_found found)
      have plaintext := (connect_plaintext lib _).mp ⟨session,opened,proto⟩
      rw [uri] at plaintext
      exact spared ⟨account,absent,inst,found,mode,plaintext⟩
    · intro inst uri found split plaintext mode absent
      cases result : (registerOver lib ssid a c).1 with
      | error e => exact ⟨e,rfl⟩
      | ok registered =>
        obtain ⟨account,connected,-⟩ := (registered_iff ssid _ c).mp result
        have connects := connected.resolve_left absent
        cases opened : connectServer lib ssid c with
        | error e =>
          rw [opened] at connects
          cases connects
        | ok session =>
          have same := toConnectionConfig_uri (securityInstance_found found)
          rw [← same] at split
          have opensPlaintext := (connect_plaintext lib _).mp ⟨session,opened,connect_scheme opened split plaintext⟩
          rw [same] at opensPlaintext
          exact absurd ⟨account,absent,inst,found,mode,opensPlaintext⟩ spared

end

/-- `coap://s`, which asks for a pre-shared key. -/
def pskClient : Client LocationObject :=
  { objects :=
    { security :=
        (SecurityObject.addServer {}
          { serverUri := lit ['c','o','a','p',':','/','/','s'], securityMode := 0, publicKeyIdentity := lit ['i']
            secretKey := [1, 2, 3], shortServerId := 1 }).2
      server := (ServerObject.addServer {} { shortServerId := 1 }).2 } }

/-- libcoap as it answers for `coap://s`. -/
def plainLibcoap : Libcoap :=
  { splitUri := fun uri => if uri = lit ['c','o','a','p',':','/','/','s'] then some { scheme := .Coap, host := lit ['s'], port := 5683 } else none }

theorem psk_downgraded : ¬ NoDowngrade plainLibcoap 1 created pskClient := by
  intro noDowngrade
  have mode := noDowngrade.encrypted ⟨.Udp,none⟩ _ ⟨by constructor <;> decide +kernel,by decide +kernel,by decide +kernel⟩ rfl (by decide)
  revert mode
  decide

end Client

end Ferriot
