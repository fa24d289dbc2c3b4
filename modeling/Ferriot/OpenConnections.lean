import Ferriot.Connect

/-!
# Opening and closing connections

What `connect` and `disconnect` store in a `CoapClientImpl`, step by step, and the
count by which all of them share libcoap. `connect` closes what it has opened on
every way out but one: without a context it leaves the count as it is.
-/
namespace Ferriot
open Runs

/-- `coap_init_count`, and whether libcoap has been started. -/
structure Initialized where
  count : Int := 0
  started : Bool := false
deriving DecidableEq, Repr

/-- `init_libcoap` -/
def initLibcoap (n : Initialized) : Initialized :=
  { count := n.count + 1, started := if n.count = 0 then true else n.started }

/-- `cleanup_libcoap` -/
def cleanupLibcoap (n : Initialized) : Initialized :=
  { count := n.count - 1, started := if n.count = 1 then false else n.started }

structure CoapClientImpl where
  /-- `ctx_` is no null pointer. -/
  context : Bool := false
  session : Option Session := none
  connected : Bool := false
  pskIdentity : Bytes := []
  pskKey : Bytes := []
deriving DecidableEq, Repr

namespace CoapClientImpl

def disconnect (o : CoapClientImpl) (n : Initialized) : CoapClientImpl × Initialized :=
  let o := { o with session := none }
  let (o,n) := if o.context then ({ o with context := false },cleanupLibcoap n) else (o,n)
  ({ o with pskIdentity := [], pskKey := [], connected := false },n)

/-- The credentials that `setup_dtls_psk` stores. -/
def storePsk (psk : Option PskCredentials) (o : CoapClientImpl) : CoapClientImpl :=
  match psk with
  | some psk => { o with pskIdentity := psk.identity, pskKey := psk.key }
  | none => o

/-- The session that `connect` asks libcoap for. -/
def sessionFor (useDtls : Bool) (o : CoapClientImpl) : Session :=
  if useDtls && o.pskIdentity ≠ [] then ⟨.Dtls,some ⟨o.pskIdentity,o.pskKey⟩⟩
  else ⟨if useDtls then .Dtls else .Udp,none⟩

/-- An error after the context is there. -/
def giveUp (e : Error) (o : CoapClientImpl) (n : Initialized) : Result Unit × CoapClientImpl × Initialized :=
  (.error e,o.disconnect n)

def connect (lib : Libcoap) (config : ConnectionConfig) (o : CoapClientImpl) (n : Initialized) :
    Result Unit × CoapClientImpl × Initialized :=
  let (o,n) := o.disconnect n
  let n := initLibcoap n
  if !lib.newContext then (err .InternalServerError "Failed to create CoAP context",o,n)
  else
    let o := { o with context := true }
    match lib.splitUri config.serverUri with
    | none => giveUp ⟨.BadRequest,"Invalid server URI"⟩ o n
    | some uri =>
      match if uri.useDtls then setupDtls config else .ok none with
      | .error e => giveUp e o n
      | .ok psk =>
        let o := o.storePsk psk
        match lib.resolve uri uri.useDtls with
        | none => giveUp ⟨.ConnectionFailed,"Failed to resolve server address"⟩ o n
        | some address =>
          let session := o.sessionFor uri.useDtls
          if lib.newSession address session then (.ok (),{ o with session := some session, connected := true },n)
          else giveUp ⟨.ConnectionFailed,"Failed to create CoAP session"⟩ o n

/-- The count without the context of the object. -/
def release (o : CoapClientImpl) (n : Initialized) : Initialized := if o.context then cleanupLibcoap n else n

structure FullyConnected (o : CoapClientImpl) : Prop where
  context : o.context = true
  session : o.session ≠ none
  connected : o.connected = true

structure FullyDisconnected (o : CoapClientImpl) : Prop where
  context : o.context = false
  session : o.session = none
  connected : o.connected = false
  identity : o.pskIdentity = []
  key : o.pskKey = []

theorem initial_disconnected : ({} : CoapClientImpl).FullyDisconnected := ⟨rfl,rfl,rfl,rfl,rfl⟩

theorem disconnect_eq (o : CoapClientImpl) (n : Initialized) : o.disconnect n = ({},o.release n) := by
  obtain ⟨context,session,connected,identity,key⟩ := o
  cases context <;> rfl

theorem giveUp_eq (e : Error) {o : CoapClientImpl} (n : Initialized) (context : o.context = true) :
    giveUp e o n = (.error e,{},cleanupLibcoap n) := by
  unfold giveUp
  rw [disconnect_eq]
  unfold release
  rw [if_pos context]

theorem storePsk_context (psk : Option PskCredentials) (o : CoapClientImpl) : (o.storePsk psk).context = o.context := by
  cases psk <;> rfl

/-- The ways out of `connect`: without a context, with everything closed again, and with a session. -/
theorem connect_cases (lib : Libcoap) (config : ConnectionConfig) (o : CoapClientImpl) (n : Initialized) :
    (lib.newContext = false ∧
      connect lib config o n = (err .InternalServerError "Failed to create CoAP context",{},initLibcoap (o.release n))) ∨
    (lib.newContext = true ∧ ∃ e, connect lib config o n = (.error e,{},cleanupLibcoap (initLibcoap (o.release n)))) ∨
    (lib.newContext = true ∧ ∃ o', FullyConnected o' ∧ connect lib config o n = (.ok (),o',initLibcoap (o.release n))) := by
  unfold connect
  rw [disconnect_eq]
  dsimp only
  cases lib.newContext with
  | false => exact .inl ⟨rfl,rfl⟩
  | true =>
    right
    rw [if_neg (by simp)]
    cases lib.splitUri config.serverUri with
    | none => exact .inl ⟨rfl,_,giveUp_eq _ _ rfl⟩
    | some uri =>
      dsimp only
      cases (if uri.useDtls then setupDtls config else .ok none) with
      | error e => exact .inl ⟨rfl,e,giveUp_eq e _ rfl⟩
      | ok psk =>
        have context := storePsk_context psk { context := true }
        dsimp only
        cases lib.resolve uri uri.useDtls with
        | none => exact .inl ⟨rfl,_,giveUp_eq _ _ context⟩
        | some address =>
          dsimp only
          split
          · refine .inr ⟨rfl,_,?_,rfl⟩
            exact ⟨context,Option.some_ne_none _,rfl⟩
          · exact .inl ⟨rfl,_,giveUp_eq _ _ context⟩

/-- The credentials that are stored are those that the session is to have. -/
theorem sessionFor_storePsk {config : ConnectionConfig} {useDtls : Bool} {psk : Option PskCredentials}
    (setup : (if useDtls then setupDtls config else .ok none) = .ok psk) :
    sessionFor useDtls (storePsk psk { context := true }) = ⟨if useDtls then .Dtls else .Udp,psk⟩ := by
  cases psk with
  | none => simp [sessionFor, storePsk]
  | some psk =>
    cases useDtls with
    | false => cases setup
    | true =>
      have identity : psk.identity ≠ [] := by
        simp only [↓reduceIte, setupDtls] at setup
        cases mode : config.securityMode with
        | Psk =>
          simp only [mode] at setup
          cases given : config.psk with
          | none => simp [given] at setup
          | some psk' =>
            simp only [given, setupDtlsPsk] at setup
            split at setup
            · cases setup
            · next written =>
              split at setup
              · cases setup
              · cases setup
                exact written
        | Rpk =>
          simp only [mode] at setup
          cases given : config.rpk with
          | none => simp [given] at setup
          | some rpk => simp [given, setupDtlsRpk, Except.map] at setup
        | NoSec => simp [mode] at setup
        | Certificate => simp [mode] at setup
      simp [sessionFor, storePsk, identity]

/-- The result is that of `connect`, and the session that is stored the one it opens. -/
theorem connect_refines (lib : Libcoap) (config : ConnectionConfig) (o : CoapClientImpl) (n : Initialized) :
    (connect lib config o n).1 = (Ferriot.connect lib config).map (fun _ => ()) ∧
      (connect lib config o n).2.1.session = (Ferriot.connect lib config).toOption := by
  unfold connect Ferriot.connect
  rw [disconnect_eq]
  dsimp only
  cases lib.newContext with
  | false => exact ⟨rfl,rfl⟩
  | true =>
    rw [if_neg (by simp), if_neg (by simp)]
    cases lib.splitUri config.serverUri with
    | none => exact ⟨rfl,by rw [giveUp_eq _ _ rfl]; rfl⟩
    | some uri =>
      dsimp only
      cases setup : (if uri.useDtls then setupDtls config else .ok none) with
      | error e =>
        dsimp only
        rw [giveUp_eq _ _ rfl]
        exact ⟨rfl,rfl⟩
      | ok psk =>
        have context := storePsk_context psk { context := true }
        have session := sessionFor_storePsk setup
        dsimp only
        cases lib.resolve uri uri.useDtls with
        | none => exact ⟨rfl,by rw [giveUp_eq _ _ context]; rfl⟩
        | some address =>
          dsimp only
          rw [session]
          generalize (⟨if uri.useDtls then .Dtls else .Udp,psk⟩ : Session) = session
          by_cases opened : lib.newSession address session = true
          · rw [if_pos opened, if_pos opened]
            exact ⟨rfl,rfl⟩
          · rw [if_neg opened, if_neg opened, giveUp_eq _ _ context]
            exact ⟨rfl,rfl⟩

end CoapClientImpl

/-! ### All objects of a process -/

/-- The objects of a process, and what they share. -/
structure Transport where
  objects : List CoapClientImpl := []
  initialized : Initialized := {}

/-- A call on the object at the place, or a new object. -/
inductive TransportCall where
  | create
  | connect (place : Nat) (lib : Libcoap) (config : ConnectionConfig)
  | disconnect (place : Nat)

namespace Transport

def put (t : Transport) (place : Nat) (o : CoapClientImpl × Initialized) : Transport :=
  { objects := t.objects.set place o.1, initialized := o.2 }

/-- One call; there has to be an object at the place. -/
def step (t : Transport) : TransportCall → Option Transport
  | .create => some { t with objects := t.objects ++ [{}] }
  | .connect place lib config => (t.objects[place]?).map (fun o => t.put place (o.connect lib config t.initialized).2)
  | .disconnect place => (t.objects[place]?).map (fun o => t.put place (o.disconnect t.initialized))

def Step (t : Transport) (call : TransportCall) (u : Transport) : Prop := t.step call = some u

/-- The number of objects that hold a context. -/
def holders (t : Transport) : Nat := t.objects.countP CoapClientImpl.context

/-- Every object is fully connected or fully disconnected, and the count is that of the contexts. -/
structure AllOrNothing (t : Transport) : Prop where
  whole : ∀ o ∈ t.objects, o.FullyConnected ∨ o.FullyDisconnected
  count : t.initialized.count = t.holders

/-- The context of a connection cannot be created. -/
def WithoutContext : TransportCall → Prop
  | .connect _ lib _ => lib.newContext = false
  | .create | .disconnect _ => False

instance (call : TransportCall) : Decidable (WithoutContext call) :=
  match call with
  | .create => .isFalse id
  | .connect _ lib _ => inferInstanceAs (Decidable (lib.newContext = false))
  | .disconnect _ => .isFalse id

/-- What every run keeps: the count is ahead of the contexts by the connections that had none, and
    libcoap is started while the count is not zero. -/
structure Ahead (lost : Nat) (t : Transport) : Prop where
  whole : ∀ o ∈ t.objects, o.FullyConnected ∨ o.FullyDisconnected
  count : t.initialized.count = t.holders + lost
  started : t.initialized.started = decide (0 < t.initialized.count)

/-- An object that holds a context is counted. -/
theorem Ahead.held {t : Transport} {lost place : Nat} {o : CoapClientImpl} (ahead : Ahead lost t)
    (here : t.objects[place]? = some o) : (if o.context then 1 else 0) ≤ t.initialized.count := by
  obtain ⟨inside,same⟩ := List.getElem?_eq_some_iff.mp here
  have bound := List.boole_getElem_le_countP (p := CoapClientImpl.context) inside
  have count := ahead.count
  rw [same] at bound
  unfold holders at count
  cases context : o.context with
  | false =>
    simp only [Bool.false_eq_true, ↓reduceIte]
    omega
  | true =>
    simp only [context, ↓reduceIte] at bound ⊢
    omega

/-- The object at one place is exchanged. -/
theorem Ahead.put {t : Transport} {lost gained place : Nat} {o o' : CoapClientImpl} {n : Initialized} (ahead : Ahead lost t)
    (here : t.objects[place]? = some o) (whole : o'.FullyConnected ∨ o'.FullyDisconnected)
    (count : n.count + (if o.context then 1 else 0) = t.initialized.count + (if o'.context then 1 else 0) + gained)
    (started : n.started = decide (0 < n.count)) : Ahead (lost + gained) (t.put place (o',n)) := by
  obtain ⟨inside,same⟩ := List.getElem?_eq_some_iff.mp here
  refine ⟨?_,?_,started⟩
  · intro other member
    rcases List.mem_or_eq_of_mem_set member with old | rfl
    · exact ahead.whole other old
    · exact whole
  · have before := ahead.count
    have held : (if o.context then 1 else 0) ≤ t.holders := by
      have bound := List.boole_getElem_le_countP (p := CoapClientImpl.context) inside
      rwa [same] at bound
    have after : (t.put place (o',n)).holders = t.holders - (if o.context then 1 else 0) + (if o'.context then 1 else 0) := by
      unfold holders Transport.put
      rw [List.countP_set inside, same]
    show n.count = _
    rw [after]
    push_cast [held]
    omega

/-- A connection that is closed leaves the count to the others. -/
theorem release_count {o : CoapClientImpl} {n : Initialized} (started : n.started = decide (0 < n.count))
    (held : (if o.context then 1 else 0) ≤ n.count) :
    (o.release n).count + (if o.context then 1 else 0) = n.count ∧ 0 ≤ (o.release n).count ∧
      (o.release n).started = decide (0 < (o.release n).count) := by
  unfold CoapClientImpl.release
  cases context : o.context with
  | false =>
    simp only [context, Bool.false_eq_true, ↓reduceIte] at held ⊢
    exact ⟨by omega,held,started⟩
  | true =>
    simp only [context, ↓reduceIte] at held ⊢
    unfold cleanupLibcoap
    refine ⟨by simp,by simpa using held,?_⟩
    by_cases last : n.count = 1
    · simp [last]
    · rw [if_neg last, started, decide_eq_decide]
      dsimp only
      omega

theorem initLibcoap_count {n : Initialized} (bound : 0 ≤ n.count) (started : n.started = decide (0 < n.count)) :
    (initLibcoap n).count = n.count + 1 ∧ (initLibcoap n).started = decide (0 < (initLibcoap n).count) := by
  unfold initLibcoap
  refine ⟨rfl,?_⟩
  by_cases first : n.count = 0
  · simp [first]
  · rw [if_neg first, started, decide_eq_decide]
    dsimp only
    omega

theorem cleanup_init {n : Initialized} (bound : 0 ≤ n.count) (started : n.started = decide (0 < n.count)) :
    cleanupLibcoap (initLibcoap n) = n := by
  obtain ⟨count,flag⟩ := n
  unfold cleanupLibcoap initLibcoap
  by_cases first : count = 0
  · subst first
    simpa using started.symm
  · simp [first]

theorem ahead_step {t u : Transport} {lost : Nat} {call : TransportCall} (ahead : Ahead lost t) (stepped : Step t call u) :
    Ahead (lost + if WithoutContext call then 1 else 0) u := by
  cases call with
  | create =>
    cases stepped
    refine ⟨?_,?_,ahead.started⟩
    · intro o member
      rcases List.mem_append.mp member with old | new
      · exact ahead.whole o old
      · rw [List.mem_singleton] at new
        subst new
        exact .inr CoapClientImpl.initial_disconnected
    · have before := ahead.count
      simp only [WithoutContext, ↓reduceIte, Nat.add_zero, holders, List.countP_append] at before ⊢
      simpa using before
  | connect place lib config =>
    obtain ⟨o,here,rfl⟩ := Option.map_eq_some_iff.mp stepped
    obtain ⟨released,bound,started⟩ := release_count ahead.started (ahead.held here)
    obtain ⟨initialized,started'⟩ := initLibcoap_count bound started
    rcases o.connect_cases lib config t.initialized with ⟨missing,out⟩ | ⟨there,e,out⟩ | ⟨there,o',connected,out⟩
    · rw [out]
      refine ahead.put here (.inr CoapClientImpl.initial_disconnected) ?_ started'
      simp only [WithoutContext, missing, ↓reduceIte, Bool.false_eq_true]
      push_cast
      omega
    · rw [out, cleanup_init bound started]
      refine ahead.put here (.inr CoapClientImpl.initial_disconnected) ?_ started
      simp only [WithoutContext, there, ↓reduceIte, Bool.false_eq_true, Bool.true_eq_false]
      push_cast
      omega
    · rw [out]
      refine ahead.put here (.inl connected) ?_ started'
      simp only [WithoutContext, there, connected.context, ↓reduceIte, Bool.true_eq_false]
      push_cast
      omega
  | disconnect place =>
    obtain ⟨o,here,rfl⟩ := Option.map_eq_some_iff.mp stepped
    obtain ⟨released,bound,started⟩ := release_count ahead.started (ahead.held here)
    rw [CoapClientImpl.disconnect_eq]
    refine ahead.put here (.inr CoapClientImpl.initial_disconnected) ?_ started
    simp only [WithoutContext, ↓reduceIte, Bool.false_eq_true]
    push_cast
    omega

theorem ahead_run {t u : Transport} {lost : Nat} {calls : List TransportCall} (ahead : Ahead lost t)
    (run : Run Step t calls u) : Ahead (lost + calls.countP (fun call => WithoutContext call)) u := by
  induction run generalizing lost with
  | nil => exact ahead
  | @cons t next u call later first rest ih =>
    have after := ih (ahead_step ahead first)
    by_cases missing : WithoutContext call
    · rw [List.countP_cons_of_pos (by simpa using missing)]
      rw [if_pos missing] at after
      rwa [Nat.add_assoc, Nat.add_comm 1] at after
    · rw [List.countP_cons_of_neg (by simpa using missing)]
      rwa [if_neg missing] at after

/-- From no objects, and after any calls, every object is connected or disconnected in full and the
    count is that of the contexts, exactly if no context was missing. -/
theorem allOrNothing_run {calls : List TransportCall} {t : Transport} (run : Run Step {} calls t) :
    t.AllOrNothing ↔ ∀ call ∈ calls, ¬ WithoutContext call := by
  have initial : Ahead 0 {} := ⟨by simp,rfl,rfl⟩
  have ahead := ahead_run initial run
  have count := ahead.count
  rw [Nat.zero_add] at count
  constructor
  · rintro ⟨-,same⟩ call member missing
    have some : 0 < calls.countP (fun call => WithoutContext call) :=
      List.countP_pos_iff.mpr ⟨call,member,by simpa using missing⟩
    omega
  · intro none
    have zero : calls.countP (fun call => WithoutContext call) = 0 :=
      List.countP_eq_zero.mpr (fun call member => by simpa using none call member)
    rw [zero] at count
    exact ⟨ahead.whole,by simpa using count⟩

/-- A connection to `coap://s`, closed again. -/
def openedRun : List TransportCall :=
  [.create, .connect 0 Client.plainLibcoap { serverUri := lit ['c','o','a','p',':','/','/','s'] }, .disconnect 0]

theorem opened_allOrNothing :
    ∃ t, runPartial step {} openedRun = some t ∧ (t.AllOrNothing ↔ ∀ call ∈ openedRun, ¬ WithoutContext call) := by
  obtain ⟨t,ran⟩ : ∃ t, runPartial step {} openedRun = some t := ⟨_,rfl⟩
  exact ⟨t,ran,allOrNothing_run ((runPartial_iff step _ _ _).mp ran)⟩

/-- libcoap has no context to give. -/
def missedRun : List TransportCall := [.create, .connect 0 { newContext := false, splitUri := fun _ => none } {}]

theorem missed_counted : ∃ t, Run Step {} missedRun t ∧ ¬ t.AllOrNothing := by
  refine ⟨_,(runPartial_iff step _ _ missedRun).mp rfl,?_⟩
  rintro ⟨-,count⟩
  revert count
  decide

end Transport

end Ferriot
