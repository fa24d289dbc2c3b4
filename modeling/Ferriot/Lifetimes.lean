import Ferriot.ClientWaits
import Ferriot.LifetimeWrites

/-!
# Lifetimes

A registration request carries the lifetime of the Server instance, and an update
carries none: the server goes on with the lifetime of the last registration. The
client counts the expiry of an update from the Server instance, whose lifetime the
server may have written in between.
-/
namespace Ferriot
open Tables Requests Runs

/-- The lifetime that the server holds: that of the last request that carried one. -/
def heldLifetime (ssid : UInt16) : List Entry → Option UInt32
  | [] => none
  | .sent s (.register lifetime) _ :: older => if s = ssid then some lifetime else heldLifetime ssid older
  | _ :: older => heldLifetime ssid older

/-- An expiry is no later than the server's. -/
def Agreed : Entry → List Entry → Prop
  | .accepted ssid _ now expiresAt, older =>
    ∃ lifetime ∈ heldLifetime ssid older, expiresAt ≤ now + seconds lifetime.toNat
  | _, _ => True

instance : (e : Entry) → (older : List Entry) → Decidable (Agreed e older)
  | .accepted ssid _ now expiresAt, older =>
    inferInstanceAs (Decidable (∃ lifetime ∈ heldLifetime ssid older, expiresAt ≤ now + seconds lifetime.toNat))
  | .called _, _ | .connect _ _, _ | .sent _ _ _, _ | .served _ _, _ | .notified _, _ => .isTrue trivial

/-- Client and server agree on every expiry in the log. -/
def Agrees (log : List Entry) : Prop := Throughout Agreed log

instance (log : List Entry) : Decidable (Agrees log) := inferInstanceAs (Decidable (Throughout Agreed log))

/-- The lifetime of a Server instance after the requests in the log. -/
def writtenLifetime (x : UInt16) (first : UInt32) : List Entry → UInt32
  | [] => first
  | .served request _ :: older => (lifetimeWritten x request).getD (writtenLifetime x first older)
  | _ :: older => writtenLifetime x first older

/-- The lifetime of the Server instance for a server, from the instances at the start and the log. -/
def serverLifetime (first : Table UInt16 ServerInstance) (ssid : UInt16) (log : List Entry) : Option UInt32 :=
  (serverInstance first ssid).map (fun e => writtenLifetime e.1 e.2.lifetime log)

/-- An accepted update finds the lifetime of the Server instance no longer than the
    one that the last registration carried. -/
def Followed (first : Table UInt16 ServerInstance) : Entry → List Entry → Prop
  | .accepted ssid .update _ _, older =>
    ∀ lifetime ∈ serverLifetime first ssid older, ∀ held ∈ heldLifetime ssid older, lifetime ≤ held
  | _, _ => True

def Events.Usual : Events → Prop
  | .done => True
  | .session _ after => after.Usual
  | .request _ incoming _ during _ _ after => Ferriot.Usual incoming ∧ during.Usual ∧ after.Usual

def Action.Usual : Action → Prop
  | .register _ a => a.during.Usual
  | .update _ a => a.during.Usual
  | .deregister _ a => a.during.Usual
  | .start => True
  | .stop _ answers => ∀ ssid, (answers ssid).during.Usual
  | .poll answers =>
    (∀ ssid, (answers.during ssid).Usual) ∧ (∀ ssid, (answers.updates ssid).during.Usual) ∧ answers.register.during.Usual

/-! ### What a run maintains -/

/-- An entry that changes neither lifetime, and stores no expiry. -/
def Entry.Silent : Entry → Prop
  | .sent _ (.register _) _ | .accepted _ _ _ _ | .served _ _ => False
  | _ => True

/-- An expiry is counted with the lifetime that the registration carried, or, after an
    update, with that of the Server instance. -/
def Explained (first : Table UInt16 ServerInstance) : Entry → List Entry → Prop
  | .accepted ssid (.register lifetime) now expiresAt, older =>
    heldLifetime ssid older = some lifetime ∧ expiresAt = now + seconds lifetime.toNat
  | .accepted ssid .update now expiresAt, older =>
    ∃ lifetime held, serverLifetime first ssid older = some lifetime ∧ heldLifetime ssid older = some held ∧
      expiresAt = now + seconds lifetime.toNat
  | .accepted _ .deregister _ _, _ => False
  | _, _ => True

theorem seconds_le (a b : UInt32) (now : Int) :
    now + seconds a.toNat ≤ now + seconds b.toNat ↔ a ≤ b := by
  rw [UInt32.le_iff_toNat_le]
  simp only [seconds]
  omega

theorem agreed_iff {first : Table UInt16 ServerInstance} (e : Entry) (older : List Entry)
    (explained : Explained first e older) : Agreed e older ↔ Followed first e older := by
  cases e with
  | accepted ssid operation now expiresAt =>
    cases operation with
    | register lifetime =>
      obtain ⟨held,rfl⟩ := explained
      exact iff_of_true ⟨lifetime,held,Int.le_refl _⟩ trivial
    | update =>
      obtain ⟨lifetime,held,written,last,rfl⟩ := explained
      simp only [Agreed, Followed, written, last, Option.mem_some_iff, forall_eq', exists_eq_left', seconds_le]
    | deregister => exact explained.elim
  | _ => exact Iff.rfl

namespace Client
variable {U : Type}

/-- What a run maintains: the Server instances are those of the start with the
    lifetimes written since, every registered server has one and holds a lifetime,
    and every expiry in the log is explained. -/
structure Tracks (first : Table UInt16 ServerInstance) (c : Client U) : Prop where
  inPlace : ServerInPlace c.objects
  instances : ∀ ssid, serverInstance c.objects.server.store.instances ssid =
    (serverInstance first ssid).map (fun e => (e.1,{ e.2 with lifetime := writtenLifetime e.1 e.2.lifetime c.log }))
  registered : ∀ ssid ∈ c.registrations, (heldLifetime ssid c.log).isSome ∧ (serverInstance first ssid).isSome
  explained : Throughout (Explained first) c.log

variable {first : Table UInt16 ServerInstance}

theorem Tracks.found {c : Client U} (tracks : Tracks first c) (ssid : UInt16) :
    (c.objects.server.findByShortServerId ssid).map ServerInstance.lifetime = serverLifetime first ssid c.log := by
  have same : c.objects.server.findByShortServerId ssid =
    (serverInstance c.objects.server.store.instances ssid).map Prod.snd := rfl
  rw [same, tracks.instances, Option.map_map, Option.map_map]
  rfl

theorem heldLifetime_append {new old : List Entry} (passive : ∀ e ∈ new, e.Passive) (ssid : UInt16) :
    heldLifetime ssid (new ++ old) = heldLifetime ssid old := by
  induction new with
  | nil => rfl
  | cons e new ih =>
    rw [← ih (fun x member => passive x (List.mem_cons_of_mem _ member))]
    cases e with
    | sent s operation request =>
      cases operation with
      | register lifetime => exact (passive _ List.mem_cons_self).elim
      | _ => rfl
    | _ => rfl

theorem heldLifetime_silent {e : Entry} (silent : e.Silent) (ssid : UInt16) (older : List Entry) :
    heldLifetime ssid (e :: older) = heldLifetime ssid older := by
  cases e with
  | sent s operation request =>
    cases operation with
    | register lifetime => exact silent.elim
    | _ => rfl
  | _ => rfl

theorem writtenLifetime_silent {e : Entry} (silent : e.Silent) (x : UInt16) (first : UInt32) (older : List Entry) :
    writtenLifetime x first (e :: older) = writtenLifetime x first older := by
  cases e with
  | served request response => exact silent.elim
  | _ => rfl

theorem explained_silent {e : Entry} (silent : e.Silent) (older : List Entry) : Explained first e older := by
  cases e with
  | accepted ssid operation now expiresAt => exact silent.elim
  | _ => trivial

theorem Tracks.note {c : Client U} {e : Entry} (tracks : Tracks first c) (silent : e.Silent) : Tracks first (c.note e) where
  inPlace := tracks.inPlace
  instances ssid := by
    simp only [Client.note, writtenLifetime_silent silent]
    exact tracks.instances ssid
  registered ssid member := by
    simp only [Client.note, heldLifetime_silent silent]
    exact tracks.registered ssid member
  explained := ⟨explained_silent silent c.log,tracks.explained⟩

/-- A change of nothing but what the invariant does not see. -/
theorem Tracks.unseen {c d : Client U} (tracks : Tracks first c) (objects : d.objects = c.objects) (log : d.log = c.log)
    (registrations : ∀ s ∈ d.registrations, s ∈ c.registrations) : Tracks first d where
  inPlace := objects ▸ tracks.inPlace
  instances := by rw [objects, log]; exact tracks.instances
  registered ssid member := by rw [log]; exact tracks.registered ssid (registrations ssid member)
  explained := log ▸ tracks.explained

theorem Tracks.setState {c : Client U} (tracks : Tracks first c) (new : ClientState) : Tracks first (c.setState new) := by
  simp only [Client.setState]
  split
  · exact tracks
  · exact Tracks.note (tracks.unseen rfl rfl (fun _ => id)) trivial

/-- A request that carries no lifetime. -/
theorem tracks_sendWith {wait : Client U → Client U} {ssid : UInt16} {operation : Operation}
    (silent : ∀ request, (Entry.sent ssid operation request).Silent) (request : CoapRequest) (refused : Option Error)
    (outcome : Result CoapResponse) {c : Client U} (tracks : Tracks first c)
    (waits : ∀ d : Client U, Tracks first d → Tracks first (wait d)) :
    Tracks first (sendWith wait ssid operation request refused outcome c).2 := by
  simp only [sendWith]
  split
  · cases refused with
    | some e => exact tracks
    | none => exact waits _ (tracks.note (silent request))
  · exact tracks

theorem Tracks.accepted {c : Client U} {ssid : UInt16} {operation : Operation} {now expiresAt : Int}
    (tracks : Tracks first c) (explained : Explained first (.accepted ssid operation now expiresAt) c.log) :
    Tracks first (c.note (.accepted ssid operation now expiresAt)) :=
  ⟨tracks.inPlace,tracks.instances,tracks.registered,explained,tracks.explained⟩

theorem tracks_renew {c : Client U} (tracks : Tracks first c) (ssid : UInt16) (now : Int) :
    Tracks first (c.renew ssid now) := by
  simp only [renew]
  split
  · exact tracks.unseen rfl rfl (fun s => (mem_modify _ _ _ _).mp)
  · exact tracks

/-- The Server instance of a registered server, and the lifetime it holds. -/
theorem Tracks.account {c : Client U} {ssid : UInt16} (tracks : Tracks first c) (registered : ssid ∈ c.registrations) :
    ∃ srv held, c.objects.server.findByShortServerId ssid = some srv ∧
      serverLifetime first ssid c.log = some srv.lifetime ∧ heldLifetime ssid c.log = some held := by
  obtain ⟨last,there⟩ := tracks.registered ssid registered
  obtain ⟨held,last⟩ := Option.isSome_iff_exists.mp last
  obtain ⟨e,there⟩ := Option.isSome_iff_exists.mp there
  have lifetime := tracks.found ssid
  have written : serverLifetime first ssid c.log = some (writtenLifetime e.1 e.2.lifetime c.log) := by
    rw [serverLifetime, there]; rfl
  rw [written] at lifetime
  obtain ⟨srv,found,same⟩ := Option.map_eq_some_iff.mp lifetime
  exact ⟨srv,held,found,by rw [written, same],last⟩

/-- The expiry of an accepted update is counted with the lifetime of the Server instance. -/
theorem tracks_accepted {c : Client U} (tracks : Tracks first c) (ssid : UInt16) (now : Int) :
    Tracks first ((c.renew ssid now).noteAccepted ssid .update now) := by
  have renewed := tracks_renew tracks ssid now
  simp only [noteAccepted]
  cases looked : (c.renew ssid now).registrations.lookup ssid with
  | none => exact renewed
  | some reg =>
    have member : ssid ∈ (c.renew ssid now).registrations := AList.lookup_isSome.mp (by rw [looked]; rfl)
    obtain ⟨srv,held,found,written,last⟩ := renewed.account member
    refine renewed.accepted ⟨srv.lifetime,held,written,last,?_⟩
    have same : (c.renew ssid now).objects = c.objects := by unfold renew; split <;> rfl
    rw [same] at found
    rw [renew, found] at looked
    dsimp only at looked
    rw [lookup_modify, if_pos rfl] at looked
    obtain ⟨old,-,rfl⟩ := Option.map_eq_some_iff.mp looked
    rfl

theorem tracks_updateWith {wait : Client U → Client U} {ssid : UInt16} {refused : Option Error}
    {outcome : Result CoapResponse} {now : Int} {c : Client U} (tracks : Tracks first c)
    (waits : ∀ d : Client U, Tracks first d → Tracks first (wait d)) :
    Tracks first (updateWith wait ssid refused outcome now c).2 := by
  simp only [updateWith]
  cases c.registrations.lookup ssid with
  | none => exact tracks
  | some reg =>
    cases c.connections.lookup ssid with
    | none => exact tracks
    | some conn =>
      have silent (request : CoapRequest) : (Entry.sent ssid .update request).Silent := trivial
      have sent (request : CoapRequest) := tracks_sendWith silent request refused outcome (tracks.setState .Updating) waits
      have through := sent { method := .Post, uriPath := reg.location, contentFormat := .LinkFormat }
      dsimp only
      generalize sendWith wait ssid .update _ refused outcome (c.setState .Updating) = ended at through ⊢
      obtain ⟨response,d⟩ := ended
      cases response with
      | error e => exact through.setState .Registered
      | ok r =>
        dsimp only
        split
        · exact (tracks_accepted through ssid now).setState .Registered
        · exact through.setState .Registered

/-- The objects after a request, once it is noted. -/
theorem Tracks.served {c : Client U} {request : CoapRequest} {objects : Objects U} (tracks : Tracks first c)
    (after : ServersAfter request c.objects objects) (response : CoapResponse) :
    Tracks first ({ c with objects := objects }.note (.served request response)) where
  inPlace := after.1
  instances ssid := by
    refine (after.2 ssid).trans ?_
    rw [tracks.instances, Option.map_map]
    rfl
  registered := tracks.registered
  explained := ⟨trivial,tracks.explained⟩

/-- A registration request: the server holds the lifetime that it carries. -/
theorem Tracks.sent {c : Client U} (tracks : Tracks first c) (ssid : UInt16) (lifetime : UInt32) (request : CoapRequest) :
    Tracks first (c.note (.sent ssid (.register lifetime) request)) where
  inPlace := tracks.inPlace
  instances := tracks.instances
  registered s member := by
    refine ⟨?_,(tracks.registered s member).2⟩
    simp only [Client.note, heldLifetime]
    split
    · rfl
    · exact (tracks.registered s member).1
  explained := ⟨trivial,tracks.explained⟩

/-- Opening a connection notes no more than the attempt. -/
theorem tracks_openConnection {c : Client U} (tracks : Tracks first c) (ssid : UInt16) (connect : Result Unit) :
    Tracks first (openConnection ssid connect c).2 := by
  simp only [openConnection]
  split
  · exact tracks
  · have noted (config : ConnectionConfig) := tracks.note (e := .connect ssid config) trivial
    cases connect with
    | error e => exact noted _
    | ok opened => exact (noted _).unseen rfl rfl (fun _ => id)

theorem tracks_storeRegistration {c : Client U} {ssid : UInt16} {lifetime : UInt32} (tracks : Tracks first c)
    (held : heldLifetime ssid c.log = some lifetime) (there : (serverInstance first ssid).isSome) (location : Bytes)
    (a : RegisterAnswer) : Tracks first (storeRegistration ssid location lifetime a c) := by
  let reg : Registration := ⟨location,ssid,a.registeredAt,a.now + seconds lifetime.toNat⟩
  have stored : Tracks first { c with registrations := set c.registrations ssid reg } := by
    refine ⟨tracks.inPlace,tracks.instances,?_,tracks.explained⟩
    intro s member
    rcases (mem_set _ _ _ _).mp member with rfl | before
    · exact ⟨by rw [held]; rfl,there⟩
    · exact tracks.registered s before
  have looked : (set c.registrations ssid reg).lookup ssid = some reg := (lookup_set _ _ _ _).trans (if_pos rfl)
  unfold storeRegistration noteAccepted
  dsimp only
  rw [looked]
  have explained : Explained first (.accepted ssid (.register lifetime) a.now reg.expiresAt) c.log := ⟨held,rfl⟩
  exact ((stored.accepted explained).setState _).note trivial

theorem tracks_checkConnectionHealth {c : Client U} (tracks : Tracks first c) (now lostAt : Int) :
    Tracks first (checkConnectionHealth now lostAt c) := by
  simp only [checkConnectionHealth]
  split
  · exact tracks
  · split
    · simp only [handleConnectionLost]
      split
      · exact tracks
      · next ssid _ _ =>
        have reconnecting : Tracks first { c with reconnecting := true } := tracks.unseen rfl rfl (fun _ => id)
        refine Tracks.note (Tracks.note ((reconnecting.setState .Error).unseen rfl rfl ?_) trivial) trivial
        intro s member
        exact (AList.mem_erase.mp member).2
    · exact tracks

section
variable [Object U]

/-- Answering a request, with the update it may trigger. -/
theorem tracks_serve {wait : UInt16 → Client U → Client U} {moments : Moments} {request : CoapRequest}
    {refused : Option Error} {outcome : Result CoapResponse} {now : Int} {c : Client U} (tracks : Tracks first c)
    (usual : Usual request) (waits : ∀ (target : UInt16) (d : Client U), Tracks first d → Tracks first (wait target d)) :
    Tracks first (serve wait moments request refused outcome now c) := by
  have after := handled_servers moments tracks.inPlace usual
  unfold serve
  dsimp only
  cases triggered : (handleIncomingRequest moments request c.objects).1.2 with
  | none => exact tracks.served after _
  | some target =>
    -- The update runs before the request is noted, which then writes no lifetime.
    have unwritten := handled_triggers triggered
    have handled : Tracks first { c with objects := (handleIncomingRequest moments request c.objects).2 } := by
      refine ⟨after.1,?_,tracks.registered,tracks.explained⟩
      intro ssid
      exact (after.unwritten unwritten ssid).trans (tracks.instances ssid)
    have updated : Tracks first (updateWith (wait target) target refused outcome now _).2 :=
      tracks_updateWith handled (waits target)
    exact updated.served (serversAfter_same updated.inPlace rfl unwritten) _

theorem tracks_deliver {events : Events} (usual : events.Usual) (ssid : UInt16) {c : Client U} (tracks : Tracks first c) :
    Tracks first (deliver events ssid c) := by
  induction events generalizing ssid c with
  | done => exact tracks
  | session up after ih =>
    rw [deliver]
    exact ih usual ssid (tracks.unseen rfl rfl (fun _ => id))
  | request moments request refused during outcome now after duringIh afterIh =>
    rw [deliver]
    obtain ⟨incoming,nested,later⟩ := usual
    exact afterIh later ssid (tracks_serve tracks incoming (fun target d => duringIh nested target))

/-- After the wait for the answer, the server still holds the lifetime of the request. -/
theorem tracks_attempt {c : Client U} (tracks : Tracks first c) (ssid : UInt16) {a : RegisterAnswer}
    (usual : a.during.Usual) (srv : ServerInstance) :
    Tracks first (attempt ssid a srv c).2 ∧ ((attempt ssid a srv c).1.isOk = true →
      heldLifetime ssid (attempt ssid a srv c).2.log = some srv.lifetime) := by
  have registering := tracks.setState .Registering
  simp only [attempt, Client.send, sendWith]
  split
  · cases a.refused with
    | some e => exact ⟨registering,fun ok => by cases ok⟩
    | none =>
      have sent := registering.sent ssid srv.lifetime ((c.setState .Registering).registrationRequest srv)
      refine ⟨tracks_deliver usual ssid sent,?_⟩
      intro _
      obtain ⟨new,log,passive⟩ := (waited_deliver a.during ssid ((c.setState .Registering).note
        (.sent ssid (.register srv.lifetime) ((c.setState .Registering).registrationRequest srv)))).log
      dsimp only
      rw [log, heldLifetime_append passive]
      exact if_pos rfl
  · exact ⟨registering,fun ok => by cases ok⟩

theorem tracks_outcome {c d : Client U} {ssid : UInt16} {a : RegisterAnswer} {result : Result Unit}
    (tracks : Tracks first c) (usual : a.during.Usual) (outcome : RegisterOutcome ssid a c result d) : Tracks first d := by
  have opening {result : Result Unit} {d : Client U} (opened : openConnection ssid a.connect c = (result,d)) :
      Tracks first d := by
    have same := tracks_openConnection tracks ssid a.connect
    rw [opened] at same
    exact same
  cases outcome with
  | missing e => exact tracks
  | unopened opened e => exact opening opened
  | failed found opened e => exact (tracks_attempt (opening opened) ssid usual _).1.setState .Error
  | accepted found opened answered success located =>
    obtain ⟨attempted,held⟩ := tracks_attempt (opening opened) ssid usual _
    refine tracks_storeRegistration attempted (held (by rw [answered]; rfl)) ?_ _ a
    have lifetime := tracks.found ssid
    rw [found] at lifetime
    rw [← Option.isSome_map, ← serverLifetime, ← lifetime]
    rfl

theorem tracks_register {c : Client U} (tracks : Tracks first c) (ssid : UInt16) {a : RegisterAnswer}
    (usual : a.during.Usual) : Tracks first (registerWithServer ssid a c).2 :=
  tracks_outcome tracks usual (registerWithServer_outcome ssid a c)

theorem tracks_deregister {c : Client U} (tracks : Tracks first c) (ssid : UInt16) {a : Answer} (usual : a.during.Usual) :
    Tracks first (deregister ssid a c).2 := by
  simp only [deregister]
  cases c.registrations.lookup ssid with
  | none => exact tracks
  | some reg =>
    have sent : Tracks first (sendDeregister ssid reg a c) := by
      simp only [sendDeregister]
      split
      · exact tracks
      · have silent (request : CoapRequest) : (Entry.sent ssid .deregister request).Silent := trivial
        exact tracks_sendWith silent _ a.refused a.outcome (tracks.setState .Deregistering)
          (fun _ => tracks_deliver usual ssid)
    dsimp only
    generalize sendDeregister ssid reg a c = d at sent ⊢
    have dropped : Tracks first { d with registrations := d.registrations.erase ssid } :=
      sent.unseen rfl rfl (fun s member => (AList.mem_erase.mp member).2)
    exact (dropped.note (e := .notified (.onDeregistered ssid)) trivial).setState _

theorem tracks_update {c : Client U} (tracks : Tracks first c) (ssid : UInt16) {a : Answer} (usual : a.during.Usual) :
    Tracks first (updateRegistration ssid a c).2 :=
  tracks_updateWith tracks (fun _ => tracks_deliver usual ssid)

theorem tracks_checkRegistrationUpdates {c : Client U} (tracks : Tracks first c) (now : Int) {answers : UInt16 → Answer}
    (usual : ∀ ssid, (answers ssid).during.Usual) : Tracks first (checkRegistrationUpdates now answers c) := by
  refine List.foldlRecOn _ _ tracks ?_
  intro d tracks ssid _
  unfold checkRegistrationUpdate
  split
  · dsimp only
    split
    · exact tracks_update tracks ssid (usual ssid)
    · exact tracks
  · exact tracks

theorem tracks_tryReconnect {c : Client U} (tracks : Tracks first c) (ssid : UInt16) {a : RegisterAnswer}
    (usual : a.during.Usual) (failedAt : Int) : Tracks first (tryReconnect ssid a failedAt c) := by
  simp only [tryReconnect]
  split
  · exact tracks.unseen rfl rfl (fun _ => id)
  · split
    · exact Tracks.note (tracks.unseen rfl rfl (fun _ => id)) trivial
    · have counted : Tracks first { c with reconnectAttempts := c.reconnectAttempts + 1 } :=
        tracks.unseen rfl rfl (fun _ => id)
      have announced := counted.note (e := .notified (.onReconnecting ssid (c.reconnectAttempts + 1))) trivial
      have began : Tracks first (c.beginAttempt ssid) := announced.unseen rfl rfl (fun _ => id)
      have registered := tracks_register began ssid usual
      simp only [reconnect]
      generalize registerWithServer ssid a (c.beginAttempt ssid) = ended at registered ⊢
      rcases ended with ⟨e | ⟨⟩,d⟩
      · exact registered.unseen rfl rfl (fun _ => id)
      · exact Tracks.note (registered.unseen rfl rfl (fun _ => id)) trivial

theorem tracks_poll {c : Client U} (tracks : Tracks first c) {answers : PollAnswers} (usual : (Action.poll answers).Usual) :
    Tracks first (poll answers c) := by
  obtain ⟨during,updates,register⟩ := usual
  have polled : Tracks first (pollConnections answers.during c) :=
    List.foldlRecOn _ _ tracks (fun d tracks ssid _ => tracks_deliver (during ssid) ssid tracks)
  have updated := tracks_checkRegistrationUpdates polled answers.updatesAt updates
  have health := tracks_checkConnectionHealth updated answers.healthAt answers.lostAt
  unfold poll
  dsimp only
  split
  · exact tracks_tryReconnect health _ register answers.failedAt
  · exact health

theorem tracks_stop {c : Client U} (tracks : Tracks first c) (onEventThread : Bool) {answers : UInt16 → Answer}
    (usual : ∀ ssid, (answers ssid).during.Usual) : Tracks first (stop onEventThread answers c) := by
  have ended : Tracks first { c with running := false } := tracks.unseen rfl rfl (fun _ => id)
  unfold stop
  cases onEventThread with
  | true => exact ended
  | false =>
    have deregistered : Tracks first (c.registrations.keys.foldl (fun c ssid => (deregister ssid (answers ssid) c).2) _) :=
      List.foldlRecOn _ _ ended (fun d tracks ssid _ => tracks_deregister tracks ssid (usual ssid))
    dsimp only
    generalize List.foldl _ _ _ = d at deregistered ⊢
    have emptied : Tracks first { d with connections := ∅, registrations := ∅ } :=
      deregistered.unseen rfl rfl (fun s member => absurd member (AList.notMem_empty s))
    exact emptied.setState .Idle

theorem tracks_perform {c : Client U} (tracks : Tracks first c) {action : Action} (usual : action.Usual) :
    Tracks first (c.perform action) := by
  have noted : Tracks first (c.note (.called action.call)) := tracks.note trivial
  cases action with
  | register ssid a => exact tracks_register noted ssid usual
  | update ssid a => exact tracks_update noted ssid usual
  | deregister ssid a => exact tracks_deregister noted ssid usual
  | start =>
    show Tracks first (start (c.note (.called .start))).2
    simp only [start]
    split
    · exact noted
    · have running : Tracks first { c.note (.called .start) with running := true } := noted.unseen rfl rfl (fun _ => id)
      exact running.setState .Idle
  | stop onEventThread answers => exact tracks_stop noted onEventThread usual
  | poll answers => exact tracks_poll noted usual

/-- A step whose requests are of the usual kind. -/
def UsualStep (_ : Client U) (action : Action) : Prop := action.Usual

theorem tracks_step (c : Client U) (action : Action) (d : Client U) (tracks : Tracks first c)
    (stepped : Guarded UsualStep Step c action d) : Tracks first d := by
  obtain ⟨usual,between,⟨connections,registrations,rest⟩,rfl⟩ := stepped
  refine tracks_perform ?_ usual
  rw [rest]
  exact tracks.unseen rfl rfl (fun s => (AList.mem_of_perm registrations).mp)

/-- In every run, client and server agree on every expiry exactly if every accepted
    update finds the lifetime of the Server instance no longer than the one that the
    last registration carried. -/
theorem agrees_iff {c d : Client U} {actions : List Action} (fresh : c.Fresh) (inPlace : ServerInPlace c.objects)
    (run : Run (Guarded UsualStep Step) c actions d) :
    Agrees d.log ↔ Throughout (Followed c.objects.server.store.instances) d.log := by
  have start : Tracks c.objects.server.store.instances c := by
    refine ⟨inPlace,?_,?_,?_⟩
    · intro ssid
      rw [fresh.log]
      exact Option.map_id'.symm
    · intro s member
      rw [fresh.registrations] at member
      exact absurd member (AList.notMem_empty s)
    · rw [fresh.log]
      trivial
  exact throughout_congr agreed_iff (run.keeps tracks_step start).explained

end

/-- `PUT /1/0/1` with 120 seconds. -/
def writeTwoMinutes : CoapRequest :=
  { method := .Put, uriPath := lit ['/','1','/','0','/','1'], payload := [0xC1, 0x01, 0x78] }

/-- A registration for a minute, a write of two minutes, and an update. -/
def raisedRun : List Action :=
  [.register 1 created,
    .poll { during := fun _ => .request (fun _ => {}) writeTwoMinutes none .done (err .Timeout "Request timeout") 0 .done },
    .update 1 { outcome := .ok { code := some .Changed } }]

theorem sampleClient_inPlace : ServerInPlace sampleClient.objects := serverInPlace_table rfl

theorem raisedRun_usual : Run (Guarded UsualStep Step) sampleClient raisedRun (raisedRun.foldl perform sampleClient) := by
  have usual : Usual writeTwoMinutes := by
    intro path parsed _
    have named : ObjectPath.parse writeTwoMinutes.uriPath = some ⟨1,some 0,some 1,none⟩ := by decide +kernel
    exact ⟨0,.inl ⟨rfl,named⟩⟩
  refine .cons ⟨trivial,step_perform _ _⟩ (.cons ⟨?_,step_perform _ _⟩ (.cons ⟨trivial,step_perform _ _⟩ (.nil _)))
  exact ⟨fun _ => ⟨usual,trivial,trivial⟩,fun _ => trivial,trivial⟩

theorem agrees_raised : Agrees (raisedRun.foldl perform sampleClient).log ↔
    Throughout (Followed sampleClient.objects.server.store.instances) (raisedRun.foldl perform sampleClient).log :=
  agrees_iff sampleClient_fresh sampleClient_inPlace raisedRun_usual

/-- The client counts two minutes from the update, the server one. -/
theorem raised_lifetime_disagrees :
    sampleClient.Fresh ∧ Run (Guarded UsualStep Step) sampleClient raisedRun (raisedRun.foldl perform sampleClient) ∧
      ¬ Agrees (raisedRun.foldl perform sampleClient).log :=
  ⟨sampleClient_fresh,raisedRun_usual,by decide +kernel⟩

end Client

end Ferriot
