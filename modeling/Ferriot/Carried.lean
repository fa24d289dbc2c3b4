import Ferriot.ClientWaits

/-!
# What every call keeps

The calls of the client are made of a few changes to its objects and registrations:
requests of servers are served, registrations are stored, renewed and dropped. What
each of these changes keeps, every call keeps, whatever is delivered while it waits.
-/
namespace Ferriot
open Tables Requests

/-- Of what is delivered, every request is of the kind, and every update is accepted at such a time. -/
def Events.Through (Serves : CoapRequest → Prop) (At : Int → Prop) : Events → Prop
  | .done => True
  | .session _ after => after.Through Serves At
  | .request _ incoming _ during _ now after =>
    Serves incoming ∧ At now ∧ during.Through Serves At ∧ after.Through Serves At

def Answer.Through (Serves : CoapRequest → Prop) (At : Int → Prop) (a : Answer) : Prop :=
  a.during.Through Serves At ∧ At a.now

namespace Client
variable {U : Type} [Object U]

/-- A property of the objects and registrations of a client that each change keeps. -/
structure Carried (Serves : CoapRequest → Prop) (At : Int → Prop) (P : Client U → Prop) : Prop where
  /-- Registrations may be dropped, and all else may change. -/
  frame : ∀ c d : Client U, P c → d.config = c.config → d.objects = c.objects →
    (∀ s reg, d.registrations.lookup s = some reg → c.registrations.lookup s = some reg) → P d
  serve : ∀ (moments : Moments) (request : CoapRequest) (c : Client U), Serves request → P c →
    P { c with objects := (handleIncomingRequest moments request c.objects).2 }
  renew : ∀ (c : Client U) (ssid : UInt16) (now : Int), At now → P c → P (c.renew ssid now)
  /-- The lifetime is that of the Server instance before the request of the registration. -/
  store : ∀ (c d : Client U) (ssid : UInt16) (srv : ServerInstance) (location : Bytes) (registeredAt now : Int),
    c.objects.server.findByShortServerId ssid = some srv → P c → At now → P d →
    P { d with
      registrations := set d.registrations ssid ⟨location,ssid,registeredAt,now + seconds srv.lifetime.toNat⟩ }

variable {Serves : CoapRequest → Prop} {At : Int → Prop} {P : Client U → Prop}

section
variable (carried : Carried Serves At P)
include carried

theorem Carried.note {c : Client U} (holds : P c) (e : Entry) : P (c.note e) :=
  carried.frame c _ holds rfl rfl (fun _ _ => id)

theorem Carried.setState {c : Client U} (holds : P c) (new : ClientState) : P (c.setState new) := by
  unfold Client.setState
  split
  · exact holds
  · exact carried.frame c _ holds rfl rfl (fun _ _ => id)

theorem Carried.erased {c d : Client U} {ssid : UInt16} (holds : P c) (config : d.config = c.config) (objects : d.objects = c.objects)
    (registrations : d.registrations = c.registrations.erase ssid) : P d := by
  refine carried.frame c d holds config objects ?_
  intro s reg found
  rw [registrations] at found
  by_cases same : s = ssid
  · subst same
    cases (AList.lookup_erase s c.registrations).symm.trans found
  · exact (AList.lookup_erase_ne same).symm.trans found

theorem Carried.noteAccepted {c : Client U} (holds : P c) (ssid : UInt16) (operation : Operation) (now : Int) :
    P (c.noteAccepted ssid operation now) := by
  unfold Client.noteAccepted
  split
  · exact carried.note holds _
  · exact holds

theorem Carried.sendWith {wait : Client U → Client U} {c : Client U} (holds : P c) (waits : ∀ d, P d → P (wait d))
    (ssid : UInt16) (operation : Operation) (request : CoapRequest) (refused : Option Error) (outcome : Result CoapResponse) :
    P (sendWith wait ssid operation request refused outcome c).2 := by
  unfold Client.sendWith
  split
  · cases refused with
    | some e => exact holds
    | none => exact waits _ (carried.note holds _)
  · exact holds

theorem Carried.updateWith {wait : Client U → Client U} {c : Client U} (holds : P c) (waits : ∀ d, P d → P (wait d))
    (ssid : UInt16) (refused : Option Error) (outcome : Result CoapResponse) {now : Int} (time : At now) :
    P (updateWith wait ssid refused outcome now c).2 := by
  simp only [Client.updateWith]
  cases c.registrations.lookup ssid with
  | none => exact holds
  | some reg =>
    cases c.connections.lookup ssid with
    | none => exact holds
    | some conn =>
      have sent := carried.sendWith (carried.setState holds .Updating) waits ssid .update
        { method := .Post, uriPath := reg.location, contentFormat := .LinkFormat } refused outcome
      dsimp only
      generalize Client.sendWith wait ssid .update _ refused outcome (c.setState .Updating) = ended at sent ⊢
      obtain ⟨response,d⟩ := ended
      cases response with
      | error e => exact carried.setState sent .Registered
      | ok r =>
        dsimp only
        split
        · exact carried.setState (carried.noteAccepted (carried.renew d ssid now time sent) ssid .update now) .Registered
        · exact carried.setState sent .Registered

theorem Carried.deliver {events : Events} (through : events.Through Serves At) (ssid : UInt16) {c : Client U} (holds : P c) :
    P (deliver events ssid c) := by
  induction events generalizing ssid c with
  | done => exact holds
  | session up after ih =>
    rw [Client.deliver]
    exact ih through ssid (carried.frame c _ holds rfl rfl (fun _ _ => id))
  | request moments request refused during outcome now after duringIh afterIh =>
    obtain ⟨serves,time,nested,later⟩ := through
    rw [Client.deliver]
    refine afterIh later ssid ?_
    have served := carried.serve moments request c serves holds
    simp only [Client.serve]
    split
    · next target _ =>
      exact carried.note (carried.updateWith served (fun d => duringIh nested target) target refused outcome time) _
    · exact carried.note served _

theorem Carried.send {a : Answer} (through : a.during.Through Serves At) (ssid : UInt16) (operation : Operation)
    (request : CoapRequest) {c : Client U} (holds : P c) : P (send ssid operation request a c).2 :=
  carried.sendWith holds (fun _ => carried.deliver through ssid) ssid operation request a.refused a.outcome

theorem Carried.update {a : Answer} (through : a.Through Serves At) (ssid : UInt16) {c : Client U} (holds : P c) :
    P (updateRegistration ssid a c).2 :=
  carried.updateWith holds (fun _ => carried.deliver through.1 ssid) ssid a.refused a.outcome through.2

/-- Opening a connection notes no more than the attempt. -/
theorem Carried.opened {ssid : UInt16} {connect : Result Unit} {c d : Client U} {result : Result Unit} (holds : P c)
    (opened : openConnection ssid connect c = (result,d)) : P d := by
  obtain ⟨connections,new,same,-,-⟩ := openConnection_cases ssid connect c
  rw [opened] at same
  cases same
  exact carried.frame c _ holds rfl rfl (fun _ _ => id)

theorem Carried.register {a : RegisterAnswer} (through : a.toAnswer.Through Serves At) (ssid : UInt16) {c : Client U}
    (holds : P c) : P (registerWithServer ssid a c).2 := by
  have outcome := registerWithServer_outcome ssid a c
  have attempted (srv : ServerInstance) {d : Client U} (before : P d) : P (attempt ssid a srv d).2 :=
    carried.send through.1 ssid _ _ (carried.setState before .Registering)
  generalize (registerWithServer ssid a c).1 = result at outcome
  generalize (registerWithServer ssid a c).2 = d at outcome ⊢
  cases outcome with
  | missing e => exact holds
  | unopened opened e => exact carried.opened holds opened
  | failed found opened e => exact carried.setState (attempted _ (carried.opened holds opened)) .Error
  | @accepted srv _ r found opened answered success located =>
    have stored := carried.store c _ ssid srv r.getLocationPath a.registeredAt a.now found holds through.2
      (attempted srv (carried.opened holds opened))
    exact carried.note (carried.setState (carried.noteAccepted stored ssid _ _) .Registered) _

theorem Carried.deregister {a : Answer} (through : a.during.Through Serves At) (ssid : UInt16) {c : Client U} (holds : P c) :
    P (deregister ssid a c).2 := by
  simp only [Client.deregister]
  cases c.registrations.lookup ssid with
  | none => exact holds
  | some reg =>
    have sent : P (sendDeregister ssid reg a c) := by
      simp only [sendDeregister]
      split
      · exact holds
      · exact carried.send through ssid _ _ (carried.setState holds .Deregistering)
    dsimp only
    generalize sendDeregister ssid reg a c = d at sent ⊢
    have dropped : P { d with registrations := d.registrations.erase ssid } := carried.erased sent rfl rfl rfl
    exact carried.setState (carried.note dropped _) _

theorem Carried.start {c : Client U} (holds : P c) : P (start c).2 := by
  simp only [Client.start]
  split
  · exact holds
  · have running : P { c with running := true } := carried.frame c _ holds rfl rfl (fun _ _ => id)
    exact carried.setState running .Idle

theorem Carried.stop {answers : UInt16 → Answer} (through : ∀ ssid, (answers ssid).during.Through Serves At)
    (onEventThread : Bool) {c : Client U} (holds : P c) : P (stop onEventThread answers c) := by
  have ended : P { c with running := false } := carried.frame c _ holds rfl rfl (fun _ _ => id)
  unfold Client.stop
  cases onEventThread with
  | true => exact ended
  | false =>
    have deregistered : P (c.registrations.keys.foldl (fun c ssid => (Client.deregister ssid (answers ssid) c).2) _) :=
      List.foldlRecOn _ _ ended (fun _ before ssid _ => carried.deregister (through ssid) ssid before)
    dsimp only
    generalize List.foldl _ _ _ = d at deregistered ⊢
    have emptied : P { d with connections := ∅, registrations := ∅ } := by
      refine carried.frame d _ deregistered rfl rfl ?_
      rintro s reg ⟨⟩
    exact carried.setState emptied .Idle

theorem Carried.pollConnections {during : UInt16 → Events} (through : ∀ ssid, (during ssid).Through Serves At) {c : Client U}
    (holds : P c) : P (pollConnections during c) :=
  List.foldlRecOn _ _ holds (fun _ before ssid _ => carried.deliver (through ssid) ssid before)

theorem Carried.checkConnectionHealth (now lostAt : Int) {c : Client U} (holds : P c) :
    P (checkConnectionHealth now lostAt c) := by
  simp only [Client.checkConnectionHealth]
  split
  · exact holds
  · split
    · next ssid _ =>
      simp only [handleConnectionLost]
      split
      · exact holds
      · have reconnecting : P { c with reconnecting := true } := carried.frame c _ holds rfl rfl (fun _ _ => id)
        exact carried.erased (carried.setState reconnecting .Error) rfl rfl rfl
    · exact holds

theorem Carried.tryReconnect {a : RegisterAnswer} (through : a.toAnswer.Through Serves At) (ssid : UInt16) (failedAt : Int)
    {c : Client U} (holds : P c) : P (tryReconnect ssid a failedAt c) := by
  simp only [Client.tryReconnect]
  split
  · exact carried.frame c _ holds rfl rfl (fun _ _ => id)
  · split
    · exact carried.frame c _ holds rfl rfl (fun _ _ => id)
    · have began : P (c.beginAttempt ssid) := carried.frame c _ holds rfl rfl (fun _ _ => id)
      have registered := carried.register through ssid began
      simp only [reconnect]
      generalize registerWithServer ssid a (c.beginAttempt ssid) = ended at registered ⊢
      rcases ended with ⟨e | ⟨⟩,d⟩
      · exact carried.frame d _ registered rfl rfl (fun _ _ => id)
      · exact carried.frame d _ registered rfl rfl (fun _ _ => id)

theorem Carried.reordered {c d : Client U} (reordered : Reordered c d) (holds : P c) : P d := by
  obtain ⟨-,registrations,rest⟩ := reordered
  rw [rest]
  refine carried.frame c _ holds rfl rfl ?_
  intro s reg found
  exact (AList.perm_lookup registrations).symm.trans found

end

end Client

end Ferriot
