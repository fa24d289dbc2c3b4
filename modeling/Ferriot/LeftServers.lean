import Ferriot.ClientWaits

/-!
# Servers that the user has left

A registration request goes out in a call of `register_with_server`, or in a poll
that reconnects. Reconnection remembers a server id that `deregister` and `stop` do
not clear, and `deregister` leaves the connection open, so the client may go back
to a server that the user has left.
-/
namespace Ferriot
open Tables Requests Runs

/-- The user has called `register_with_server` for the server, and neither
    `deregister` for it nor `stop` since. The log is latest first. -/
def Wanted (ssid : UInt16) : List Entry → Prop
  | [] => False
  | .called (.register s) :: older => s = ssid ∨ Wanted ssid older
  | .called (.deregister s) :: older => s ≠ ssid ∧ Wanted ssid older
  | .called .stop :: _ => False
  | _ :: older => Wanted ssid older

/-- A registration request is one for a server that the user wants. -/
def Justified : Entry → List Entry → Prop
  | .sent ssid (.register _) _, older => Wanted ssid older
  | _, _ => True

instance decidableWanted (ssid : UInt16) : (log : List Entry) → Decidable (Wanted ssid log)
  | [] => .isFalse id
  | .called (.register s) :: older =>
    haveI := decidableWanted ssid older
    inferInstanceAs (Decidable (s = ssid ∨ Wanted ssid older))
  | .called (.deregister s) :: older =>
    haveI := decidableWanted ssid older
    inferInstanceAs (Decidable (s ≠ ssid ∧ Wanted ssid older))
  | .called .stop :: _ => .isFalse id
  | .called (.update _) :: older | .called .start :: older | .called .poll :: older | .connect _ _ :: older
  | .sent _ _ _ :: older | .accepted _ _ _ _ :: older | .served _ _ :: older | .notified _ :: older =>
    decidableWanted ssid older

instance : (e : Entry) → (older : List Entry) → Decidable (Justified e older)
  | .sent ssid (.register _) _, older => inferInstanceAs (Decidable (Wanted ssid older))
  | .sent _ .update _, _ | .sent _ .deregister _, _ | .called _, _ | .connect _ _, _ | .accepted _ _ _ _, _
  | .served _ _, _ | .notified _, _ => .isTrue trivial

/-- A server the user left stays left: every registration request in the log is justified. -/
def StaysLeft (log : List Entry) : Prop := Throughout Justified log

instance (log : List Entry) : Decidable (StaysLeft log) := inferInstanceAs (Decidable (Throughout Justified log))

namespace Client
variable {U : Type}

/-- What keeps a call from bringing back a server that the user leaves or has left:
    no `deregister` of the server that is being reconnected and no `stop` during a
    reconnection; no `stop` on the event thread, which keeps them, with registrations;
    and no poll that finds the connection of a server that has been left down. -/
def Allowed (c : Client U) : Action → Prop
  | .deregister ssid _ => ¬ (c.reconnecting = true ∧ c.reconnectSsid = ssid)
  | .stop onEventThread _ => c.reconnecting = false ∧ (onEventThread = true → c.registrations = ∅)
  | .poll answers => ∀ ssid, ¬ Wanted ssid c.log → c.Up ssid ∧ ¬ (answers.during ssid).Loses
  | _ => True

/-- What a run maintains: the log is justified, and the user wants every server that
    is registered or being reconnected. -/
structure Left (c : Client U) : Prop where
  justified : Throughout Justified c.log
  registered : ∀ ssid ∈ c.registrations, Wanted ssid c.log
  reconnecting : c.reconnecting = true → Wanted c.reconnectSsid c.log

theorem wanted_append {new old : List Entry} (passive : ∀ e ∈ new, e.Passive) (ssid : UInt16) :
    Wanted ssid (new ++ old) ↔ Wanted ssid old := by
  induction new with
  | nil => exact Iff.rfl
  | cons e new ih =>
    rw [← ih (fun x member => passive x (List.mem_cons_of_mem _ member))]
    cases e with
    | called call => exact (passive _ List.mem_cons_self).elim
    | _ => exact Iff.rfl

theorem justified_passive {e : Entry} (passive : e.Passive) (older : List Entry) : Justified e older := by
  cases e with
  | sent ssid operation request =>
    cases operation with
    | register lifetime => exact passive.elim
    | update => trivial
    | deregister => trivial
  | _ => trivial

theorem Grown.wanted {c d : Client U} (grown : Grown c d) (ssid : UInt16) : Wanted ssid d.log ↔ Wanted ssid c.log := by
  obtain ⟨new,log,passive⟩ := grown
  rw [log, wanted_append passive]

theorem Grown.justified {c d : Client U} (grown : Grown c d) (justified : Throughout Justified c.log) :
    Throughout Justified d.log := by
  obtain ⟨new,log,passive⟩ := grown
  rw [log]
  exact throughout_append (fun e member older => justified_passive (passive e member) older) justified

/-- A change that adds nothing but passive entries, registers no server and starts no reconnection. -/
theorem Left.grown {c d : Client U} (left : Left c) (registrations : ∀ s ∈ d.registrations, s ∈ c.registrations)
    (reconnecting : d.reconnecting = true → c.reconnecting = true ∧ d.reconnectSsid = c.reconnectSsid)
    (grown : Grown c d) : Left d := by
  refine ⟨grown.justified left.justified,?_,?_⟩
  · intro s member
    exact (grown.wanted s).mpr (left.registered s (registrations s member))
  · intro again
    obtain ⟨before,same⟩ := reconnecting again
    rw [grown.wanted, same]
    exact left.reconnecting before

theorem Left.waited {c d : Client U} (left : Left c) (waited : Waited (fun _ => True) c d) : Left d := by
  obtain ⟨-,reconnecting,-,ssid,-⟩ := control_eq waited.control
  exact left.grown (fun s => (waited.registrations s).mp) (fun again => ⟨reconnecting ▸ again,ssid⟩) waited.log

theorem Left.note {c : Client U} {e : Entry} (left : Left c) (passive : e.Passive) : Left (c.note e) :=
  left.waited (waited_note passive)

theorem Left.setState {c : Client U} (left : Left c) (new : ClientState) : Left (c.setState new) :=
  left.waited (waited_setState c new)

/-- A registration request for a server that the user wants. -/
theorem Left.sent {c : Client U} {ssid : UInt16} (left : Left c) (wanted : Wanted ssid c.log) (lifetime : UInt32)
    (request : CoapRequest) : Left (c.note (.sent ssid (.register lifetime) request)) :=
  ⟨⟨wanted,left.justified⟩,left.registered,left.reconnecting⟩

theorem left_storeRegistration {c : Client U} {ssid : UInt16} (left : Left c) (wanted : Wanted ssid c.log)
    (location : Bytes) (lifetime : UInt32) (a : RegisterAnswer) : Left (storeRegistration ssid location lifetime a c) := by
  unfold storeRegistration
  dsimp only
  refine ((Left.waited ?_ (waited_noteAccepted _ ssid _ a.now)).setState _).note trivial
  refine ⟨left.justified,?_,left.reconnecting⟩
  intro s member
  rcases (mem_set _ _ _ _).mp member with same | before
  · exact same ▸ wanted
  · exact left.registered s before

/-- Without a reconnection under way nothing has to be wanted for it. -/
theorem Left.giveUp {c : Client U} (left : Left c) (attempts : UInt16) :
    Left { c with reconnecting := false, reconnectAttempts := attempts } :=
  ⟨left.justified,left.registered,fun again => by cases again⟩

/-- A server that is found lost is registered, or its connection is down. -/
theorem lostConnection_wanted {c : Client U} {now : Int} {ssid : UInt16} (left : Left c)
    (up : ∀ s, ¬ Wanted s c.log → c.Up s) (lost : c.lostConnection now = some ssid) : Wanted ssid c.log := by
  simp only [lostConnection] at lost
  cases expired : findEntry c.registrations (fun reg => reg.expiresAt < now) with
  | some e =>
    rw [expired] at lost
    cases lost
    have found := (findEntry_some expired).1
    exact left.registered _ (AList.lookup_isSome.mp (by rw [found]; rfl))
  | none =>
    rw [expired] at lost
    obtain ⟨⟨s,conn⟩,down,rfl⟩ := Option.map_eq_some_iff.mp lost
    obtain ⟨found,test⟩ := findEntry_some down
    by_contra unwanted
    have connected := up s unwanted conn found
    simp [connected] at test

/-- The reconnection that a loss starts is to a server that the user wants. -/
theorem left_handleConnectionLost {c : Client U} {ssid : UInt16} (left : Left c) (wanted : Wanted ssid c.log) (now : Int) :
    Left (handleConnectionLost ssid now c) := by
  simp only [handleConnectionLost]
  split
  · exact left
  · have errored : Waited (fun _ => True) { c with reconnecting := true }
        ({ c with reconnecting := true }.setState .Error) := waited_setState _ .Error
    refine Left.note (Left.note ⟨errored.log.justified left.justified,?_,?_⟩ trivial) trivial
    · intro s member
      have registered := (errored.registrations s).mp (AList.mem_erase.mp member).2
      exact (errored.log.wanted s).mpr (left.registered s registered)
    · intro _
      exact (errored.log.wanted ssid).mpr wanted

theorem left_checkConnectionHealth {c : Client U} (left : Left c) (up : ∀ s, ¬ Wanted s c.log → c.Up s)
    (now lostAt : Int) : Left (checkConnectionHealth now lostAt c) := by
  simp only [checkConnectionHealth]
  split
  · exact left
  · split
    · next lost => exact left_handleConnectionLost left (lostConnection_wanted left up lost) lostAt
    · exact left

/-- Nothing is registered or being reconnected, as `stop` wants it. -/
theorem left_idle {c : Client U} (justified : Throughout Justified c.log) (registrations : ∀ s, s ∉ c.registrations)
    (reconnecting : c.reconnecting = false) : Left c :=
  ⟨justified,fun s member => absurd member (registrations s),fun again => by rw [reconnecting] at again; cases again⟩

theorem left_start {c : Client U} (left : Left c) : Left (start c).2 := by
  simp only [start]
  split
  · exact left
  · exact Left.setState (c := { c with running := true }) ⟨left.justified,left.registered,left.reconnecting⟩ .Idle

theorem Reordered.allowed {c d : Client U} (reordered : Reordered c d) {action : Action} (allowed : c.Allowed action) :
    d.Allowed action := by
  obtain ⟨connections,registrations,rest⟩ := reordered
  rw [rest]
  cases action with
  | stop onEventThread answers =>
    refine ⟨allowed.1,?_⟩
    intro event
    have empty := allowed.2 event
    rw [empty] at registrations
    exact AList.ext registrations.eq_nil
  | poll answers =>
    intro ssid unwanted
    obtain ⟨up,kept⟩ := allowed ssid unwanted
    exact ⟨fun conn found => up conn ((AList.perm_lookup connections).symm.trans found),kept⟩
  | _ => exact allowed

theorem Reordered.left {c d : Client U} (reordered : Reordered c d) (left : Left c) : Left d := by
  obtain ⟨connections,registrations,rest⟩ := reordered
  rw [rest]
  exact ⟨left.justified,fun s member => left.registered s ((AList.mem_of_perm registrations).mp member),left.reconnecting⟩

section
variable [Object U]

theorem left_attempt {c : Client U} {ssid : UInt16} (left : Left c) (wanted : Wanted ssid c.log) (a : RegisterAnswer)
    (srv : ServerInstance) : Left (attempt ssid a srv c).2 ∧ Wanted ssid (attempt ssid a srv c).2.log := by
  have registering : Waited (fun _ => True) c (c.setState .Registering) := waited_setState c .Registering
  have wanted' := (registering.log.wanted ssid).mpr wanted
  have left' := left.waited registering
  simp only [attempt, Client.send, sendWith]
  split
  · cases a.refused with
    | some e => exact ⟨left',wanted'⟩
    | none =>
      have delivered := (waited_deliver a.during ssid ((c.setState .Registering).note
        (.sent ssid (.register srv.lifetime) ((c.setState .Registering).registrationRequest srv)))).forget
      exact ⟨(left'.sent wanted' _ _).waited delivered,(delivered.log.wanted ssid).mpr wanted'⟩
  · exact ⟨left',wanted'⟩

theorem left_outcome {c d : Client U} {ssid : UInt16} {a : RegisterAnswer} {result : Result Unit} (left : Left c)
    (wanted : Wanted ssid c.log) (outcome : RegisterOutcome ssid a c result d) : Left d := by
  have opening {result : Result Unit} {d : Client U} (opened : openConnection ssid a.connect c = (result,d)) :
      Left d ∧ Wanted ssid d.log := by
    obtain ⟨connections,new,same,connects,-⟩ := openConnection_cases ssid a.connect c
    rw [opened] at same
    have passive : ∀ e ∈ new, e.Passive := by
      intro e member
      obtain ⟨config,rfl⟩ := connects e member
      trivial
    cases same
    exact ⟨left.grown (fun _ => id) (fun again => ⟨again,rfl⟩) ⟨new,rfl,passive⟩,(wanted_append passive ssid).mpr wanted⟩
  cases outcome with
  | missing e => exact left
  | unopened opened e => exact (opening opened).1
  | failed found opened e => exact (left_attempt (opening opened).1 (opening opened).2 a _).1.setState .Error
  | accepted found opened answered success located =>
    obtain ⟨left',wanted'⟩ := left_attempt (opening opened).1 (opening opened).2 a _
    exact left_storeRegistration left' wanted' _ _ a

/-- A registration asks a server that the user wants, and registers no other. -/
theorem left_register {c : Client U} {ssid : UInt16} (left : Left c) (wanted : Wanted ssid c.log) (a : RegisterAnswer) :
    Left (registerWithServer ssid a c).2 := left_outcome left wanted (registerWithServer_outcome ssid a c)

theorem left_tryReconnect {c : Client U} {ssid : UInt16} (left : Left c) (wanted : Wanted ssid c.log)
    (a : RegisterAnswer) (failedAt : Int) : Left (tryReconnect ssid a failedAt c) := by
  simp only [tryReconnect]
  split
  · exact left.giveUp c.reconnectAttempts
  · split
    · exact (left.giveUp c.reconnectAttempts).note trivial
    · have counted : Left { c with reconnectAttempts := c.reconnectAttempts + 1 } :=
        ⟨left.justified,left.registered,left.reconnecting⟩
      have announced := counted.note (e := .notified (.onReconnecting ssid (c.reconnectAttempts + 1))) trivial
      have began : Left (c.beginAttempt ssid) := ⟨announced.justified,announced.registered,announced.reconnecting⟩
      have registered := left_register began wanted a
      simp only [reconnect]
      generalize registerWithServer ssid a (c.beginAttempt ssid) = ended at registered ⊢
      rcases ended with ⟨e | ⟨⟩,d⟩
      · exact ⟨registered.justified,registered.registered,registered.reconnecting⟩
      · exact (registered.giveUp 0).note trivial

theorem left_poll {c : Client U} (left : Left c) (answers : PollAnswers)
    (up : ∀ s, ¬ Wanted s c.log → c.Up s ∧ ¬ (answers.during s).Loses) : Left (poll answers c) := by
  have polled := waited_pollConnections answers.during c
  have updated := polled.trans (waited_checkRegistrationUpdates answers.updatesAt answers.updates _)
  have health := left_checkConnectionHealth (left.waited updated.forget) (fun s unwanted => ?_)
    answers.healthAt answers.lostAt
  · unfold poll
    dsimp only
    generalize checkConnectionHealth _ _ _ = checked at health ⊢
    split
    · next due => exact left_tryReconnect health (health.reconnecting due.1) answers.register answers.failedAt
    · exact health
  · rw [updated.forget.log.wanted] at unwanted
    obtain ⟨connected,kept⟩ := up s unwanted
    exact updated.up s kept (fun registered => unwanted (left.registered s registered)) connected

/-- What `stop` does before it clears the tables. -/
theorem stop_cases (answers : UInt16 → Answer) (ssids : List UInt16) (c : Client U) :
    (ssids.foldl (fun c ssid => (deregister ssid (answers ssid) c).2) c).control = c.control ∧
      Grown c (ssids.foldl (fun c ssid => (deregister ssid (answers ssid) c).2) c) := by
  refine List.foldlRecOn (motive := fun d : Client U => d.control = c.control ∧ Grown c d) ssids _ ⟨rfl,.same rfl⟩ ?_
  rintro d ⟨control,grown⟩ ssid -
  obtain ⟨-,control',grown'⟩ := deregister_cases ssid (answers ssid) d
  exact ⟨control'.trans control,grown.trans grown'⟩

theorem left_stop {c : Client U} (justified : Throughout Justified c.log) (onEventThread : Bool)
    (answers : UInt16 → Answer) (quiet : c.reconnecting = false)
    (empty : onEventThread = true → ∀ s, s ∉ c.registrations) : Left (stop onEventThread answers c) := by
  simp only [stop]
  cases onEventThread with
  | true => exact left_idle justified (empty rfl) quiet
  | false =>
    obtain ⟨control,grown⟩ := stop_cases answers c.registrations.keys { c with running := false }
    obtain ⟨-,reconnecting,-⟩ := control_eq control
    refine Left.setState (left_idle ?_ (fun s => AList.notMem_empty s) ?_) .Idle
    · exact grown.justified justified
    · exact reconnecting.trans quiet

theorem left_deregister {c : Client U} {ssid : UInt16} (justified : Throughout Justified c.log)
    (registered : ∀ s ∈ c.registrations, s ≠ ssid → Wanted s c.log)
    (reconnecting : c.reconnecting = true → Wanted c.reconnectSsid c.log) (a : Answer) :
    Left (deregister ssid a c).2 := by
  obtain ⟨registrations,control,grown⟩ := deregister_cases ssid a c
  obtain ⟨-,same,-,same',-⟩ := control_eq control
  refine ⟨grown.justified justified,?_,?_⟩
  · intro s member
    obtain ⟨member,other⟩ := (registrations s).mp member
    exact (grown.wanted s).mpr (registered s member other)
  · intro again
    rw [grown.wanted, same']
    exact reconnecting (same ▸ again)

/-- What an allowed call keeps. -/
theorem left_perform {c : Client U} (left : Left c) {action : Action} (allowed : c.Allowed action) :
    Left (c.perform action) := by
  have justified : Throughout Justified (c.note (.called action.call)).log := ⟨trivial,left.justified⟩
  cases action with
  | register ssid a =>
    have noted : Left (c.note (.called (.register ssid))) :=
      ⟨justified,fun s member => .inr (left.registered s member),fun again => .inr (left.reconnecting again)⟩
    exact left_register noted (.inl rfl) a
  | update ssid a =>
    have noted : Left (c.note (.called (.update ssid))) := ⟨justified,left.registered,left.reconnecting⟩
    exact noted.waited (waited_updateRegistration ssid a _)
  | deregister ssid a =>
    exact left_deregister justified (fun s member other => ⟨Ne.symm other,left.registered s member⟩)
      (fun again => ⟨fun same => allowed ⟨again,same.symm⟩,left.reconnecting again⟩) a
  | start =>
    have noted : Left (c.note (.called .start)) := ⟨justified,left.registered,left.reconnecting⟩
    exact left_start noted
  | stop onEventThread answers =>
    refine left_stop justified onEventThread answers allowed.1 ?_
    intro event s member
    have empty := allowed.2 event
    have member : s ∈ c.registrations := member
    rw [empty] at member
    exact AList.notMem_empty s member
  | poll answers =>
    have noted : Left (c.note (.called .poll)) := ⟨justified,left.registered,left.reconnecting⟩
    exact left_poll noted answers allowed

theorem left_step (c : Client U) (action : Action) (d : Client U) (left : Left c)
    (stepped : Guarded Allowed Step c action d) : Left d := by
  obtain ⟨allowed,between,reordered,rfl⟩ := stepped
  exact left_perform (reordered.left left) (reordered.allowed allowed)

/-- In every run whose calls are all allowed, a server that the user left stays left. -/
theorem staysLeft_run {c d : Client U} {actions : List Action} (fresh : c.Fresh)
    (run : Run (Guarded Allowed Step) c actions d) : StaysLeft d.log := by
  have start : Left c := by
    refine left_idle ?_ ?_ fresh.reconnecting
    · rw [fresh.log]
      trivial
    · intro s
      rw [fresh.registrations]
      exact AList.notMem_empty s
  exact (run.keeps left_step start).justified

end

/-- A registration, and a poll in which the connection is lost and the server asked again. -/
def reconnectedRun : List Action := [.register 1 created, .poll { losing with register := created }]

theorem losing_allowed : (sampleClient.perform (.register 1 created)).Allowed (.poll { losing with register := created }) := by
  intro ssid unwanted
  by_cases same : ssid = 1
  · subst same
    exact absurd (by decide +kernel) unwanted
  · refine ⟨?_,?_⟩
    · intro conn found
      have only : (sampleClient.perform (.register 1 created)).connections = set ∅ 1 {} := rfl
      rw [only, lookup_set, if_neg same] at found
      cases found
    · simp [losing, same, Events.Loses]

theorem staysLeft_reconnected : StaysLeft (reconnectedRun.foldl perform sampleClient).log := by
  have registered : Guarded Allowed Step sampleClient (.register 1 created) (sampleClient.perform (.register 1 created)) :=
    ⟨trivial,step_perform _ _⟩
  exact staysLeft_run sampleClient_fresh (.cons registered (.cons ⟨losing_allowed,step_perform _ _⟩ (.nil _)))

/-- The connection is lost and the reconnection times out; the user deregisters; a
    later poll asks the server again. -/
def leftRun : List Action :=
  [.register 1 created, .poll losing, .deregister 1 { outcome := err .Timeout "Request timeout" },
    .poll { reconnectAt := seconds 2 }]

theorem left_server_asked :
    sampleClient.Fresh ∧ Run Step sampleClient leftRun (leftRun.foldl perform sampleClient) ∧
      ¬ StaysLeft (leftRun.foldl perform sampleClient).log :=
  ⟨sampleClient_fresh,run_perform sampleClient leftRun,by decide +kernel⟩

end Client

end Ferriot
