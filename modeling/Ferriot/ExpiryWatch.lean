import Ferriot.CallOutcomes

/-!
# The watch on expired registrations

The health check of a poll looks for expired registrations only while the state is
Registered, and the state is that of the client, not of a server: a registration
that fails, a call of `start` or a reconnection that is given up takes the watch
off every server that is still registered.
-/
namespace Ferriot
open Tables Requests Runs

namespace Client
variable {U : Type}

/-- Unless it reconnects, the client reports Registered while a server is registered. -/
def Watchful (c : Client U) : Prop := c.reconnecting = false → (∃ s, s ∈ c.registrations) → c.state = .Registered

/-- No registration is expired at the time. -/
def Current (c : Client U) (now : Int) : Prop := ∀ s reg, c.registrations.lookup s = some reg → now ≤ reg.expiresAt

/-- A connection that is opened, or was there, is up. -/
theorem opened_up {c d : Client U} {ssid : UInt16} {connect : Result Unit} (up : c.Up ssid)
    (opened : openConnection ssid connect c = (.ok (),d)) : d.connections.lookup ssid = some ⟨true⟩ := by
  simp only [openConnection] at opened
  split at opened
  · next present =>
    cases opened
    obtain ⟨⟨connected⟩,found⟩ := Option.isSome_iff_exists.mp (AList.lookup_isSome.mpr present)
    have connected : connected = true := up _ found
    rw [found, connected]
  · cases connect with
    | error e => cases opened
    | ok =>
      cases opened
      exact (lookup_set _ _ _ _).trans (if_pos rfl)

theorem watchful_registered {c : Client U} (registered : c.state = .Registered) : Watchful c := fun _ _ => registered

theorem watchful_reconnecting {c : Client U} (reconnecting : c.reconnecting = true) : Watchful c := by
  intro quiet
  rw [reconnecting] at quiet
  cases quiet

theorem watchful_unregistered {c : Client U} (unregistered : ∀ s, s ∉ c.registrations) : Watchful c := by
  rintro - ⟨s,member⟩
  exact absurd member (unregistered s)

theorem Watchful.same {c d : Client U} (watchful : Watchful c) (reconnecting : d.reconnecting = c.reconnecting)
    (state : d.state = c.state) (registrations : ∀ s, s ∈ d.registrations → s ∈ c.registrations) : Watchful d := by
  rintro quiet ⟨s,member⟩
  exact state.trans (watchful (reconnecting.symm.trans quiet) ⟨s,registrations s member⟩)

theorem Kept.reconnecting {c d : Client U} (kept : Kept c d) : d.reconnecting = c.reconnecting := by
  obtain ⟨-,reconnecting,-⟩ := control_eq kept.waited.control
  exact reconnecting

theorem Watchful.kept {c d : Client U} (watchful : Watchful c) (kept : Kept c d) : Watchful d := by
  rcases kept.state with same | ⟨registered,-⟩
  · exact watchful.same kept.reconnecting same (fun s => (kept.waited.registrations s).mp)
  · exact watchful_registered registered

theorem Reordered.watchful {c d : Client U} (reordered : Reordered c d) (watchful : Watchful c) : Watchful d := by
  obtain ⟨-,registrations,rest⟩ := reordered
  exact watchful.same (by rw [rest]) (by rw [rest]) (fun s => (AList.mem_of_perm registrations).mp)

/-- Where the health check looks, it finds every expired registration. -/
theorem current_looked {c : Client U} {now : Int} (watchful : Watchful c) (quiet : c.reconnecting = false)
    (looked : c.state = .Registered → c.reconnecting = false → c.lostConnection now = none) : Current c now := by
  intro s reg found
  have registered := watchful quiet ⟨s,AList.lookup_isSome.mp (by rw [found]; rfl)⟩
  have nothing := looked registered quiet
  simp only [lostConnection] at nothing
  cases expired : findEntry c.registrations (fun reg => decide (reg.expiresAt < now)) with
  | some e => simp [expired] at nothing
  | none => simpa using findEntry_none expired found

/-- A registration that does not get as far as its request, or whose request is accepted. -/
inductive Clean (c : Client U) (ssid : UInt16) (a : RegisterAnswer) : Prop
  | noSecurity (missing : SecurityObject.findByShortServerId c.objects.security ssid = none)
  | noServer (missing : c.objects.server.findByShortServerId ssid = none)
  | unopened (none : ssid ∉ c.connections) (e : Error) (refused : a.connect = .error e)
  | accepted (up : c.Up ssid) (r : CoapResponse) (sent : a.refused = none) (answered : a.outcome = .ok r)
      (success : r.isSuccess = true) (located : r.getLocationPath ≠ [])

theorem Clean.note {c : Client U} {ssid : UInt16} {a : RegisterAnswer} (clean : Clean c ssid a) (entry : Entry) :
    Clean (c.note entry) ssid a := by
  cases clean with
  | noSecurity missing => exact .noSecurity missing
  | noServer missing => exact .noServer missing
  | unopened absent e refused => exact .unopened absent e refused
  | accepted up r sent answered success located => exact .accepted up r sent answered success located

section
variable [Object U]

/-- At the health check of the poll, no registration is expired, or a loss is handled. -/
def NotOverlooked (answers : PollAnswers) (c : Client U) : Prop :=
  Current (healthChecked answers (c.note (.called .poll))) answers.healthAt ∨
    (healthChecked answers (c.note (.called .poll))).reconnecting = true

/-- A poll gives a reconnection up while a server is registered. -/
def Abandons (answers : PollAnswers) (c : Client U) : Prop :=
  let checked := healthChecked answers c
  (∃ s, s ∈ checked.registrations) ∧ checked.reconnecting = true ∧ checked.nextReconnectTime ≤ answers.reconnectAt ∧
    GivesUp checked

/-- What leaves the watch on: while a server is registered and none is being reconnected, a
    registration is clean and `start` finds the client running; and no poll gives a
    reconnection up while a server is registered. -/
def KeepsWatch (c : Client U) : Action → Prop
  | .register ssid a => c.reconnecting = true ∨ (∀ s, s ∉ c.registrations) ∨ Clean c ssid a
  | .start => c.reconnecting = true ∨ (∀ s, s ∉ c.registrations) ∨ c.running = true
  | .poll answers => ¬ Abandons answers (c.note (.called .poll))
  | _ => True

def WatchedStep (c : Client U) (action : Action) (d : Client U) : Prop :=
  ∃ reordered, Reordered c reordered ∧ KeepsWatch reordered action ∧ d = reordered.perform action

theorem attempt_answered {c : Client U} {ssid : UInt16} {a : RegisterAnswer} (srv : ServerInstance)
    (up : c.connections.lookup ssid = some ⟨true⟩) (sent : a.refused = none) : (attempt ssid a srv c).1 = a.outcome := by
  simp [attempt, send, sendWith, up, sent]

/-- A clean registration leaves the state, or leaves Registered. -/
theorem clean_state {c : Client U} {ssid : UInt16} {a : RegisterAnswer} (clean : Clean c ssid a) :
    (registerWithServer ssid a c).2.state = c.state ∨ (registerWithServer ssid a c).2.state = .Registered := by
  cases clean with
  | noSecurity missing => exact .inl (by simp [registerWithServer, missing])
  | noServer missing =>
    left
    simp only [registerWithServer]
    split
    · rfl
    · simp [missing]
  | unopened absent e refused =>
    left
    simp only [registerWithServer]
    split
    · rfl
    · split
      · rfl
      · simp [openConnection, absent, refused, note]
  | accepted up r sent answered success located =>
    simp only [registerWithServer]
    cases SecurityObject.findByShortServerId c.objects.security ssid with
    | none => exact .inl rfl
    | some _ =>
      cases c.objects.server.findByShortServerId ssid with
      | none => exact .inl rfl
      | some srv =>
        rcases opened : openConnection ssid a.connect c with ⟨e | ⟨⟩,d⟩
        · obtain ⟨-,-,same,-⟩ := opened_cases opened
          exact .inl same
        · have answer := attempt_answered srv (opened_up up opened) sent
          simp only [attempt] at answer
          dsimp only
          generalize send ssid (.register srv.lifetime) _ a.toAnswer (d.setState .Registering) = ended at answer ⊢
          obtain ⟨response,d'⟩ := ended
          cases answer.trans answered
          simp only [success, located, Bool.not_true, Bool.false_eq_true, ↓reduceIte]
          obtain ⟨-,-,-,registered⟩ := storeRegistration_cases ssid r.getLocationPath srv.lifetime a d'
          exact .inr registered

theorem watchful_register {c : Client U} (watchful : Watchful c) {ssid : UInt16} {a : RegisterAnswer}
    (spared : c.reconnecting = true ∨ (∀ s, s ∉ c.registrations) ∨ Clean c ssid a) :
    Watchful (registerWithServer ssid a c).2 := by
  have registering := register_cases ssid a c
  obtain ⟨-,reconnecting,-⟩ := control_eq registering.control
  cases result : (registerWithServer ssid a c).1 with
  | ok => exact watchful_registered (registering.accepted result)
  | error e =>
    have registrations : ∀ s, s ∈ (registerWithServer ssid a c).2.registrations → s ∈ c.registrations := by
      intro s member
      simpa [result] using (registering.registrations s).mp member
    rcases spared with reconnects | unregistered | clean
    · exact watchful_reconnecting (reconnecting.trans reconnects)
    · apply watchful_unregistered
      intro s member
      exact unregistered s (registrations s member)
    · rcases clean_state clean with same | registered
      · exact watchful.same reconnecting same registrations
      · exact watchful_registered registered

theorem watchful_deregister {c : Client U} (watchful : Watchful c) (ssid : UInt16) (a : Answer) :
    Watchful (deregister ssid a c).2 := by
  rcases (deregister_settles ssid a c).2 with same | ⟨-,unregistered⟩ | ⟨registered,-⟩
  · rwa [same]
  · exact watchful_unregistered unregistered
  · exact watchful_registered registered

theorem watchful_health {c : Client U} (watchful : Watchful c) (answers : PollAnswers) :
    Watchful (healthChecked answers c) := by
  have before := watchful.kept (kept_beforeHealth answers c)
  rcases checkConnectionHealth_cases answers.healthAt answers.lostAt
    (checkRegistrationUpdates answers.updatesAt answers.updates (pollConnections answers.during c)) with ⟨same,-⟩ | ⟨ssid,lost⟩
  · rwa [healthChecked, same]
  · exact watchful_reconnecting lost.reconnecting

theorem watchful_poll {c : Client U} (watchful : Watchful c) {answers : PollAnswers} (goesOn : ¬ Abandons answers c) :
    Watchful (poll answers c) := by
  have health := watchful_health watchful answers
  rw [poll_eq]
  simp only [Abandons] at goesOn
  generalize healthChecked answers c = d at health goesOn ⊢
  split
  · next due =>
    rcases tryReconnect_cases d.reconnectSsid answers.register answers.failedAt d with
      ⟨givesUp,-,-,registrations,-⟩ | ⟨-,result,e,registering,state,-,-,stays⟩
    · apply watchful_unregistered
      intro s member
      rw [registrations] at member
      exact goesOn ⟨⟨s,member⟩,due.1,due.2,givesUp⟩
    · cases result with
      | ok => exact watchful_registered (state.trans (registering.accepted rfl))
      | error => exact watchful_reconnecting ((stays (by simp)).trans due.1)
  · exact health

theorem watchful_perform {c : Client U} (watchful : Watchful c) {action : Action} (keeps : KeepsWatch c action) :
    Watchful (c.perform action) := by
  have noted : Watchful (c.note (.called action.call)) := watchful
  cases action with
  | register ssid a => exact watchful_register noted (keeps.imp_right (Or.imp_right (fun clean => clean.note _)))
  | update ssid a => exact noted.kept (kept_updateRegistration ssid a _)
  | deregister ssid a => exact watchful_deregister noted ssid a
  | start =>
    simp only [perform, act, start]
    split
    · exact noted
    · next stopped =>
      rcases keeps with reconnects | unregistered | running
      · obtain ⟨-,reconnecting,-⟩ := control_eq (setState_control { c.note (.called .start) with running := true } .Idle)
        exact watchful_reconnecting (reconnecting.trans reconnects)
      · apply watchful_unregistered
        intro s member
        rw [setState_registrations] at member
        exact unregistered s member
      · exact absurd running stopped
  | stop onEventThread answers =>
    simp only [perform, act, stop]
    split
    · exact noted
    · exact watchful_unregistered (by simp [AList.notMem_empty])
  | poll answers => exact watchful_poll noted keeps

theorem watchful_step (c : Client U) (action : Action) (d : Client U) (watchful : Watchful c)
    (stepped : WatchedStep c action d) : Watchful d := by
  obtain ⟨between,reordered,keeps,rfl⟩ := stepped
  exact watchful_perform (reordered.watchful watchful) keeps

theorem watchful_run {c d : Client U} {actions : List Action} (fresh : c.Fresh) (run : Run WatchedStep c actions d) :
    Watchful d := by
  apply run.keeps watchful_step
  apply watchful_unregistered
  intro s
  rw [fresh.registrations]
  exact AList.notMem_empty s

theorem notOverlooked {c : Client U} (watchful : Watchful c) (quiet : c.reconnecting = false) (answers : PollAnswers) :
    NotOverlooked answers c := by
  have noted : Watchful (c.note (.called .poll)) := watchful
  have kept := kept_beforeHealth answers (c.note (.called .poll))
  have before := noted.kept kept
  have still := kept.reconnecting.trans quiet
  simp only [NotOverlooked, healthChecked]
  generalize checkRegistrationUpdates answers.updatesAt answers.updates
    (pollConnections answers.during (c.note (.called .poll))) = d at before still ⊢
  rcases checkConnectionHealth_cases answers.healthAt answers.lostAt d with ⟨same,looked⟩ | ⟨ssid,lost⟩
  · left
    rw [same]
    exact current_looked before still looked
  · exact .inr lost.reconnecting

/-- After every run whose steps keep the watch, no poll overlooks an expired registration. -/
theorem notOverlooked_run {c d e : Client U} {actions : List Action} (fresh : c.Fresh)
    (run : Run WatchedStep c actions d) (reordered : Reordered d e) (quiet : e.reconnecting = false)
    (answers : PollAnswers) : NotOverlooked answers e :=
  notOverlooked (reordered.watchful (watchful_run fresh run)) quiet answers

/-- With reconnection enabled, a poll gives up only a reconnection that was under way. -/
theorem not_abandons {c : Client U} {answers : PollAnswers} (enabled : c.reconnectConfig.enabled = true)
    (goesOn : ¬ (c.reconnecting = true ∧ c.nextReconnectTime ≤ answers.reconnectAt ∧ GivesUp c)) :
    ¬ Abandons answers c := by
  have kept := kept_beforeHealth answers c
  obtain ⟨-,reconnecting,attempts,-,time⟩ := control_eq kept.waited.control
  have config := kept.config
  simp only [Abandons, healthChecked]
  generalize checkRegistrationUpdates answers.updatesAt answers.updates (pollConnections answers.during c) = d
    at reconnecting attempts time config ⊢
  rintro ⟨-,due⟩
  rcases checkConnectionHealth_cases answers.healthAt answers.lostAt d with ⟨same,-⟩ | ⟨ssid,lost⟩
  · rw [same] at due
    simp only [GivesUp] at due goesOn
    rw [reconnecting, time, config, attempts] at due
    exact goesOn due
  · obtain ⟨-,-,disabled | exhausted⟩ := due
    · rw [lost.config, config, enabled] at disabled
      cases disabled
    · rw [lost.attempts] at exhausted
      exact absurd (UInt16.lt_of_lt_of_le exhausted.1 exhausted.2) (UInt16.lt_irrefl _)

end

/-- The Server instance of the server 1 is deleted, and its registration has expired. -/
def deleting : PollAnswers :=
  { during := fun ssid =>
      if ssid = 1 then
        .request (fun _ => {}) { method := .Delete, uriPath := lit ['/','1','/','0'] } none .done (err .Timeout "") 0 .done
      else .done
    updatesAt := seconds 61
    healthAt := seconds 61 }

/-- The server is registered, and fails to answer when it is registered again. -/
def unwatchedRun : List Action :=
  [.register 1 created, .register 1 { outcome := err .Timeout "Request timeout" }]

theorem expired_overlooked :
    sampleClient.Fresh ∧ Run Step sampleClient unwatchedRun (unwatchedRun.foldl perform sampleClient) ∧
      (unwatchedRun.foldl perform sampleClient).reconnecting = false ∧
      ¬ NotOverlooked deleting (unwatchedRun.foldl perform sampleClient) := by
  refine ⟨sampleClient_fresh,run_perform sampleClient unwatchedRun,by decide +kernel,?_⟩
  intro notOverlooked
  rcases notOverlooked with current | lost
  · have late := current 1 ⟨lit ['/','r','d','/','7'],1,0,seconds 60⟩ (by decide +kernel)
    revert late
    decide +kernel
  · revert lost
    decide +kernel

/-- A registration, a poll without events, and a poll after the registration has expired. -/
theorem notOverlooked_polled :
    NotOverlooked deleting ([Action.register 1 created, .poll {}].foldl perform sampleClient) := by
  have registered : WatchedStep sampleClient (.register 1 created) (sampleClient.perform (.register 1 created)) :=
    ⟨sampleClient,⟨.refl _,.refl _,rfl⟩,.inr (.inl AList.notMem_empty),rfl⟩
  have polled : WatchedStep (sampleClient.perform (.register 1 created)) (.poll {})
      ((sampleClient.perform (.register 1 created)).perform (.poll {})) := by
    refine ⟨_,⟨.refl _,.refl _,rfl⟩,not_abandons rfl ?_,rfl⟩
    rintro ⟨⟨⟩,-⟩
  exact notOverlooked_run sampleClient_fresh (.cons registered (.cons polled (.nil _))) ⟨.refl _,.refl _,rfl⟩
    (by decide +kernel) deleting

end Client

end Ferriot
