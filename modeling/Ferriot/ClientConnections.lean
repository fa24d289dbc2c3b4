import Ferriot.CallOutcomes

/-!
# Registrations and connections

A registration is made over a connection and both are kept side by side, in two
tables. An attempt to reconnect closes the connection first: of a server whose
registration the loss has dropped, or of one that the user has registered again
in the meantime.
-/
namespace Ferriot
open Tables Requests Runs

namespace Client
variable {U : Type}

/-- Every registered server has a connection. -/
def Connected (c : Client U) : Prop := ∀ s ∈ c.registrations, s ∈ c.connections

/-- A poll attempts to reconnect a server that is registered. -/
def ReconnectsRegistered (c : Client U) : Action → Prop
  | .poll answers =>
    c.reconnecting = true ∧ c.reconnectSsid ∈ c.registrations ∧ c.nextReconnectTime ≤ answers.reconnectAt ∧ ¬ GivesUp c
  | _ => False

theorem Connected.waited {c d : Client U} (connected : Connected c) (waited : Waited (fun _ => True) c d) : Connected d :=
  fun s member => (waited.connections s).mpr (connected s ((waited.registrations s).mp member))

theorem Connected.lost {c d : Client U} {ssid : UInt16} (connected : Connected c) (lost : Lost ssid c d) : Connected d := by
  intro s member
  rw [lost.connections]
  exact connected s ((lost.registrations s).mp member).1

theorem Connected.registering {c d : Client U} {ssid : UInt16} {result : Result Unit} (connected : Connected c)
    (registering : Registering ssid c result d) : Connected d := by
  intro s member
  rcases (registering.registrations s).mp member with ⟨accepted,rfl⟩ | before
  · exact registering.connected accepted
  · exact registering.connections s (connected s before)

theorem Reordered.connected {c d : Client U} (reordered : Reordered c d) (connected : Connected c) : Connected d :=
  fun s member => (AList.mem_of_perm reordered.connections).mpr
    (connected s ((AList.mem_of_perm reordered.registrations).mp member))

theorem Reordered.reconnectsRegistered {c d : Client U} (reordered : Reordered c d) (action : Action) :
    ReconnectsRegistered d action ↔ ReconnectsRegistered c action := by
  obtain ⟨-,registrations,rest⟩ := reordered
  rw [rest]
  cases action with
  | poll answers =>
    simp only [ReconnectsRegistered, GivesUp]
    rw [AList.mem_of_perm registrations]
  | _ => exact Iff.rfl

section
variable [Object U]

/-- Only the connection of the server itself is closed. -/
theorem connected_tryReconnect {c : Client U} {ssid : UInt16} (connected : Connected c)
    (unregistered : GivesUp c ∨ ssid ∉ c.registrations) (a : RegisterAnswer) (failedAt : Int) :
    Connected (tryReconnect ssid a failedAt c) := by
  rcases tryReconnect_cases ssid a failedAt c with ⟨-,-,-,registrations,connections⟩ | ⟨goesOn,result,d,registering,-,registrations,connections,-⟩
  · intro s member
    rw [registrations] at member
    rw [connections]
    exact connected s member
  · have began : Connected (c.beginAttempt ssid) := by
      intro s member
      have other : s ≠ ssid := by
        rintro rfl
        exact unregistered.resolve_left goesOn member
      exact AList.mem_erase.mpr ⟨other,connected s member⟩
    have registered := began.registering registering
    intro s member
    rw [registrations] at member
    rw [connections]
    exact registered s member

theorem connected_poll {c : Client U} (connected : Connected c) (answers : PollAnswers)
    (spared : ¬ ReconnectsRegistered c (.poll answers)) : Connected (poll answers c) := by
  have kept := kept_beforeHealth answers c
  have waiting := connected.waited kept.waited
  have control := kept.waited.control
  have health := checkConnectionHealth_cases answers.healthAt answers.lostAt
    (checkRegistrationUpdates answers.updatesAt answers.updates (pollConnections answers.during c))
  rw [poll_eq, healthChecked]
  generalize checkRegistrationUpdates answers.updatesAt answers.updates (pollConnections answers.during c) = d
    at kept waiting control health ⊢
  obtain ⟨-,reconnecting,attempts,ssid,time⟩ := control_eq control
  rcases health with ⟨same,-⟩ | ⟨ssid,lost⟩
  · rw [same]
    by_cases due : d.reconnecting = true ∧ d.nextReconnectTime ≤ answers.reconnectAt
    · rw [if_pos due]
      refine connected_tryReconnect waiting ?_ _ _
      by_contra broken
      rw [not_or, not_not] at broken
      refine spared ⟨reconnecting ▸ due.1,?_,time ▸ due.2,?_⟩
      · exact (kept.waited.registrations _).mp (ssid ▸ broken.2)
      · obtain ⟨goesOn,-⟩ := broken
        simp only [GivesUp] at goesOn ⊢
        rwa [kept.config, attempts] at goesOn
    · rwa [if_neg due]
  · have after := waiting.lost lost
    have absent : (checkConnectionHealth answers.healthAt answers.lostAt d).reconnectSsid ∉
        (checkConnectionHealth answers.healthAt answers.lostAt d).registrations := by
      rw [lost.reconnectSsid, lost.registrations]
      rintro ⟨-,other⟩
      exact other rfl
    split
    · exact connected_tryReconnect after (.inr absent) _ _
    · exact after

theorem connected_deregister {c : Client U} (connected : Connected c) (ssid : UInt16) (a : Answer) :
    Connected (deregister ssid a c).2 := by
  intro s member
  obtain ⟨before,-⟩ := ((deregister_cases ssid a c).1 s).mp member
  exact ((deregister_settles ssid a c).1 s).mpr (connected s before)

theorem connected_perform {c : Client U} (connected : Connected c) {action : Action}
    (spared : ¬ ReconnectsRegistered c action) : Connected (c.perform action) := by
  have noted : Connected (c.note (.called action.call)) := connected
  cases action with
  | register ssid a => exact noted.registering (register_cases ssid a _)
  | update ssid a => exact noted.waited (kept_updateRegistration ssid a _).waited
  | deregister ssid a => exact connected_deregister noted ssid a
  | start =>
    simp only [perform, act, start]
    split
    · exact noted
    · intro s member
      rw [setState_registrations] at member
      rw [setState_connections]
      exact noted s member
  | stop onEventThread answers =>
    simp only [perform, act, stop]
    split
    · exact noted
    · intro s member
      rw [setState_registrations] at member
      exact absurd member (AList.notMem_empty s)
  | poll answers => exact connected_poll noted answers spared

theorem connected_step (c : Client U) (action : Action) (d : Client U) (connected : Connected c)
    (stepped : Guarded (fun c action => ¬ ReconnectsRegistered c action) Step c action d) : Connected d := by
  obtain ⟨spared,between,reordered,rfl⟩ := stepped
  apply connected_perform (reordered.connected connected)
  intro reconnects
  exact spared ((reordered.reconnectsRegistered action).mp reconnects)

/-- In every run without an attempt to reconnect a registered server, every registration has a connection. -/
theorem connected_run {c d : Client U} {actions : List Action} (fresh : c.Fresh)
    (run : Run (Guarded (fun c action => ¬ ReconnectsRegistered c action) Step) c actions d) : Connected d := by
  refine run.keeps connected_step ?_
  intro s member
  rw [fresh.registrations] at member
  exact absurd member (AList.notMem_empty s)

end

/-- The server is registered again during the back-off; the next attempt closes the
    connection and cannot open another. -/
def closedRun : List Action :=
  [.register 1 created, .poll losing, .register 1 created,
    .poll { reconnectAt := seconds 2, register := { connect := err .ConnectionFailed "No route", outcome := err .Timeout "" } }]

theorem closed_registered :
    sampleClient.Fresh ∧ Run Step sampleClient closedRun (closedRun.foldl perform sampleClient) ∧
      ¬ Connected (closedRun.foldl perform sampleClient) := by
  refine ⟨sampleClient_fresh,run_perform sampleClient closedRun,?_⟩
  intro connected
  have closed := connected 1 (by decide +kernel)
  revert closed
  decide +kernel

/-- A registration, and a poll in which the connection is lost and the server asked again. -/
theorem connected_reconnected :
    Connected ([Action.register 1 created, .poll { losing with register := created }].foldl perform sampleClient) := by
  have registered : Guarded (fun c action => ¬ ReconnectsRegistered c action) Step sampleClient (.register 1 created)
      (sampleClient.perform (.register 1 created)) := ⟨id,step_perform _ _⟩
  have quiet : ¬ ReconnectsRegistered (sampleClient.perform (.register 1 created))
      (.poll { losing with register := created }) := by
    rintro ⟨⟨⟩,-⟩
  exact connected_run sampleClient_fresh (.cons registered (.cons ⟨quiet,step_perform _ _⟩ (.nil _)))

end Client

end Ferriot
