import Ferriot.CallOutcomes

/-!
# The state between calls

One state stands for all servers of a client. Every call that leaves it at a step
of its own, Registering, Updating or Deregistering, moves it on before it returns,
and Registered is reported only while some server is registered.
-/
namespace Ferriot
open Tables Requests Runs

namespace Client
variable {U : Type}

/-- No operation is in progress, and Registered is true of some server. -/
structure Settled (c : Client U) : Prop where
  state : c.state = .Idle ∨ c.state = .Registered ∨ c.state = .Error
  registered : c.state = .Registered → ∃ s, s ∈ c.registrations

theorem settled_idle {c : Client U} (idle : c.state = .Idle) : Settled c := ⟨.inl idle,by simp [idle]⟩

theorem settled_error {c : Client U} (error : c.state = .Error) : Settled c := ⟨.inr (.inr error),by simp [error]⟩

theorem settled_registered {c : Client U} (registered : c.state = .Registered) {s : UInt16} (member : s ∈ c.registrations) :
    Settled c := ⟨.inr (.inl registered),fun _ => ⟨s,member⟩⟩

/-- The state is the same, and the registered servers are. -/
theorem Settled.same {c d : Client U} (settled : Settled c) (state : d.state = c.state)
    (registrations : ∀ s, s ∈ d.registrations ↔ s ∈ c.registrations) : Settled d := by
  refine ⟨?_,?_⟩
  · rw [state]
    exact settled.state
  · intro registered
    obtain ⟨s,member⟩ := settled.registered (state ▸ registered)
    exact ⟨s,(registrations s).mpr member⟩

theorem Settled.kept {c d : Client U} (settled : Settled c) (kept : Kept c d) : Settled d := by
  rcases kept.state with same | ⟨registered,s,member⟩
  · exact settled.same same kept.waited.registrations
  · exact settled_registered registered member

theorem Settled.registering {c d : Client U} {ssid : UInt16} {result : Result Unit} (settled : Settled c)
    (registering : Registering ssid c result d) : Settled d := by
  cases result with
  | ok =>
    exact settled_registered (registering.accepted rfl) ((registering.registrations ssid).mpr (.inl ⟨rfl,rfl⟩))
  | error e =>
    rcases registering.failed e rfl with same | error
    · exact settled.same same (fun s => by simp [registering.registrations])
    · exact settled_error error

theorem Reordered.settled {c d : Client U} (reordered : Reordered c d) (settled : Settled c) : Settled d := by
  obtain ⟨-,registrations,rest⟩ := reordered
  apply settled.same
  · rw [rest]
  · intro s
    exact AList.mem_of_perm registrations

section
variable [Object U]

theorem settled_tryReconnect {c : Client U} (settled : Settled c) (ssid : UInt16) (a : RegisterAnswer) (failedAt : Int) :
    Settled (tryReconnect ssid a failedAt c) := by
  rcases tryReconnect_cases ssid a failedAt c with ⟨-,-,state,registrations,-⟩ | ⟨-,result,d,registering,state,registrations,-⟩
  · exact settled.same state (by simp [registrations])
  · have began : Settled (c.beginAttempt ssid) := settled.same rfl (fun _ => Iff.rfl)
    exact (began.registering registering).same state (by simp [registrations])

theorem settled_poll {c : Client U} (settled : Settled c) (answers : PollAnswers) : Settled (poll answers c) := by
  have before := settled.kept (kept_beforeHealth answers c)
  have health : Settled (healthChecked answers c) := by
    rcases checkConnectionHealth_cases answers.healthAt answers.lostAt
      (checkRegistrationUpdates answers.updatesAt answers.updates (pollConnections answers.during c)) with ⟨same,-⟩ | ⟨ssid,lost⟩
    · rw [healthChecked, same]
      exact before
    · exact settled_error lost.state
  rw [poll_eq]
  split
  · exact settled_tryReconnect health _ _ _
  · exact health

theorem settled_deregister {c : Client U} (settled : Settled c) (ssid : UInt16) (a : Answer) :
    Settled (deregister ssid a c).2 := by
  rcases (deregister_settles ssid a c).2 with same | ⟨idle,-⟩ | ⟨registered,s,member⟩
  · rwa [same]
  · exact settled_idle idle
  · exact settled_registered registered member

theorem settled_perform {c : Client U} (settled : Settled c) (action : Action) : Settled (c.perform action) := by
  have noted : Settled (c.note (.called action.call)) := settled.same rfl (fun _ => Iff.rfl)
  cases action with
  | register ssid a => exact noted.registering (register_cases ssid a _)
  | update ssid a => exact noted.kept (kept_updateRegistration ssid a _)
  | deregister ssid a => exact settled_deregister noted ssid a
  | start =>
    simp only [perform, act, start]
    split
    · exact noted
    · exact settled_idle (setState_state _ .Idle)
  | stop onEventThread answers =>
    simp only [perform, act, stop]
    split
    · exact noted.same rfl (fun _ => Iff.rfl)
    · exact settled_idle (setState_state _ .Idle)
  | poll answers => exact settled_poll noted answers

theorem settled_step (c : Client U) (action : Action) (d : Client U) (settled : Settled c) (stepped : Step c action d) :
    Settled d := by
  obtain ⟨between,reordered,rfl⟩ := stepped
  exact settled_perform (reordered.settled settled) action

/-- In every run the state between calls is settled. -/
theorem settled_run {c d : Client U} {actions : List Action} (idle : c.state = .Idle) (run : Run Step c actions d) :
    Settled d := run.keeps settled_step (settled_idle idle)

end

/-- A poll in which the server 1 executes the Registration Update Trigger. -/
def triggering : PollAnswers :=
  { during := fun ssid =>
      if ssid = 1 then
        .request (fun _ => {}) { method := .Post, uriPath := lit ['/','1','/','0','/','8'] } none .done
          (.ok { code := some .Changed }) 0 .done
      else .done }

theorem settled_triggered : Settled ([Action.register 1 created, .poll triggering].foldl perform sampleClient) :=
  settled_run rfl (run_perform sampleClient _)

end Client

end Ferriot
