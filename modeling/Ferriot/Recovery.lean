import Ferriot.Backoff
import Ferriot.DeadConnections

/-!
# Recovery

However long a server stays away, the next attempt to reconnect is never further away
than the longest back-off, counted from the last failure or from the loss, as long as
the first back-off is no longer than that. A poll that late finds the attempt due, and
if the server answers, the client is registered again.
-/
namespace Ferriot
open Tables Requests Runs

/-- A back-off that starts below the maximum stays below it. -/
theorem Client.backoffLoop_le {config : ReconnectionConfig} (rounds : Nat) {backoff : Int} (below : backoff ≤ config.maxBackoff) :
    backoffLoop config rounds backoff ≤ config.maxBackoff := by
  induction rounds generalizing backoff with
  | zero => exact below
  | succ rounds ih =>
    simp only [backoffLoop]
    split_ifs with above
    · exact le_refl _
    · exact ih (not_lt.mp above)

/-- The back-off starts below its maximum, which is no negative number. -/
structure ReconnectionConfig.Capped (config : ReconnectionConfig) : Prop where
  initial : config.initialBackoff ≤ config.maxBackoff
  nonneg : 0 ≤ config.maxBackoff

/-- A poll loses a connection, or fails to reconnect, at the time at the latest. -/
def Action.EndsBy (latest : Int) : Action → Prop
  | .poll answers => answers.lostAt ≤ latest ∧ answers.failedAt ≤ latest
  | _ => True

namespace Client
variable {U : Type} {config : ReconnectionConfig} {latest : Int}

/-- The next attempt is no further away than the longest back-off. -/
structure Near (config : ReconnectionConfig) (latest : Int) (c : Client U) : Prop where
  configured : c.reconnectConfig = config
  next : c.reconnecting = true → c.nextReconnectTime ≤ latest + seconds config.maxBackoff

/-- The client has reconnected, and said so. -/
structure Recovered (ssid : UInt16) (c : Client U) : Prop where
  reconnecting : c.reconnecting = false
  attempts : c.reconnectAttempts = 0
  state : c.state = .Registered
  registered : ssid ∈ c.registrations
  connected : ssid ∈ c.connections
  told : ∃ older, c.log = .notified (.onReconnected ssid) :: older

theorem Near.same {c d : Client U} (near : Near config latest c) (same : d.outlook 0 = c.outlook 0) : Near config latest d := by
  obtain ⟨-,sameConfig,reconnecting,-,next⟩ := outlook_eq 0 same
  refine ⟨sameConfig.trans near.configured,?_⟩
  rw [reconnecting, next]
  exact near.next

theorem near_checkConnectionHealth {c : Client U} (near : Near config latest c) (capped : config.Capped) {now lostAt : Int}
    (early : lostAt ≤ latest) : Near config latest (checkConnectionHealth now lostAt c) := by
  simp only [checkConnectionHealth]
  split_ifs
  · exact near
  · cases c.lostConnection now with
    | none => exact near
    | some ssid =>
      simp only [handleConnectionLost]
      split_ifs
      · exact near
      · refine ⟨?_,?_⟩
        · show (setState { c with reconnecting := true } .Error).reconnectConfig = config
          rw [setState_config]
          exact near.configured
        · intro _
          have far := capped.nonneg
          show lostAt ≤ latest + seconds config.maxBackoff
          simp only [seconds]
          omega

section
variable [Object U]

theorem near_reconnect {c : Client U} (near : Near config latest c) (capped : config.Capped) (ssid : UInt16) (a : RegisterAnswer)
    {failedAt : Int} (early : failedAt ≤ latest) : Near config latest (reconnect ssid a failedAt c) := by
  obtain ⟨-,sameConfig,-⟩ := outlook_eq 0 (outlook_registerWithServer 0 ssid a (c.beginAttempt ssid))
  simp only [reconnect]
  generalize registerWithServer ssid a (c.beginAttempt ssid) = ended at sameConfig ⊢
  have sameConfig : ended.2.reconnectConfig = config := sameConfig.trans near.configured
  rcases ended with ⟨e | ⟨⟩,d⟩
  · refine ⟨sameConfig,fun _ => ?_⟩
    have below : d.calculateBackoff ≤ config.maxBackoff := by
      rw [calculateBackoff, sameConfig]
      exact backoffLoop_le _ capped.initial
    show failedAt + seconds d.calculateBackoff ≤ latest + seconds config.maxBackoff
    simp only [seconds]
    omega
  · exact ⟨sameConfig,by rintro ⟨⟩⟩

theorem near_poll {c : Client U} (near : Near config latest c) (capped : config.Capped) {answers : PollAnswers}
    (ends : (Action.poll answers).EndsBy latest) : Near config latest (poll answers c) := by
  have before : Near config latest (checkRegistrationUpdates answers.updatesAt answers.updates (pollConnections answers.during c)) :=
    near.same (by simp)
  have health : Near config latest (healthChecked answers c) := near_checkConnectionHealth before capped ends.1
  rw [poll_eq]
  generalize healthChecked answers c = d at health ⊢
  split_ifs
  · simp only [tryReconnect]
    split_ifs
    · exact ⟨health.configured,by rintro ⟨⟩⟩
    · exact ⟨health.configured,by rintro ⟨⟩⟩
    · exact near_reconnect health capped _ _ ends.2
  · exact health

theorem near_perform {c : Client U} (near : Near config latest c) (capped : config.Capped) {action : Action}
    (ends : action.EndsBy latest) : Near config latest (c.perform action) := by
  have noted : Near config latest (c.note (.called action.call)) := ⟨near.configured,near.next⟩
  cases action with
  | poll answers => exact near_poll noted capped ends
  | _ => exact noted.same (outlook_act (by simp) 0 _)

theorem near_step (capped : config.Capped) (c : Client U) (action : Action) (d : Client U) (near : Near config latest c)
    (stepped : Guarded (fun _ action => action.EndsBy latest) Step c action d) : Near config latest d := by
  obtain ⟨ends,between,⟨-,-,rest⟩,rfl⟩ := stepped
  refine near_perform ?_ capped ends
  rw [rest]
  exact ⟨near.configured,near.next⟩

/-- An attempt that the server welcomes reconnects the client. -/
theorem recovered_reconnect {c : Client U} {ssid : UInt16} {a : RegisterAnswer} (account : HasAccount c ssid)
    (connects : a.connect = .ok ()) (welcomed : a.Welcomed) (failedAt : Int) : Recovered ssid (reconnect ssid a failedAt c) := by
  have up : (c.beginAttempt ssid).Up ssid := by
    intro conn found
    cases (AList.lookup_erase ssid c.connections).symm.trans found
  have succeeds := (registered_iff ssid a (c.beginAttempt ssid)).mpr ⟨account,.inr connects,up,welcomed⟩
  have registering := register_cases ssid a (c.beginAttempt ssid)
  simp only [reconnect]
  generalize registerWithServer ssid a (c.beginAttempt ssid) = ended at succeeds registering ⊢
  obtain ⟨result,d⟩ := ended
  cases succeeds
  exact ⟨rfl,rfl,registering.accepted rfl,(registering.registrations ssid).mpr (.inl ⟨rfl,rfl⟩),registering.connected rfl,_,rfl⟩

theorem recovered_poll {c : Client U} (near : Near config latest c) (reconnecting : c.reconnecting = true) {answers : PollAnswers}
    (late : latest + seconds config.maxBackoff ≤ answers.reconnectAt) (more : ¬ GivesUp (healthChecked answers c))
    (account : HasAccount (healthChecked answers c) c.reconnectSsid) (connects : answers.register.connect = .ok ())
    (welcomed : answers.register.Welcomed) : Recovered c.reconnectSsid (poll answers c) := by
  have kept := kept_beforeHealth answers c
  obtain ⟨-,busy,-,ssid,next⟩ := control_eq kept.waited.control
  have same : healthChecked answers c =
      checkRegistrationUpdates answers.updatesAt answers.updates (pollConnections answers.during c) := by
    simp [healthChecked, checkConnectionHealth, busy, reconnecting]
  have due : (healthChecked answers c).reconnecting = true ∧ (healthChecked answers c).nextReconnectTime ≤ answers.reconnectAt := by
    rw [same, busy, next]
    exact ⟨reconnecting,Int.le_trans (near.next reconnecting) late⟩
  rw [poll_eq, if_pos due, same, ssid]
  rw [same] at more account
  simp only [GivesUp, not_or] at more
  simp only [tryReconnect]
  rw [if_neg (by simpa using more.1), if_neg more.2]
  exact recovered_reconnect account connects welcomed answers.failedAt

/-- After every run in which the client has lost a server, and however often it has failed to reconnect
    since: a poll that comes the longest back-off after all of that, with attempts left, finds the
    attempt due, and if the server answers then, the client is registered again. -/
theorem recovered_run {c d e : Client U} (fresh : c.Fresh) (capped : c.reconnectConfig.Capped) {actions : List Action}
    (run : Run (Guarded (fun _ action => action.EndsBy latest) Step) c actions d) (reordered : Reordered d e)
    (reconnecting : e.reconnecting = true) {answers : PollAnswers}
    (late : latest + seconds c.reconnectConfig.maxBackoff ≤ answers.reconnectAt)
    (more : ¬ GivesUp (healthChecked answers (e.note (.called .poll))))
    (account : HasAccount (healthChecked answers (e.note (.called .poll))) e.reconnectSsid)
    (connects : answers.register.connect = .ok ()) (welcomed : answers.register.Welcomed) :
    Recovered e.reconnectSsid (e.perform (.poll answers)) := by
  have start : Near c.reconnectConfig latest c := by
    refine ⟨rfl,?_⟩
    rw [fresh.reconnecting]
    rintro ⟨⟩
  have near := run.keeps (near_step capped) start
  have noted : Near c.reconnectConfig latest (e.note (.called .poll)) := by
    obtain ⟨-,-,rest⟩ := reordered
    rw [rest]
    exact ⟨near.configured,near.next⟩
  exact recovered_poll noted reconnecting late more account connects welcomed

end

/-- The server answers again, five minutes after the loss. -/
def answering : PollAnswers := { reconnectAt := seconds 300, register := created }

theorem lostOnce_ends : Run (Guarded (fun _ action => action.EndsBy 0) Step) sampleClient lostOnce (lostOnce.foldl perform sampleClient) :=
  .cons ⟨trivial,step_perform _ _⟩ (.cons ⟨⟨le_refl 0,le_refl 0⟩,step_perform _ _⟩ (.nil _))

theorem recovered_lost : Recovered 1 ((lostOnce.foldl perform sampleClient).perform (.poll answering)) := by
  have capped : sampleClient.reconnectConfig.Capped := ⟨by decide,by decide⟩
  have run := lostOnce_ends
  have reconnecting : (lostOnce.foldl perform sampleClient).reconnecting = true := by decide +kernel
  have ssid : (lostOnce.foldl perform sampleClient).reconnectSsid = 1 := by decide +kernel
  have more : ¬ GivesUp (healthChecked answering ((lostOnce.foldl perform sampleClient).note (.called .poll))) := by
    unfold GivesUp
    decide +kernel
  have account : HasAccount (healthChecked answering ((lostOnce.foldl perform sampleClient).note (.called .poll))) 1 := by
    constructor <;> decide +kernel
  generalize lostOnce.foldl perform sampleClient = client at run reconnecting ssid more account ⊢
  rw [← ssid] at account ⊢
  exact recovered_run sampleClient_fresh capped run ⟨.refl _,.refl _,rfl⟩ reconnecting (by decide) more account rfl
    created_welcomed

end Client

end Ferriot
