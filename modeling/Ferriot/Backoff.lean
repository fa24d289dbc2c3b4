import Ferriot.Episodes

/-!
# The back-off of an episode

The delays between the attempts of an episode, against the schedule of a back-off
that grows by a factor up to its maximum: as long as the 16-bit counter of the
attempts does not wrap, the delays follow it.
-/
namespace Ferriot
open Runs

namespace ReconnectionConfig

/-- The back-off grows by a whole factor, and no product is rounded. -/
structure Grows (config : ReconnectionConfig) (factor : Nat) : Prop where
  initial : 0 ≤ config.initialBackoff
  capped : config.initialBackoff ≤ config.maxBackoff
  positive : 1 ≤ factor
  product : ∀ backoff, 0 ≤ backoff → backoff ≤ config.maxBackoff → config.nextBackoff backoff = backoff * factor

/-- The delay after so many failures. -/
def schedule (config : ReconnectionConfig) (factor failures : Nat) : Int :=
  min config.maxBackoff (config.initialBackoff * factor ^ (failures - 1))

/-- The counter of the attempts still is their number, or the schedule does not depend on it. -/
def OnPace (config : ReconnectionConfig) (factor failures : Nat) : Prop :=
  failures < UInt16.size ∨ factor = 1 ∨ config.initialBackoff = 0 ∨
    config.maxBackoff ≤ config.initialBackoff * factor ^ (failures % UInt16.size - 1)

variable {config : ReconnectionConfig} {factor : Nat}

theorem growth_mono (grows : config.Grows factor) {few many : Nat} (le : few ≤ many) :
    config.initialBackoff * factor ^ few ≤ config.initialBackoff * factor ^ many := by
  have positive : (1 : Int) ≤ factor := by exact_mod_cast grows.positive
  exact Int.mul_le_mul_of_nonneg_left (pow_le_pow_right₀ positive le) grows.initial

/-- The delays never decrease. -/
theorem schedule_mono (grows : config.Grows factor) {few many : Nat} (le : few ≤ many) :
    config.schedule factor few ≤ config.schedule factor many :=
  min_le_min_left _ (growth_mono grows (Nat.sub_le_sub_right le 1))

/-- The loop of `calculate_backoff` multiplies until it reaches the maximum. -/
theorem backoffLoop_eq (grows : config.Grows factor) (rounds : Nat) {backoff : Int} (nonneg : 0 ≤ backoff)
    (below : backoff ≤ config.maxBackoff) :
    Client.backoffLoop config rounds backoff = min config.maxBackoff (backoff * factor ^ rounds) := by
  have positive : (1 : Int) ≤ factor := by exact_mod_cast grows.positive
  induction rounds generalizing backoff with
  | zero => simp [Client.backoffLoop, below]
  | succ rounds ih =>
    have next := grows.product backoff nonneg below
    have more : 0 ≤ backoff * factor := Int.mul_nonneg nonneg (by omega)
    have split_pow : backoff * (factor : Int) ^ (rounds + 1) = backoff * factor * factor ^ rounds := by
      rw [pow_succ']
      ring
    simp only [Client.backoffLoop, next]
    by_cases reached : config.maxBackoff < backoff * factor
    · have beyond : backoff * factor ≤ backoff * factor * (factor : Int) ^ rounds :=
        le_mul_of_one_le_right more (one_le_pow₀ positive)
      rw [if_pos reached, split_pow, min_eq_left (by omega)]
    · rw [if_neg reached, ih more (by omega), split_pow]

/-- The wrapped counter leads to the scheduled delay only where the schedule repeats it. -/
theorem schedule_wrapped (grows : config.Grows factor) (failures : Nat) :
    config.schedule factor (failures % UInt16.size) = config.schedule factor failures ↔ config.OnPace factor failures := by
  constructor
  · intro same
    by_contra off
    simp only [OnPace, not_or, not_lt, not_le] at off
    obtain ⟨wrapped,growing,positive,below⟩ := off
    have larger : (1 : Int) < factor := by
      have := grows.positive
      omega
    have fewer : failures % UInt16.size - 1 < failures - 1 := by
      have := Nat.mod_lt failures (show 0 < UInt16.size by decide)
      simp only [UInt16.size] at *
      omega
    have initial := grows.initial
    have grown : config.initialBackoff * (factor : Int) ^ (failures % UInt16.size - 1) <
        config.initialBackoff * factor ^ (failures - 1) :=
      Int.mul_lt_mul_of_pos_left (pow_lt_pow_right₀ larger fewer) (by omega)
    simp only [schedule] at same
    omega
  · rintro (counted | rfl | zero | reached)
    · rw [Nat.mod_eq_of_lt counted]
    · simp [schedule]
    · simp [schedule, zero]
    · have further := growth_mono grows (Nat.sub_le_sub_right (Nat.mod_le failures UInt16.size) 1)
      simp only [schedule]
      omega

end ReconnectionConfig

namespace Episode
open ReconnectionConfig

/-- A failure schedules the next attempt as the back-off after so many failures demands. -/
def OnSchedule (config : ReconnectionConfig) (factor : Nat) : Event → List Event → Prop
  | .failed time due, older => due - time = seconds (config.schedule factor (attempts older))
  | _, _ => True

/-- The failures that come before the counter misleads. -/
def OnPace (config : ReconnectionConfig) (factor : Nat) : Event → List Event → Prop
  | .failed _ _, older => config.OnPace factor (attempts older)
  | _, _ => True

theorem seconds_inj {s t : Int} : seconds s = seconds t ↔ s = t := by
  simp only [seconds]
  omega

/-- The delay after a failure is that of the 16-bit counter. -/
theorem lawful_delay {config : ReconnectionConfig} {factor : Nat} (grows : config.Grows factor) {time due : Int}
    {older : List Event} (lawful : Throughout (Lawful config) (.failed time due :: older)) :
    due = time + seconds (config.schedule factor (attempts older % UInt16.size)) := by
  obtain ⟨⟨number,began,attempted,scheduled⟩,before⟩ := lawful
  obtain ⟨event,earlier,rfl⟩ : ∃ event earlier, older = event :: earlier := by
    cases older with
    | nil => cases attempted
    | cons event earlier => exact ⟨event,earlier,rfl⟩
  cases attempted
  have counted : number.toNat = (attempts earlier + 1) % UInt16.size := by
    rw [before.1.2.1]
    exact UInt16.toNat_ofNat
  rw [scheduled, counted, backoffLoop_eq grows _ grows.initial grows.capped]
  rfl

end Episode

namespace Client
variable {U : Type} [Object U]
open Episode

/-- In every run the failures schedule the next attempt as they should exactly where the counter
    still is the number of the attempts, or makes no difference. -/
theorem backoff_run {c d : Client U} (fresh : c.Fresh) (enabled : c.reconnectConfig.enabled = true) {factor : Nat}
    (grows : c.reconnectConfig.Grows factor) {actions : List Action} {history : List Episode.Event}
    (run : Run EpisodeStep (c,[]) actions (d,history)) :
    Throughout (fun event older =>
      OnSchedule c.reconnectConfig factor event older ↔ OnPace c.reconnectConfig factor event older) history := by
  have lawful := (episode_run fresh enabled run).lawful
  clear run
  induction history with
  | nil => trivial
  | cons event older ih =>
    refine ⟨?_,ih lawful.2⟩
    cases event with
    | failed time due =>
      have delay := lawful_delay grows lawful
      have same : due - time = seconds (c.reconnectConfig.schedule factor (attempts older % UInt16.size)) := by omega
      simp only [OnSchedule, OnPace]
      rw [same, seconds_inj]
      exact ReconnectionConfig.schedule_wrapped grows _
    | lost | attempt | reconnected | gaveUp => exact Iff.rfl

theorem sampleClient_grows : sampleClient.reconnectConfig.Grows 2 := ⟨by decide,by decide,by decide,fun _ _ _ => rfl⟩

/-- A server is registered with, and lost. -/
def lostOnce : List Action := [.register 1 created,.poll losing]

theorem lostOnce_backoff :
    (lostOnce.foldl record (sampleClient,[])).2 = [.failed 0 (seconds 2),.attempt 1 0,.lost] ∧
      Throughout (fun event older => OnSchedule sampleClient.reconnectConfig 2 event older ↔
        OnPace sampleClient.reconnectConfig 2 event older) (lostOnce.foldl record (sampleClient,[])).2 :=
  ⟨by decide +kernel,backoff_run sampleClient_fresh rfl sampleClient_grows (run_record (sampleClient,[]) lostOnce)⟩

/-! ### A server that stays away -/

/-- A poll at the given time, whose attempt cannot connect. -/
def failing (time : Int) : PollAnswers :=
  { reconnectAt := time
    register := { outcome := err .Timeout "Request timeout", connect := err .ConnectionFailed "Connection failed" }
    failedAt := time }

theorem registerWithServer_unconnected {ssid : UInt16} {a : RegisterAnswer} {e : Error} (connect : a.connect = .error e)
    {c : Client U} (closed : ssid ∉ c.connections) : ∃ e', (registerWithServer ssid a c).1 = .error e' := by
  have outcome := registerWithServer_outcome ssid a c
  have opened : (openConnection ssid a.connect c).1 = .error e := by
    simp [openConnection, closed, connect]
  generalize (registerWithServer ssid a c).1 = result at outcome ⊢
  generalize (registerWithServer ssid a c).2 = d at outcome
  cases outcome with
  | missing e' => exact ⟨e',rfl⟩
  | unopened _ e' => exact ⟨e',rfl⟩
  | failed _ _ e' => exact ⟨e',rfl⟩
  | accepted _ opened' => rw [opened'] at opened; cases opened

theorem reconnect_unconnected (ssid : UInt16) {a : RegisterAnswer} {e : Error} (connect : a.connect = .error e)
    (time failedAt : Int) (c : Client U) :
    (reconnect ssid a failedAt c).reported time = .attempt (c.reconnectAttempts + 1) time :: c.reported time ∧
      (reconnect ssid a failedAt c).reconnecting = c.reconnecting := by
  obtain ⟨e',failed⟩ := registerWithServer_unconnected connect (c := c.beginAttempt ssid)
    (show ssid ∉ c.connections.erase ssid by simp [AList.mem_erase])
  obtain ⟨reported,-,reconnecting,-,-⟩ := outlook_eq time (outlook_registerWithServer time ssid a (c.beginAttempt ssid))
  have began : (c.beginAttempt ssid).reported time = .attempt (c.reconnectAttempts + 1) time :: c.reported time :=
    reported_note time rfl _
  simp only [reconnect]
  generalize registerWithServer ssid a (c.beginAttempt ssid) = ended at failed reported reconnecting ⊢
  obtain ⟨result,d⟩ := ended
  cases failed
  exact ⟨reported.trans began,reconnecting⟩

theorem healthChecked_reconnecting (answers : PollAnswers) {c : Client U} (reconnecting : c.reconnecting = true) (time : Int) :
    (healthChecked answers c).outlook time = c.outlook time := by
  have same : (checkRegistrationUpdates answers.updatesAt answers.updates (pollConnections answers.during c)).outlook
      time = c.outlook time := by simp
  have busy := (outlook_eq time same).2.2.1.trans reconnecting
  simp [healthChecked, checkConnectionHealth, busy]

theorem tryReconnect_unlimited {c : Client U} (enabled : c.reconnectConfig.enabled = true)
    (unlimited : c.reconnectConfig.maxRetries = 0) (ssid : UInt16) (a : RegisterAnswer) (failedAt : Int) :
    tryReconnect ssid a failedAt c = reconnect ssid a failedAt c := by
  simp [tryReconnect, enabled, unlimited]

/-- Unlimited retries: a poll at which the next attempt is due makes it, and it fails. -/
theorem poll_failing {time : Int} {c : Client U} (enabled : c.reconnectConfig.enabled = true)
    (unlimited : c.reconnectConfig.maxRetries = 0) (reconnecting : c.reconnecting = true) (due : c.nextReconnectTime ≤ time) :
    (poll (failing time) c).reported time = .attempt (c.reconnectAttempts + 1) time :: c.reported time ∧
      (poll (failing time) c).reconnecting = true := by
  obtain ⟨reported,config,busy,made,next⟩ := outlook_eq time (healthChecked_reconnecting (failing time) reconnecting time)
  obtain ⟨attempted,still⟩ := reconnect_unconnected (healthChecked (failing time) c).reconnectSsid
    (a := (failing time).register) rfl time time (healthChecked (failing time) c)
  have tries : poll (failing time) c =
      reconnect (healthChecked (failing time) c).reconnectSsid (failing time).register time (healthChecked (failing time) c) := by
    rw [poll_eq, if_pos ⟨busy.trans reconnecting,next ▸ due⟩]
    exact tryReconnect_unlimited (by rw [config, enabled]) (by rw [config, unlimited]) _ _ _
  rw [tries, attempted, still, busy, reported, made]
  exact ⟨rfl,reconnecting⟩

/-- The server has stayed away for so many attempts, one every five minutes. -/
structure Away (config : ReconnectionConfig) (made : Nat) (s : Client U × List Episode.Event) : Prop where
  following : InEpisode config s.1 s.2
  reconnecting : s.1.reconnecting = true
  attempts : attempts s.2 = made
  last : ∃ time due older, s.2 = .failed time due :: older ∧ due ≤ seconds (300 * (made + 1))

theorem away_record {config : ReconnectionConfig} {factor made : Nat} (enabled : config.enabled = true)
    (unlimited : config.maxRetries = 0) (grows : config.Grows factor) (capped : config.maxBackoff ≤ 300)
    {s : Client U × List Episode.Event} (away : Away config made s) :
    Away config (made + 1) (record s (.poll (failing (seconds (300 * (made + 1)))))) := by
  obtain ⟨c,history⟩ := s
  obtain ⟨time,due,older,last,early⟩ := away.last
  let next := seconds (300 * (made + 1))
  let d := c.note (.called .poll)
  have called (time : Int) : d.outlook time = c.outlook time := outlook_note time rfl c
  have configured := away.following.config
  have ready : c.nextReconnectTime = due := away.following.due time due (by rw [last]; rfl)
  have reached : d.nextReconnectTime ≤ next := ready.trans_le early
  have busy : d.reconnecting = true := away.reconnecting
  obtain ⟨reported,still⟩ := poll_failing (configured ▸ enabled) (configured ▸ unlimited) busy reached
  rw [(outlook_eq next (called next)).1] at reported
  have events : (Action.poll (failing next)).events c (poll (failing next) d) =
      [.failed next (poll (failing next) d).nextReconnectTime,.attempt (d.reconnectAttempts + 1) next] := by
    have new : c.told next (poll (failing next) d) = [.attempt (d.reconnectAttempts + 1) next] := told_eq reported
    exact congrArg (closed next _) new
  have after := episode_act (.poll (failing next)) enabled away.following called
  show Away config (made + 1) (poll (failing next) d,(Action.poll (failing next)).events c (poll (failing next) d) ++ history)
  change InEpisode config (poll (failing next) d) ((Action.poll (failing next)).events c (poll (failing next) d) ++ history) at after
  rw [events] at after ⊢
  refine ⟨after,still,congrArg (· + 1) away.attempts,_,_,_,rfl,?_⟩
  have delay : (poll (failing next) d).nextReconnectTime = next +
      seconds (config.schedule factor (attempts (.attempt (d.reconnectAttempts + 1) next :: history) % UInt16.size)) :=
    lawful_delay grows after.lawful
  generalize attempts (.attempt (d.reconnectAttempts + 1) next :: history) % UInt16.size = failures at delay
  have bounded : config.schedule factor failures ≤ config.maxBackoff := min_le_left _ _
  have time : next = seconds (300 * (made + 1)) := rfl
  rw [delay, time]
  simp only [seconds]
  push_cast
  omega

/-- As many polls as named fail, one every five minutes. -/
def failures (made count : Nat) : List Action :=
  (List.range count).map (fun k => .poll (failing (seconds (300 * ((made + k : Nat) + 1)))))

theorem away_failures {config : ReconnectionConfig} {factor made : Nat} (enabled : config.enabled = true)
    (unlimited : config.maxRetries = 0) (grows : config.Grows factor) (capped : config.maxBackoff ≤ 300)
    {s : Client U × List Episode.Event} (away : Away config made s) (count : Nat) :
    Away config (made + count) ((failures made count).foldl record s) := by
  induction count with
  | zero => exact away
  | succ count ih =>
    rw [failures, List.range_succ, List.map_append, List.foldl_append]
    exact away_record enabled unlimited grows capped ih

/-- The server is lost, and 65536 attempts fail. -/
def awayActions : List Action := lostOnce ++ failures 1 65535

theorem awayActions_away : Away sampleClient.reconnectConfig 65536 (awayActions.foldl record (sampleClient,[])) := by
  have following := episode_run sampleClient_fresh rfl (run_record (sampleClient,[]) lostOnce)
  have first : Away sampleClient.reconnectConfig 1 (lostOnce.foldl record (sampleClient,[])) :=
    ⟨following,by decide +kernel,by decide +kernel,0,seconds 2,[.attempt 1 0,.lost],by decide +kernel,by decide⟩
  have all := away_failures rfl rfl sampleClient_grows (by decide) first 65535
  rwa [← List.foldl_append] at all

/-- With unlimited retries, the delay after the 65536th failure in a row is back at its initial two
    seconds, where five minutes are due. -/
theorem awayActions_restart : sampleClient.Fresh ∧ sampleClient.reconnectConfig.enabled = true ∧
    sampleClient.reconnectConfig.maxRetries = 0 ∧ sampleClient.reconnectConfig.Grows 2 ∧
      sampleClient.reconnectConfig.schedule 2 65536 = 300 ∧ ∃ d time older, attempts older = 65536 ∧
        Run EpisodeStep (sampleClient,[]) awayActions (d,.failed time (time + seconds 2) :: older) := by
  refine ⟨sampleClient_fresh,rfl,rfl,sampleClient_grows,?_,?_⟩
  · have capped : sampleClient.reconnectConfig.schedule 2 65536 ≤ 300 := min_le_left _ _
    have reached := ReconnectionConfig.schedule_mono sampleClient_grows (show 10 ≤ 65536 by decide)
    have tenth : sampleClient.reconnectConfig.schedule 2 10 = 300 := rfl
    omega
  · have run := run_record (sampleClient,[]) awayActions
    obtain ⟨following,-,made,time,due,older,last,-⟩ := awayActions_away
    generalize awayActions.foldl record (sampleClient,[]) = s at run following made last
    obtain ⟨d,history⟩ := s
    subst last
    have restarted : due = time + seconds (sampleClient.reconnectConfig.schedule 2 (attempts older % UInt16.size)) :=
      lawful_delay sampleClient_grows following.lawful
    have wrapped : attempts older = 65536 := made
    rw [wrapped] at restarted
    exact ⟨d,time,older,wrapped,restarted ▸ run⟩

end Client

end Ferriot
