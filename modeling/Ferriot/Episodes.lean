import Ferriot.CallOutcomes

/-!
# Reconnection episodes

From the loss of a connection to the re-registration, or to the last attempt that
fails: which attempts a client makes, how many, and when.
-/
namespace Ferriot
open Tables Requests Runs

/-- What happens in an episode: the connection is lost, an attempt is made, an attempt
    fails and the next one is due, an attempt succeeds, or no more are made. -/
inductive Episode.Event where
  | lost
  | attempt (number : UInt16) (time : Int)
  | failed (time due : Int)
  | reconnected
  | gaveUp
deriving DecidableEq, Repr

/-- What an entry of the log says about the episode; an attempt is made at the given time. -/
def Entry.episode (time : Int) : Entry → Option Episode.Event
  | .notified (.onConnectionLost _) => some .lost
  | .notified (.onReconnecting _ number) => some (.attempt number time)
  | .notified (.onReconnected _) => some .reconnected
  | .notified (.onError _ message) => if message = "Max reconnection attempts reached" then some .gaveUp else none
  | _ => none

namespace Client
variable {U : Type}

def reported (time : Int) (c : Client U) : List Episode.Event := c.log.filterMap (Entry.episode time)

/-- All that an episode depends on. -/
def outlook (time : Int) (c : Client U) : List Episode.Event × ReconnectionConfig × Bool × UInt16 × Int :=
  (c.reported time,c.reconnectConfig,c.reconnecting,c.reconnectAttempts,c.nextReconnectTime)

variable (time : Int)

theorem outlook_eq {c d : Client U} (same : d.outlook time = c.outlook time) :
    d.reported time = c.reported time ∧ d.reconnectConfig = c.reconnectConfig ∧ d.reconnecting = c.reconnecting ∧
      d.reconnectAttempts = c.reconnectAttempts ∧ d.nextReconnectTime = c.nextReconnectTime := by
  simpa only [outlook, Prod.mk.injEq] using same

theorem reported_note {e : Entry} {event : Episode.Event} (tells : e.episode time = some event) (c : Client U) :
    (c.note e).reported time = event :: c.reported time := List.filterMap_cons_some tells

theorem reported_silent {e : Entry} (silent : e.episode time = none) (c : Client U) :
    (c.note e).reported time = c.reported time := List.filterMap_cons_none silent

theorem outlook_note {e : Entry} (silent : e.episode time = none) (c : Client U) :
    (c.note e).outlook time = c.outlook time := Prod.ext (reported_silent time silent c) rfl

@[simp] theorem outlook_setState (c : Client U) (new : ClientState) :
    (c.setState new).outlook time = c.outlook time := by
  simp only [setState]
  split <;> rfl

@[simp] theorem outlook_renew (c : Client U) (ssid : UInt16) (now : Int) :
    (c.renew ssid now).outlook time = c.outlook time := by
  simp only [renew]
  split <;> rfl

@[simp] theorem outlook_noteAccepted (c : Client U) (ssid : UInt16) (operation : Operation) (now : Int) :
    (c.noteAccepted ssid operation now).outlook time = c.outlook time := by
  simp only [noteAccepted]
  split <;> rfl

theorem outlook_sendWith {wait : Client U → Client U} (waits : ∀ d, (wait d).outlook time = d.outlook time)
    (ssid : UInt16) (operation : Operation) (request : CoapRequest) (refused : Option Error)
    (outcome : Result CoapResponse) (c : Client U) :
    (sendWith wait ssid operation request refused outcome c).2.outlook time = c.outlook time := by
  simp only [sendWith]
  split
  · cases refused with
    | some e => rfl
    | none => exact waits _
  · rfl

theorem outlook_updateWith {wait : Client U → Client U} (waits : ∀ d, (wait d).outlook time = d.outlook time)
    (ssid : UInt16) (refused : Option Error) (outcome : Result CoapResponse) (now : Int) (c : Client U) :
    (updateWith wait ssid refused outcome now c).2.outlook time = c.outlook time := by
  simp only [updateWith]
  cases c.registrations.lookup ssid with
  | none => rfl
  | some reg =>
    cases c.connections.lookup ssid with
    | none => rfl
    | some conn =>
      have sent := outlook_sendWith time waits ssid .update
        { method := .Post, uriPath := reg.location, contentFormat := .LinkFormat } refused outcome (c.setState .Updating)
      rw [outlook_setState] at sent
      dsimp only
      split
      · rwa [outlook_setState]
      · split <;> simpa using sent

@[simp] theorem outlook_openConnection (ssid : UInt16) (connect : Result Unit) (c : Client U) :
    (openConnection ssid connect c).2.outlook time = c.outlook time := by
  simp only [openConnection]
  split
  · rfl
  · cases connect <;> rfl

@[simp] theorem outlook_storeRegistration (ssid : UInt16) (location : Bytes) (lifetime : UInt32) (a : RegisterAnswer)
    (c : Client U) : (storeRegistration ssid location lifetime a c).outlook time = c.outlook time := by
  simp only [storeRegistration, notify]
  rw [outlook_note time rfl, outlook_setState, outlook_noteAccepted]
  rfl

theorem outlook_start (c : Client U) : (start c).2.outlook time = c.outlook time := by
  simp only [start]
  split
  · rfl
  · exact outlook_setState time { c with running := true } .Idle

/-- What no step of a loop changes, the loop does not. -/
theorem outlook_foldl {α : Type} {f : Client U → α → Client U}
    (each : ∀ d x, (f d x).outlook time = d.outlook time) (xs : List α) (c : Client U) :
    (xs.foldl f c).outlook time = c.outlook time := by
  induction xs generalizing c with
  | nil => rfl
  | cons x xs ih => exact (ih _).trans (each c x)

section
variable [Object U]

@[simp] theorem outlook_deliver (events : Events) (ssid : UInt16) (c : Client U) :
    (deliver events ssid c).outlook time = c.outlook time := by
  induction events generalizing ssid c with
  | done => rfl
  | session up after ih => exact ih ssid _
  | request moments request refused during outcome now after duringIh afterIh =>
    rw [deliver, afterIh, serve, outlook_note time rfl]
    split
    · next target _ => exact outlook_updateWith time (duringIh target) target refused outcome now _
    · rfl

@[simp] theorem outlook_send (ssid : UInt16) (operation : Operation) (request : CoapRequest) (a : Answer) (c : Client U) :
    (send ssid operation request a c).2.outlook time = c.outlook time :=
  outlook_sendWith time (outlook_deliver time a.during ssid) ssid operation request a.refused a.outcome c

@[simp] theorem outlook_updateRegistration (ssid : UInt16) (a : Answer) (c : Client U) :
    (updateRegistration ssid a c).2.outlook time = c.outlook time :=
  outlook_updateWith time (outlook_deliver time a.during ssid) ssid a.refused a.outcome a.now c

@[simp] theorem outlook_pollConnections (during : UInt16 → Events) (c : Client U) :
    (pollConnections during c).outlook time = c.outlook time :=
  outlook_foldl time (fun d ssid => outlook_deliver time (during ssid) ssid d) c.connections.keys c

@[simp] theorem outlook_checkRegistrationUpdates (now : Int) (answers : UInt16 → Answer) (c : Client U) :
    (checkRegistrationUpdates now answers c).outlook time = c.outlook time := by
  refine outlook_foldl time (fun d ssid => ?_) c.registrations.keys c
  simp only [checkRegistrationUpdate]
  split
  · split
    · exact outlook_updateRegistration time ssid _ d
    · rfl
  · rfl

theorem outlook_registerWithServer (ssid : UInt16) (a : RegisterAnswer) (c : Client U) :
    (registerWithServer ssid a c).2.outlook time = c.outlook time := by
  have outcome := registerWithServer_outcome ssid a c
  generalize (registerWithServer ssid a c).1 = result at outcome
  generalize (registerWithServer ssid a c).2 = d at outcome ⊢
  have opens {result : Result Unit} {e : Client U} (opened : openConnection ssid a.connect c = (result,e)) :
      e.outlook time = c.outlook time := by
    rw [← outlook_openConnection time ssid a.connect c, opened]
  cases outcome with
  | missing e => rfl
  | unopened opened e => exact opens opened
  | failed found opened e => simp [attempt, opens opened]
  | accepted found opened answered success located => simp [attempt, opens opened]

theorem outlook_deregister (ssid : UInt16) (a : Answer) (c : Client U) :
    (deregister ssid a c).2.outlook time = c.outlook time := by
  simp only [deregister]
  cases c.registrations.lookup ssid with
  | none => rfl
  | some reg =>
    dsimp only
    rw [outlook_setState, notify, outlook_note time rfl]
    show (sendDeregister ssid reg a c).outlook time = c.outlook time
    simp only [sendDeregister]
    cases c.connections.lookup ssid with
    | none => rfl
    | some conn => simp

theorem outlook_stop (onEventThread : Bool) (answers : UInt16 → Answer) (c : Client U) :
    (stop onEventThread answers c).outlook time = c.outlook time := by
  simp only [stop]
  split
  · rfl
  · rw [outlook_setState]
    exact outlook_foldl time (fun d ssid => outlook_deregister time ssid (answers ssid) d) _ _

end

end Client

/-! ### The law of an episode -/

namespace Episode

/-- No episode has begun, or the last one has ended. -/
def Over : List Event → Prop
  | [] | .reconnected :: _ | .gaveUp :: _ => True
  | _ => False

/-- The next attempt of an episode is awaited. -/
def Waiting : List Event → Prop
  | .lost :: _ | .failed _ _ :: _ => True
  | _ => False

/-- The attempts since the connection was lost. -/
def attempts : List Event → Nat
  | [] | .lost :: _ => 0
  | .attempt _ _ :: older => attempts older + 1
  | _ :: older => attempts older

/-- The retries are used up. -/
def Exhausted (config : ReconnectionConfig) (made : UInt16) : Prop := 0 < config.maxRetries ∧ config.maxRetries ≤ made

/-- What an event says of those before it; the attempts are counted in 16 bits. -/
def Lawful (config : ReconnectionConfig) : Event → List Event → Prop
  | .lost, older => Over older
  | .attempt number time, older =>
    Waiting older ∧ number = UInt16.ofNat (attempts older + 1) ∧ ¬ Exhausted config (UInt16.ofNat (attempts older)) ∧
      ∀ failedAt due, older.head? = some (.failed failedAt due) → due ≤ time
  | .failed time due, older =>
    ∃ number began, older.head? = some (.attempt number began) ∧
      due = time + seconds (Client.backoffLoop config (number.toNat - 1) config.initialBackoff)
  | .reconnected, older => ∃ number began, older.head? = some (.attempt number began)
  | .gaveUp, older => Waiting older ∧ Exhausted config (UInt16.ofNat (attempts older))

/-- An attempt that no event follows has failed, and the next one is due. -/
def closed (failedAt due : Int) : List Event → List Event
  | .attempt number began :: older => .failed failedAt due :: .attempt number began :: older
  | events => events

theorem closed_append (failedAt due : Int) {new : List Event} (some : new ≠ []) (older : List Event) :
    closed failedAt due (new ++ older) = closed failedAt due new ++ older := by
  cases new with
  | nil => exact absurd rfl some
  | cons event new => cases event <;> rfl

end Episode

namespace Client
variable {U : Type}
open Episode

/-- The history is lawful, and the client where it leads. -/
structure InEpisode (config : ReconnectionConfig) (c : Client U) (history : List Episode.Event) : Prop where
  lawful : Throughout (Lawful config) history
  config : c.reconnectConfig = config
  quiet : c.reconnecting = false → Over history
  waiting : c.reconnecting = true → Waiting history
  attempts : c.reconnecting = true → c.reconnectAttempts = UInt16.ofNat (attempts history)
  due : ∀ failedAt due, history.head? = some (.failed failedAt due) → c.nextReconnectTime = due

variable {config : ReconnectionConfig} {history : List Episode.Event}

theorem InEpisode.same {c d : Client U} {time : Int} (following : InEpisode config c history)
    (same : d.outlook time = c.outlook time) : InEpisode config d history := by
  obtain ⟨-,kept,reconnecting,attempts,next⟩ := outlook_eq time same
  refine ⟨following.lawful,kept.trans following.config,?_,?_,?_,?_⟩
  · rw [reconnecting]
    exact following.quiet
  · rw [reconnecting]
    exact following.waiting
  · rw [reconnecting, attempts]
    exact following.attempts
  · rw [next]
    exact following.due

/-- A loss begins an episode. -/
theorem episode_lost (ssid : UInt16) (now : Int) {c : Client U} (following : InEpisode config c history)
    (before : c.state = .Registered ∧ c.reconnecting = false) :
    InEpisode config (handleConnectionLost ssid now c) (.lost :: history) := by
  have lost := handleConnectionLost_cases ssid now before
  refine ⟨⟨following.quiet before.2,following.lawful⟩,lost.config.trans following.config,?_,fun _ => trivial,
    fun _ => lost.attempts,by simp⟩
  intro quiet
  rw [lost.reconnecting] at quiet
  contradiction

theorem reported_lost (time : Int) (ssid : UInt16) (now : Int) {c : Client U}
    (before : c.state = .Registered ∧ c.reconnecting = false) :
    (handleConnectionLost ssid now c).reported time = .lost :: c.reported time := by
  simp only [handleConnectionLost, before.2, Bool.false_eq_true, ↓reduceIte, notify]
  rw [reported_silent time (by simp [Entry.episode]), reported_note time rfl]
  exact congrArg (.lost :: ·) (outlook_eq time (outlook_setState time { c with reconnecting := true } .Error)).1

/-- The health check begins an episode, or does nothing. -/
theorem episode_checkConnectionHealth (now lostAt : Int) {c : Client U} (following : InEpisode config c history) :
    ∃ new, (∀ time, (checkConnectionHealth now lostAt c).reported time = new ++ c.reported time) ∧
      InEpisode config (checkConnectionHealth now lostAt c) (new ++ history) ∧ ∀ failedAt due, closed failedAt due new = new := by
  simp only [checkConnectionHealth]
  split
  · exact ⟨[],fun _ => rfl,following,fun _ _ => rfl⟩
  · next looked =>
    have before : c.state = .Registered ∧ c.reconnecting = false := by simpa using looked
    cases c.lostConnection now with
    | none => exact ⟨[],fun _ => rfl,following,fun _ _ => rfl⟩
    | some ssid =>
      exact ⟨[.lost],fun time => reported_lost time ssid lostAt before,episode_lost ssid lostAt following before,fun _ _ => rfl⟩

/-- An episode whose retries are used up is given up. -/
theorem episode_giveUp {c : Client U} (following : InEpisode config c history) (waiting : Waiting history)
    (exhausted : Exhausted config (UInt16.ofNat (attempts history))) :
    InEpisode config ({ c with reconnecting := false }.notify (.onError .ConnectionFailed "Max reconnection attempts reached"))
      (.gaveUp :: history) := by
  refine ⟨⟨⟨waiting,exhausted⟩,following.lawful⟩,following.config,fun _ => trivial,?_,?_,by simp⟩
  · rintro ⟨⟩
  · rintro ⟨⟩

section
variable [Object U]

/-- An attempt that is due fails, or ends the episode. -/
theorem episode_reconnect (ssid : UInt16) (a : RegisterAnswer) (time failedAt : Int) {c : Client U}
    (following : InEpisode config c history) (reconnecting : c.reconnecting = true)
    (more : ¬ Exhausted config c.reconnectAttempts) (due : c.nextReconnectTime ≤ time) :
    ∃ new, new ≠ [] ∧ (reconnect ssid a failedAt c).reported time = new ++ c.reported time ∧
      InEpisode config (reconnect ssid a failedAt c)
        (closed failedAt (reconnect ssid a failedAt c).nextReconnectTime new ++ history) := by
  have counted := following.attempts reconnecting
  have number : c.reconnectAttempts + 1 = UInt16.ofNat (attempts history + 1) := by
    rw [counted]
    simp
  have attempted : Throughout (Lawful config) (.attempt (c.reconnectAttempts + 1) time :: history) := by
    refine ⟨⟨following.waiting reconnecting,number,counted ▸ more,?_⟩,following.lawful⟩
    intro at' due' failed
    rw [← following.due at' due' failed]
    exact due
  have began : (c.beginAttempt ssid).reported time = .attempt (c.reconnectAttempts + 1) time :: c.reported time :=
    reported_note time rfl _
  obtain ⟨reported,sameConfig,busy,sameAttempts,-⟩ := outlook_eq time (outlook_registerWithServer time ssid a (c.beginAttempt ssid))
  simp only [reconnect]
  generalize registerWithServer ssid a (c.beginAttempt ssid) = ended at reported sameConfig busy sameAttempts ⊢
  have config' : ended.2.reconnectConfig = config := sameConfig.trans following.config
  have counted' : ended.2.reconnectAttempts = UInt16.ofNat (attempts history + 1) := sameAttempts.trans number
  rcases ended with ⟨e | ⟨⟩,d⟩
  · refine ⟨[.attempt (c.reconnectAttempts + 1) time],by simp,reported.trans began,⟨⟨⟨_,_,rfl,?_⟩,attempted⟩,config',?_,fun _ => trivial,?_,?_⟩⟩
    · simp only [calculateBackoff]
      rw [config', counted', number]
    · intro quiet
      have still : d.reconnecting = true := busy.trans reconnecting
      cases quiet.symm.trans still
    · intro _
      exact counted'
    · rintro _ _ ⟨⟩
      rfl
  · refine ⟨[.reconnected,.attempt (c.reconnectAttempts + 1) time],by simp,?_,⟨⟨⟨_,_,rfl⟩,attempted⟩,config',fun _ => trivial,?_,?_,by simp [closed]⟩⟩
    · exact (reported_note time rfl _).trans (congrArg (.reconnected :: ·) (reported.trans began))
    · rintro ⟨⟩
    · rintro ⟨⟩

/-- An attempt that is due is made, unless the episode is given up. -/
theorem episode_tryReconnect (ssid : UInt16) (a : RegisterAnswer) (time failedAt : Int) {c : Client U}
    (following : InEpisode config c history) (enabled : config.enabled = true) (reconnecting : c.reconnecting = true)
    (due : c.nextReconnectTime ≤ time) :
    ∃ new, new ≠ [] ∧ (tryReconnect ssid a failedAt c).reported time = new ++ c.reported time ∧
      InEpisode config (tryReconnect ssid a failedAt c)
        (closed failedAt (tryReconnect ssid a failedAt c).nextReconnectTime new ++ history) := by
  have counted := following.attempts reconnecting
  have on : c.reconnectConfig.enabled = true := by rw [following.config, enabled]
  simp only [tryReconnect, on, Bool.not_true, Bool.false_eq_true, ↓reduceIte]
  split
  · next exhausted =>
    rw [following.config, counted] at exhausted
    exact ⟨[.gaveUp],by simp,reported_note time (by simp [Entry.episode]) _,
      episode_giveUp following (following.waiting reconnecting) exhausted⟩
  · next more =>
    rw [following.config] at more
    exact episode_reconnect ssid a time failedAt following reconnecting more due

theorem episode_healthChecked (answers : PollAnswers) {c : Client U} (following : InEpisode config c history) :
    ∃ new, (∀ time, (healthChecked answers c).reported time = new ++ c.reported time) ∧
      InEpisode config (healthChecked answers c) (new ++ history) ∧ ∀ failedAt due, closed failedAt due new = new := by
  have same (time : Int) : (checkRegistrationUpdates answers.updatesAt answers.updates
      (pollConnections answers.during c)).outlook time = c.outlook time := by simp
  obtain ⟨new,reported,checked,settled⟩ :=
    episode_checkConnectionHealth answers.healthAt answers.lostAt (following.same (same 0))
  exact ⟨new,fun time => (reported time).trans (congrArg (new ++ ·) (outlook_eq time (same time)).1),checked,settled⟩

/-- What a poll adds to the history. -/
theorem episode_poll (answers : PollAnswers) {c : Client U} (following : InEpisode config c history)
    (enabled : config.enabled = true) :
    ∃ new, (poll answers c).reported answers.reconnectAt = new ++ c.reported answers.reconnectAt ∧
      InEpisode config (poll answers c) (closed answers.failedAt (poll answers c).nextReconnectTime new ++ history) := by
  obtain ⟨found,reported,checked,settled⟩ := episode_healthChecked answers following
  rw [poll_eq]
  split
  · next attempts =>
    obtain ⟨new,some,tried,after⟩ := episode_tryReconnect (healthChecked answers c).reconnectSsid answers.register
      answers.reconnectAt answers.failedAt checked enabled attempts.1 attempts.2
    refine ⟨new ++ found,?_,?_⟩
    · rw [tried, reported, List.append_assoc]
    · rwa [closed_append _ _ some, List.append_assoc]
  · exact ⟨found,reported answers.reconnectAt,(settled answers.failedAt _).symm ▸ checked⟩

end

/-- What a call has reported since the state before it. -/
def told (time : Int) (c d : Client U) : List Episode.Event :=
  (d.reported time).take ((d.reported time).length - (c.reported time).length)

theorem told_eq {time : Int} {c d : Client U} {new : List Episode.Event}
    (reported : d.reported time = new ++ c.reported time) : told time c d = new := by
  simp [told, reported]

end Client

/-- The events of a call, whose attempt, if it makes one, is a poll's. -/
def Action.events {U : Type} : Action → Client U → Client U → List Episode.Event
  | .poll answers, c, d => Episode.closed answers.failedAt d.nextReconnectTime (c.told answers.reconnectAt d)
  | _, c, d => c.told 0 d

namespace Client
variable {U : Type} [Object U]
open Episode

/-- A step of a client whose history is kept, latest event first. -/
def EpisodeStep (s : Client U × List Episode.Event) (action : Action) (t : Client U × List Episode.Event) : Prop :=
  Step s.1 action t.1 ∧ t.2 = action.events s.1 t.1 ++ s.2

variable {config : ReconnectionConfig} {history : List Episode.Event}

omit [Object U] in
/-- A call is noted, on a client whose tables may have been reordered. -/
theorem outlook_called {c d : Client U} (reordered : Reordered c d) (call : Call) (time : Int) :
    (d.note (.called call)).outlook time = c.outlook time := by
  rw [outlook_note time rfl, reordered.rest]
  rfl

/-- A call that is no poll leaves the episode as it was. -/
theorem outlook_act {action : Action} (other : ∀ answers, action ≠ .poll answers) (time : Int) (c : Client U) :
    (c.act action).outlook time = c.outlook time := by
  cases action with
  | register ssid a => exact outlook_registerWithServer time ssid a c
  | update ssid a => exact outlook_updateRegistration time ssid a c
  | deregister ssid a => exact outlook_deregister time ssid a c
  | start => exact outlook_start time c
  | stop onEventThread answers => exact outlook_stop time onEventThread answers c
  | poll answers => exact absurd rfl (other answers)

theorem episode_act (action : Action) {c d : Client U} (enabled : config.enabled = true)
    (following : InEpisode config c history) (same : ∀ time, d.outlook time = c.outlook time) :
    InEpisode config (d.act action) (action.events c (d.act action) ++ history) := by
  have noted : InEpisode config d history := following.same (same 0)
  have quiet (other : ∀ answers, action ≠ .poll answers) :
      InEpisode config (d.act action) (c.told 0 (d.act action) ++ history) := by
    have unchanged := (outlook_act other 0 d).trans (same 0)
    have silent : c.told 0 (d.act action) = [] := told_eq (outlook_eq 0 unchanged).1
    rw [silent]
    exact following.same unchanged
  cases action with
  | poll answers =>
    obtain ⟨new,reported,after⟩ := episode_poll answers noted enabled
    rw [(outlook_eq _ (same answers.reconnectAt)).1] at reported
    rw [Action.events, show d.act (.poll answers) = poll answers d from rfl, told_eq reported]
    exact after
  | register ssid a => exact quiet (by simp)
  | update ssid a => exact quiet (by simp)
  | deregister ssid a => exact quiet (by simp)
  | start => exact quiet (by simp)
  | stop onEventThread answers => exact quiet (by simp)

theorem episode_step {s t : Client U × List Episode.Event} {action : Action} (enabled : config.enabled = true)
    (following : InEpisode config s.1 s.2) (step : EpisodeStep s action t) : InEpisode config t.1 t.2 := by
  obtain ⟨⟨d,reordered,performed⟩,told⟩ := step
  rw [told, performed]
  exact episode_act action enabled following (outlook_called reordered action.call)

omit [Object U] in
theorem Fresh.inEpisode {c : Client U} (fresh : c.Fresh) : InEpisode c.reconnectConfig c [] := by
  refine ⟨trivial,rfl,fun _ => trivial,?_,?_,by simp⟩
  · rw [fresh.reconnecting]
    rintro ⟨⟩
  · rw [fresh.reconnecting]
    rintro ⟨⟩

/-- Every history is lawful, as long as reconnecting is enabled. -/
theorem episode_run {c d : Client U} (fresh : c.Fresh) (enabled : c.reconnectConfig.enabled = true)
    {actions : List Action} {history : List Episode.Event} (run : Run EpisodeStep (c,[]) actions (d,history)) :
    InEpisode c.reconnectConfig d history := by
  have keep (s : Client U × List Episode.Event) (action : Action) (t : Client U × List Episode.Event)
      (following : InEpisode c.reconnectConfig s.1 s.2) (step : EpisodeStep s action t) :
      InEpisode c.reconnectConfig t.1 t.2 := episode_step enabled following step
  exact run.keeps keep fresh.inEpisode

end Client

namespace Episode

end Episode

namespace Client
variable {U : Type} [Object U]
open Episode

/-- A step without reordering. -/
def record (s : Client U × List Episode.Event) (action : Action) : Client U × List Episode.Event :=
  (s.1.perform action,action.events s.1 (s.1.perform action) ++ s.2)

theorem run_record (s : Client U × List Episode.Event) (actions : List Action) :
    Run EpisodeStep s actions (actions.foldl record s) :=
  run_foldl (fun s action => ⟨step_perform s.1 action,rfl⟩) s actions

end Client

end Ferriot
