import Ferriot.CallOutcomes

/-!
# What the callbacks tell

An application sees of the client what its callbacks say. An observer that starts
with the first state and hears one callback after the other is never told anything
that does not fit what it has heard before, and believes of the state, of the
registrations and of the reconnection what is so.
-/
namespace Ferriot
open Tables Requests Runs

/-- What an application knows of a client. -/
structure View where
  state : ClientState
  /-- The location and the time of the registration with each server. -/
  registered : UInt16 → Option (Bytes × Int) := fun _ => none
  /-- The server whose connection is lost, and the attempts announced since. -/
  lost : Option (UInt16 × UInt16) := none

namespace View

/-- `try_reconnect` announces the attempt after the last one, for the server that is lost. -/
def attempt (v : View) (ssid number : UInt16) : Option View :=
  match v.lost with
  | some (lost,made) => if lost = ssid ∧ number = made + 1 then some { v with lost := some (ssid,number) } else none
  | none => none

/-- The observer hears of an error: the notice that follows a loss, or the end of the attempts. -/
def failure (v : View) (message : String) : Option View :=
  if message = "Connection to server lost" then if v.lost.isSome then some v else none
  else if message = "Max reconnection attempts reached" then
    if v.lost.isSome then some { v with lost := none } else none
  else none

/-- The observer hears a callback, unless it is one that does not fit. -/
def hear (v : View) : Notification → Option View
  | .onStateChange old new => if old = v.state ∧ new ≠ old then some { v with state := new } else none
  | .onRegistered ssid reg =>
    if v.state = .Registered ∧ reg.shortServerId = ssid ∧ reg.location ≠ [] then
      some { v with registered := Function.update v.registered ssid (some (reg.location,reg.registeredAt)) }
    else none
  | .onDeregistered ssid =>
    if (v.registered ssid).isSome then some { v with registered := Function.update v.registered ssid none } else none
  | .onConnectionLost ssid =>
    if v.state = .Error then
      some { v with registered := Function.update v.registered ssid none, lost := some (ssid,0) }
    else none
  | .onError code message => if code = .ConnectionFailed then v.failure message else none
  | .onReconnecting ssid number => v.attempt ssid number
  | .onReconnected ssid =>
    if v.state = .Registered ∧ (v.registered ssid).isSome ∧ v.lost.map Prod.fst = some ssid then some { v with lost := none }
    else none

end View

/-- What an entry of the log tells the application. -/
def Entry.callback : Entry → Option Notification
  | .notified notification => some notification
  | _ => none

namespace Client
variable {U : Type}

/-- The callbacks made so far, in order. -/
def callbacks (c : Client U) : List Notification := (c.log.filterMap Entry.callback).reverse

/-- The location and the time of a registration. -/
def registeredAs (c : Client U) (ssid : UInt16) : Option (Bytes × Int) :=
  (c.registrations.lookup ssid).map (fun reg => (reg.location,reg.registeredAt))

/-- What the observer believes is so. If the client is configured not to reconnect, it drops a
    reconnection without a word. -/
structure Tells (c : Client U) (v : View) : Prop where
  state : v.state = c.state
  registered : ∀ ssid, v.registered ssid = c.registeredAs ssid
  lost : c.reconnecting = true → v.lost = some (c.reconnectSsid,c.reconnectAttempts)
  quiet : c.reconnecting = false → c.reconnectConfig.enabled = true → v.lost = none

/-! ### Callbacks -/

@[simp] theorem callbacks_notify (c : Client U) (n : Notification) : (c.notify n).callbacks = c.callbacks ++ [n] := by
  simp [callbacks, notify, note, Entry.callback]

theorem callbacks_note {e : Entry} (silent : e.callback = none) (c : Client U) : (c.note e).callbacks = c.callbacks := by
  simp [callbacks, note, silent]

theorem registeredAs_isSome {c : Client U} {ssid : UInt16} (registered : ssid ∈ c.registrations) :
    (c.registeredAs ssid).isSome = true := by
  rw [registeredAs, Option.isSome_map]
  exact AList.lookup_isSome.mpr registered

/-- The change of the state is told. -/
theorem hear_setState (c : Client U) (new : ClientState) :
    ∃ told, (c.setState new).callbacks = c.callbacks ++ told ∧
      ∀ v : View, v.state = c.state → runPartial View.hear v told = some { v with state := new } := by
  simp only [setState]
  by_cases same : c.state = new
  · rw [if_pos same]
    refine ⟨[],(List.append_nil _).symm,?_⟩
    intro v known
    rw [← same, ← known]
    rfl
  · rw [if_neg same]
    refine ⟨_,callbacks_notify _ _,?_⟩
    intro v known
    have changes : c.state = v.state ∧ new ≠ c.state := ⟨known.symm,Ne.symm same⟩
    rw [runPartial_cons, View.hear, if_pos changes]
    rfl

/-- The callbacks between two states, after which the observer still knows what is so. -/
def Heard (c d : Client U) : Prop :=
  ∃ told, d.callbacks = c.callbacks ++ told ∧ ∀ v, Tells c v → ∃ w, runPartial View.hear v told = some w ∧ Tells d w

theorem Heard.refl (c : Client U) : Heard c c := ⟨[],(List.append_nil _).symm,fun v tells => ⟨v,rfl,tells⟩⟩

theorem Heard.trans {c d e : Client U} (first : Heard c d) (second : Heard d e) : Heard c e := by
  obtain ⟨told,callbacks,hears⟩ := first
  obtain ⟨more,moreCallbacks,hearsMore⟩ := second
  refine ⟨told ++ more,by rw [moreCallbacks, callbacks, List.append_assoc],?_⟩
  intro v tells
  obtain ⟨w,heard,tells⟩ := hears v tells
  obtain ⟨x,heardMore,tells⟩ := hearsMore w tells
  exact ⟨x,runPartial_append heard heardMore,tells⟩

/-- Nothing that an observer knows of has changed. -/
structure Unheard (c d : Client U) : Prop where
  callbacks : d.callbacks = c.callbacks
  state : d.state = c.state
  registered : ∀ ssid, d.registeredAs ssid = c.registeredAs ssid
  reconnecting : d.reconnecting = c.reconnecting
  reconnectSsid : d.reconnectSsid = c.reconnectSsid
  attempts : d.reconnectAttempts = c.reconnectAttempts
  config : d.reconnectConfig = c.reconnectConfig

theorem Unheard.tells {c d : Client U} (unheard : Unheard c d) {v : View} (tells : Tells c v) : Tells d v := by
  obtain ⟨-,state,registered,reconnecting,reconnectSsid,attempts,config⟩ := unheard
  refine ⟨tells.state.trans state.symm,fun ssid => (tells.registered ssid).trans (registered ssid).symm,?_,?_⟩
  · rw [reconnecting, reconnectSsid, attempts]
    exact tells.lost
  · rw [reconnecting, config]
    exact tells.quiet

theorem Unheard.heard {c d : Client U} (unheard : Unheard c d) : Heard c d :=
  ⟨[],by rw [unheard.callbacks, List.append_nil],fun v tells => ⟨v,rfl,unheard.tells tells⟩⟩

theorem unheard_note {e : Entry} (silent : e.callback = none) (c : Client U) : Unheard c (c.note e) :=
  ⟨callbacks_note silent c,rfl,fun _ => rfl,rfl,rfl,rfl,rfl⟩

theorem unheard_noteAccepted (c : Client U) (ssid : UInt16) (operation : Operation) (now : Int) :
    Unheard c (c.noteAccepted ssid operation now) := by
  simp only [noteAccepted]
  split
  · exact unheard_note rfl c
  · exact ⟨rfl,rfl,fun _ => rfl,rfl,rfl,rfl,rfl⟩

/-- An update moves the expiry, which no callback tells. -/
theorem unheard_renew (c : Client U) (ssid : UInt16) (now : Int) : Unheard c (c.renew ssid now) := by
  simp only [renew]
  split
  · refine ⟨rfl,rfl,?_,rfl,rfl,rfl,rfl⟩
    intro s
    simp only [registeredAs]
    rw [lookup_modify]
    by_cases same : s = ssid
    · rw [if_pos same, same, Option.map_map]
      rfl
    · rw [if_neg same]
  · exact ⟨rfl,rfl,fun _ => rfl,rfl,rfl,rfl,rfl⟩

theorem heard_setState (c : Client U) (new : ClientState) : Heard c (c.setState new) := by
  obtain ⟨told,callbacks,hears⟩ := hear_setState c new
  refine ⟨told,callbacks,?_⟩
  intro v tells
  refine ⟨_,hears v tells.state,?_⟩
  obtain ⟨-,reconnecting,attempts,ssid,-⟩ := control_eq (setState_control c new)
  refine ⟨(setState_state c new).symm,?_,?_,?_⟩
  · intro s
    rw [registeredAs, setState_registrations]
    exact tells.registered s
  · rw [reconnecting, attempts, ssid]
    exact tells.lost
  · rw [reconnecting, setState_config]
    exact tells.quiet

/-! ### Requests of the client -/

theorem heard_sendWith {wait : Client U → Client U} (waits : ∀ d, Heard d (wait d)) (ssid : UInt16) (operation : Operation)
    (request : CoapRequest) (refused : Option Error) (outcome : Result CoapResponse) (c : Client U) :
    Heard c (sendWith wait ssid operation request refused outcome c).2 := by
  simp only [sendWith]
  split
  · cases refused with
    | some e => exact .refl c
    | none => exact (unheard_note rfl c).heard.trans (waits _)
  · exact .refl c

theorem heard_updateWith {wait : Client U → Client U} (waits : ∀ d, Heard d (wait d)) (ssid : UInt16)
    (refused : Option Error) (outcome : Result CoapResponse) (now : Int) (c : Client U) :
    Heard c (updateWith wait ssid refused outcome now c).2 := by
  simp only [updateWith]
  cases c.registrations.lookup ssid with
  | none => exact .refl c
  | some reg =>
    cases c.connections.lookup ssid with
    | none => exact .refl c
    | some conn =>
      have sent := (heard_setState c .Updating).trans (heard_sendWith waits ssid .update
        { method := .Post, uriPath := reg.location, contentFormat := .LinkFormat } refused outcome (c.setState .Updating))
      dsimp only
      generalize sendWith wait ssid .update _ refused outcome (c.setState .Updating) = ended at sent ⊢
      obtain ⟨response,d⟩ := ended
      cases response with
      | error e => exact sent.trans (heard_setState d .Registered)
      | ok r =>
        dsimp only
        split
        · exact sent.trans ((unheard_renew d ssid now).heard.trans
            ((unheard_noteAccepted _ ssid .update now).heard.trans (heard_setState _ .Registered)))
        · exact sent.trans (heard_setState d .Registered)

theorem unheard_openConnection (ssid : UInt16) (connect : Result Unit) (c : Client U) :
    Unheard c (openConnection ssid connect c).2 := by
  simp only [openConnection]
  split
  · exact ⟨rfl,rfl,fun _ => rfl,rfl,rfl,rfl,rfl⟩
  · cases connect <;> exact ⟨callbacks_note rfl c,rfl,fun _ => rfl,rfl,rfl,rfl,rfl⟩

/-- The new registration is told after the state that comes with it. -/
theorem heard_storeRegistration (ssid : UInt16) {location : Bytes} (located : location ≠ []) (lifetime : UInt32)
    (a : RegisterAnswer) (c : Client U) : Heard c (storeRegistration ssid location lifetime a c) := by
  let reg : Registration := ⟨location,ssid,a.registeredAt,a.now + seconds lifetime.toNat⟩
  have noted : Unheard { c with registrations := set c.registrations ssid reg }
      (noteAccepted { c with registrations := set c.registrations ssid reg } ssid (.register lifetime) a.now) :=
    unheard_noteAccepted _ _ _ _
  have same : storeRegistration ssid location lifetime a c =
    ((noteAccepted { c with registrations := set c.registrations ssid reg } ssid (.register lifetime) a.now).setState
      .Registered).notify (.onRegistered ssid reg) := rfl
  rw [same]
  generalize noteAccepted { c with registrations := set c.registrations ssid reg } ssid (.register lifetime) a.now = d
    at noted ⊢
  obtain ⟨told,callbacks,hears⟩ := hear_setState d .Registered
  refine ⟨told ++ [.onRegistered ssid reg],?_,?_⟩
  · rw [callbacks_notify, callbacks, noted.callbacks, List.append_assoc]
    rfl
  · intro v tells
    have changed := hears v (tells.state.trans noted.state.symm)
    have fits : (ClientState.Registered = .Registered) ∧ reg.shortServerId = ssid ∧ reg.location ≠ [] := ⟨rfl,rfl,located⟩
    refine ⟨_,runPartial_append changed (by rw [runPartial_cons, View.hear, if_pos fits]; rfl),?_⟩
    obtain ⟨-,reconnecting,attempts,reconnectSsid,-⟩ := control_eq (setState_control d .Registered)
    refine ⟨(setState_state d .Registered).symm,?_,?_,?_⟩
    · intro s
      have stored : (d.setState .Registered).registeredAs s = ((set c.registrations ssid reg).lookup s).map
          (fun reg => (reg.location,reg.registeredAt)) := by
        rw [registeredAs, setState_registrations]
        exact noted.registered s
      refine Eq.trans ?_ stored.symm
      rw [lookup_set]
      by_cases here : s = ssid
      · subst here
        rw [if_pos rfl]
        exact Function.update_self ..
      · rw [if_neg here]
        exact (Function.update_of_ne here ..).trans (tells.registered s)
    · intro busy
      show v.lost = some ((d.setState .Registered).reconnectSsid,(d.setState .Registered).reconnectAttempts)
      rw [reconnectSsid, attempts, noted.reconnectSsid, noted.attempts]
      refine tells.lost ?_
      change (d.setState .Registered).reconnecting = true at busy
      rwa [reconnecting, noted.reconnecting] at busy
    · intro idle enabled
      change (d.setState .Registered).reconnecting = false at idle
      change (d.setState .Registered).reconnectConfig.enabled = true at enabled
      rw [reconnecting, noted.reconnecting] at idle
      rw [setState_config, noted.config] at enabled
      exact tells.quiet idle enabled

/-- The end of a registration is told before the state that it leaves. -/
theorem heard_dropRegistration {c : Client U} {ssid : UInt16} (registered : ssid ∈ c.registrations) (state : ClientState) :
    Heard c (({ c with registrations := c.registrations.erase ssid }.notify (.onDeregistered ssid)).setState state) := by
  refine Heard.trans ?_ (heard_setState _ state)
  refine ⟨_,callbacks_notify _ _,?_⟩
  intro v tells
  have known : (v.registered ssid).isSome = true := by rw [tells.registered]; exact registeredAs_isSome registered
  refine ⟨{ v with registered := Function.update v.registered ssid none },
    by rw [runPartial_cons, View.hear, if_pos known]; rfl,tells.state,?_,tells.lost,tells.quiet⟩
  intro s
  by_cases here : s = ssid
  · subst here
    refine (Function.update_self ..).trans ?_
    show none = ((c.registrations.erase s).lookup s).map _
    rw [AList.lookup_erase]
    rfl
  · refine (Function.update_of_ne here ..).trans ((tells.registered s).trans ?_)
    show _ = ((c.registrations.erase ssid).lookup s).map _
    rw [AList.lookup_erase_ne here]
    rfl

/-- The loss is told after the error state that comes with it. -/
theorem heard_handleConnectionLost (ssid : UInt16) (now : Int) {c : Client U} (quiet : c.reconnecting = false) :
    Heard c (handleConnectionLost ssid now c) := by
  obtain ⟨told,callbacks,hears⟩ := hear_setState { c with reconnecting := true } .Error
  have lost := setState_control { c with reconnecting := true } .Error
  obtain ⟨-,reconnecting,-⟩ := control_eq lost
  simp only [handleConnectionLost, quiet, Bool.false_eq_true, ↓reduceIte]
  refine ⟨told ++ [.onConnectionLost ssid, .onError .ConnectionFailed "Connection to server lost"],?_,?_⟩
  · rw [callbacks_notify, callbacks_notify]
    show ((setState { c with reconnecting := true } .Error).callbacks ++ _) ++ _ = _
    rw [callbacks, List.append_assoc, List.append_assoc]
    rfl
  · intro v tells
    refine ⟨_,runPartial_append (hears v tells.state) rfl,(setState_state _ _).symm,?_,fun _ => rfl,?_⟩
    · intro s
      show Function.update v.registered ssid none s = (((setState { c with reconnecting := true } .Error).registrations.erase
        ssid).lookup s).map _
      rw [setState_registrations]
      by_cases here : s = ssid
      · subst here
        rw [Function.update_self, AList.lookup_erase]
        rfl
      · rw [Function.update_of_ne here, AList.lookup_erase_ne here]
        exact tells.registered s
    · intro idle
      change (setState { c with reconnecting := true } .Error).reconnecting = false at idle
      rw [reconnecting] at idle
      cases idle

/-- An attempt is announced with the next number. -/
theorem heard_beginAttempt {c : Client U} (busy : c.reconnecting = true) : Heard c (c.beginAttempt c.reconnectSsid) := by
  refine ⟨[.onReconnecting c.reconnectSsid (c.reconnectAttempts + 1)],callbacks_notify _ _,?_⟩
  intro v tells
  have lost := tells.lost busy
  refine ⟨{ v with lost := some (c.reconnectSsid,c.reconnectAttempts + 1) },?_,tells.state,tells.registered,fun _ => rfl,?_⟩
  · simp [runPartial, View.hear, View.attempt, lost]
  · intro idle
    change c.reconnecting = false at idle
    rw [busy] at idle
    cases idle

theorem heard_checkConnectionHealth (now lostAt : Int) (c : Client U) : Heard c (checkConnectionHealth now lostAt c) := by
  simp only [checkConnectionHealth]
  split
  · exact .refl c
  · next looks =>
    have quiet : c.reconnecting = false := by simpa using (not_or.mp looks).2
    cases c.lostConnection now with
    | none => exact .refl c
    | some ssid => exact heard_handleConnectionLost ssid lostAt quiet

theorem Reordered.unheard {c d : Client U} (reordered : Reordered c d) : Unheard c d := by
  obtain ⟨-,registrations,rest⟩ := reordered
  refine ⟨by rw [rest]; rfl,by rw [rest],?_,by rw [rest],by rw [rest],by rw [rest],by rw [rest]⟩
  intro ssid
  rw [registeredAs, AList.perm_lookup registrations]
  rfl

theorem heard_foldl {α : Type} {f : Client U → α → Client U} (each : ∀ d x, Heard d (f d x)) (xs : List α) (c : Client U) :
    Heard c (xs.foldl f c) :=
  List.foldlRecOn _ _ (Heard.refl c) (fun d heard x _ => heard.trans (each d x))

section
variable [Object U]

theorem heard_deliver (events : Events) (ssid : UInt16) (c : Client U) : Heard c (deliver events ssid c) := by
  induction events generalizing ssid c with
  | done => exact .refl c
  | session up after ih =>
    rw [deliver]
    have event : Unheard c (c.sessionEvent ssid up) := ⟨rfl,rfl,fun _ => rfl,rfl,rfl,rfl,rfl⟩
    exact event.heard.trans (ih ssid _)
  | request moments request refused during outcome now after duringIh afterIh =>
    rw [deliver]
    refine Heard.trans ?_ (afterIh ssid _)
    have handled : Unheard c { c with objects := (handleIncomingRequest moments request c.objects).2 } :=
      ⟨rfl,rfl,fun _ => rfl,rfl,rfl,rfl,rfl⟩
    simp only [serve]
    split
    · next target _ =>
      exact (handled.heard.trans (heard_updateWith (duringIh target) target refused outcome now _)).trans
        (unheard_note rfl _).heard
    · exact handled.heard.trans (unheard_note rfl _).heard

theorem heard_send (ssid : UInt16) (operation : Operation) (request : CoapRequest) (a : Answer) (c : Client U) :
    Heard c (send ssid operation request a c).2 :=
  heard_sendWith (heard_deliver a.during ssid) ssid operation request a.refused a.outcome c

theorem heard_registerWithServer (ssid : UInt16) (a : RegisterAnswer) (c : Client U) :
    Heard c (registerWithServer ssid a c).2 := by
  have outcome := registerWithServer_outcome ssid a c
  have opens := (unheard_openConnection ssid a.connect c).heard
  generalize (registerWithServer ssid a c).1 = result at outcome
  generalize (registerWithServer ssid a c).2 = e at outcome ⊢
  cases outcome with
  | missing => exact .refl c
  | unopened opened =>
    rw [opened] at opens
    exact opens
  | @failed srv d found opened =>
    rw [opened] at opens
    exact (opens.trans (heard_setState d .Registering)).trans ((heard_send ..).trans (heard_setState _ .Error))
  | @accepted srv d r found opened answered success located =>
    rw [opened] at opens
    exact (opens.trans (heard_setState d .Registering)).trans
      ((heard_send ..).trans (heard_storeRegistration ssid located srv.lifetime a _))

theorem heard_updateRegistration (ssid : UInt16) (a : Answer) (c : Client U) : Heard c (updateRegistration ssid a c).2 :=
  heard_updateWith (heard_deliver a.during ssid) ssid a.refused a.outcome a.now c

theorem heard_deregister (ssid : UInt16) (a : Answer) (c : Client U) : Heard c (deregister ssid a c).2 := by
  simp only [deregister]
  cases found : c.registrations.lookup ssid with
  | none => exact .refl c
  | some reg =>
    have registered : ssid ∈ (sendDeregister ssid reg a c).registrations :=
      ((waited_sendDeregister ssid reg a c).registrations ssid).mpr (AList.lookup_isSome.mp (by rw [found]; rfl))
    have sent : Heard c (sendDeregister ssid reg a c) := by
      simp only [sendDeregister]
      cases c.connections.lookup ssid with
      | none => exact .refl c
      | some conn => exact (heard_setState c .Deregistering).trans (heard_send ..)
    exact sent.trans (heard_dropRegistration registered _)

/-- Deregistering from the servers one after the other leaves the others. -/
theorem deregister_all (answers : UInt16 → Answer) (ssids : List UInt16) (c : Client U) (s : UInt16) :
    s ∈ (ssids.foldl (fun c ssid => (deregister ssid (answers ssid) c).2) c).registrations ↔
      s ∈ c.registrations ∧ s ∉ ssids := by
  induction ssids generalizing c with
  | nil => simp
  | cons ssid ssids ih =>
    rw [List.foldl_cons, ih, (deregister_cases ssid (answers ssid) c).1, List.mem_cons, not_or, and_assoc]

theorem heard_stop (onEventThread : Bool) (answers : UInt16 → Answer) (c : Client U) :
    Heard c (stop onEventThread answers c) := by
  have ends : Unheard c { c with running := false } := ⟨rfl,rfl,fun _ => rfl,rfl,rfl,rfl,rfl⟩
  simp only [stop]
  split
  · exact ends.heard
  · have left := deregister_all answers c.registrations.keys { c with running := false }
    have deregistered := ends.heard.trans (heard_foldl (fun (d : Client U) ssid => heard_deregister ssid (answers ssid) d)
      c.registrations.keys { c with running := false })
    generalize c.registrations.keys.foldl (fun c ssid => (deregister ssid (answers ssid) c).2) { c with running := false } = d
      at left deregistered ⊢
    have none : ∀ s, d.registrations.lookup s = none := by
      intro s
      rw [AList.lookup_eq_none, left]
      rintro ⟨member,absent⟩
      exact absent (AList.mem_keys.mp member)
    have cleared : Unheard d { d with connections := ∅, registrations := ∅ } := by
      refine ⟨rfl,rfl,?_,rfl,rfl,rfl,rfl⟩
      intro s
      simp [registeredAs, none]
    exact deregistered.trans (cleared.heard.trans (heard_setState _ .Idle))

theorem heard_beforeHealth (answers : PollAnswers) (c : Client U) :
    Heard c (checkRegistrationUpdates answers.updatesAt answers.updates (pollConnections answers.during c)) := by
  have polled : Heard c (pollConnections answers.during c) :=
    heard_foldl (fun d ssid => heard_deliver (answers.during ssid) ssid d) c.connections.keys c
  refine polled.trans (heard_foldl (fun d ssid => ?_) _ _)
  simp only [checkRegistrationUpdate]
  split
  · split
    · exact heard_updateRegistration ssid _ d
    · exact .refl d
  · exact .refl d

theorem heard_reconnect {c : Client U} (busy : c.reconnecting = true) (a : RegisterAnswer) (failedAt : Int) :
    Heard c (reconnect c.reconnectSsid a failedAt c) := by
  have began := heard_beginAttempt busy
  have registers := heard_registerWithServer c.reconnectSsid a (c.beginAttempt c.reconnectSsid)
  have registering := register_cases c.reconnectSsid a (c.beginAttempt c.reconnectSsid)
  simp only [reconnect]
  generalize registerWithServer c.reconnectSsid a (c.beginAttempt c.reconnectSsid) = ended at registers registering ⊢
  obtain ⟨-,reconnecting,-,reconnectSsid,-⟩ := control_eq registering.control
  rcases ended with ⟨e | ⟨⟩,d⟩
  · have waits : Unheard d { d with nextReconnectTime := failedAt + seconds d.calculateBackoff } :=
      ⟨rfl,rfl,fun _ => rfl,rfl,rfl,rfl,rfl⟩
    exact began.trans (registers.trans waits.heard)
  · refine began.trans (registers.trans ?_)
    refine ⟨[.onReconnected c.reconnectSsid],callbacks_notify _ _,?_⟩
    intro v tells
    have lost : v.lost.map Prod.fst = some c.reconnectSsid := by
      rw [tells.lost (reconnecting.trans busy)]
      exact congrArg some reconnectSsid
    have registered : (v.registered c.reconnectSsid).isSome = true := by
      rw [tells.registered]
      exact registeredAs_isSome ((registering.registrations c.reconnectSsid).mpr (.inl ⟨rfl,rfl⟩))
    have fits : v.state = .Registered ∧ (v.registered c.reconnectSsid).isSome ∧ v.lost.map Prod.fst = some c.reconnectSsid :=
      ⟨tells.state.trans (registering.accepted rfl),registered,lost⟩
    exact ⟨{ v with lost := none },by rw [runPartial_cons, View.hear, if_pos fits]; rfl,tells.state,tells.registered,
      by rintro ⟨⟩,fun _ _ => rfl⟩

theorem heard_tryReconnect {c : Client U} (busy : c.reconnecting = true) (a : RegisterAnswer) (failedAt : Int) :
    Heard c (tryReconnect c.reconnectSsid a failedAt c) := by
  simp only [tryReconnect]
  cases enabled : c.reconnectConfig.enabled with
  | false =>
    refine ⟨[],(List.append_nil _).symm,fun v tells => ⟨v,rfl,tells.state,tells.registered,by rintro ⟨⟩,?_⟩⟩
    intro _ reconnects
    change c.reconnectConfig.enabled = true at reconnects
    rw [enabled] at reconnects
    cases reconnects
  | true =>
    rw [if_neg (by simp)]
    split
    · refine ⟨_,callbacks_notify _ _,?_⟩
      intro v tells
      have lost := tells.lost busy
      refine ⟨{ v with lost := none },?_,tells.state,tells.registered,by rintro ⟨⟩,fun _ _ => rfl⟩
      simp [runPartial, View.hear, View.failure, lost]
    · exact heard_reconnect busy a failedAt

theorem heard_poll (answers : PollAnswers) (c : Client U) : Heard c (poll answers c) := by
  have checked : Heard c (healthChecked answers c) :=
    (heard_beforeHealth answers c).trans (heard_checkConnectionHealth _ _ _)
  rw [poll_eq]
  split
  · next due => exact checked.trans (heard_tryReconnect due.1 answers.register answers.failedAt)
  · exact checked

theorem heard_perform (c : Client U) (action : Action) : Heard c (c.perform action) := by
  have called : Unheard c (c.note (.called action.call)) := unheard_note rfl c
  refine called.heard.trans ?_
  cases action with
  | register ssid a => exact heard_registerWithServer ssid a _
  | update ssid a => exact heard_updateRegistration ssid a _
  | deregister ssid a => exact heard_deregister ssid a _
  | start =>
    simp only [perform, act, Client.start]
    split
    · exact .refl _
    · have runs : Unheard (c.note (.called .start)) { c.note (.called .start) with running := true } :=
        ⟨rfl,rfl,fun _ => rfl,rfl,rfl,rfl,rfl⟩
      exact runs.heard.trans (heard_setState _ .Idle)
  | stop onEventThread answers => exact heard_stop onEventThread answers _
  | poll answers => exact heard_poll answers _

/-- The observer has heard every callback, and knows what is so. -/
def Understood (first : ClientState) (c : Client U) : Prop :=
  ∃ v, runPartial View.hear { state := first } c.callbacks = some v ∧ Tells c v

theorem understood_step {first : ClientState} (c : Client U) (action : Action) (d : Client U)
    (understood : c.Understood first) (stepped : Step c action d) : d.Understood first := by
  obtain ⟨between,reordered,rfl⟩ := stepped
  obtain ⟨v,heard,tells⟩ := understood
  obtain ⟨told,callbacks,hears⟩ := reordered.unheard.heard.trans (heard_perform between action)
  obtain ⟨w,more,tells⟩ := hears v tells
  exact ⟨w,by rw [callbacks]; exact runPartial_append heard more,tells⟩

/-- In every run of a new client each callback fits those before it, and together they
    tell its state, its registrations and its reconnection. -/
theorem callbacks_run {c d : Client U} (fresh : c.Fresh) {actions : List Action} (run : Run Step c actions d) :
    ∃ v, runPartial View.hear { state := c.state } d.callbacks = some v ∧ Tells d v := by
  have first : c.Understood c.state := ?_
  · exact run.keeps understood_step first
  obtain ⟨-,registrations,reconnecting,log⟩ := fresh
  refine ⟨{ state := c.state },by simp [callbacks, log],rfl,?_,?_,fun _ _ => rfl⟩
  · intro ssid
    simp [registeredAs, registrations]
  · intro busy
    rw [reconnecting] at busy
    cases busy

end

/-- The client registers, loses the session and registers again. -/
theorem callbacks_lost : ∃ v,
    runPartial View.hear { state := .Idle }
      ([Action.register 1 created, .poll losing, .poll { register := created }].foldl perform sampleClient).callbacks = some v ∧
    Tells ([Action.register 1 created, .poll losing, .poll { register := created }].foldl perform sampleClient) v :=
  callbacks_run sampleClient_fresh (run_perform sampleClient _)

end Client

end Ferriot
