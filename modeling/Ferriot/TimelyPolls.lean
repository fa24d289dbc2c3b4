import Ferriot.Carried
import Ferriot.ExpiryWatch
import Ferriot.Lifetimes

/-!
# Polls in time

What `check_registration_updates` is for: a client that is polled often enough, whose
servers accept every update that comes before the registration has run out, keeps all
its registrations. How often is enough depends on the margin that the threshold leaves
of the shortest lifetime.
-/
namespace Ferriot
open Tables Requests Runs

/-- The shortest lifetime, and the time between the threshold and the end of any that is as long. -/
structure ClientConfig.Leaves (config : ClientConfig) (least : UInt32) (margin : Int) : Prop where
  nonneg : 0 ≤ margin
  whole : margin ≤ seconds least.toNat
  threshold : ∀ lifetime : UInt32, least ≤ lifetime →
    margin ≤ seconds lifetime.toNat - seconds (config.updateThreshold lifetime.toNat)

/-- Of the Server object, a request writes a lifetime that is long enough, or triggers an update. -/
def Patient (least : UInt32) (request : CoapRequest) : Prop :=
  Usual request ∧ ∀ x lifetime, lifetimeWritten x request = some lifetime → least ≤ lifetime

/-- What is delivered from some time on. -/
abbrev Events.From (least : UInt32) (time : Int) : Events → Prop := Events.Through (Patient least) (time ≤ ·)

/-- An answer that comes at some time or later. -/
abbrev Answer.From (least : UInt32) (time : Int) : Answer → Prop := Answer.Through (Patient least) (time ≤ ·)

namespace Client
variable {U : Type}

/-- Every registered server has an account with a lifetime that is long enough, and no registration
    runs out before it is due. -/
structure Lasts (config : ClientConfig) (least : UInt32) (accounts : UInt16 → Bool) (due : UInt16 → Int) (c : Client U) :
    Prop where
  configured : c.config = config
  inPlace : ServerInPlace c.objects
  known : ∀ s, (c.objects.server.findByShortServerId s).isSome = accounts s
  lifetimes : ∀ s srv, c.objects.server.findByShortServerId s = some srv → least ≤ srv.lifetime
  registered : ∀ s ∈ c.registrations, accounts s = true
  expiries : ∀ s reg, c.registrations.lookup s = some reg → due s ≤ reg.expiresAt

variable {config : ClientConfig} {least : UInt32} {accounts : UInt16 → Bool} {due : UInt16 → Int}

theorem Lasts.account {c : Client U} (lasts : Lasts config least accounts due c) {s : UInt16} {reg : Registration}
    (found : c.registrations.lookup s = some reg) : ∃ srv, c.objects.server.findByShortServerId s = some srv := by
  have member : s ∈ c.registrations := AList.lookup_isSome.mp (by rw [found]; rfl)
  exact Option.isSome_iff_exists.mp ((lasts.known s).trans (lasts.registered s member))

/-- A registration that runs out later yet. -/
theorem Lasts.raise {c : Client U} (lasts : Lasts config least accounts due c) {s : UInt16} {time : Int}
    (later : ∀ reg, c.registrations.lookup s = some reg → time ≤ reg.expiresAt) :
    Lasts config least accounts (Function.update due s time) c := by
  refine { lasts with expiries := ?_ }
  intro other reg found
  by_cases same : other = s
  · subst same
    rw [Function.update_self]
    exact later reg found
  · rw [Function.update_of_ne same]
    exact lasts.expiries other reg found

theorem seconds_mono {a b : UInt32} (le : a ≤ b) : seconds a.toNat ≤ seconds b.toNat := by
  have toNat := UInt32.le_iff_toNat_le.mp le
  simp only [seconds]
  omega

/-- The expiry of an accepted request is as far away as the shortest lifetime. -/
theorem lasts_renew {c : Client U} (lasts : Lasts config least accounts due c) (ssid : UInt16) {now : Int}
    (early : ∀ s, due s ≤ now + seconds least.toNat) : Lasts config least accounts due (c.renew ssid now) := by
  cases found : c.objects.server.findByShortServerId ssid with
  | none =>
    simp only [renew, found]
    exact lasts
  | some srv =>
    simp only [renew, found]
    refine ⟨lasts.configured,lasts.inPlace,lasts.known,lasts.lifetimes,?_,?_⟩
    · intro s member
      exact lasts.registered s ((mem_modify _ _ _ _).mp member)
    · intro s reg there
      rw [lookup_modify] at there
      split_ifs at there with same
      · obtain ⟨old,-,rfl⟩ := Option.map_eq_some_iff.mp there
        have long := seconds_mono (lasts.lifetimes ssid srv found)
        have far := early s
        show due s ≤ now + seconds srv.lifetime.toNat
        omega
      · exact lasts.expiries s reg there

/-- An accepted update leaves the whole lifetime from its time on. -/
theorem renewed_expiry {c : Client U} (lasts : Lasts config least accounts due c) {s : UInt16} {now : Int} {reg : Registration}
    (found : (c.renew s now).registrations.lookup s = some reg) : now + seconds least.toNat ≤ reg.expiresAt := by
  cases account : c.objects.server.findByShortServerId s with
  | none =>
    simp only [renew, account] at found
    obtain ⟨srv,there⟩ := lasts.account found
    cases account.symm.trans there
  | some srv =>
    simp only [renew, account] at found
    rw [lookup_modify, if_pos rfl] at found
    obtain ⟨old,-,rfl⟩ := Option.map_eq_some_iff.mp found
    have long := seconds_mono (lasts.lifetimes s srv account)
    show now + seconds least.toNat ≤ now + seconds srv.lifetime.toNat
    omega

section
variable [Object U]

/-- A request that writes no lifetime but a long one leaves the accounts and their lifetimes. -/
theorem lasts_serve {c : Client U} (lasts : Lasts config least accounts due c) (moments : Moments) {request : CoapRequest}
    (patient : Patient least request) :
    Lasts config least accounts due { c with objects := (handleIncomingRequest moments request c.objects).2 } := by
  obtain ⟨usual,long⟩ := patient
  obtain ⟨inPlace,instances⟩ := handled_servers moments lasts.inPlace usual
  have found (s : UInt16) : (handleIncomingRequest moments request c.objects).2.server.findByShortServerId s =
      (serverInstance c.objects.server.store.instances s).map (fun e =>
        { e.2 with lifetime := (lifetimeWritten e.1 request).getD e.2.lifetime }) := by
    refine Eq.trans (congrArg (Option.map Prod.snd) (instances s)) ?_
    rw [Option.map_map]
    rfl
  have before (s : UInt16) : c.objects.server.findByShortServerId s =
    (serverInstance c.objects.server.store.instances s).map Prod.snd := rfl
  refine ⟨lasts.configured,inPlace,?_,?_,lasts.registered,lasts.expiries⟩
  · intro s
    show ((handleIncomingRequest moments request c.objects).2.server.findByShortServerId s).isSome = accounts s
    rw [← lasts.known s, found, before, Option.isSome_map, Option.isSome_map]
  · intro s srv there
    obtain ⟨e,stands,rfl⟩ := Option.map_eq_some_iff.mp ((found s).symm.trans there)
    cases written : lifetimeWritten e.1 request with
    | none => exact lasts.lifetimes s e.2 (by rw [before, stands]; rfl)
    | some lifetime => exact long e.1 lifetime written

theorem carried_lasts {time : Int} (early : ∀ s, due s ≤ time + seconds least.toNat) :
    Carried (U := U) (Patient least) (time ≤ ·) (Lasts config least accounts due) where
  frame c d lasts same objects registrations := by
    refine ⟨same.trans lasts.configured,objects ▸ lasts.inPlace,objects ▸ lasts.known,objects ▸ lasts.lifetimes,?_,?_⟩
    · intro s member
      obtain ⟨reg,found⟩ := Option.isSome_iff_exists.mp (AList.lookup_isSome.mpr member)
      exact lasts.registered s (AList.lookup_isSome.mp (by rw [registrations s reg found]; rfl))
    · intro s reg found
      exact lasts.expiries s reg (registrations s reg found)
  serve moments request c patient lasts := lasts_serve lasts moments patient
  renew c ssid now le lasts := by
    refine lasts_renew lasts ssid (fun s => ?_)
    have far := early s
    omega
  store c d ssid srv location registeredAt now found before le lasts := by
    refine { lasts with registered := ?_, expiries := ?_ }
    · intro s member
      rcases (mem_set _ _ _ _).mp member with rfl | old
      · rw [← before.known s, found]
        rfl
      · exact lasts.registered s old
    · intro s reg there
      rw [lookup_set] at there
      split_ifs at there
      · cases there
        have long := seconds_mono (before.lifetimes ssid srv found)
        have far := early s
        show due s ≤ now + seconds srv.lifetime.toNat
        omega
      · exact lasts.expiries s reg there

/-- An update that is accepted leaves the whole lifetime from its time on. -/
theorem updated_expiry {a : Answer} {time : Int} (early : ∀ s, due s ≤ time + seconds least.toNat) (delivered : a.From least time)
    {s : UInt16} {c : Client U} (lasts : Lasts config least accounts due c) (accepted : (updateRegistration s a c).1 = .ok ())
    {reg : Registration} (found : (updateRegistration s a c).2.registrations.lookup s = some reg) :
    a.now + seconds least.toNat ≤ reg.expiresAt := by
  have carried : Carried (Patient least) (time ≤ ·) (Lasts (U := U) config least accounts due) := carried_lasts early
  simp only [updateRegistration, updateWith] at accepted found
  cases registered : c.registrations.lookup s with
  | none =>
    rw [registered] at accepted
    cases accepted
  | some old =>
    cases connection : c.connections.lookup s with
    | none =>
      simp only [registered, connection] at accepted
      cases accepted
    | some conn =>
      have sent := carried.sendWith (carried.setState lasts .Updating) (fun _ => carried.deliver delivered.1 s) s .update
        { method := .Post, uriPath := old.location, contentFormat := .LinkFormat } a.refused a.outcome
      simp only [registered, connection] at accepted found
      generalize sendWith (deliver a.during s) s .update _ a.refused a.outcome (c.setState .Updating) = ended
        at sent accepted found
      obtain ⟨response,d⟩ := ended
      cases response with
      | error e => cases accepted
      | ok r =>
        dsimp only at accepted found
        split_ifs at accepted found
        have noted : ((d.renew s a.now).noteAccepted s .update a.now).registrations = (d.renew s a.now).registrations := by
          simp only [noteAccepted]
          split <;> rfl
        rw [setState_registrations, noted] at found
        exact renewed_expiry sent found

/-! ### The check of a poll -/

/-- Every update of the check that comes before the registration has run out is accepted. -/
def AcceptsInTime (now : Int) (answers : UInt16 → Answer) : List UInt16 → Client U → Prop
  | [], _ => True
  | s :: ssids, c =>
    (∀ reg srv, c.registrations.lookup s = some reg → c.objects.server.findByShortServerId s = some srv →
      reg.expiresAt - now ≤ seconds srv.lifetime.toNat - seconds (c.config.updateThreshold srv.lifetime.toNat) →
        now ≤ reg.expiresAt → (updateRegistration s (answers s) c).1 = .ok ()) ∧
      AcceptsInTime now answers ssids (checkRegistrationUpdate now answers c s)

variable {now margin : Int} {answers : UInt16 → Answer}

/-- After its turn, a registration is the margin away from its end at least. -/
theorem lasts_turn (leaves : config.Leaves least margin) (delivered : ∀ s, (answers s).From least now)
    (current : ∀ s, now ≤ due s) (early : ∀ s, due s ≤ now + margin) {c : Client U} (lasts : Lasts config least accounts due c)
    (s : UInt16) {ssids : List UInt16} (accepts : AcceptsInTime now answers (s :: ssids) c) :
    Lasts config least accounts (Function.update due s (now + margin)) (checkRegistrationUpdate now answers c s) := by
  have early (s : UInt16) : due s ≤ now + seconds least.toNat := by
    have near := early s
    have whole := leaves.whole
    omega
  cases found : c.registrations.lookup s with
  | none =>
    simp only [checkRegistrationUpdate, found]
    refine lasts.raise ?_
    rintro reg there
    cases found.symm.trans there
  | some reg =>
    obtain ⟨srv,account⟩ := lasts.account found
    simp only [checkRegistrationUpdate, found, account]
    split_ifs with dueNow
    · have updated := (carried_lasts early).update (delivered s) s lasts
      refine updated.raise ?_
      intro reg' there
      have inTime : now ≤ reg.expiresAt := Int.le_trans (current s) (lasts.expiries s reg found)
      have accepted := accepts.1 reg srv found account dueNow inTime
      have far := updated_expiry early (delivered s) lasts accepted there
      have after := (delivered s).2
      have whole := leaves.whole
      omega
    · refine lasts.raise ?_
      intro reg' there
      cases found.symm.trans there
      have threshold := leaves.threshold srv.lifetime (lasts.lifetimes s srv account)
      rw [lasts.configured] at dueNow
      omega

/-- After their turns, all of them are. -/
theorem lasts_turns (leaves : config.Leaves least margin) (delivered : ∀ s, (answers s).From least now) (ssids : List UInt16)
    {due : UInt16 → Int} (current : ∀ s, now ≤ due s) (early : ∀ s, due s ≤ now + margin) {c : Client U}
    (lasts : Lasts config least accounts due c) (accepts : AcceptsInTime now answers ssids c) :
    Lasts config least accounts (fun s => if s ∈ ssids then now + margin else due s)
      (ssids.foldl (checkRegistrationUpdate now answers) c) := by
  induction ssids generalizing due c with
  | nil => simpa using lasts
  | cons s ssids ih =>
    have nonneg := leaves.nonneg
    have turned := lasts_turn leaves delivered current early lasts s accepts
    have currentNext (t : UInt16) : now ≤ Function.update due s (now + margin) t := by
      rw [Function.update_apply]
      split_ifs
      · omega
      · exact current t
    have earlyNext (t : UInt16) : Function.update due s (now + margin) t ≤ now + margin := by
      rw [Function.update_apply]
      split_ifs
      · omega
      · exact early t
    have rest := ih currentNext earlyNext turned accepts.2
    refine { rest with expiries := ?_ }
    intro t reg found
    have later := rest.expiries t reg found
    by_cases listed : t ∈ ssids
    · rw [if_pos listed] at later
      rwa [if_pos (List.mem_cons_of_mem s listed)]
    · rw [if_neg listed, Function.update_apply] at later
      by_cases here : t = s
      · rw [if_pos here] at later
        rwa [if_pos (List.mem_cons.mpr (.inl here))]
      · rw [if_neg here] at later
        have absent : t ∉ s :: ssids := by simp [here, listed]
        rwa [if_neg absent]

/-- The check leaves every registration the margin. -/
theorem lasts_check (leaves : config.Leaves least margin) (delivered : ∀ s, (answers s).From least now) {time : Int}
    (current : now ≤ time) (early : time ≤ now + margin) {c : Client U} (lasts : Lasts config least accounts (fun _ => time) c)
    (accepts : AcceptsInTime now answers c.registrations.keys c) :
    Lasts config least accounts (fun _ => now + margin) (checkRegistrationUpdates now answers c) := by
  have turned := lasts_turns leaves delivered c.registrations.keys (fun _ => current) (fun _ => early) lasts accepts
  refine { turned with expiries := ?_ }
  intro s reg found
  have member : s ∈ (checkRegistrationUpdates now answers c).registrations := AList.lookup_isSome.mp (by rw [found]; rfl)
  have waited : Waited (fun _ => True) c (checkRegistrationUpdates now answers c) :=
    waited_checkRegistrationUpdates now answers c
  have listed : s ∈ c.registrations.keys := AList.mem_keys.mpr ((waited.registrations s).mp member)
  have later := turned.expiries s reg found
  rwa [if_pos listed] at later

/-- The client up to the check of a poll. -/
def beforeCheck (answers : PollAnswers) (c : Client U) : Client U := pollConnections answers.during (c.note (.called .poll))

/-- The client up to the health check of a poll. -/
def beforeHealth (answers : PollAnswers) (c : Client U) : Client U :=
  checkRegistrationUpdates answers.updatesAt answers.updates (c.beforeCheck answers)

/-- A call, after the check at the given time. A poll comes with its check no later than the margin
    allows, does not take longer, and its updates that come in time are accepted. -/
def Punctual (least : UInt32) (margin time : Int) (c : Client U) : Action → Prop
  | .register _ a => a.toAnswer.From least time
  | .update _ a => a.From least time
  | .deregister _ a => a.during.From least time
  | .start => True
  | .stop _ answers => ∀ s, (answers s).during.From least time
  | .poll answers =>
    (∀ s, (answers.during s).From least time) ∧ (time ≤ answers.updatesAt ∧ answers.updatesAt ≤ time + margin) ∧
      (∀ s, (answers.updates s).From least answers.updatesAt) ∧
      AcceptsInTime answers.updatesAt answers.updates (c.beforeCheck answers).registrations.keys (c.beforeCheck answers) ∧
      answers.healthAt ≤ answers.updatesAt + margin ∧ answers.register.toAnswer.From least answers.updatesAt

/-- The time of the latest check. -/
def checkedAt (time : Int) : Action → Int
  | .poll answers => answers.updatesAt
  | _ => time

/-- A step with the time of the latest check. -/
def PunctualStep (least : UInt32) (margin : Int) (s : Client U × Int) (action : Action) (t : Client U × Int) : Prop :=
  ∃ reordered, Reordered s.1 reordered ∧ reordered.Punctual least margin s.2 action ∧
    t = (reordered.perform action,checkedAt s.2 action)

/-- The check of a poll comes before any registration has run out, and so does its health check, which
    takes no server for lost but one whose connection is down. -/
structure InTime (answers : PollAnswers) (c : Client U) : Prop where
  check : Current (c.beforeCheck answers) answers.updatesAt
  health : Current (c.beforeHealth answers) answers.healthAt
  lost : ∀ s, (c.beforeHealth answers).lostConnection answers.healthAt = some s → ¬ (c.beforeHealth answers).Up s

section
variable {time : Int} (leaves : config.Leaves least margin)
include leaves

/-- What a check leaves is carried on from its time. -/
theorem carried_margin (time : Int) :
    Carried (U := U) (Patient least) (time ≤ ·) (Lasts config least accounts (fun _ => time + margin)) := by
  refine carried_lasts (fun _ => ?_)
  have whole := leaves.whole
  omega

theorem lasts_checked {c : Client U} (lasts : Lasts config least accounts (fun _ => time + margin) c) {answers : PollAnswers}
    (punctual : c.Punctual least margin time (.poll answers)) :
    Lasts config least accounts (fun _ => time + margin) (c.beforeCheck answers) ∧
      Lasts config least accounts (fun _ => answers.updatesAt + margin) (c.beforeHealth answers) := by
  obtain ⟨during,⟨after,before⟩,updates,accepts,-,-⟩ := punctual
  have carried : Carried (Patient least) (time ≤ ·) (Lasts (U := U) config least accounts (fun _ => time + margin)) :=
    carried_margin leaves time
  have polled := carried.pollConnections during (carried.note lasts (.called .poll))
  exact ⟨polled,lasts_check leaves updates before (by omega) polled accepts⟩

theorem inTime_poll {c : Client U} (lasts : Lasts config least accounts (fun _ => time + margin) c) {answers : PollAnswers}
    (punctual : c.Punctual least margin time (.poll answers)) : c.InTime answers := by
  obtain ⟨polled,held⟩ := lasts_checked leaves lasts punctual
  obtain ⟨-,⟨-,before⟩,-,-,soon,-⟩ := punctual
  have current : Current (c.beforeHealth answers) answers.healthAt :=
    fun s reg found => Int.le_trans soon (held.expiries s reg found)
  refine ⟨fun s reg found => Int.le_trans before (polled.expiries s reg found),current,?_⟩
  intro s lost up
  simp only [lostConnection] at lost
  cases expired : findEntry (c.beforeHealth answers).registrations (fun reg => decide (reg.expiresAt < answers.healthAt)) with
  | some e =>
    obtain ⟨found,late⟩ := findEntry_some expired
    have still := current e.1 e.2 found
    simp only [decide_eq_true_eq] at late
    omega
  | none =>
    rw [expired] at lost
    obtain ⟨⟨s',conn⟩,down,rfl⟩ := Option.map_eq_some_iff.mp lost
    obtain ⟨found,disconnected⟩ := findEntry_some down
    simp [up conn found] at disconnected

theorem lasts_perform {c : Client U} (lasts : Lasts config least accounts (fun _ => time + margin) c) {action : Action}
    (punctual : c.Punctual least margin time action) :
    Lasts config least accounts (fun _ => checkedAt time action + margin) (c.perform action) := by
  have carried : Carried (Patient least) (time ≤ ·) (Lasts (U := U) config least accounts (fun _ => time + margin)) :=
    carried_margin leaves time
  have noted := carried.note lasts (.called action.call)
  cases action with
  | register ssid a => exact carried.register punctual ssid noted
  | update ssid a => exact carried.update punctual ssid noted
  | deregister ssid a => exact carried.deregister punctual ssid noted
  | start => exact carried.start noted
  | stop onEventThread answers => exact carried.stop punctual onEventThread noted
  | poll answers =>
    have held := (lasts_checked leaves lasts punctual).2
    obtain ⟨-,-,-,-,-,register⟩ := punctual
    have later : Carried (Patient least) (answers.updatesAt ≤ ·)
        (Lasts (U := U) config least accounts (fun _ => answers.updatesAt + margin)) := carried_margin leaves answers.updatesAt
    have health := later.checkConnectionHealth answers.healthAt answers.lostAt held
    have same : c.perform (.poll answers) = poll answers (c.note (.called .poll)) := rfl
    rw [same, poll_eq]
    split_ifs
    · exact later.tryReconnect register _ answers.failedAt health
    · exact health

theorem lasts_run {s t : Client U × Int} {actions : List Action} (run : Run (PunctualStep least margin) s actions t)
    (start : Lasts config least accounts (fun _ => s.2 + margin) s.1) :
    Lasts config least accounts (fun _ => t.2 + margin) t.1 := by
  have keep (s : Client U × Int) (action : Action) (t : Client U × Int)
      (lasts : Lasts config least accounts (fun _ => s.2 + margin) s.1) (stepped : PunctualStep least margin s action t) :
      Lasts config least accounts (fun _ => t.2 + margin) t.1 := by
    obtain ⟨between,reordered,punctual,rfl⟩ := stepped
    exact lasts_perform leaves ((carried_margin leaves s.2).reordered reordered lasts) punctual
  exact run.keeps keep start

end

/-- A client that is polled in time, by servers that accept every update in time, updates every
    registration before it runs out, and takes no server for lost but one whose connection is down. -/
theorem inTime_run {c d e : Client U} (fresh : c.Fresh) (inPlace : ServerInPlace c.objects) {least : UInt32}
    (long : ∀ s srv, c.objects.server.findByShortServerId s = some srv → least ≤ srv.lifetime) {margin : Int}
    (leaves : c.config.Leaves least margin) {time last : Int} {actions : List Action}
    (run : Run (PunctualStep least margin) (c,time) actions (d,last)) (reordered : Reordered d e) {answers : PollAnswers}
    (punctual : e.Punctual least margin last (.poll answers)) : e.InTime answers := by
  have start : Lasts c.config least (fun s => (c.objects.server.findByShortServerId s).isSome) (fun _ => time + margin) c := by
    refine ⟨rfl,inPlace,fun _ => rfl,long,?_,?_⟩
    · intro s member
      rw [fresh.registrations] at member
      exact absurd member (AList.notMem_empty s)
    · intro s reg found
      rw [fresh.registrations] at found
      cases found
  have lasts := lasts_run leaves run start
  exact inTime_poll leaves ((carried_margin leaves last).reordered reordered lasts) punctual

end

/-- The update of the server 1 is accepted at once. -/
def polledAt (time : Int) : PollAnswers :=
  { updatesAt := seconds time
    updates := fun _ => { outcome := .ok { code := some .Changed }, now := seconds time }
    healthAt := seconds time
    register := { outcome := err .Timeout "Request timeout", now := seconds time } }

/-- A registration for a minute, and a poll every twelve seconds. -/
def timelyRun : List Action := [.register 1 created, .poll (polledAt 12), .poll (polledAt 24), .poll (polledAt 36)]

theorem sampleClient_leaves : sampleClient.config.Leaves 60 (seconds 12) := by
  refine ⟨by decide,by decide,?_⟩
  intro lifetime least
  have atLeast : 60 ≤ lifetime.toNat := UInt32.le_iff_toNat_le.mp least
  show seconds 12 ≤ seconds lifetime.toNat - seconds (lifetime.toNat * 4 / 5)
  simp only [seconds]
  omega

theorem sampleClient_long (s : UInt16) (srv : ServerInstance)
    (found : sampleClient.objects.server.findByShortServerId s = some srv) : 60 ≤ srv.lifetime := by
  obtain ⟨⟨iid,inst⟩,stands,rfl⟩ := Option.map_eq_some_iff.mp found
  have member := AList.mem_lookup_iff.mp (findEntry_some stands).1
  have entries : sampleClient.objects.server.store.instances.entries =
    [⟨0,({ shortServerId := 1, lifetime := 60 } : ServerInstance)⟩] := rfl
  rw [entries, List.mem_singleton] at member
  cases member
  decide

theorem polledAt_punctual {c : Client LocationObject} {last time : Int} (after : seconds last ≤ seconds time)
    (before : seconds time ≤ seconds last + seconds 12) (keys : (c.beforeCheck (polledAt time)).registrations.keys = [1])
    (up : (c.beforeCheck (polledAt time)).connections.lookup 1 = some ⟨true⟩) :
    c.Punctual 60 (seconds 12) (seconds last) (.poll (polledAt time)) := by
  have near : seconds time ≤ seconds time + seconds 12 := by
    simp only [seconds]
    omega
  refine ⟨fun _ => trivial,⟨after,before⟩,fun _ => ⟨trivial,le_refl _⟩,?_,near,trivial,le_refl _⟩
  rw [keys]
  refine ⟨?_,trivial⟩
  intro reg srv found account due inTime
  generalize c.beforeCheck (polledAt time) = d at found up
  have success : (CoapResponse.isSuccess { code := some .Changed }) = true := by decide
  simp [updateRegistration, updateWith, found, up, sendWith, polledAt, deliver, success]

theorem polledAt_step {c : Client LocationObject} {last time : Int}
    (punctual : c.Punctual 60 (seconds 12) (seconds last) (.poll (polledAt time))) :
    PunctualStep 60 (seconds 12) (c,seconds last) (.poll (polledAt time)) (c.perform (.poll (polledAt time)),seconds time) :=
  ⟨c,⟨.refl _,.refl _,rfl⟩,punctual,rfl⟩

theorem timelyRun_punctual :
    Run (PunctualStep 60 (seconds 12)) (sampleClient,seconds 0) timelyRun (timelyRun.foldl perform sampleClient,seconds 36) := by
  have registers : PunctualStep 60 (seconds 12) (sampleClient,seconds 0) (.register 1 created)
      (sampleClient.perform (.register 1 created),seconds 0) :=
    ⟨sampleClient,⟨.refl _,.refl _,rfl⟩,⟨trivial,le_refl _⟩,rfl⟩
  refine .cons registers ?_
  refine .cons (polledAt_step (polledAt_punctual (by decide) (by decide) (by decide +kernel) (by decide +kernel))) ?_
  refine .cons (polledAt_step (polledAt_punctual (by decide) (by decide) (by decide +kernel) (by decide +kernel))) ?_
  refine .cons (polledAt_step (polledAt_punctual (by decide) (by decide) (by decide +kernel) (by decide +kernel))) ?_
  exact .nil _

/-- The update of the last poll is due, and in time. -/
theorem inTime_kept : (timelyRun.foldl perform sampleClient).InTime (polledAt 48) := by
  have due : (timelyRun.foldl perform sampleClient).Punctual 60 (seconds 12) (seconds 36) (.poll (polledAt 48)) :=
    polledAt_punctual (by decide) (by decide) (by decide +kernel) (by decide +kernel)
  have run := timelyRun_punctual
  generalize timelyRun.foldl perform sampleClient = client at due run ⊢
  exact inTime_run sampleClient_fresh sampleClient_inPlace sampleClient_long sampleClient_leaves run
    ⟨.refl _,.refl _,rfl⟩ due

end Client

end Ferriot
