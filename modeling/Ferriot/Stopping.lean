import Ferriot.DeadConnections

/-!
# Stopping while another thread registers

`stop` takes the client's lock several times: to collect the ids of the registered
servers, to deregister from each of them, and to clear the tables. In between,
another thread may register, update or deregister, each in one critical section.
A registration that it makes after the ids are collected is cleared without a
word to the server. So is one whose DELETE never goes out, because the session is
down or libcoap refuses the request: `deregister` ignores what `send` answers.
-/
namespace Ferriot
open Tables Requests Runs

/-- Where `stop` is: not running, deregistering with these ids ahead, or with the tables
    cleared and the state to be set. -/
inductive StopPhase where
  | outside
  | leaving (ids : List UInt16)
  | cleared
deriving DecidableEq, Repr

/-- A critical section of the client's lock: a call of the other thread, or a part of `stop`. -/
inductive CriticalSection where
  | register (ssid : UInt16) (a : RegisterAnswer)
  | update (ssid : UInt16) (a : Answer)
  | deregister (ssid : UInt16) (a : Answer)
  | collect
  | leave (a : Answer)
  | clear
  /-- The state is set without the lock. -/
  | settle

/-- What becomes of the registrations of a server. -/
inductive Fate where
  /-- The server has accepted a registration, at the location. -/
  | registered (ssid : UInt16) (location : Bytes)
  /-- A DELETE to the location has gone out. -/
  | deleted (ssid : UInt16) (location : Bytes)
  /-- `stop` removes the entry, with or without a connection to the server. -/
  | dropped (ssid : UInt16) (location : Bytes) (connected : Bool)
deriving DecidableEq, Repr

/-- A DELETE has gone to the location since the server last accepted a registration. The
    history is latest first. -/
def Asked (ssid : UInt16) (location : Bytes) : List Fate → Prop
  | [] => False
  | .deleted s l :: older => s = ssid ∧ l = location ∨ Asked ssid location older
  | .registered s _ :: older => s ≠ ssid ∧ Asked ssid location older
  | .dropped _ _ _ :: older => Asked ssid location older

/-- An entry that `stop` removes has been deleted at the server, or has no connection. -/
def TakenLeave : Fate → List Fate → Prop
  | .dropped ssid location true, older => Asked ssid location older
  | _, _ => True

/-- `stop` abandons no registration. -/
def AbandonsNone (history : List Fate) : Prop := Throughout TakenLeave history

instance decidableAsked (ssid : UInt16) (location : Bytes) : (history : List Fate) → Decidable (Asked ssid location history)
  | [] => .isFalse id
  | .deleted s l :: older =>
    haveI := decidableAsked ssid location older
    inferInstanceAs (Decidable (s = ssid ∧ l = location ∨ Asked ssid location older))
  | .registered s _ :: older =>
    haveI := decidableAsked ssid location older
    inferInstanceAs (Decidable (s ≠ ssid ∧ Asked ssid location older))
  | .dropped _ _ _ :: older => decidableAsked ssid location older

instance : (fate : Fate) → (older : List Fate) → Decidable (TakenLeave fate older)
  | .dropped ssid location true, older => decidableAsked ssid location older
  | .dropped _ _ false, _ | .registered _ _, _ | .deleted _ _, _ => .isTrue trivial

instance (history : List Fate) : Decidable (AbandonsNone history) :=
  inferInstanceAs (Decidable (Throughout TakenLeave history))

/-- The client while one thread may stop it and another calls it. -/
structure Stopping (U : Type) where
  client : Client U
  phase : StopPhase := .outside
  history : List Fate := []

namespace Client
variable {U : Type}

/-- The registration that a call has just stored. -/
def registeredFate (ssid : UInt16) (result : Result Unit) (c : Client U) : List Fate :=
  match result, c.registrations.lookup ssid with
  | .ok (),some reg => [.registered ssid reg.location]
  | _,_ => []

/-- The DELETEs that have gone out from one state to the next, as the log has them. -/
def deletedSince (c d : Client U) : List Fate :=
  (d.log.take (d.log.length - c.log.length)).filterMap fun
    | .sent ssid .deregister request => some (.deleted ssid request.uriPath)
    | _ => none

/-- The entry that `stop` removes, before it does. -/
def droppedFate (ssid : UInt16) (c : Client U) : List Fate :=
  match c.registrations.lookup ssid with
  | some reg => [.dropped ssid reg.location (c.connections.lookup ssid).isSome]
  | none => []

/-- The client has the accounts, a connection that is not down or can be opened, and the
    server accepts. -/
def Accepts (ssid : UInt16) (a : RegisterAnswer) (c : Client U) : Prop :=
  HasAccount c ssid ∧ (ssid ∈ c.connections ∨ a.connect = .ok ()) ∧ c.Up ssid ∧ a.Welcomed

/-- A DELETE to the server would go out: its session is up, and libcoap takes the request. If there is
    no connection, there is none to send. -/
def TakesLeave (ssid : UInt16) (a : Answer) (c : Client U) : Prop :=
  ∀ conn, c.connections.lookup ssid = some conn → conn.connected = true ∧ a.refused = none

end Client

namespace Stopping
variable {U : Type}

section
variable [Object U]

/-- One critical section, if the thread that stops is there. -/
def pass (t : Stopping U) : CriticalSection → Option (Stopping U)
  | .register ssid a =>
    let (result,c) := t.client.registerWithServer ssid a
    some { t with client := c, history := c.registeredFate ssid result ++ (t.client.deletedSince c ++ t.history) }
  | .update ssid a =>
    let c := (t.client.updateRegistration ssid a).2
    some { t with client := c, history := t.client.deletedSince c ++ t.history }
  | .deregister ssid a =>
    let c := (t.client.deregister ssid a).2
    some { t with client := c, history := t.client.deletedSince c ++ t.history }
  | .collect =>
    match t.phase with
    | .outside => some { t with client := { t.client with running := false }, phase := .leaving t.client.registrations.keys }
    | _ => none
  | .leave a =>
    match t.phase with
    | .leaving (ssid :: ids) =>
      let c := (t.client.deregister ssid a).2
      some
        { client := c
          phase := .leaving ids
          history := t.client.droppedFate ssid ++ (t.client.deletedSince c ++ t.history) }
    | _ => none
  | .clear =>
    match t.phase with
    | .leaving [] =>
      some
        { client := { t.client with connections := ∅, registrations := ∅ }
          phase := .cleared
          history := t.client.registrations.keys.flatMap (fun ssid => t.client.droppedFate ssid) ++ t.history }
    | _ => none
  | .settle =>
    match t.phase with
    | .cleared => some { t with client := t.client.setState .Idle, phase := .outside }
    | _ => none

/-- The two tables may iterate in another order from one section to the next. -/
def Step (t : Stopping U) (label : CriticalSection) (u : Stopping U) : Prop :=
  ∃ c, Client.Reordered t.client c ∧ pass { t with client := c } label = some u

end

/-- While `stop` deregisters, no server accepts a registration but one whose turn is still to come, and
    the DELETE to a registered server whose turn it is goes out. -/
def Allowed (t : Stopping U) : CriticalSection → Prop
  | .register ssid a => ∀ ids, t.phase = .leaving ids → t.client.Accepts ssid a → ssid ∈ ids
  | .leave a =>
    ∀ ssid ids, t.phase = .leaving (ssid :: ids) → ssid ∈ t.client.registrations → t.client.TakesLeave ssid a
  | _ => True

/-- What a run maintains: while `stop` deregisters, the turn of every registered server is
    still to come. -/
structure Covered (t : Stopping U) : Prop where
  abandoned : AbandonsNone t.history
  ahead : ∀ ids, t.phase = .leaving ids → ∀ s ∈ t.client.registrations, s ∈ ids

/-- A registration or a DELETE may stand anywhere in a history. -/
theorem registeredFate_free (ssid : UInt16) (result : Result Unit) (c : Client U) :
    ∀ fate ∈ c.registeredFate ssid result, ∀ older, TakenLeave fate older := by
  intro fate member older
  unfold Client.registeredFate at member
  split at member
  · rw [List.mem_singleton] at member
    subst member
    trivial
  · cases member

theorem deletedSince_deleted {c d : Client U} : ∀ fate ∈ c.deletedSince d, ∃ ssid location, fate = .deleted ssid location := by
  intro fate member
  obtain ⟨entry,-,deletion⟩ := List.mem_filterMap.mp member
  split at deletion
  · cases deletion
    exact ⟨_,_,rfl⟩
  · cases deletion

theorem deletedSince_free (c d : Client U) : ∀ fate ∈ c.deletedSince d, ∀ older, TakenLeave fate older := by
  intro fate member older
  obtain ⟨ssid,location,rfl⟩ := deletedSince_deleted fate member
  trivial

/-- What has been deleted stays deleted through further DELETEs. -/
theorem asked_of_mem {ssid : UInt16} {location : Bytes} {fates : List Fate}
    (deletions : ∀ fate ∈ fates, ∃ s l, fate = .deleted s l) (member : .deleted ssid location ∈ fates) (older : List Fate) :
    Asked ssid location (fates ++ older) := by
  induction fates with
  | nil => cases member
  | cons fate fates ih =>
    obtain ⟨s,l,rfl⟩ := deletions fate List.mem_cons_self
    rcases List.mem_cons.mp member with same | earlier
    · cases same
      exact .inl ⟨rfl,rfl⟩
    · exact .inr (ih (fun fate member => deletions fate (List.mem_cons_of_mem _ member)) earlier)

section
variable [Object U]

/-- The DELETE goes out if the connection is up and libcoap takes it. -/
theorem deleted_sent {c : Client U} {ssid : UInt16} {a : Answer} {reg : Registration}
    (registered : c.registrations.lookup ssid = some reg) (up : c.connections.lookup ssid = some ⟨true⟩)
    (taken : a.refused = none) : .deleted ssid reg.location ∈ c.deletedSince (c.deregister ssid a).2 := by
  let request : CoapRequest := { method := .Delete, uriPath := reg.location, contentFormat := .LinkFormat }
  let asked := (c.setState .Deregistering).note (.sent ssid .deregister request)
  have sent : Client.sendDeregister ssid reg a c = Client.deliver a.during ssid asked := by
    unfold Client.sendDeregister
    rw [up]
    dsimp only
    unfold Client.send Client.sendWith
    rw [Client.setState_connections, up]
    dsimp only
    rw [taken]
  have waited : Client.Grown asked (Client.sendDeregister ssid reg a c) := by
    rw [sent]
    exact (Client.waited_deliver a.during ssid asked).log
  have after : Client.Grown asked (c.deregister ssid a).2 := by
    unfold Client.deregister
    rw [registered]
    exact waited.trans (Client.dropRegistration_cases (Client.sendDeregister ssid reg a c) ssid _).2.2
  obtain ⟨late,log,-⟩ := after
  have deregistering : Client.Waited (fun _ => True) c (c.setState .Deregistering) := Client.waited_setState c .Deregistering
  obtain ⟨early,state,-⟩ := deregistering.log
  have gained : (c.deregister ssid a).2.log = (late ++ .sent ssid .deregister request :: early) ++ c.log := by
    rw [log]
    show late ++ .sent ssid .deregister request :: (c.setState .Deregistering).log = _
    rw [state, List.append_assoc, List.cons_append]
  unfold Client.deletedSince
  rw [gained, List.length_append, Nat.add_sub_cancel, List.take_left]
  exact List.mem_filterMap.mpr ⟨_,List.mem_append_right late List.mem_cons_self,rfl⟩

/-- The entry that `stop` deregisters has been deleted at the server, if there is a connection. -/
theorem takenLeave_leave {ssid : UInt16} {a : Answer} {c : Client U} (leaves : ssid ∈ c.registrations → c.TakesLeave ssid a)
    {history : List Fate} (before : AbandonsNone history) :
    AbandonsNone (c.droppedFate ssid ++ (c.deletedSince (c.deregister ssid a).2 ++ history)) := by
  have deleted : AbandonsNone (c.deletedSince (c.deregister ssid a).2 ++ history) :=
    throughout_append (deletedSince_free _ _) before
  unfold Client.droppedFate
  cases found : c.registrations.lookup ssid with
  | none => exact deleted
  | some reg =>
    refine ⟨?_,deleted⟩
    cases connected : c.connections.lookup ssid with
    | none => trivial
    | some conn =>
      obtain ⟨up⟩ := conn
      obtain ⟨rfl,taken⟩ := leaves (AList.lookup_isSome.mp (by rw [found]; rfl)) _ connected
      exact asked_of_mem deletedSince_deleted (deleted_sent found connected taken) history

end

/-- A section that adds no registration but one that is covered, and no fate that may not stand there. -/
theorem Covered.grown {t : Stopping U} {c : Client U} (covered : Covered t) (new : List Fate)
    (free : ∀ fate ∈ new, ∀ older, TakenLeave fate older)
    (registrations : ∀ ids, t.phase = .leaving ids → ∀ s ∈ c.registrations, s ∈ t.client.registrations ∨ s ∈ ids) :
    Covered { t with client := c, history := new ++ t.history } := by
  refine ⟨throughout_append free covered.abandoned,?_⟩
  intro ids phase s member
  rcases registrations ids phase s member with before | ahead
  · exact covered.ahead ids phase s before
  · exact ahead

/-- With no id ahead no server is registered, and clearing the tables drops nothing. -/
theorem Covered.clear {t : Stopping U} (covered : Covered t) (phase : t.phase = .leaving []) :
    t.client.registrations.keys = [] := by
  refine List.eq_nil_iff_forall_not_mem.mpr ?_
  intro s member
  cases covered.ahead [] phase s (AList.mem_keys.mpr member)

theorem reordered_accepts {c d : Client U} (reordered : Client.Reordered c d) (ssid : UInt16) (a : RegisterAnswer) :
    d.Accepts ssid a ↔ c.Accepts ssid a := by
  obtain ⟨connections,-,rest⟩ := reordered
  have present : ssid ∈ d.connections ↔ ssid ∈ c.connections := AList.mem_of_perm connections
  have up : d.Up ssid ↔ c.Up ssid := by
    unfold Client.Up
    rw [AList.perm_lookup connections]
  unfold Client.Accepts
  rw [present, up]
  rw [rest]
  exact Iff.rfl

section
variable [Object U]

theorem Covered.register {t : Stopping U} {ssid : UInt16} {a : RegisterAnswer} (covered : Covered t)
    (allowed : Allowed t (.register ssid a)) :
    Covered
      { t with
        client := (t.client.registerWithServer ssid a).2
        history :=
          (t.client.registerWithServer ssid a).2.registeredFate ssid (t.client.registerWithServer ssid a).1 ++
            (t.client.deletedSince (t.client.registerWithServer ssid a).2 ++ t.history) } := by
  have deletions : Covered { t with history := t.client.deletedSince (t.client.registerWithServer ssid a).2 ++ t.history } :=
    covered.grown _ (deletedSince_free _ _) (fun _ _ s member => .inl member)
  refine deletions.grown _ (registeredFate_free _ _ _) ?_
  intro ids phase s member
  rcases ((Client.register_cases ssid a t.client).registrations s).mp member with ⟨accepted,rfl⟩ | before
  · exact .inr (allowed ids phase ((Client.registered_iff s a t.client).mp accepted))
  · exact .inl before

/-- A server that `stop` has deregistered is no longer there to be covered. -/
theorem Covered.leave {t : Stopping U} {ssid : UInt16} {ids : List UInt16} {a : Answer} (covered : Covered t)
    (phase : t.phase = .leaving (ssid :: ids)) (allowed : Allowed t (.leave a)) :
    Covered
      { client := (t.client.deregister ssid a).2
        phase := .leaving ids
        history := t.client.droppedFate ssid ++ (t.client.deletedSince (t.client.deregister ssid a).2 ++ t.history) } := by
  refine ⟨takenLeave_leave (allowed ssid ids phase) covered.abandoned,?_⟩
  rintro rest ⟨⟩ s member
  obtain ⟨before,other⟩ := ((Client.deregister_cases ssid a t.client).1 s).mp member
  rcases List.mem_cons.mp (covered.ahead _ phase s before) with same | ahead
  · exact absurd same other
  · exact ahead

theorem pass_collect {t u : Stopping U} (passed : pass t .collect = some u) :
    t.phase = .outside ∧
      u = { t with client := { t.client with running := false }, phase := .leaving t.client.registrations.keys } := by
  unfold pass at passed
  cases phase : t.phase with
  | outside =>
    rw [phase] at passed
    cases passed
    exact ⟨rfl,rfl⟩
  | _ => rw [phase] at passed; cases passed

theorem pass_leave {t u : Stopping U} {a : Answer} (passed : pass t (.leave a) = some u) :
    ∃ ssid ids, t.phase = .leaving (ssid :: ids) ∧
      u =
        { client := (t.client.deregister ssid a).2
          phase := .leaving ids
          history := t.client.droppedFate ssid ++ (t.client.deletedSince (t.client.deregister ssid a).2 ++ t.history) } := by
  unfold pass at passed
  cases phase : t.phase with
  | leaving ids =>
    rw [phase] at passed
    cases ids with
    | nil => cases passed
    | cons ssid ids =>
      cases passed
      exact ⟨ssid,ids,rfl,rfl⟩
  | _ => rw [phase] at passed; cases passed

theorem pass_clear {t u : Stopping U} (passed : pass t .clear = some u) :
    t.phase = .leaving [] ∧
      u =
        { client := { t.client with connections := ∅, registrations := ∅ }
          phase := .cleared
          history := t.client.registrations.keys.flatMap (fun ssid => t.client.droppedFate ssid) ++ t.history } := by
  unfold pass at passed
  cases phase : t.phase with
  | leaving ids =>
    rw [phase] at passed
    cases ids with
    | cons ssid ids => cases passed
    | nil =>
      cases passed
      exact ⟨rfl,rfl⟩
  | _ => rw [phase] at passed; cases passed

theorem pass_settle {t u : Stopping U} (passed : pass t .settle = some u) :
    t.phase = .cleared ∧ u = { t with client := t.client.setState .Idle, phase := .outside } := by
  unfold pass at passed
  cases phase : t.phase with
  | cleared =>
    rw [phase] at passed
    cases passed
    exact ⟨rfl,rfl⟩
  | _ => rw [phase] at passed; cases passed

theorem covered_pass {t u : Stopping U} {label : CriticalSection} (covered : Covered t) (allowed : Allowed t label)
    (passed : pass t label = some u) : Covered u := by
  cases label with
  | register ssid a =>
    cases passed
    exact covered.register allowed
  | update ssid a =>
    cases passed
    refine covered.grown _ (deletedSince_free _ _) ?_
    intro ids _ s member
    exact .inl (((Client.kept_updateRegistration ssid a t.client).waited.registrations s).mp member)
  | deregister ssid a =>
    cases passed
    refine covered.grown _ (deletedSince_free _ _) ?_
    intro ids _ s member
    exact .inl (((Client.deregister_cases ssid a t.client).1 s).mp member).1
  | collect =>
    obtain ⟨-,rfl⟩ := pass_collect passed
    refine ⟨covered.abandoned,?_⟩
    rintro ids ⟨⟩ s member
    exact AList.mem_keys.mp member
  | leave a =>
    obtain ⟨ssid,ids,phase,rfl⟩ := pass_leave passed
    exact covered.leave phase allowed
  | clear =>
    obtain ⟨phase,rfl⟩ := pass_clear passed
    rw [covered.clear phase]
    refine ⟨covered.abandoned,?_⟩
    rintro ids ⟨⟩
  | settle =>
    obtain ⟨-,rfl⟩ := pass_settle passed
    refine ⟨covered.abandoned,?_⟩
    rintro ids ⟨⟩

theorem covered_step (t : Stopping U) (label : CriticalSection) (u : Stopping U) (covered : Covered t)
    (stepped : Guarded Allowed Step t label u) : Covered u := by
  obtain ⟨allowed,c,reordered,passed⟩ := stepped
  have again : Covered { t with client := c } := by
    refine ⟨covered.abandoned,?_⟩
    intro ids phase s member
    exact covered.ahead ids phase s ((AList.mem_of_perm reordered.registrations).mp member)
  refine covered_pass again ?_ passed
  cases label with
  | register ssid a =>
    intro ids phase accepts
    exact allowed ids phase ((reordered_accepts reordered ssid a).mp accepts)
  | leave a =>
    intro ssid ids phase registered conn found
    have before : ssid ∈ t.client.registrations := (AList.mem_of_perm reordered.registrations).mp registered
    exact allowed ssid ids phase before conn ((AList.perm_lookup reordered.connections).symm.trans found)
  | _ => trivial

/-- From any client, and in every run in which the DELETEs of `stop` go out, and no server accepts a
    registration while it deregisters, unless its turn is still to come, `stop` abandons no registration. -/
theorem abandonsNone_run {c : Client U} {labels : List CriticalSection} {t : Stopping U}
    (run : Run (Guarded Allowed Step) { client := c } labels t) : AbandonsNone t.history := by
  have start : Covered ({ client := c } : Stopping U) := by
    refine ⟨trivial,?_⟩
    rintro ids ⟨⟩
  exact (run.keeps covered_step start).abandoned

/-! ### The sections and the calls -/

/-- A section without a reordering, which is passed over if the thread that stops is elsewhere. -/
def after (t : Stopping U) (label : CriticalSection) : Stopping U := (pass t label).getD t

theorem step_after {t : Stopping U} {label : CriticalSection} (passes : (pass t label).isSome = true) :
    Step t label (after t label) := by
  obtain ⟨u,passed⟩ := Option.isSome_iff_exists.mp passes
  refine ⟨t.client,⟨.refl _,.refl _,rfl⟩,?_⟩
  unfold after
  rw [passed, Option.getD_some]

theorem pass_leaves (answers : UInt16 → Answer) (ids : List UInt16) (c : Client U) (history : List Fate)
    (labels : List CriticalSection) :
    ∃ after, runPartial pass ⟨c,.leaving ids,history⟩ (ids.map (fun ssid => .leave (answers ssid)) ++ labels) =
      runPartial pass ⟨ids.foldl (fun c ssid => (c.deregister ssid (answers ssid)).2) c,.leaving [],after⟩ labels := by
  induction ids generalizing c history with
  | nil => exact ⟨history,rfl⟩
  | cons ssid ids ih =>
    obtain ⟨after,rest⟩ := ih (c.deregister ssid (answers ssid)).2
      (c.droppedFate ssid ++ (c.deletedSince (c.deregister ssid (answers ssid)).2 ++ history))
    exact ⟨after,rest⟩

/-- Without another thread the sections of `stop` make up the call. -/
theorem pass_stop (answers : UInt16 → Answer) (c : Client U) :
    ∃ after, runPartial pass { client := c }
      (.collect :: (c.registrations.keys.map (fun ssid => .leave (answers ssid)) ++ [.clear, .settle])) =
        some ⟨c.stop false answers,.outside,after⟩ := by
  obtain ⟨after,left⟩ := pass_leaves answers c.registrations.keys { c with running := false } [] [.clear, .settle]
  exact ⟨_,left⟩

end

/-- The server accepts a registration after the ids are collected. -/
def lateRun : List CriticalSection := [.collect, .register 1 created, .clear, .settle]

theorem late_abandoned :
    Run Step { client := sampleClient } lateRun (lateRun.foldl after { client := sampleClient }) ∧
      ¬ AbandonsNone (lateRun.foldl after ({ client := sampleClient } : Stopping LocationObject)).history := by
  refine ⟨?_,by decide +kernel⟩
  refine .cons (step_after ?_) (.cons (step_after ?_) (.cons (step_after ?_) (.cons (step_after ?_) (.nil _))))
  all_goals decide +kernel

-- So is a registration whose DELETE libcoap refuses.
example :
    ¬ AbandonsNone ([.register 1 created, .collect,
      .leave { refused := some ⟨.InternalServerError,"Failed to send request"⟩, outcome := err .Timeout "" }].foldl after
        ({ client := sampleClient } : Stopping LocationObject)).history := by decide +kernel

/-- A registration before `stop`, and one of the same server while its turn is to come. -/
def renewedRun : List CriticalSection :=
  [.register 1 created, .collect, .register 1 created, .leave { outcome := .ok { code := some .Deleted } }, .clear, .settle]

theorem renewed_left : AbandonsNone (renewedRun.foldl after ({ client := sampleClient } : Stopping LocationObject)).history := by
  have run : Run (Guarded Allowed Step) ({ client := sampleClient } : Stopping LocationObject) renewedRun
      (renewedRun.foldl after { client := sampleClient }) := by
    refine .cons ⟨?outside,step_after ?_⟩ (.cons ⟨trivial,step_after ?_⟩ (.cons ⟨?leaving,step_after ?_⟩
      (.cons ⟨?goesOut,step_after ?_⟩ (.cons ⟨trivial,step_after ?_⟩ (.cons ⟨trivial,step_after ?_⟩ (.nil _))))))
    case outside => rintro ids ⟨⟩
    case leaving =>
      intro ids phase _
      have turn : StopPhase.leaving [1] = .leaving ids := by
        rw [← phase]
        decide +kernel
      cases turn
      exact List.mem_cons_self
    case goesOut =>
      intro ssid ids phase _ conn found
      have turn : StopPhase.leaving [1] = .leaving (ssid :: ids) := by
        rw [← phase]
        decide +kernel
      cases turn
      refine ⟨?_,rfl⟩
      revert conn
      decide +kernel
    all_goals decide +kernel
  exact abandonsNone_run run

end Stopping

end Ferriot
