import Ferriot.Reentry

/-!
# Iterators across callbacks

`update_registration` and `deregister` look a registration up and call back before
they use it, `check_registration_updates` updates the registrations while it goes
through them, and `poll` answers requests while it goes through the connections. A
callback that removes the entry leaves the code with an iterator to nowhere, also where
another entry comes under the same key.
-/
namespace Ferriot
open Tables Requests Runs Iterators

namespace Place

/-- The code from here on may erase the registration. -/
def Erases : Place → UInt16 → Prop
  | .deregistering it, ssid | .deregisterWaits it, ssid | .erasing it, ssid => it.key = ssid
  | .losing s, ssid => s = ssid
  | .stopping _, _ => True
  | _, _ => False

/-- The code from here on may close or open a connection. -/
def Reconnects : Place → Prop
  | .attempting _ | .stopping _ => True
  | _ => False

/-- There is no iterator to the registration of the server. -/
def Frees (place : Place) (ssid : UInt16) : Prop := ∀ it, place.holds = some it → it.key ≠ ssid

/-- What is done at the one place leaves the iterators of the other alone. -/
def Spares (inner outer : Place) : Prop :=
  (∀ s, inner.Erases s → outer.Frees s) ∧ (inner.Reconnects → outer.iterates = none)

theorem spares_harmless {inner : Place} (erases : ∀ s, ¬ inner.Erases s) (reconnects : ¬ inner.Reconnects) (outer : Place) :
    inner.Spares outer :=
  ⟨fun s erased => absurd erased (erases s),fun changes => absurd changes reconnects⟩

end Place

namespace Reentry
variable {U : Type}

/-- What keeps a call from a callback from leaving an iterator behind. While an iterator stands at a
    registration there is no `deregister` of its server, no `stop`, and no poll that finds
    the server lost. While `poll` goes through the connections none is opened by
    `register_with_server`, there is no `stop`, and no poll that attempts to reconnect. -/
def Allowed (t : Reentry U) : Act → Prop
  | .call (.deregister ssid) => ∀ place ∈ t.stack, place.Frees ssid
  | .call (.register ssid connect) => connect = .ok () → ssid ∉ t.client.connections → ∀ place ∈ t.stack, place.iterates = none
  | .call (.stop false) => ∀ place ∈ t.stack, place.holds = none ∧ place.iterates = none
  | .health now =>
    t.client.state = .Registered → t.client.reconnecting = false →
      ∀ ssid, t.client.lostConnection now = some ssid → ∀ place ∈ t.stack, place.Frees ssid
  | .reconnect now =>
    t.client.reconnecting = true → t.client.nextReconnectTime ≤ now → ¬ t.client.GivesUp → ∀ place ∈ t.stack, place.iterates = none
  | _ => True

/-- What a run maintains: the entries are those of the two tables, the iterators stand at entries that
    are there, no connection has come or gone since an iteration began, and no call that goes on removes
    what a call around it uses. -/
structure Intact (t : Reentry U) : Prop where
  registered : ∀ s, t.registrations.Has s ↔ s ∈ t.client.registrations
  connected : ∀ s, t.connections.Has s ↔ s ∈ t.client.connections
  held : ∀ place ∈ t.stack, ∀ it, place.holds = some it → t.registrations.Live it
  fixed : ∀ place ∈ t.stack, ∀ started, place.iterates = some started → t.connections = started
  spared : t.stack.Pairwise Place.Spares

/-- The two tables have the same keys. -/
structure SameKeys (c d : Client U) : Prop where
  registrations : ∀ s, s ∈ d.registrations ↔ s ∈ c.registrations
  connections : ∀ s, s ∈ d.connections ↔ s ∈ c.connections

theorem sameKeys_of {c d : Client U} (registrations : d.registrations = c.registrations)
    (connections : d.connections = c.connections) : SameKeys c d :=
  ⟨fun s => by rw [registrations],fun s => by rw [connections]⟩

theorem SameKeys.trans {c d e : Client U} (first : SameKeys c d) (second : SameKeys d e) : SameKeys c e :=
  ⟨fun s => (second.registrations s).trans (first.registrations s),fun s => (second.connections s).trans (first.connections s)⟩

theorem sameKeys_waited {c d : Client U} (waited : Client.Waited (fun _ => True) c d) : SameKeys c d :=
  ⟨waited.registrations,waited.connections⟩

theorem sameKeys_setState (c : Client U) (new : ClientState) : SameKeys c (c.setState new) :=
  sameKeys_waited (Client.waited_setState c new)

variable {c d : Client U} {r r' n n' : Entries UInt16} {place next : Place} {rest : List Place}

/-- The calls around the innermost one. -/
theorem Intact.outer (intact : Intact ⟨c,r,n,place :: rest⟩) : Intact ⟨c,r,n,rest⟩ ∧ ∀ outer ∈ rest, place.Spares outer := by
  obtain ⟨inner,spared⟩ := List.pairwise_cons.mp intact.spared
  refine ⟨⟨intact.registered,intact.connected,?_,?_,spared⟩,inner⟩
  · intro outer member
    exact intact.held outer (List.mem_cons_of_mem _ member)
  · intro outer member
    exact intact.fixed outer (List.mem_cons_of_mem _ member)

/-- Changes that the calls around allow. -/
theorem Intact.changed (intact : Intact ⟨c,r,n,rest⟩) (registered : ∀ s, r'.Has s ↔ s ∈ d.registrations)
    (connected : ∀ s, n'.Has s ↔ s ∈ d.connections)
    (live : ∀ it, r.Live it → r'.Live it ∨ ∀ outer ∈ rest, outer.holds ≠ some it)
    (same : n' = n ∨ ∀ outer ∈ rest, outer.iterates = none) : Intact ⟨d,r',n',rest⟩ := by
  refine ⟨registered,connected,?_,?_,intact.spared⟩
  · intro outer member it held
    rcases live it (intact.held outer member it held) with kept | spared
    · exact kept
    · exact absurd held (spared outer member)
  · intro outer member started iterates
    rcases same with same | spared
    · exact same.trans (intact.fixed outer member started iterates)
    · rw [spared outer member] at iterates
      cases iterates

theorem Intact.same (intact : Intact ⟨c,r,n,rest⟩) (same : SameKeys c d) : Intact ⟨d,r,n,rest⟩ :=
  intact.changed (fun s => (intact.registered s).trans (same.registrations s).symm)
    (fun s => (intact.connected s).trans (same.connections s).symm) (fun _ => .inl) (.inl rfl)

/-- Another call, or another place. -/
theorem Intact.push (intact : Intact ⟨c,r,n,rest⟩) (held : ∀ it, next.holds = some it → r.Live it)
    (fixed : ∀ started, next.iterates = some started → n = started) (spares : ∀ outer ∈ rest, next.Spares outer) :
    Intact ⟨c,r,n,next :: rest⟩ := by
  refine ⟨intact.registered,intact.connected,?_,?_,List.pairwise_cons.mpr ⟨spares,intact.spared⟩⟩
  · intro outer member
    rcases List.mem_cons.mp member with rfl | member
    · exact held
    · exact intact.held outer member
  · intro outer member
    rcases List.mem_cons.mp member with rfl | member
    · exact fixed
    · exact intact.fixed outer member

/-- A place that holds no iterator and removes nothing. -/
theorem Intact.plain (intact : Intact ⟨c,r,n,rest⟩) (holds : next.holds = none) (iterates : next.iterates = none)
    (erases : ∀ s, ¬ next.Erases s) (reconnects : ¬ next.Reconnects) : Intact ⟨c,r,n,next :: rest⟩ := by
  refine intact.push ?_ ?_ (fun outer _ => Place.spares_harmless erases reconnects outer)
  · intro it held
    rw [holds] at held
    cases held
  · intro started fixed
    rw [iterates] at fixed
    cases fixed

/-- The next place of the same call, which has the iterators of the place before or none, and may remove no more. -/
theorem Intact.move (intact : Intact ⟨c,r,n,place :: rest⟩) (same : SameKeys c d)
    (holds : next.holds = none ∨ next.holds = place.holds) (iterates : next.iterates = none ∨ next.iterates = place.iterates)
    (erases : ∀ s, next.Erases s → place.Erases s) (reconnects : next.Reconnects → place.Reconnects) :
    Intact ⟨d,r,n,next :: rest⟩ := by
  obtain ⟨outer,spares⟩ := intact.outer
  refine (outer.same same).push ?_ ?_ ?_
  · intro it held
    rcases holds with none | before
    · rw [none] at held
      cases held
    · exact intact.held place List.mem_cons_self it (before ▸ held)
  · intro started fixed
    rcases iterates with none | before
    · rw [none] at fixed
      cases fixed
    · exact intact.fixed place List.mem_cons_self started (before ▸ fixed)
  · intro other member
    obtain ⟨erased,changed⟩ := spares other member
    exact ⟨fun s erasing => erased s (erases s erasing),fun changes => changed (reconnects changes)⟩

/-- The end of a call, or of a callback. -/
theorem Intact.pop (intact : Intact ⟨c,r,n,place :: rest⟩) (same : SameKeys c d) : Intact ⟨d,r,n,rest⟩ :=
  intact.outer.1.same same

/-- The next place of the same call, with no iterator and nothing to remove. -/
theorem Intact.onto (intact : Intact ⟨c,r,n,place :: rest⟩) (same : SameKeys c d) (holds : next.holds = none)
    (iterates : next.iterates = none) (erases : ∀ s, ¬ next.Erases s) (reconnects : ¬ next.Reconnects) :
    Intact ⟨d,r,n,next :: rest⟩ :=
  (intact.pop same).plain holds iterates erases reconnects

/-- A place that may erase a registration does. -/
theorem Intact.erase {ssid : UInt16} (intact : Intact ⟨c,r,n,place :: rest⟩) (erases : place.Erases ssid)
    (registrations : d.registrations = c.registrations.erase ssid) (connections : d.connections = c.connections) :
    Intact ⟨d,r.erase ssid,n,rest⟩ := by
  obtain ⟨outer,spares⟩ := intact.outer
  refine outer.changed ?_ ?_ ?_ (.inl rfl)
  · intro s
    rw [Entries.has_erase, registrations, AList.mem_erase]
    exact and_congr_right (fun _ => intact.registered s)
  · intro s
    rw [connections]
    exact intact.connected s
  · intro it live
    by_cases erased : it.key = ssid
    · exact .inr (fun other there held => (spares other there).1 ssid erases it held erased)
    · exact .inl (live.erase erased)

theorem mem_of_lookup {Value : Type} {t : Table UInt16 Value} {ssid : UInt16} {value : Value} (found : t.lookup ssid = some value) :
    ssid ∈ t :=
  AList.lookup_isSome.mp (by rw [found]; rfl)

/-- An iterator at a registration that has been looked up. -/
theorem Intact.live_found (intact : Intact ⟨c,r,n,rest⟩) {ssid : UInt16} {reg : Registration}
    (found : c.registrations.lookup ssid = some reg) : r.Live (r.find ssid) :=
  Entries.live_find ((intact.registered ssid).mpr (mem_of_lookup found))

theorem Intact.enterUpdate (intact : Intact ⟨c,r,n,rest⟩) (ssid : UInt16) : Intact (enterUpdate ssid ⟨c,r,n,rest⟩) := by
  unfold Reentry.enterUpdate
  dsimp only
  cases found : c.registrations.lookup ssid with
  | none => exact intact
  | some reg =>
    cases connected : c.connections.lookup ssid with
    | none => exact intact
    | some conn =>
      refine (intact.same (sameKeys_setState c .Updating)).push ?_ ?_ ?_
      · rintro it ⟨⟩
        exact intact.live_found found
      · rintro started ⟨⟩
      · intro outer _
        exact Place.spares_harmless (fun _ => id) id outer

theorem Intact.enterDeregister (intact : Intact ⟨c,r,n,rest⟩) {ssid : UInt16} (spared : ∀ outer ∈ rest, outer.Frees ssid) :
    Intact (enterDeregister ssid ⟨c,r,n,rest⟩) := by
  unfold Reentry.enterDeregister
  dsimp only
  cases found : c.registrations.lookup ssid with
  | none => exact intact
  | some reg =>
    have spares (place : Place) (erases : ∀ s, place.Erases s → s = ssid) (reconnects : ¬ place.Reconnects) :
        ∀ outer ∈ rest, place.Spares outer := by
      intro outer member
      refine ⟨?_,fun changes => absurd changes reconnects⟩
      intro s erased
      rw [erases s erased]
      exact spared outer member
    cases connected : c.connections.lookup ssid with
    | none =>
      refine intact.push ?_ ?_ (spares _ (fun _ => Eq.symm) id)
      · rintro it ⟨⟩
        exact intact.live_found found
      · rintro started ⟨⟩
    | some conn =>
      refine (intact.same (sameKeys_setState c .Deregistering)).push ?_ ?_ (spares _ (fun _ => Eq.symm) id)
      · rintro it ⟨⟩
        exact intact.live_found found
      · rintro started ⟨⟩

/-- A connection is opened for a server that has none. -/
theorem Intact.openConnection (intact : Intact ⟨c,r,n,rest⟩) {ssid : UInt16} {connect : Result Unit}
    (spared : connect = .ok () → ssid ∉ c.connections → ∀ outer ∈ rest, outer.iterates = none) :
    ∃ d n', (Reentry.openConnection ssid connect ⟨c,r,n,rest⟩).2 = ⟨d,r,n',rest⟩ ∧ Intact ⟨d,r,n',rest⟩ := by
  unfold Reentry.openConnection Client.openConnection
  dsimp only
  by_cases present : ssid ∈ c.connections
  · rw [if_pos present, Entries.insert_has ((intact.connected ssid).mpr present)]
    exact ⟨c,n,rfl,intact⟩
  · rw [if_neg present]
    cases connect with
    | error e => exact ⟨_,n,rfl,intact.same (sameKeys_of rfl rfl)⟩
    | ok opens =>
      refine ⟨_,_,rfl,intact.changed intact.registered ?_ (fun _ => .inl) (.inr (spared rfl present))⟩
      intro s
      rw [Entries.has_insert, mem_set]
      exact or_congr_right (intact.connected s)

theorem Intact.enterRegister (intact : Intact ⟨c,r,n,rest⟩) {ssid : UInt16} {connect : Result Unit}
    (spared : connect = .ok () → ssid ∉ c.connections → ∀ outer ∈ rest, outer.iterates = none) :
    Intact (enterRegister ssid connect ⟨c,r,n,rest⟩) := by
  unfold Reentry.enterRegister
  dsimp only
  cases SecurityObject.findByShortServerId c.objects.security ssid with
  | none => exact intact
  | some inst =>
    cases c.objects.server.findByShortServerId ssid with
    | none => exact intact
    | some srv =>
      obtain ⟨d,n',opened,after⟩ := intact.openConnection spared
      generalize Reentry.openConnection ssid connect ⟨c,r,n,rest⟩ = ended at opened ⊢
      obtain ⟨result,t⟩ := ended
      cases opened
      cases result with
      | error e => exact after
      | ok done => exact (after.same (sameKeys_setState d .Registering)).plain rfl rfl (fun _ => id) id

/-- A call that is allowed. -/
theorem Intact.enter (intact : Intact ⟨c,r,n,rest⟩) (call : PublicCall) (allowed : Allowed ⟨c,r,n,rest⟩ (.call call)) :
    Intact (enter call ⟨c,r,n,rest⟩) := by
  cases call with
  | register ssid connect => exact intact.enterRegister allowed
  | update ssid => exact intact.enterUpdate ssid
  | deregister ssid => exact intact.enterDeregister allowed
  | start =>
    dsimp only [Reentry.enter]
    by_cases running : c.running = true
    · rw [if_pos running]
      exact intact
    · rw [if_neg running]
      have started : SameKeys c ({ c with running := true }.setState .Idle) :=
        sameKeys_of (Client.setState_registrations _ _) (Client.setState_connections _ _)
      exact (intact.same started).plain rfl rfl (fun _ => id) id
  | stop onEventThread =>
    have same : SameKeys c { c with running := false } := sameKeys_of rfl rfl
    cases onEventThread with
    | true => exact intact.same same
    | false =>
      refine (intact.same same).push ?_ ?_ ?_
      · rintro it ⟨⟩
      · rintro started ⟨⟩
      · intro outer member
        obtain ⟨holds,iterates⟩ := allowed outer member
        refine ⟨?_,fun _ => iterates⟩
        intro s _ it held
        rw [holds] at held
        cases held
  | poll =>
    refine intact.push ?_ ?_ (fun outer _ => Place.spares_harmless (fun _ => id) id outer)
    · rintro it ⟨⟩
    · rintro started ⟨⟩
      rfl

theorem sameKeys_endUpdate (ssid : UInt16) (a : Answer) (c : Client U) : SameKeys c (c.endUpdate ssid a) := by
  have settled (d : Client U) : SameKeys d (d.setState .Registered) := sameKeys_setState d .Registered
  unfold Client.endUpdate
  cases a.outcome with
  | error e => exact settled c
  | ok r =>
    dsimp only
    by_cases success : r.isSuccess = true
    · rw [if_pos success]
      have renewed : SameKeys c (c.renew ssid a.now) := sameKeys_waited (Client.waited_renew c ssid a.now)
      have accepted : SameKeys (c.renew ssid a.now) ((c.renew ssid a.now).noteAccepted ssid .update a.now) :=
        sameKeys_waited (Client.waited_noteAccepted _ ssid .update a.now)
      exact (renewed.trans accepted).trans (settled _)
    · rw [if_neg success]
      exact settled c

/-- A registration that is stored leaves the entries of the others alone, and its own if there is one. -/
theorem Intact.endRegister (intact : Intact ⟨c,r,n,rest⟩) (ssid : UInt16) (srv : ServerInstance) (a : RegisterAnswer) :
    Intact (endRegister ssid srv a ⟨c,r,n,rest⟩) := by
  have failed : Intact ⟨c.setState .Error,r,n,rest⟩ := intact.same (sameKeys_setState c .Error)
  unfold Reentry.endRegister
  cases a.outcome with
  | error e => exact failed
  | ok answer =>
    dsimp only
    by_cases rejected : (!answer.isSuccess) = true
    · rw [if_pos rejected]
      exact failed
    · rw [if_neg rejected]
      by_cases lost : answer.getLocationPath = []
      · rw [if_pos lost]
        exact failed
      · rw [if_neg lost]
        obtain ⟨registrations,connections,-⟩ := Client.storeRegistration_cases ssid answer.getLocationPath srv.lifetime a c
        refine intact.changed ?_ (fun s => (intact.connected s).trans (connections s).symm)
          (fun it live => .inl (live.insert ssid)) (.inl rfl)
        intro s
        rw [Entries.has_insert, registrations]
        exact or_congr_right (intact.registered s)

section
variable [Object U]

theorem Intact.enterCheck (intact : Intact ⟨c,r,n,rest⟩) (ssid : UInt16) (now : Int) :
    Intact (enterCheck ssid now ⟨c,r,n,rest⟩) := by
  rcases enterCheck_cases ssid now (fun _ => { outcome := err .Timeout "" }) ⟨c,r,n,rest⟩ with ⟨entered,-⟩ | ⟨entered,-⟩
  · rw [entered]
    exact intact.enterUpdate ssid
  · rw [entered]
    exact intact

theorem intact_step (t : Reentry U) (act : Act) (u : Reentry U) (intact : Intact t) (stepped : Guarded Allowed Step t act u) :
    Intact u := by
  obtain ⟨allowed,step⟩ := stepped
  cases step with
  | @call t call may free =>
    obtain ⟨c,r,n,stack⟩ := t
    exact intact.enter call allowed
  | callBack may => exact intact.plain rfl rfl (fun _ => id) id
  | resume => exact intact.pop (sameKeys_of rfl rfl)
  | «return» last => exact intact.pop (sameKeys_of rfl rfl)
  | reorder reordered =>
    exact intact.same ⟨fun _ => AList.mem_of_perm reordered.registrations,fun _ => AList.mem_of_perm reordered.connections⟩
  | @session c r n place rest ssid waits up =>
    exact intact.same (sameKeys_waited (Client.waited_sessionEvent c ssid up (fun _ => trivial)))
  | serve waits moments request =>
    refine Intact.plain ?_ rfl rfl (fun _ => id) id
    exact intact.same (sameKeys_of rfl rfl)
  | sendUpdate => exact intact.move (sameKeys_of rfl rfl) (.inr rfl) (.inr rfl) (fun _ => id) id
  | @failUpdate c => exact intact.onto (sameKeys_setState c _) rfl rfl (fun _ => id) id
  | @endUpdate c r n it rest a =>
    exact intact.onto (sameKeys_endUpdate it.key a.toAnswer c) rfl rfl (fun _ => id) id
  | sendDeregister => exact intact.move (sameKeys_of rfl rfl) (.inr rfl) (.inr rfl) (fun _ => id) id
  | failDeregister => exact intact.move (sameKeys_of rfl rfl) (.inr rfl) (.inr rfl) (fun _ => id) id
  | endDeregister => exact intact.move (sameKeys_of rfl rfl) (.inr rfl) (.inr rfl) (fun _ => id) id
  | @erase c r n it rest =>
    have erases : Place.Erases (.erasing it) it.key := rfl
    exact Intact.plain (intact.erase erases rfl rfl) rfl rfl (fun _ => id) id
  | @settle c => exact intact.onto (sameKeys_setState c _) rfl rfl (fun _ => id) id
  | sendRegister => exact intact.onto (sameKeys_of rfl rfl) rfl rfl (fun _ => id) id
  | @failRegister c => exact intact.onto (sameKeys_setState c _) rfl rfl (fun _ => id) id
  | @endRegister c r n ssid srv rest a => exact (intact.outer.1.plain rfl rfl (fun _ => id) id).endRegister ssid srv a
  | pollConnection => exact intact.move (sameKeys_of rfl rfl) (.inl rfl) (.inr rfl) (fun _ => False.elim) False.elim
  | nextConnection => exact intact.move (sameKeys_of rfl rfl) (.inl rfl) (.inr rfl) (fun _ => False.elim) False.elim
  | endConnections => exact intact.onto (sameKeys_of rfl rfl) rfl rfl (fun _ => id) id
  | @checkRegistration c r n ssid rest now present =>
    have visiting : Intact ⟨c,r,n,.visiting (r.find ssid) :: rest⟩ := by
      refine intact.outer.1.push ?_ ?_ (fun outer _ => Place.spares_harmless (fun _ => id) id outer)
      · rintro it ⟨⟩
        exact Entries.live_find ((intact.registered ssid).mpr present)
      · rintro started ⟨⟩
    exact visiting.enterCheck ssid now
  | nextRegistration => exact intact.onto (sameKeys_of rfl rfl) rfl rfl (fun _ => id) id
  | endRegistrations => exact intact.onto (sameKeys_of rfl rfl) rfl rfl (fun _ => id) id
  | healthy well => exact intact.onto (sameKeys_of rfl rfl) rfl rfl (fun _ => id) id
  | @lose c r n ssid rest now registered quiet lost =>
    have errored : SameKeys c ({ c with reconnecting := true }.setState .Error) :=
      sameKeys_of (Client.setState_registrations _ _) (Client.setState_connections _ _)
    have around : Intact ⟨{ c with reconnecting := true }.setState .Error,r,n,.reconnecting :: rest⟩ :=
      intact.move errored (.inl rfl) (.inl rfl) (fun _ => False.elim) False.elim
    refine around.push ?_ ?_ ?_
    · rintro it ⟨⟩
    · rintro started ⟨⟩
    · intro outer member
      refine ⟨?_,False.elim⟩
      rintro s rfl
      rcases List.mem_cons.mp member with rfl | member
      · rintro it ⟨⟩
      · exact allowed registered quiet _ lost outer (List.mem_cons_of_mem _ member)
  | @drop c r n ssid rest now =>
    have erases : Place.Erases (.losing ssid) ssid := rfl
    exact Intact.plain (intact.erase erases rfl rfl) rfl rfl (fun _ => id) id
  | noReconnect => exact intact.pop (sameKeys_of rfl rfl)
  | disabled => exact intact.pop (sameKeys_of rfl rfl)
  | exhausted => exact intact.onto (sameKeys_of rfl rfl) rfl rfl (fun _ => id) id
  | reconnect due goesOn =>
    refine Intact.push (intact.outer.1.same (sameKeys_of rfl rfl)) ?_ ?_ ?_
    · rintro s ⟨⟩
    · rintro servers ⟨⟩
    · intro outer member
      exact ⟨fun _ => False.elim,fun _ => allowed due.1 due.2 goesOn outer (List.mem_cons_of_mem _ member)⟩
  | @attempt c r n ssid rest connect =>
    obtain ⟨outer,spares⟩ := intact.outer
    have still : ∀ other ∈ rest, other.iterates = none := fun other member => (spares other member).2 trivial
    have erased : Intact ⟨{ c with connections := c.connections.erase ssid },r,n.erase ssid,rest⟩ := by
      refine outer.changed outer.registered ?_ (fun _ => .inl) (.inr still)
      intro s
      rw [Entries.has_erase, AList.mem_erase]
      exact and_congr_right (fun _ => outer.connected s)
    have closed : Intact ⟨{ c with connections := c.connections.erase ssid },r,n.erase ssid,.attempted ssid :: rest⟩ :=
      erased.plain rfl rfl (fun _ => id) id
    refine closed.enterRegister ?_
    intro _ _ other member
    rcases List.mem_cons.mp member with rfl | member
    · rfl
    · exact still other member
  | reconnected => exact intact.onto (sameKeys_of rfl rfl) rfl rfl (fun _ => id) id
  | backOff => exact intact.pop (sameKeys_of rfl rfl)
  | @leave c r n ssid ids rest =>
    have ahead : Intact ⟨c,r,n,.stopping ids :: rest⟩ :=
      intact.move (sameKeys_of rfl rfl) (.inl rfl) (.inl rfl) (fun _ => id) id
    refine ahead.enterDeregister ?_
    intro outer member
    rcases List.mem_cons.mp member with rfl | member
    · rintro it ⟨⟩
    · exact (intact.outer.2 outer member).1 ssid trivial
  | @clear c r n rest =>
    obtain ⟨outer,spares⟩ := intact.outer
    have emptied : Intact ⟨{ c with connections := ∅, registrations := ∅ },r.clear,n.clear,rest⟩ := by
      refine outer.changed ?_ ?_ ?_ (.inr fun other member => (spares other member).2 trivial)
      · exact fun s => iff_of_false Entries.has_clear (by rintro ⟨⟩)
      · exact fun s => iff_of_false Entries.has_clear (by rintro ⟨⟩)
      · exact fun it _ => .inr (fun other member held => (spares other member).1 it.key trivial it held rfl)
    exact (emptied.same (sameKeys_setState _ .Idle)).plain rfl rfl (fun _ => id) id

omit [Object U] in
theorem Intact.safe {t : Reentry U} (intact : Intact t) : t.Safe := by
  obtain ⟨c,r,n,stack⟩ := t
  refine ⟨?_,?_⟩
  · intro act it uses
    have there : ∃ place rest, stack = place :: rest ∧ place.holds = some it := by
      unfold Uses at uses
      split at uses
      · next same => exact ⟨_,_,same,congrArg some uses⟩
      · next same => exact ⟨_,_,same,congrArg some uses.1⟩
      · next same => exact ⟨_,_,same,congrArg some uses⟩
      · next same => exact ⟨_,_,same,congrArg some uses⟩
      · next same => exact ⟨_,_,same,congrArg some uses⟩
      · exact uses.elim
    obtain ⟨place,rest,rfl,holds⟩ := there
    have live := intact.held place List.mem_cons_self it holds
    exact ⟨(intact.registered it.key).mp live.has,live⟩
  · intro place member started iterates
    have same := intact.fixed place member started iterates
    exact ⟨same,fun s => (same ▸ intact.connected s).symm⟩

/-- From any client, in every run whose callbacks call as allowed, the code uses no iterator whose entry
    is gone, and `poll` goes through the connections that it started with. -/
theorem safe_run {c : Client U} {acts : List Act} {t : Reentry U} (run : Run (Guarded Allowed Step) { client := c } acts t) :
    t.Safe := by
  have start : Intact { client := c } := by
    refine ⟨?_,?_,?_,?_,.nil⟩
    · exact fun s => (Entries.has_ofKeys _).trans decide_eq_true_iff
    · exact fun s => (Entries.has_ofKeys _).trans decide_eq_true_iff
    · rintro place ⟨⟩
    · rintro place ⟨⟩
  exact (run.keeps intact_step start).safe

omit [Object U] in
theorem enterUpdate_registrations (ssid : UInt16) (t : Reentry U) : (t.enterUpdate ssid).registrations = t.registrations := by
  unfold Reentry.enterUpdate
  split <;> rfl

omit [Object U] in
theorem enterDeregister_registrations (ssid : UInt16) (t : Reentry U) :
    (t.enterDeregister ssid).registrations = t.registrations := by
  unfold Reentry.enterDeregister
  split <;> rfl

omit [Object U] in
theorem enterRegister_registrations (ssid : UInt16) (connect : Result Unit) (t : Reentry U) :
    (t.enterRegister ssid connect).registrations = t.registrations := by
  unfold Reentry.enterRegister Reentry.openConnection
  split
  · rcases t.client.openConnection ssid connect with ⟨e | ⟨⟩,c⟩ <;> rfl
  · rfl

omit [Object U] in
theorem enter_registrations (call : PublicCall) (t : Reentry U) : (t.enter call).registrations = t.registrations := by
  cases call with
  | register ssid connect => exact enterRegister_registrations ssid connect t
  | update ssid => exact enterUpdate_registrations ssid t
  | deregister ssid => exact enterDeregister_registrations ssid t
  | start =>
    dsimp only [Reentry.enter]
    split <;> rfl
  | _ => rfl

theorem changes_step {t u : Reentry U} {act : Act} (step : Step t act u) :
    Relation.ReflTransGen Entries.Change t.registrations u.registrations := by
  have same {a b : Entries UInt16} (same : b = a) : Relation.ReflTransGen Entries.Change a b := same ▸ .refl
  cases step with
  | call call => exact same (enter_registrations call t)
  | @erase c r n it rest => exact .single (.erase it.key r)
  | @endRegister c r n ssid srv rest a =>
    unfold Reentry.endRegister
    split
    · exact .refl
    · split
      · exact .refl
      · split
        · exact .refl
        · exact .single (.insert ssid r)
  | @checkRegistration c r n ssid rest now =>
    rcases enterCheck_cases ssid now (fun _ => { outcome := err .Timeout "" }) ⟨c,r,n,.visiting (r.find ssid) :: rest⟩ with
      ⟨entered,-⟩ | ⟨entered,-⟩
    · rw [entered]
      exact same (enterUpdate_registrations ssid _)
    · rw [entered]
  | @drop c r n ssid rest now => exact .single (.erase ssid r)
  | attempt connect => exact same (enterRegister_registrations _ connect _)
  | leave => exact same (enterDeregister_registrations _ _)
  | @clear c r n rest => exact .single (.clear r)
  | _ => exact .refl

/-- In any run, with whatever calls, an iterator that stands at its entry has stood there since it was made:
    the entry has not been erased on the way. -/
theorem live_since {t u : Reentry U} {acts : List Act} {it : Iterator UInt16} (run : Run Step t acts u)
    (made : it.number < t.registrations.next) (live : u.registrations.Live it) : t.registrations.Live it := by
  have keep : ∀ (v : Reentry U) (act : Act) (w : Reentry U),
      Relation.ReflTransGen Entries.Change t.registrations v.registrations → Step v act w →
        Relation.ReflTransGen Entries.Change t.registrations w.registrations := by
    intro v act w before step
    exact before.trans (changes_step step)
  exact Entries.live_back (run.keeps keep .refl) made live

end

/-- The application registers with the server 1. -/
def registers : List Act := [.call (.register 1 (.ok ())), .send none, .answer created, .return]

/-- It updates the registration, and deregisters when it is told that the state is Updating. -/
def deregistersWithin : List Act :=
  registers ++ [.call (.update 1), .callBack, .call (.deregister 1), .send none, .answer created, .erase, .settle, .return, .resume]

/-- The calls of these runs do not need the lifecycle lock. -/
theorem unlocked {stack : List Place} (locks : false = true) : ∀ place ∈ stack, place.locks = false := by cases locks

theorem deregistered_unsafe : ∃ t, Run Step { client := sampleClient } deregistersWithin t ∧ ¬ t.Safe := by
  refine ⟨_,.cons (.call (.register 1 (.ok ())) trivial unlocked) (.cons (.sendRegister ⟨rfl,rfl⟩) (.cons (.endRegister created)
    (.cons (.return rfl) (.cons (.call (.update 1) trivial unlocked) (.cons (.callBack rfl) (.cons (.call (.deregister 1) rfl unlocked)
    (.cons (.sendDeregister rfl ⟨rfl,rfl⟩) (.cons (.endDeregister created) (.cons .erase (.cons .settle (.cons (.return rfl)
    (.cons .resume (.nil _))))))))))))),?_⟩
  rintro ⟨used,-⟩
  obtain ⟨there,-⟩ := used (.send none) _ rfl
  revert there
  decide +kernel

/-- The same with an update instead. -/
def updatesWithin : List Act :=
  registers ++ [.call (.update 1), .callBack, .call (.update 1), .send none, .answer created, .return, .resume]

theorem updated_safe : ∃ t, Run (Guarded Allowed Step) { client := sampleClient } updatesWithin t ∧ t.Safe := by
  have run : ∃ t, Run (Guarded Allowed Step) { client := sampleClient } updatesWithin t := by
    refine ⟨_,.cons ⟨?_,.call (.register 1 (.ok ())) trivial unlocked⟩ (.cons ⟨trivial,.sendRegister ⟨rfl,rfl⟩⟩
      (.cons ⟨trivial,.endRegister created⟩ (.cons ⟨trivial,.return rfl⟩ (.cons ⟨trivial,.call (.update 1) trivial unlocked⟩
      (.cons ⟨trivial,.callBack rfl⟩ (.cons ⟨trivial,.call (.update 1) rfl unlocked⟩ (.cons ⟨trivial,.sendUpdate rfl ⟨rfl,rfl⟩⟩
      (.cons ⟨trivial,.endUpdate created⟩ (.cons ⟨trivial,.return rfl⟩ (.cons ⟨trivial,.resume⟩ (.nil _)))))))))))⟩
    rintro - - place ⟨⟩
  obtain ⟨t,run⟩ := run
  exact ⟨t,run,safe_run run⟩

end Reentry

end Ferriot
