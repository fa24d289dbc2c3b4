import Ferriot.DeadConnections
import Ferriot.RequestOptions

/-!
# The location a server gives

The Location-Path values of an accepted registration are joined by slashes and
stored; every later update and deregistration is addressed to the stored text,
which `send` cuts into options again. Between two registrations with a server
the client holds at most the location of the first.
-/
namespace Ferriot
open Tables Requests Runs Delimited

/-- The values of the Location-Path options. -/
def CoapResponse.locationValues (r : CoapResponse) : List Bytes := (r.options.filter (fun o => o.1 = 8)).map Prod.snd

/-- Values that are not empty are joined by slashes, after a slash. -/
theorem getLocationPath_eq {r : CoapResponse} (some : r.locationValues ≠ []) (nonempty : ∀ v ∈ r.locationValues, v ≠ []) :
    r.getLocationPath = slash :: [slash].intercalate r.locationValues := by
  let join (location value : Bytes) := if location = [] then value else location ++ lit ['/'] ++ value
  have joined (values : List Bytes) (first : Bytes) (nonempty : first ≠ []) :
      values.foldl join first = [slash].intercalate (first :: values) := by
    induction values generalizing first with
    | nil => simp
    | cons v values ih =>
      have step : join first v = first ++ [slash] ++ v := if_neg nonempty
      rw [List.foldl_cons, step, ih _ (by simp), intercalate_snoc]
  unfold CoapResponse.getLocationPath
  unfold CoapResponse.locationValues at some nonempty ⊢
  generalize (r.options.filter (fun o => decide (o.1 = 8))).map Prod.snd = values at some nonempty ⊢
  cases values with
  | nil => exact absurd rfl some
  | cons v values =>
    have start : ([] : Bytes) ++ v ≠ [] := by simpa using nonempty v List.mem_cons_self
    have whole : (v :: values).foldl join [] = [slash].intercalate (v :: values) := by
      rw [List.foldl_cons]
      exact joined values v (nonempty v List.mem_cons_self)
    have present : [slash].intercalate (v :: values) ≠ [] := by
      cases v with
      | nil => exact absurd rfl (nonempty [] List.mem_cons_self)
      | cons b v => simp
    dsimp only
    rw [whole, if_neg present]
    rfl

/-- The location comes back as the options it was made of exactly if no value holds a
    slash or a question mark. -/
theorem locationOptions_iff {splitUri : Bytes → Option Uri} (cuts : CutsAtQuery splitUri) {r : CoapResponse}
    (some : r.locationValues ≠ []) (nonempty : ∀ v ∈ r.locationValues, v ≠ []) :
    uriOptions splitUri r.getLocationPath = { path := r.locationValues } ↔
      ∀ v ∈ r.locationValues, slash ∉ v ∧ questionMark ∉ v := by
  rw [getLocationPath_eq some nonempty]
  generalize r.locationValues = values at nonempty ⊢
  have unlike : questionMark ≠ slash := by decide
  have asked := mem_intercalate unlike values
  by_cases query : questionMark ∈ [slash].intercalate values
  · obtain ⟨v,member,inside⟩ := asked.mp query
    refine iff_of_false ?_ (fun free => (free v member).2 inside)
    intro same
    obtain ⟨path,rest,split,free⟩ := List.eq_append_cons_of_mem query
    rw [split, uriOptions_query cuts free] at same
    have paths : pieces slash path = values := congrArg UriOptions.path same
    rw [← paths] at member
    obtain ⟨-,-,kept⟩ := mem_pieces member
    exact free (kept questionMark inside)
  · rw [uriOptions_plain cuts query, UriOptions.mk.injEq, and_iff_left rfl, pieces_intercalate]
    constructor
    · intro whole v member
      refine ⟨(whole v member).2,?_⟩
      intro inside
      exact query (asked.mpr ⟨v,member,inside⟩)
    · intro free v member
      exact ⟨nonempty v member,(free v member).1⟩

/-- Unless it stores a registration with the server, an entry addresses no other location
    of the server than the one that is held. -/
def Entry.Keeps (s : UInt16) (held : Option Bytes) : Entry → Prop
  | .sent ssid .update request => ssid = s → held = some request.uriPath
  | .sent ssid .deregister request => ssid = s → held = some request.uriPath
  | .notified (.onRegistered ssid _) => ssid ≠ s
  | _ => True

theorem Entry.Keeps.mono {s : UInt16} {held held' : Option Bytes} {e : Entry} (keeps : e.Keeps s held)
    (same : held = none ∨ held = held') : e.Keeps s held' := by
  rcases same with rfl | rfl
  · cases e with
    | sent ssid operation request =>
      cases operation with
      | register lifetime => trivial
      | update =>
        intro here
        cases keeps here
      | deregister =>
        intro here
        cases keeps here
    | notified n =>
      cases n with
      | onRegistered ssid reg => exact keeps
      | _ => trivial
    | _ => trivial
  · exact keeps

namespace Client
variable {U : Type}

/-- The location held for a server. -/
def location (c : Client U) (s : UInt16) : Option Bytes := (c.registrations.lookup s).map Registration.location

/-- Nothing has been stored for the server in between, and what has been sent to it has
    gone to the location held at first. -/
structure Keeping (s : UInt16) (c d : Client U) : Prop where
  log : ∃ new, d.log = new ++ c.log ∧ ∀ e ∈ new, e.Keeps s (c.location s)
  location : d.location s = none ∨ d.location s = c.location s

variable {s : UInt16}

theorem Keeping.same {c d : Client U} (log : d.log = c.log) (location : d.location s = none ∨ d.location s = c.location s) :
    Keeping s c d := ⟨⟨[],log,by simp⟩,location⟩

theorem Keeping.refl (c : Client U) : Keeping s c c := .same rfl (.inr rfl)

theorem Keeping.trans {c d e : Client U} (first : Keeping s c d) (second : Keeping s d e) : Keeping s c e := by
  obtain ⟨⟨old,oldLog,oldKeeps⟩,oldLocation⟩ := first
  obtain ⟨⟨new,newLog,newKeeps⟩,newLocation⟩ := second
  constructor
  · refine ⟨new ++ old,?_,?_⟩
    · rw [newLog, oldLog, List.append_assoc]
    · intro x member
      rcases List.mem_append.mp member with late | early
      · exact (newKeeps x late).mono oldLocation
      · exact oldKeeps x early
  · rcases newLocation with none | same
    · exact .inl none
    · rwa [same]

theorem keeping_note {c : Client U} {e : Entry} (keeps : e.Keeps s (c.location s)) : Keeping s c (c.note e) :=
  ⟨⟨[e],rfl,by simpa using keeps⟩,.inr rfl⟩

/-- Nothing has been stored for the server or sent to it in between. -/
def Silent (s : UInt16) (c d : Client U) : Prop := ∃ new, d.log = new ++ c.log ∧ ∀ e ∈ new, e.Keeps s none

theorem Silent.trans {c d e : Client U} (first : Silent s c d) (second : Silent s d e) : Silent s c e := by
  obtain ⟨old,oldLog,oldKeeps⟩ := first
  obtain ⟨new,newLog,newKeeps⟩ := second
  refine ⟨new ++ old,by rw [newLog, oldLog, List.append_assoc],?_⟩
  intro x member
  rcases List.mem_append.mp member with late | early
  · exact newKeeps x late
  · exact oldKeeps x early

theorem Silent.keeping {c d : Client U} (silent : Silent s c d) (location : d.location s = c.location s) : Keeping s c d := by
  obtain ⟨new,log,keeps⟩ := silent
  exact ⟨⟨new,log,fun e member => (keeps e member).mono (.inl rfl)⟩,.inr location⟩

theorem silent_setState (c : Client U) (new : ClientState) : Silent s c (c.setState new) := by
  unfold setState
  by_cases same : c.state = new
  · rw [if_pos same]
    exact ⟨[],rfl,by simp⟩
  · rw [if_neg same]
    exact ⟨[_],rfl,by simp [Entry.Keeps]⟩

theorem setState_location (c : Client U) (new : ClientState) : (c.setState new).location s = c.location s := by
  unfold location
  rw [setState_registrations]

theorem keeping_setState (c : Client U) (new : ClientState) : Keeping s c (c.setState new) :=
  (silent_setState c new).keeping (setState_location c new)

theorem silent_noteAccepted (c : Client U) (ssid : UInt16) (operation : Operation) (now : Int) :
    Silent s c (c.noteAccepted ssid operation now) := by
  unfold noteAccepted
  cases c.registrations.lookup ssid with
  | none => exact ⟨[],rfl,by simp⟩
  | some reg => exact ⟨[_],rfl,by simp [Entry.Keeps]⟩

theorem noteAccepted_location (c : Client U) (ssid : UInt16) (operation : Operation) (now : Int) :
    (c.noteAccepted ssid operation now).location s = c.location s := by
  unfold noteAccepted
  split <;> rfl

theorem keeping_noteAccepted (c : Client U) (ssid : UInt16) (operation : Operation) (now : Int) :
    Keeping s c (c.noteAccepted ssid operation now) :=
  (silent_noteAccepted c ssid operation now).keeping (noteAccepted_location c ssid operation now)

theorem keeping_renew (c : Client U) (ssid : UInt16) (now : Int) : Keeping s c (c.renew ssid now) := by
  unfold renew
  cases c.objects.server.findByShortServerId ssid with
  | none => exact .refl c
  | some srv =>
    refine .same rfl (.inr ?_)
    unfold location
    dsimp only
    rw [lookup_modify]
    by_cases here : s = ssid
    · rw [if_pos here, Option.map_map, here]
      rfl
    · rw [if_neg here]

theorem keeping_sendWith {wait : Client U → Client U} {ssid : UInt16} {operation : Operation} {request : CoapRequest}
    (refused : Option Error) (outcome : Result CoapResponse) {c : Client U}
    (addressed : (Entry.sent ssid operation request).Keeps s (c.location s))
    (waits : ∀ d : Client U, Keeping s d (wait d)) :
    Keeping s c (sendWith wait ssid operation request refused outcome c).2 := by
  unfold sendWith
  split
  · cases refused with
    | some e => exact .refl c
    | none => exact (keeping_note addressed).trans (waits _)
  · exact .refl c

/-- A request to a registered server goes to the location that is held. -/
theorem location_found {c : Client U} {ssid : UInt16} {reg : Registration} (found : c.registrations.lookup ssid = some reg)
    (here : ssid = s) : c.location s = some reg.location := by
  unfold location
  rw [← here, found]
  rfl

theorem keeping_updateWith {wait : Client U → Client U} {ssid : UInt16} {refused : Option Error}
    {outcome : Result CoapResponse} {now : Int} (c : Client U) (waits : ∀ d : Client U, Keeping s d (wait d)) :
    Keeping s c (updateWith wait ssid refused outcome now c).2 := by
  unfold updateWith
  cases found : c.registrations.lookup ssid with
  | none => exact .refl c
  | some reg =>
    cases c.connections.lookup ssid with
    | none => exact .refl c
    | some conn =>
      have addressed : (Entry.sent ssid .update
          { method := .Post, uriPath := reg.location, contentFormat := .LinkFormat }).Keeps s
            ((c.setState .Updating).location s) := by
        intro here
        rw [setState_location]
        exact location_found found here
      have through := (keeping_setState c .Updating).trans (keeping_sendWith refused outcome addressed waits)
      dsimp only
      generalize sendWith wait ssid .update _ refused outcome (c.setState .Updating) = ended at through ⊢
      obtain ⟨response,d⟩ := ended
      cases response with
      | error e => exact through.trans (keeping_setState d .Registered)
      | ok r =>
        dsimp only
        split
        · have renewed := through.trans (keeping_renew d ssid now)
          have noted := renewed.trans (keeping_noteAccepted _ ssid .update now)
          exact noted.trans (keeping_setState _ .Registered)
        · exact through.trans (keeping_setState d .Registered)

theorem keeping_openConnection (ssid : UInt16) (connect : Result Unit) (c : Client U) :
    Keeping s c (openConnection ssid connect c).2 := by
  obtain ⟨connections,new,same,connects,-⟩ := openConnection_cases ssid connect c
  rw [same]
  refine ⟨⟨new,rfl,?_⟩,.inr rfl⟩
  intro e member
  obtain ⟨config,rfl⟩ := connects e member
  trivial

/-- A registration that is dropped, of whichever server. -/
theorem keeping_erase (c : Client U) (ssid : UInt16) : Keeping s c { c with registrations := c.registrations.erase ssid } := by
  refine .same rfl ?_
  unfold location
  dsimp only
  by_cases here : s = ssid
  · left
    rw [here, AList.lookup_erase]
    rfl
  · right
    rw [AList.lookup_erase_ne here]

theorem keeping_handleConnectionLost (ssid : UInt16) (now : Int) (c : Client U) :
    Keeping s c (handleConnectionLost ssid now c) := by
  unfold handleConnectionLost
  split
  · exact .refl c
  · have reconnecting : Keeping s c { c with reconnecting := true } := .same rfl (.inr rfl)
    have errored := reconnecting.trans (keeping_setState _ .Error)
    have erased := errored.trans (keeping_erase _ ssid)
    have settled : Keeping s c
        { { c with reconnecting := true }.setState .Error with
          reconnectAttempts := 0
          reconnectSsid := ssid
          nextReconnectTime := now
          registrations := ({ c with reconnecting := true }.setState .Error).registrations.erase ssid } :=
      erased.trans (.same rfl (.inr rfl))
    have reported := settled.trans (keeping_note (e := .notified (.onConnectionLost ssid)) trivial)
    exact reported.trans (keeping_note (e := .notified (.onError .ConnectionFailed "Connection to server lost")) trivial)

theorem keeping_checkConnectionHealth (now lostAt : Int) (c : Client U) :
    Keeping s c (checkConnectionHealth now lostAt c) := by
  unfold checkConnectionHealth
  split
  · exact .refl c
  · split
    · exact keeping_handleConnectionLost _ lostAt c
    · exact .refl c

theorem Reordered.keeping {c d : Client U} (reordered : Reordered c d) : Keeping s c d := by
  obtain ⟨-,registrations,rest⟩ := reordered
  refine .same (by rw [rest]) (.inr ?_)
  unfold location
  rw [AList.perm_lookup registrations]

/-- Storing a registration with another server. -/
theorem keeping_storeRegistration {ssid : UInt16} (other : ssid ≠ s) (path : Bytes) (lifetime : UInt32)
    (a : RegisterAnswer) (c : Client U) : Keeping s c (storeRegistration ssid path lifetime a c) := by
  unfold storeRegistration
  dsimp only
  have stored : Keeping s c
      { c with registrations := set c.registrations ssid ⟨path,ssid,a.registeredAt,a.now + seconds lifetime.toNat⟩ } := by
    refine .same rfl (.inr ?_)
    unfold location
    dsimp only
    rw [lookup_set, if_neg (Ne.symm other)]
  have noted := stored.trans (keeping_noteAccepted _ ssid (.register lifetime) a.now)
  exact (noted.trans (keeping_setState _ .Registered)).trans (keeping_note other)

/-- The registration with the server is stored, with the location of the response. -/
def Restored (s : UInt16) (a : RegisterAnswer) (c d : Client U) : Prop :=
  ∃ r lifetime e, a.outcome = .ok r ∧ Keeping s c e ∧ Keeping s (storeRegistration s r.getLocationPath lifetime a e) d

theorem Restored.after {a : RegisterAnswer} {c d e : Client U} (first : Keeping s c d) (second : Restored s a d e) :
    Restored s a c e := by
  obtain ⟨r,lifetime,f,answered,before,after⟩ := second
  exact ⟨r,lifetime,f,answered,first.trans before,after⟩

theorem Restored.before {a : RegisterAnswer} {c d e : Client U} (first : Restored s a c d) (second : Keeping s d e) :
    Restored s a c e := by
  obtain ⟨r,lifetime,f,answered,before,after⟩ := first
  exact ⟨r,lifetime,f,answered,before,after.trans second⟩

/-- What storing a registration with the server notes, and the location it leaves. -/
theorem storeRegistration_log (path : Bytes) (lifetime : UInt32) (a : RegisterAnswer) (c : Client U) :
    ∃ reg mid, (storeRegistration s path lifetime a c).log = .notified (.onRegistered s reg) :: (mid ++ c.log) ∧
      (∀ e ∈ mid, e.Keeps s none) ∧ (storeRegistration s path lifetime a c).location s = some path := by
  let reg : Registration := ⟨path,s,a.registeredAt,a.now + seconds lifetime.toNat⟩
  let stored : Client U := { c with registrations := set c.registrations s reg }
  obtain ⟨mid,log,silent⟩ := (silent_noteAccepted (s := s) stored s (.register lifetime) a.now).trans
    (silent_setState _ .Registered)
  have located : stored.location s = some path := by
    show ((set c.registrations s reg).lookup s).map Registration.location = some path
    rw [lookup_set, if_pos rfl]
    rfl
  have reported : (storeRegistration s path lifetime a c).log = .notified (.onRegistered s reg) ::
      ((stored.noteAccepted s (.register lifetime) a.now).setState .Registered).log := rfl
  refine ⟨reg,mid,by rw [reported, log],silent,?_⟩
  rw [← located, ← noteAccepted_location stored s (.register lifetime) a.now]
  exact setState_location _ .Registered

/-- No registration with the server is reported. -/
def Unreported (s : UInt16) (entries : List Entry) : Prop := ∀ reg, Entry.notified (.onRegistered s reg) ∉ entries

/-- Until a registration with the server is reported, its updates and deregistrations
    go to the location held at first. -/
def Following (s : UInt16) (c d : Client U) : Prop :=
  ∃ new, d.log = new ++ c.log ∧
    (∀ later operation request earlier, new = later ++ .sent s operation request :: earlier →
      (operation = .update ∨ operation = .deregister) → Unreported s earlier → c.location s = some request.uriPath) ∧
    (Unreported s new → d.location s = none ∨ d.location s = c.location s)

theorem Keeping.following {c d : Client U} (keeping : Keeping s c d) : Following s c d := by
  obtain ⟨⟨new,log,keeps⟩,location⟩ := keeping
  refine ⟨new,log,?_,fun _ => location⟩
  rintro later operation request earlier rfl plain -
  have kept := keeps (.sent s operation request) (List.mem_append_right _ List.mem_cons_self)
  rcases plain with rfl | rfl
  · exact kept rfl
  · exact kept rfl

theorem following_storeRegistration (path : Bytes) (lifetime : UInt32) (a : RegisterAnswer) (c : Client U) :
    Following s c (storeRegistration s path lifetime a c) := by
  obtain ⟨reg,mid,log,silent,-⟩ := storeRegistration_log (s := s) path lifetime a c
  refine ⟨.notified (.onRegistered s reg) :: mid,log,?_,?_⟩
  · intro later operation request earlier split plain _
    have member : .sent s operation request ∈ Entry.notified (.onRegistered s reg) :: mid := by
      rw [split]
      exact List.mem_append_right _ List.mem_cons_self
    have inside : .sent s operation request ∈ mid := by simpa using member
    have nowhere := silent _ inside
    rcases plain with rfl | rfl
    · cases nowhere rfl
    · cases nowhere rfl
  · intro unreported
    exact absurd List.mem_cons_self (unreported reg)

theorem Following.trans {c d e : Client U} (first : Following s c d) (second : Following s d e) : Following s c e := by
  obtain ⟨old,oldLog,oldAddressed,oldLocation⟩ := first
  obtain ⟨new,newLog,newAddressed,newLocation⟩ := second
  refine ⟨new ++ old,by rw [newLog, oldLog, List.append_assoc],?_,?_⟩
  · intro later operation request earlier whole plain unreported
    -- The request is one of the first part, or of the second, when the first is all before it.
    have sentFirst (middle : List Entry) (split : old = middle ++ .sent s operation request :: earlier) :
        c.location s = some request.uriPath := oldAddressed middle operation request earlier split plain unreported
    rcases List.append_eq_append_iff.mp whole with ⟨middle,-,split⟩ | ⟨middle,split,rest⟩
    · exact sentFirst middle split
    · cases middle with
      | nil => exact sentFirst [] rest.symm
      | cons first middle =>
        simp only [List.cons_append, List.cons.injEq] at rest
        obtain ⟨rfl,rfl⟩ := rest
        have unreportedNew : Unreported s middle := fun reg member => unreported reg (List.mem_append_left _ member)
        have unreportedOld : Unreported s old := fun reg member => unreported reg (List.mem_append_right _ member)
        have held := newAddressed later operation request middle split plain unreportedNew
        rcases oldLocation unreportedOld with none | same
        · rw [held] at none
          cases none
        · rw [← same, held]
  · intro unreported
    have unreportedNew : Unreported s new := fun reg member => unreported reg (List.mem_append_left _ member)
    have unreportedOld : Unreported s old := fun reg member => unreported reg (List.mem_append_right _ member)
    rcases newLocation unreportedNew with none | same
    · exact .inl none
    · rw [same]
      exact oldLocation unreportedOld

section
variable [Object U]

theorem keeping_serve {wait : UInt16 → Client U → Client U} {moments : Moments} {request : CoapRequest}
    {refused : Option Error} {outcome : Result CoapResponse} {now : Int} (c : Client U)
    (waits : ∀ (target : UInt16) (d : Client U), Keeping s d (wait target d)) :
    Keeping s c (serve wait moments request refused outcome now c) := by
  have handled : Keeping s c { c with objects := (handleIncomingRequest moments request c.objects).2 } :=
    .same rfl (.inr rfl)
  unfold serve
  dsimp only
  split
  · next target _ => exact (handled.trans (keeping_updateWith _ (waits target))).trans (keeping_note trivial)
  · exact handled.trans (keeping_note trivial)

theorem keeping_deliver (events : Events) (ssid : UInt16) (c : Client U) : Keeping s c (deliver events ssid c) := by
  induction events generalizing ssid c with
  | done => exact .refl c
  | session up after ih =>
    rw [deliver]
    have event : Keeping s c (c.sessionEvent ssid up) := .same rfl (.inr rfl)
    exact event.trans (ih ssid _)
  | request moments request refused during outcome now after duringIh afterIh =>
    rw [deliver]
    exact (keeping_serve c duringIh).trans (afterIh ssid _)

theorem keeping_checkRegistrationUpdates (now : Int) (answers : UInt16 → Answer) (c : Client U) :
    Keeping s c (checkRegistrationUpdates now answers c) := by
  refine List.foldlRecOn _ _ (Keeping.refl c) (fun d keeping ssid _ => keeping.trans ?_)
  unfold checkRegistrationUpdate
  split
  · dsimp only
    split
    · exact keeping_updateWith d (keeping_deliver _ ssid)
    · exact .refl d
  · exact .refl d

theorem keeping_pollConnections (during : UInt16 → Events) (c : Client U) : Keeping s c (pollConnections during c) :=
  List.foldlRecOn _ _ (Keeping.refl c) (fun d keeping ssid _ => keeping.trans (keeping_deliver (during ssid) ssid d))

theorem keeping_attempt (ssid : UInt16) (a : RegisterAnswer) (srv : ServerInstance) (c : Client U) :
    Keeping s c (attempt ssid a srv c).2 :=
  (keeping_setState c .Registering).trans (keeping_sendWith a.refused a.outcome trivial (keeping_deliver a.during ssid))

theorem keeping_deregister (ssid : UInt16) (a : Answer) (c : Client U) : Keeping s c (deregister ssid a c).2 := by
  unfold deregister
  cases found : c.registrations.lookup ssid with
  | none => exact .refl c
  | some reg =>
    have sent : Keeping s c (sendDeregister ssid reg a c) := by
      unfold sendDeregister
      cases c.connections.lookup ssid with
      | none => exact .refl c
      | some conn =>
        have addressed : (Entry.sent ssid .deregister
            { method := .Delete, uriPath := reg.location, contentFormat := .LinkFormat }).Keeps s
              ((c.setState .Deregistering).location s) := by
          intro here
          rw [setState_location]
          exact location_found found here
        exact (keeping_setState c .Deregistering).trans
          (keeping_sendWith a.refused a.outcome addressed (keeping_deliver a.during ssid))
    have dropped := (sent.trans (keeping_erase _ ssid)).trans (keeping_note (e := .notified (.onDeregistered ssid)) trivial)
    exact dropped.trans (keeping_setState _ _)

/-! ### Storing a registration -/

theorem register_restores (ssid : UInt16) (a : RegisterAnswer) (c : Client U) :
    Keeping s c (registerWithServer ssid a c).2 ∨ Restored s a c (registerWithServer ssid a c).2 := by
  have outcome := registerWithServer_outcome ssid a c
  have opening {result : Result Unit} {d : Client U} (opened : openConnection ssid a.connect c = (result,d)) :
      Keeping s c d := by
    have kept := keeping_openConnection (s := s) ssid a.connect c
    rwa [opened] at kept
  generalize (registerWithServer ssid a c).1 = result at outcome
  generalize (registerWithServer ssid a c).2 = d at outcome ⊢
  cases outcome with
  | missing e => exact .inl (.refl c)
  | unopened opened e => exact .inl (opening opened)
  | @failed srv d found opened e =>
    have asked := (opening opened).trans (keeping_attempt ssid a srv d)
    exact .inl (asked.trans (keeping_setState _ .Error))
  | @accepted srv d r found opened answered success located =>
    have asked := (opening opened).trans (keeping_attempt ssid a srv d)
    by_cases here : ssid = s
    · right
      subst here
      obtain ⟨-,-,response⟩ := (attempt_fst ssid a srv d r).mp answered
      exact ⟨r,srv.lifetime,_,response,asked,.refl _⟩
    · exact .inl (asked.trans (keeping_storeRegistration here _ _ a _))

theorem tryReconnect_restores (ssid : UInt16) (a : RegisterAnswer) (failedAt : Int) (c : Client U) :
    Keeping s c (tryReconnect ssid a failedAt c) ∨ Restored s a c (tryReconnect ssid a failedAt c) := by
  unfold tryReconnect
  split
  · exact .inl (.same rfl (.inr rfl))
  · split
    · have settled : Keeping s c { c with reconnecting := false } := .same rfl (.inr rfl)
      exact .inl (settled.trans (keeping_note trivial))
    · have counted : Keeping s c { c with reconnectAttempts := c.reconnectAttempts + 1 } := .same rfl (.inr rfl)
      have announced := counted.trans (keeping_note (e := .notified (.onReconnecting ssid (c.reconnectAttempts + 1))) trivial)
      have began : Keeping s c (c.beginAttempt ssid) := announced.trans (.same rfl (.inr rfl))
      have registered := register_restores (s := s) ssid a (c.beginAttempt ssid)
      have ended (d : Client U) : Keeping s d
          ({ d with reconnecting := false, reconnectAttempts := 0 }.notify (.onReconnected ssid)) :=
        Keeping.trans (d := { d with reconnecting := false, reconnectAttempts := 0 }) (.same rfl (.inr rfl)) (keeping_note trivial)
      have postponed (d : Client U) (time : Int) : Keeping s d { d with nextReconnectTime := time } := .same rfl (.inr rfl)
      unfold reconnect
      generalize registerWithServer ssid a (c.beginAttempt ssid) = result at registered ⊢
      rcases result with ⟨e | ⟨⟩,d⟩
      · rcases registered with kept | restored
        · exact .inl ((began.trans kept).trans (postponed d _))
        · exact .inr ((restored.after began).before (postponed d _))
      · rcases registered with kept | restored
        · exact .inl ((began.trans kept).trans (ended d))
        · exact .inr ((restored.after began).before (ended d))

theorem poll_restores (answers : PollAnswers) (c : Client U) :
    Keeping s c (poll answers c) ∨ Restored s answers.register c (poll answers c) := by
  have polled := keeping_pollConnections (s := s) answers.during c
  have updated := polled.trans (keeping_checkRegistrationUpdates answers.updatesAt answers.updates _)
  have checked : Keeping s c (healthChecked answers c) :=
    updated.trans (keeping_checkConnectionHealth answers.healthAt answers.lostAt _)
  rw [poll_eq]
  split
  · rcases tryReconnect_restores (healthChecked answers c).reconnectSsid answers.register answers.failedAt
      (healthChecked answers c) with kept | restored
    · exact .inl (checked.trans kept)
    · exact .inr (restored.after checked)
  · exact .inl checked

theorem keeping_stop (onEventThread : Bool) (answers : UInt16 → Answer) (c : Client U) :
    Keeping s c (stop onEventThread answers c) := by
  have stopped : Keeping s c { c with running := false } := .same rfl (.inr rfl)
  unfold stop
  dsimp only
  split
  · exact stopped
  · have left : Keeping s c (c.registrations.keys.foldl (fun c ssid => (deregister ssid (answers ssid) c).2)
        { c with running := false }) :=
      List.foldlRecOn _ _ stopped (fun d keeping ssid _ => keeping.trans (keeping_deregister ssid (answers ssid) d))
    have cleared (d : Client U) : Keeping s d { d with connections := ∅, registrations := ∅ } := .same rfl (.inl rfl)
    exact (left.trans (cleared _)).trans (keeping_setState _ .Idle)

end

end Client

/-- The answer to the registration that an action may make. -/
def Action.registration : Action → Option RegisterAnswer
  | .register _ a => some a
  | .poll answers => some answers.register
  | _ => none

namespace Client
variable {U : Type} [Object U] {s : UInt16}

theorem perform_restores (c : Client U) (action : Action) :
    Keeping s c (c.perform action) ∨ ∃ a, action.registration = some a ∧ Restored s a c (c.perform action) := by
  have noted : Keeping s c (c.note (.called action.call)) := keeping_note trivial
  cases action with
  | register ssid a =>
    rcases register_restores ssid a (c.note (.called (.register ssid))) with kept | restored
    · exact .inl (noted.trans kept)
    · exact .inr ⟨a,rfl,restored.after noted⟩
  | update ssid a => exact .inl (noted.trans (keeping_updateWith _ (keeping_deliver a.during ssid)))
  | deregister ssid a => exact .inl (noted.trans (keeping_deregister ssid a _))
  | start =>
    left
    simp only [perform, act, start]
    split
    · exact noted
    · have running : Keeping s c { c.note (.called .start) with running := true } := noted.trans (.same rfl (.inr rfl))
      exact running.trans (keeping_setState _ .Idle)
  | stop onEventThread answers => exact .inl (noted.trans (keeping_stop onEventThread answers _))
  | poll answers =>
    rcases poll_restores answers (c.note (.called .poll)) with kept | restored
    · exact .inl (noted.trans kept)
    · exact .inr ⟨answers.register,rfl,restored.after noted⟩

theorem step_restores {c d : Client U} {action : Action} (stepped : Step c action d) :
    Keeping s c d ∨ ∃ a, action.registration = some a ∧ Restored s a c d := by
  obtain ⟨between,reordered,rfl⟩ := stepped
  have same : Keeping s c between := reordered.keeping
  rcases perform_restores between action with kept | ⟨a,answer,restored⟩
  · exact .inl (same.trans kept)
  · exact .inr ⟨a,answer,restored.after same⟩

/-- The response is that of an accepted registration with the server, in one step. -/
def Accepted (s : UInt16) (r : CoapResponse) (c : Client U) (action : Action) (d : Client U) : Prop :=
  Step c action d ∧ (∃ a, action.registration = some a ∧ a.outcome = .ok r) ∧
    ∃ new reg, d.log = new ++ c.log ∧ .notified (.onRegistered s reg) ∈ new

/-- What an accepted registration leaves is its location. -/
theorem accepted_location {r : CoapResponse} {c d : Client U} {action : Action} (accepted : Accepted s r c action d) :
    d.location s = none ∨ d.location s = some r.getLocationPath := by
  obtain ⟨stepped,⟨a,answer,outcome⟩,new,reg,log,reported⟩ := accepted
  rcases step_restores (s := s) stepped with kept | ⟨a',answer',r',lifetime,e,outcome',-,after⟩
  · obtain ⟨new',log',keeps⟩ := kept.log
    obtain rfl : new = new' := List.append_cancel_right (log.symm.trans log')
    exact absurd rfl (keeps _ reported)
  · rw [answer] at answer'
    cases answer'
    rw [outcome] at outcome'
    cases outcome'
    rcases after.location with none | same
    · exact .inl none
    · obtain ⟨-,-,-,-,stored⟩ := storeRegistration_log (s := s) r.getLocationPath lifetime a e
      exact .inr (same.trans stored)

theorem following_step {c d : Client U} {action : Action} (stepped : Step c action d) : Following s c d := by
  rcases step_restores stepped with kept | ⟨a,-,r,lifetime,e,-,before,after⟩
  · exact kept.following
  · exact (before.following.trans (following_storeRegistration _ _ a e)).trans after.following

theorem following_run {c d : Client U} {actions : List Action} (run : Run Step c actions d) : Following s c d := by
  refine run.keeps ?_ (Keeping.refl c).following
  intro e action f following stepped
  exact following.trans (following_step stepped)

/-- The updates and deregistrations of an accepted registration, until the next one with the
    server is reported, go to the location of its response. -/
theorem sent_location {r : CoapResponse} {c c' d : Client U} {action : Action} {actions : List Action}
    (accepted : Accepted s r c action c') (run : Run Step c' actions d) {later earlier : List Entry}
    {operation : Operation} {request : CoapRequest}
    (logged : d.log = later ++ .sent s operation request :: (earlier ++ c'.log))
    (plain : operation = .update ∨ operation = .deregister) (current : Unreported s earlier) :
    request.uriPath = r.getLocationPath := by
  obtain ⟨new,log,addressed,-⟩ := following_run (s := s) run
  have same : new = later ++ .sent s operation request :: earlier := by
    rw [log] at logged
    refine (List.append_left_inj c'.log).mp ?_
    rw [logged, List.append_assoc, List.cons_append]
  have held := addressed later operation request earlier same plain current
  rcases accepted_location accepted with none | location
  · rw [held] at none
    cases none
  · rw [held] at location
    exact Option.some.inj location

/-- They carry the location values as path options, and no query, exactly if no value holds
    a slash or a question mark. -/
theorem addressed_run {splitUri : Bytes → Option Uri} (cuts : CutsAtQuery splitUri) {r : CoapResponse}
    {c c' d : Client U} {action : Action} {actions : List Action} (accepted : Accepted s r c action c')
    (some : r.locationValues ≠ []) (nonempty : ∀ v ∈ r.locationValues, v ≠ []) (run : Run Step c' actions d)
    {later earlier : List Entry} {operation : Operation} {request : CoapRequest}
    (logged : d.log = later ++ .sent s operation request :: (earlier ++ c'.log))
    (plain : operation = .update ∨ operation = .deregister) (current : Unreported s earlier) :
    uriOptions splitUri request.uriPath = { path := r.locationValues } ↔
      ∀ v ∈ r.locationValues, slash ∉ v ∧ questionMark ∉ v := by
  rw [sent_location accepted run logged plain current]
  exact locationOptions_iff cuts some nonempty

/-- 2.01 with one Location-Path option, at once. -/
def createdAt (value : Bytes) : CoapResponse := { code := some .Created, options := [(8,value)] }

/-- The sample client once it has registered, with the value as location. -/
def registeredAt (value : Bytes) : Client LocationObject :=
  sampleClient.perform (.register 1 { outcome := .ok (createdAt value) })

/-- An update that is not answered. -/
def unanswered : Action := .update 1 { outcome := err .Timeout "Request timeout" }

def updateRequest (value : Bytes) : CoapRequest :=
  { method := .Post, uriPath := slash :: value, contentFormat := .LinkFormat }

/-- An update after a registration at `/7`. -/
theorem addressed_plain :
    uriOptions splitLocalhost (updateRequest (lit ['7'])).uriPath = { path := (createdAt (lit ['7'])).locationValues } ↔
      ∀ v ∈ (createdAt (lit ['7'])).locationValues, slash ∉ v ∧ questionMark ∉ v := by
  have accepted : Accepted 1 (createdAt (lit ['7'])) sampleClient _ (registeredAt (lit ['7'])) :=
    ⟨step_perform sampleClient _,⟨_,rfl,rfl⟩,(registeredAt (lit ['7'])).log,⟨slash :: lit ['7'],1,0,seconds 60⟩,
      (List.append_nil _).symm,by decide +kernel⟩
  have logged : ((registeredAt (lit ['7'])).perform unanswered).log =
      [.notified (.onStateChange .Updating .Registered)] ++ .sent 1 .update (updateRequest (lit ['7'])) ::
        ([.notified (.onStateChange .Registered .Updating), .called (.update 1)] ++ (registeredAt (lit ['7'])).log) := rfl
  exact addressed_run splitLocalhost_cuts accepted (by decide) (by decide) (run_perform _ [unanswered]) logged (.inl rfl)
    (by simp [Unreported])

/-- The server gives the location `a/b` in one option, and is addressed at `/a/b`. -/
theorem slash_split :
    Accepted 1 (createdAt (lit ['a','/','b'])) sampleClient (.register 1 { outcome := .ok (createdAt (lit ['a','/','b'])) })
        (registeredAt (lit ['a','/','b'])) ∧
      .sent 1 .update (updateRequest (lit ['a','/','b'])) ∈ ((registeredAt (lit ['a','/','b'])).perform unanswered).log ∧
      CutsAtQuery splitLocalhost ∧
      uriOptions splitLocalhost (updateRequest (lit ['a','/','b'])).uriPath ≠
        { path := (createdAt (lit ['a','/','b'])).locationValues } := by
  refine ⟨⟨step_perform sampleClient _,⟨_,rfl,rfl⟩,(registeredAt (lit ['a','/','b'])).log,
    ⟨slash :: lit ['a','/','b'],1,0,seconds 60⟩,(List.append_nil _).symm,by decide +kernel⟩,by decide +kernel,
    splitLocalhost_cuts,?_⟩
  intro same
  have options := locationOptions_iff splitLocalhost_cuts (r := createdAt (lit ['a','/','b'])) (by decide) (by decide)
  obtain ⟨whole,-⟩ := options.mp same (lit ['a','/','b']) (by decide)
  exact whole (by decide)

end Client

end Ferriot
