import Ferriot.ExpiryWatch

/-!
# Registering over a connection that is down

A connection stays in its table when its session is lost. A registration uses
the connection that is there, whether its session is up or not: only a
reconnection closes it first and opens another.
-/
namespace Ferriot
open Tables Requests Runs

/-- The request goes out, and the server answers it with success and a location. -/
def RegisterAnswer.Welcomed (a : RegisterAnswer) : Prop :=
  a.refused = none ∧ ∃ r, a.outcome = .ok r ∧ r.isSuccess = true ∧ r.getLocationPath ≠ []

namespace Client
variable {U : Type}

/-- There are a Security and a Server instance for the server. -/
def HasAccount (c : Client U) (ssid : UInt16) : Prop :=
  (SecurityObject.findByShortServerId c.objects.security ssid).isSome = true ∧
    (c.objects.server.findByShortServerId ssid).isSome = true

/-- A connection is opened unless there is one. -/
theorem opened_iff (ssid : UInt16) (connect : Result Unit) (c : Client U) :
    (openConnection ssid connect c).1 = .ok () ↔ ssid ∈ c.connections ∨ connect = .ok () := by
  unfold openConnection
  by_cases present : ssid ∈ c.connections
  · simp [present]
  · rw [if_neg present]
    cases connect with
    | error e => simp [present]
    | ok opened => simp

/-- The connection at hand is up unless there was one that is down. -/
theorem opened_up_iff {c d : Client U} {ssid : UInt16} {connect : Result Unit}
    (opened : openConnection ssid connect c = (.ok (),d)) :
    d.connections.lookup ssid = some ⟨true⟩ ↔ c.Up ssid := by
  constructor
  · intro up conn found
    unfold openConnection at opened
    have present : ssid ∈ c.connections := AList.lookup_isSome.mp (by rw [found]; rfl)
    rw [if_pos present] at opened
    cases opened
    rw [found] at up
    cases up
    rfl
  · intro up
    exact opened_up up opened

section
variable [Object U]

theorem attempt_fst (ssid : UInt16) (a : RegisterAnswer) (srv : ServerInstance) (c : Client U) (r : CoapResponse) :
    (attempt ssid a srv c).1 = .ok r ↔
      c.connections.lookup ssid = some ⟨true⟩ ∧ a.refused = none ∧ a.outcome = .ok r := by
  unfold attempt send sendWith
  rw [setState_connections]
  cases found : c.connections.lookup ssid with
  | none => simp
  | some conn =>
    obtain ⟨connected⟩ := conn
    cases connected with
    | false => simp
    | true => cases refused : a.refused <;> simp

/-- A registration succeeds exactly if the client has the accounts of the server, a connection
    is there or can be opened, none is there that is down, and the server accepts. -/
theorem registered_iff (ssid : UInt16) (a : RegisterAnswer) (c : Client U) :
    (registerWithServer ssid a c).1 = .ok () ↔
      HasAccount c ssid ∧ (ssid ∈ c.connections ∨ a.connect = .ok ()) ∧ c.Up ssid ∧ a.Welcomed := by
  unfold registerWithServer HasAccount
  cases SecurityObject.findByShortServerId c.objects.security ssid with
  | none => simp
  | some _ =>
    cases c.objects.server.findByShortServerId ssid with
    | none => simp
    | some srv =>
      rw [← opened_iff]
      rcases opened : openConnection ssid a.connect c with ⟨e | ⟨⟩,d⟩
      · simp
      · have answer := attempt_fst ssid a srv d
        rw [← opened_up_iff opened]
        unfold attempt at answer
        unfold RegisterAnswer.Welcomed
        dsimp only
        generalize send ssid (.register srv.lifetime) _ a.toAnswer (d.setState .Registering) = ended at answer ⊢
        obtain ⟨response,d'⟩ := ended
        cases response with
        | error e =>
          simp only [Option.isSome_some, and_self, true_and, reduceCtorEq, false_iff]
          rintro ⟨up,sent,r,answered,-⟩
          cases (answer r).mpr ⟨up,sent,answered⟩
        | ok r =>
          obtain ⟨up,sent,answered⟩ := (answer r).mp rfl
          by_cases success : r.isSuccess = true
          · by_cases located : r.getLocationPath = []
            · simp [up, sent, answered, success, located]
            · simp [up, sent, answered, success, located]
          · simp [up, sent, answered, success]

/-- Where a connection could be opened and the server would accept, a registration
    succeeds exactly if no connection to the server is down. -/
theorem registers_iff (c : Client U) (ssid : UInt16) (a : RegisterAnswer) (account : HasAccount c ssid)
    (connects : a.connect = .ok ()) (welcomed : a.Welcomed) :
    (registerWithServer ssid a c).1 = .ok () ↔ c.Up ssid := by
  rw [registered_iff]
  constructor
  · rintro ⟨-,-,up,-⟩
    exact up
  · intro up
    exact ⟨account,.inr connects,up,welcomed⟩

end

theorem created_welcomed : created.Welcomed := ⟨rfl,_,rfl,by decide,by decide⟩

/-- A client that has registered and deregistered registers once more. -/
theorem registers_again :
    let c := [Action.register 1 created, .deregister 1 { outcome := .ok { code := some .Deleted } }].foldl perform sampleClient
    (registerWithServer 1 created c).1 = .ok () ↔ c.Up 1 :=
  registers_iff _ 1 created (by constructor <;> decide +kernel) rfl created_welcomed

/-- The session is lost while the client is registered with no server, and nothing is
    done about it. -/
def quietLossRun : List Action :=
  [.register 1 created, .deregister 1 { outcome := .ok { code := some .Deleted } }, .poll losing]

theorem dead_connection_blocks :
    sampleClient.Fresh ∧ Run Step sampleClient quietLossRun (quietLossRun.foldl perform sampleClient) ∧
      HasAccount (quietLossRun.foldl perform sampleClient) 1 ∧ created.connect = .ok () ∧ created.Welcomed ∧
      (registerWithServer 1 created (quietLossRun.foldl perform sampleClient)).1 ≠ .ok () := by
  refine ⟨sampleClient_fresh,run_perform sampleClient quietLossRun,?_,rfl,created_welcomed,?_⟩
  · constructor <;> decide +kernel
  · decide +kernel

end Client

end Ferriot
