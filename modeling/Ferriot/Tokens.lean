import Ferriot.CoapSend
import Mathlib.Tactic.NormNum

/-!
# Whose response it is

Every request takes its token from a counter of the connection. Over the life of a
connection, with calls of `send` one after the other and inside each other, no two
requests share a token, and what a call returns is made of responses to its own
request, whatever arrives late or twice.
-/
namespace Ferriot.CoapSend

/-- A call that waited: the token of its request, and what it returned. -/
structure Outcome where
  token : UInt64
  result : Result CoapResponse
deriving DecidableEq, Repr

/-- `wait`, with the calls that were nested in it. -/
def waitLog : Script → Waiting → Option (Result CoapResponse × UInt64 × List Outcome)
  | .ends, w =>
    if w.pending.completed then some (.ok w.pending.response,w.nextToken,[])
    else some (err .Timeout "Request timeout",w.nextToken,[])
  | .polled after, w => if w.pending.completed then none else waitLog after w
  | .response pdu after, w => waitLog after (w.responseHandler pdu)
  | .request after, w => waitLog after w
  | .send start during after, w =>
    match start with
    | .early tokenTaken => waitLog after { w with nextToken := if tokenTaken then w.nextToken + 1 else w.nextToken }
    | .refused => waitLog after { w with nextToken := w.nextToken + 1, current := false }
    | .sent =>
      match waitLog during (.fresh (w.nextToken + 1)) with
      | some (result,nextToken,inner) =>
        (waitLog after { w with nextToken := nextToken, current := false }).map fun (outer,last,log) =>
          (outer,last,⟨w.nextToken + 1,result⟩ :: inner ++ log)
      | none => none

/-- What the connection goes through while no call waits: polls, with the responses and requests they
    hand over, and calls of `send`. `response_handler` passes over a response that nobody waits for. -/
def life : Script → UInt64 → Option (UInt64 × List Outcome)
  | .ends, n => some (n,[])
  | .polled after, n => life after n
  | .response _ after, n => life after n
  | .request after, n => life after n
  | .send start during after, n =>
    match start with
    | .early tokenTaken => life after (if tokenTaken then n + 1 else n)
    | .refused => life after (n + 1)
    | .sent =>
      match waitLog during (.fresh (n + 1)) with
      | some (result,nextToken,inner) =>
        (life after nextToken).map fun (last,log) => (last,⟨n + 1,result⟩ :: inner ++ log)
      | none => none

/-- The calls of `send`, nested or not. -/
def Script.sends : Script → Nat
  | .ends => 0
  | .polled after => after.sends
  | .response _ after => after.sends
  | .request after => after.sends
  | .send start during after => (if start = .sent then during.sends else 0) + after.sends + 1

/-- The log leaves out what `wait` returns nothing of. -/
theorem waitLog_wait (script : Script) (w : Waiting) : (waitLog script w).map (fun r => (r.1,r.2.1)) = wait script w := by
  induction script generalizing w with
  | ends =>
    simp only [waitLog, wait]
    split <;> rfl
  | polled after ih =>
    simp only [waitLog, wait]
    split
    · rfl
    · exact ih w
  | response pdu after ih => exact ih _
  | request after ih => exact ih w
  | send start during after inside ih =>
    cases start with
    | early tokenTaken => exact ih _
    | refused => exact ih _
    | sent =>
      simp only [waitLog, wait]
      rw [← inside]
      cases waitLog during (.fresh (w.nextToken + 1)) with
      | none => rfl
      | some r =>
        simp only [Option.map_some]
        rw [← ih, Option.map_map]
        rfl

theorem tokenByte_toNat (value : UInt64) {k : Nat} (bound : k < 8) :
    (value >>> UInt64.ofNat (8 * k)).toUInt8.toNat = value.toNat / 2 ^ (8 * k) % 256 := by
  have shift : (UInt64.ofNat (8 * k)).toNat % 64 = 8 * k := by
    rw [UInt64.toNat_ofNat']
    omega
  simp only [UInt64.toNat_toUInt8, UInt64.toNat_shiftRight, shift, Nat.shiftRight_eq_div_pow]

/-- The eight bytes name the counter. -/
theorem tokenBytes_injective {a b : UInt64} (same : tokenBytes a = tokenBytes b) : a = b := by
  have each (k : Nat) (bound : k < 8) : a.toNat / 2 ^ (8 * k) % 256 = b.toNat / 2 ^ (8 * k) % 256 := by
    have byte := List.map_inj_left.mp same k (List.mem_range.mpr bound)
    rw [← tokenByte_toNat a bound, ← tokenByte_toNat b bound, byte]
  have bounds := And.intro a.toNat_lt b.toNat_lt
  have b0 := each 0 (by decide)
  have b1 := each 1 (by decide)
  have b2 := each 2 (by decide)
  have b3 := each 3 (by decide)
  have b4 := each 4 (by decide)
  have b5 := each 5 (by decide)
  have b6 := each 6 (by decide)
  have b7 := each 7 (by decide)
  apply UInt64.toNat_inj.mp
  norm_num at b0 b1 b2 b3 b4 b5 b6 b7
  omega

/-- The counter goes from one value to another without wrapping around, by at most so many tokens, and
    the calls of the log took different tokens in between. -/
structure Counts (start last : UInt64) (sends : Nat) (log : List Outcome) : Prop where
  upward : start.toNat ≤ last.toNat
  bound : last.toNat ≤ start.toNat + sends
  between : ∀ o ∈ log, start.toNat < o.token.toNat ∧ o.token.toNat ≤ last.toNat
  apart : log.Pairwise (fun a b => a.token ≠ b.token)

theorem counts_nil (n : UInt64) (sends : Nat) : Counts n n sends [] :=
  ⟨Nat.le_refl _,Nat.le_add_right _ _,by simp,.nil⟩

theorem next_toNat {n : UInt64} (room : n.toNat + 1 < 18446744073709551616) : (n + 1).toNat = n.toNat + 1 := by
  rw [UInt64.toNat_add]
  simp
  omega

/-- One token more is taken before the others. -/
theorem Counts.later {n last : UInt64} {sends : Nat} {log : List Outcome} (room : n.toNat + 1 < 18446744073709551616)
    (counts : Counts (n + 1) last sends log) : Counts n last (sends + 1) log := by
  have next := next_toNat room
  obtain ⟨upward,bound,between,apart⟩ := counts
  refine ⟨by omega,by omega,?_,apart⟩
  intro o member
  have := between o member
  omega

theorem Counts.weaken {n last : UInt64} {sends more : Nat} {log : List Outcome} (counts : Counts n last sends log)
    (le : sends ≤ more) : Counts n last more log :=
  ⟨counts.upward,Nat.le_trans counts.bound (Nat.add_le_add_left le _),counts.between,counts.apart⟩

/-- A call that waits, those nested in it, and those after it. -/
theorem Counts.call {n middle last : UInt64} {inside outside : Nat} {inner log : List Outcome} {result : Result CoapResponse}
    (room : n.toNat + 1 < 18446744073709551616) (nested : Counts (n + 1) middle inside inner)
    (others : Counts middle last outside log) :
    Counts n last (inside + outside + 1) (⟨n + 1,result⟩ :: inner ++ log) := by
  have next := next_toNat room
  have up := nested.upward
  have up' := others.upward
  have bound := nested.bound
  have bound' := others.bound
  refine ⟨by omega,by omega,?_,?_⟩
  · intro o member
    rcases List.mem_append.mp member with first | later
    · rcases List.mem_cons.mp first with rfl | member
      · dsimp only
        omega
      · have := nested.between o member
        omega
    · have := others.between o later
      omega
  · rw [List.cons_append, List.pairwise_cons, List.pairwise_append]
    refine ⟨?_,nested.apart,others.apart,?_⟩
    · intro o member
      apply ne_of_apply_ne UInt64.toNat
      dsimp only
      rcases List.mem_append.mp member with inside | after
      · have := nested.between o inside
        omega
      · have := others.between o after
        omega
    · intro a inside b after
      apply ne_of_apply_ne UInt64.toNat
      have := nested.between a inside
      have := others.between b after
      omega

theorem waitLog_counts {script : Script} {w : Waiting} {result : Result CoapResponse} {last : UInt64} {log : List Outcome}
    (ran : waitLog script w = some (result,last,log))
    (room : w.nextToken.toNat + script.sends < 18446744073709551616) : Counts w.nextToken last script.sends log := by
  induction script generalizing w result last log with
  | ends =>
    simp only [waitLog] at ran
    split at ran <;> cases ran <;> exact counts_nil _ _
  | polled after ih =>
    simp only [waitLog] at ran
    split at ran
    · cases ran
    · exact ih ran room
  | response pdu after ih =>
    have same : (w.responseHandler pdu).nextToken = w.nextToken := by
      unfold Waiting.responseHandler
      split <;> rfl
    rw [← same] at room ⊢
    exact ih ran room
  | request after ih => exact ih ran room
  | send start during after inside ih =>
    have next : w.nextToken.toNat + 1 < 18446744073709551616 := by
      simp only [Script.sends] at room
      omega
    have taken := next_toNat next
    cases start with
    | early tokenTaken =>
      simp only [Script.sends, reduceCtorEq, ↓reduceIte] at room ⊢
      cases tokenTaken with
      | false =>
        have rest : waitLog after w = some (result,last,log) := ran
        exact (ih rest (by omega)).weaken (by omega)
      | true =>
        have rest : waitLog after { w with nextToken := w.nextToken + 1 } = some (result,last,log) := ran
        exact (Counts.later next (ih rest (by dsimp only; omega))).weaken (by omega)
    | refused =>
      simp only [Script.sends] at room
      refine (Counts.later next (ih ran ?_)).weaken (by simp [Script.sends])
      dsimp only
      omega
    | sent =>
      simp only [Script.sends, ↓reduceIte] at room ⊢
      simp only [waitLog] at ran
      cases nested : waitLog during (.fresh (w.nextToken + 1)) with
      | none => simp only [nested] at ran; cases ran
      | some r =>
        obtain ⟨inner,middle,nestedLog⟩ := r
        simp only [nested, Option.map_eq_some_iff, Prod.mk.injEq] at ran
        obtain ⟨⟨outer,last',log'⟩,rest,rfl,rfl,rfl⟩ := ran
        have first := inside nested (by simp only [Waiting.fresh]; omega)
        have bound := first.bound
        simp only [Waiting.fresh] at first bound
        exact first.call next (ih rest (by dsimp only; omega))

theorem life_counts {script : Script} {n last : UInt64} {log : List Outcome} (ran : life script n = some (last,log))
    (room : n.toNat + script.sends < 18446744073709551616) : Counts n last script.sends log := by
  induction script generalizing n last log with
  | ends => cases ran; exact counts_nil _ _
  | polled after ih => exact ih ran room
  | response pdu after ih => exact ih ran room
  | request after ih => exact ih ran room
  | send start during after _ ih =>
    have next : n.toNat + 1 < 18446744073709551616 := by
      simp only [Script.sends] at room
      omega
    have taken := next_toNat next
    cases start with
    | early tokenTaken =>
      simp only [Script.sends, reduceCtorEq, ↓reduceIte] at room ⊢
      cases tokenTaken with
      | false =>
        have rest : life after n = some (last,log) := ran
        exact (ih rest (by omega)).weaken (by omega)
      | true =>
        have rest : life after (n + 1) = some (last,log) := ran
        exact (Counts.later next (ih rest (by omega))).weaken (by omega)
    | refused =>
      simp only [Script.sends, reduceCtorEq, ↓reduceIte] at room ⊢
      exact (Counts.later next (ih ran (by omega))).weaken (by omega)
    | sent =>
      simp only [Script.sends, ↓reduceIte] at room ⊢
      simp only [life] at ran
      cases nested : waitLog during (.fresh (n + 1)) with
      | none => simp only [nested] at ran; cases ran
      | some r =>
        obtain ⟨inner,middle,nestedLog⟩ := r
        simp only [nested, Option.map_eq_some_iff, Prod.mk.injEq] at ran
        obtain ⟨⟨last',log'⟩,rest,rfl,rfl⟩ := ran
        have first := waitLog_counts nested (by simp only [Waiting.fresh]; omega)
        have bound := first.bound
        simp only [Waiting.fresh] at first bound
        exact first.call next (ih rest (by omega))

/-- What the call returns is made of responses to its own request, of those delivered. -/
def Own (delivered : List Pdu) (o : Outcome) : Prop :=
  ∀ response, o.result = .ok response →
    ∃ pdus, pdus ≠ [] ∧ (∀ p ∈ pdus, p ∈ delivered ∧ p.token = tokenBytes o.token) ∧ response = pdus.foldl absorb {}

theorem Own.mono {delivered more : List Pdu} {o : Outcome} (own : Own delivered o) (sub : delivered ⊆ more) : Own more o := by
  intro response returned
  obtain ⟨pdus,some,theirs,same⟩ := own response returned
  exact ⟨pdus,some,fun p member => ⟨sub (theirs p member).1,(theirs p member).2⟩,same⟩

theorem own_call {during : Script} {n last : UInt64} {result : Result CoapResponse} {inner : List Outcome}
    (ran : waitLog during (.fresh (n + 1)) = some (result,last,inner)) : Own during.delivered ⟨n + 1,result⟩ := by
  have waited : wait during (.fresh (n + 1)) = some (result,last) := by
    rw [← waitLog_wait, ran]
    rfl
  have heard := wait_heard rfl waited
  rintro response rfl
  simp only [Waiting.fresh, Bool.false_eq_true, false_or] at heard
  split at heard
  · next some =>
    refine ⟨_,some,?_,Except.ok.inj heard⟩
    intro p member
    have arrived := heard_sub _ during p member
    simpa [Script.responses] using arrived
  · cases heard

/-- The logs of a nested call and of what follows, each among what is delivered. -/
theorem own_log {during after : Script} {n last : UInt64} {result : Result CoapResponse} {inner log : List Outcome}
    (ran : waitLog during (.fresh (n + 1)) = some (result,last,inner)) (nested : ∀ o ∈ inner, Own during.delivered o)
    (others : ∀ o ∈ log, Own after.delivered o) :
    ∀ o ∈ ⟨n + 1,result⟩ :: inner ++ log, Own (Script.send .sent during after).delivered o := by
  simp only [Script.delivered, ↓reduceIte]
  intro o member
  rcases List.mem_append.mp member with first | later
  · refine Own.mono ?_ (List.subset_append_left _ _)
    rcases List.mem_cons.mp first with rfl | inside
    · exact own_call ran
    · exact nested o inside
  · exact (others o later).mono (List.subset_append_right _ _)

theorem waitLog_own {script : Script} {w : Waiting} {result : Result CoapResponse} {last : UInt64} {log : List Outcome}
    (ran : waitLog script w = some (result,last,log)) : ∀ o ∈ log, Own script.delivered o := by
  induction script generalizing w result last log with
  | ends =>
    simp only [waitLog] at ran
    split at ran <;> cases ran <;> simp
  | polled after ih =>
    simp only [waitLog] at ran
    split at ran
    · cases ran
    · exact ih ran
  | response pdu after ih => exact fun o member => (ih ran o member).mono (List.subset_cons_self _ _)
  | request after ih => exact ih ran
  | send start during after inside ih =>
    cases start with
    | early tokenTaken => exact ih ran
    | refused => exact ih ran
    | sent =>
      simp only [waitLog] at ran
      cases nested : waitLog during (.fresh (w.nextToken + 1)) with
      | none => simp only [nested] at ran; cases ran
      | some r =>
        obtain ⟨inner,middle,nestedLog⟩ := r
        simp only [nested, Option.map_eq_some_iff, Prod.mk.injEq] at ran
        obtain ⟨⟨outer,last',log'⟩,rest,rfl,rfl,rfl⟩ := ran
        exact own_log nested (inside nested) (ih rest)

theorem life_own {script : Script} {n last : UInt64} {log : List Outcome} (ran : life script n = some (last,log)) :
    ∀ o ∈ log, Own script.delivered o := by
  induction script generalizing n last log with
  | ends => cases ran; simp
  | polled after ih => exact ih ran
  | response pdu after ih => exact fun o member => (ih ran o member).mono (List.subset_cons_self _ _)
  | request after ih => exact ih ran
  | send start during after _ ih =>
    cases start with
    | early tokenTaken => exact ih ran
    | refused => exact ih ran
    | sent =>
      simp only [life] at ran
      cases nested : waitLog during (.fresh (n + 1)) with
      | none => simp only [nested] at ran; cases ran
      | some r =>
        obtain ⟨inner,middle,nestedLog⟩ := r
        simp only [nested, Option.map_eq_some_iff, Prod.mk.injEq] at ran
        obtain ⟨⟨last',log'⟩,rest,rfl,rfl⟩ := ran
        exact own_log nested (waitLog_own nested) (ih rest)

/-- While a connection makes fewer than 2^64 calls, no two of them share a token, and each returns what
    responses with its own token carry: a response is never taken for the reply to another call. -/
theorem own_replies_run {script : Script} {last : UInt64} {log : List Outcome} (ran : life script 0 = some (last,log))
    (few : script.sends < 18446744073709551616) :
    log.Pairwise (fun a b => tokenBytes a.token ≠ tokenBytes b.token) ∧ ∀ o ∈ log, Own script.delivered o := by
  refine ⟨?_,life_own ran⟩
  have counts := life_counts ran (by rw [UInt64.toNat_zero]; omega)
  exact counts.apart.imp fun apart same => apart (tokenBytes_injective same)

/-- A response that arrives after its call has timed out is not taken for the reply to the next. -/
theorem own_replies_late :
    List.Pairwise (fun a b => tokenBytes a.token ≠ tokenBytes b.token)
        [(⟨1,err .Timeout "Request timeout"⟩ : Outcome), ⟨2,.ok (responseOf (changed 2))⟩] ∧
      ∀ o ∈ [(⟨1,err .Timeout "Request timeout"⟩ : Outcome), ⟨2,.ok (responseOf (changed 2))⟩],
        Own [changed 1, changed 2] o :=
  own_replies_run
    (show life (.send .sent .ends (.send .sent (.response (changed 1) (.response (changed 2) .ends)) .ends)) 0 =
      some (2,[⟨1,err .Timeout "Request timeout"⟩, ⟨2,.ok (responseOf (changed 2))⟩]) from rfl)
    (by decide)

end Ferriot.CoapSend
