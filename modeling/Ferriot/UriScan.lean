import Ferriot.MaximalRuns
import Ferriot.RequestOptions

/-!
# The scans of a URI

The loops of `send` that walk over the path and the query of a split URI with a
pointer and a count of what remains, and what they make options of.
-/
namespace Ferriot
open Delimited

/-- `while (len < remaining && *end != sep)`, where the pointer ends up and what it passed.
    Nothing if a byte past the end of the buffer is read, or if the fuel runs out. -/
def scanEnd (buf : Bytes) (sep : UInt8) (remaining : Nat) : Nat → Nat → Nat → Option (Nat × Nat)
  | 0, _, _ => none
  | fuel+1, segEnd, segLen =>
    if segLen < remaining then do
      let b ← buf[segEnd]?
      if b ≠ sep then scanEnd buf sep remaining fuel (segEnd + 1) (segLen + 1) else some (segEnd,segLen)
    else some (segEnd,segLen)

/-- The loop over `uri.path`, from a pointer on: the place and the length of every Uri-Path option. -/
def pathLoop (path : Bytes) : Nat → Nat → Nat → Option (List Slice)
  | 0, _, _ => none
  | fuel+1, p, remaining =>
    if 0 < remaining then do
      let b ← path[p]?
      if b = slash then pathLoop path fuel (p + 1) (remaining - 1)
      else do
        let (segEnd,segLen) ← scanEnd path slash remaining (fuel+1) p 0
        let others ← pathLoop path fuel segEnd (remaining - segLen)
        some (if 0 < segLen then ⟨p,segLen⟩ :: others else others)
    else some []

/-- `if (remaining > 0 && *q == '&')`: the ampersand that ended a parameter is skipped. -/
def skipAmpersand (query : Bytes) (q remaining : Nat) : Option (Nat × Nat) :=
  if 0 < remaining then do
    let b ← query[q]?
    some (if b = ampersand then (q + 1,remaining - 1) else (q,remaining))
  else some (q,remaining)

/-- The loop over `uri.query`, from a pointer on: the place and the length of every Uri-Query option. -/
def queryLoop (query : Bytes) : Nat → Nat → Nat → Option (List Slice)
  | 0, _, _ => none
  | fuel+1, q, remaining =>
    if 0 < remaining then do
      let (paramEnd,paramLen) ← scanEnd query ampersand remaining (fuel+1) q 0
      let (next,left) ← skipAmpersand query paramEnd (remaining - paramLen)
      let others ← queryLoop query fuel next left
      some (if 0 < paramLen then ⟨q,paramLen⟩ :: others else others)
    else some []

theorem scanEnd_done {buf : Bytes} {sep : UInt8} {remaining segEnd segLen : Nat} (ended : ¬ segLen < remaining) (fuel : Nat) :
    scanEnd buf sep remaining (fuel+1) segEnd segLen = some (segEnd,segLen) := by
  unfold scanEnd
  rw [if_neg ended]

theorem scanEnd_turn {buf : Bytes} {sep b : UInt8} {remaining segEnd segLen : Nat} (more : segLen < remaining)
    (read : buf[segEnd]? = some b) (fuel : Nat) :
    scanEnd buf sep remaining (fuel+1) segEnd segLen =
      if b ≠ sep then scanEnd buf sep remaining fuel (segEnd + 1) (segLen + 1) else some (segEnd,segLen) := by
  rw [scanEnd, if_pos more, read]
  rfl

/-- The inner scan stops at a delimiter or at the end of what remains, and reads no further. -/
theorem scanEnd_spec {buf : Bytes} {sep : UInt8} {remaining p left len : Nat} (whole : p + remaining = buf.length)
    (rest : left + len = remaining) (passed : Free sep buf p len) :
    ∃ n, (∀ fuel, left < fuel → scanEnd buf sep remaining fuel (p + len) len = some (p + n,n)) ∧ Free sep buf p n ∧
      Ends sep buf (p + n) := by
  induction left generalizing len with
  | zero =>
    refine ⟨len,?_,passed,.inl (by omega)⟩
    intro fuel enough
    obtain ⟨turns,rfl⟩ := Nat.exists_eq_add_of_lt enough
    exact scanEnd_done (by omega) _
  | succ left ih =>
    have inside : p + len < buf.length := by omega
    have read := List.getElem?_eq_getElem inside
    by_cases stop : buf[p + len] = sep
    · refine ⟨len,?_,passed,.inr (by rw [read, stop])⟩
      intro fuel enough
      obtain ⟨turns,rfl⟩ := Nat.exists_eq_add_of_lt enough
      rw [scanEnd_turn (by omega) read, if_neg (not_not_intro stop)]
    · obtain ⟨n,found,stretch,ends⟩ := ih (by omega) (passed.succ read stop)
      refine ⟨n,?_,stretch,ends⟩
      intro fuel enough
      obtain ⟨turns,rfl⟩ := Nat.exists_eq_add_of_lt enough
      rw [scanEnd_turn (by omega) read, if_pos stop]
      exact found _ (by omega)

theorem scanEnd_start {buf : Bytes} (sep : UInt8) {remaining p : Nat} (whole : p + remaining = buf.length) :
    ∃ n, (∀ fuel, remaining < fuel → scanEnd buf sep remaining fuel p 0 = some (p + n,n)) ∧ Free sep buf p n ∧
      Ends sep buf (p + n) :=
  scanEnd_spec whole rfl (free_zero (by omega))

/-- From a place where a segment may begin, or has just ended, the loop makes options of the
    segments that are left, in no more turns than bytes remain. -/
theorem pathLoop_scanned {path : Bytes} {p remaining : Nat} (whole : p + remaining = path.length)
    (place : Begins slash path p ∨ Ends slash path p) :
    ∃ slices, (∀ fuel, remaining < fuel → pathLoop path fuel p remaining = some slices) ∧ Scanned slash path p slices := by
  induction remaining using Nat.strongRecOn generalizing p with
  | ind remaining ih =>
    by_cases more : 0 < remaining
    · have inside : p < path.length := by omega
      have read := List.getElem?_eq_getElem inside
      by_cases separator : path[p] = slash
      · rw [separator] at read
        obtain ⟨slices,done,scanned⟩ := ih (remaining - 1) (by omega) (p := p + 1) (by omega) (.inl (.inr read))
        refine ⟨slices,?_,scanned.skip read⟩
        intro fuel enough
        obtain ⟨turns,rfl⟩ := Nat.exists_eq_add_of_lt enough
        rw [pathLoop, if_pos more, read]
        exact done _ (by omega)
      · obtain ⟨n,found,stretch,ends⟩ := scanEnd_start slash whole
        have stays := not_ends inside separator
        have taken : 0 < n := by
          by_contra none
          obtain rfl : n = 0 := by omega
          exact stays ends
        have bound := stretch.inside
        obtain ⟨slices,done,scanned⟩ := ih (remaining - n) (by omega) (p := p + n) (by omega) (.inr ends)
        refine ⟨_,?_,scanned.step (fun _ => place.resolve_right stays) stretch ends⟩
        intro fuel enough
        obtain ⟨turns,rfl⟩ := Nat.exists_eq_add_of_lt enough
        rw [pathLoop, if_pos more, read]
        dsimp only [Option.bind_eq_bind, Option.bind_some]
        rw [if_neg separator, found _ enough]
        dsimp only [Option.bind_some]
        rw [done _ (by omega)]
        rfl
    · obtain rfl : p = path.length := by omega
      refine ⟨[],?_,scanned_end slash path⟩
      intro fuel enough
      obtain ⟨turns,rfl⟩ := Nat.exists_eq_add_of_lt enough
      rw [pathLoop, if_neg more]

theorem skipAmpersand_end {query : Bytes} {q remaining : Nat} (none : ¬ 0 < remaining) :
    skipAmpersand query q remaining = some (q,remaining) := by
  unfold skipAmpersand
  rw [if_neg none]

theorem skipAmpersand_skips {query : Bytes} {q remaining : Nat} (more : 0 < remaining) (read : query[q]? = some ampersand) :
    skipAmpersand query q remaining = some (q + 1,remaining - 1) := by
  unfold skipAmpersand
  rw [if_pos more, read]
  rfl

/-- One turn of the loop over the query. -/
theorem queryLoop_turn {query : Bytes} {fuel q remaining n next left : Nat} {others : List Slice} (more : 0 < remaining)
    (found : scanEnd query ampersand remaining (fuel+1) q 0 = some (q + n,n))
    (skipped : skipAmpersand query (q + n) (remaining - n) = some (next,left))
    (done : queryLoop query fuel next left = some others) :
    queryLoop query (fuel+1) q remaining = some (if 0 < n then ⟨q,n⟩ :: others else others) := by
  rw [queryLoop, if_pos more, found]
  dsimp only [Option.bind_eq_bind, Option.bind_some]
  rw [skipped]
  dsimp only [Option.bind_some]
  rw [done]
  rfl

/-- From a place where a parameter may begin, the loop makes options of the parameters that are
    left, in no more turns than bytes remain. -/
theorem queryLoop_scanned {query : Bytes} {q remaining : Nat} (whole : q + remaining = query.length)
    (place : 0 < remaining → Begins ampersand query q) :
    ∃ slices, (∀ fuel, remaining < fuel → queryLoop query fuel q remaining = some slices) ∧
      Scanned ampersand query q slices := by
  induction remaining using Nat.strongRecOn generalizing q with
  | ind remaining ih =>
    by_cases more : 0 < remaining
    · obtain ⟨n,found,stretch,ends⟩ := scanEnd_start ampersand whole
      have bound := stretch.inside
      by_cases last : q + n = query.length
      · obtain ⟨slices,done,scanned⟩ := ih (remaining - n) (by omega) (q := q + n) (by omega) (by omega)
        refine ⟨_,?_,scanned.step (fun _ => place more) stretch ends⟩
        intro fuel enough
        obtain ⟨turns,rfl⟩ := Nat.exists_eq_add_of_lt enough
        exact queryLoop_turn more (found _ enough) (skipAmpersand_end (by omega)) (done _ (by omega))
      · -- What remains after the scan begins with the ampersand that stopped it.
        have delimiter := ends.resolve_left last
        obtain ⟨slices,done,scanned⟩ := ih (remaining - n - 1) (by omega) (q := q + n + 1) (by omega) (fun _ => .inr delimiter)
        refine ⟨_,?_,(scanned.skip delimiter).step (fun _ => place more) stretch ends⟩
        intro fuel enough
        obtain ⟨turns,rfl⟩ := Nat.exists_eq_add_of_lt enough
        exact queryLoop_turn more (found _ enough) (skipAmpersand_skips (by omega) delimiter) (done _ (by omega))
    · obtain rfl : q = query.length := by omega
      refine ⟨[],?_,scanned_end ampersand query⟩
      intro fuel enough
      obtain ⟨turns,rfl⟩ := Nat.exists_eq_add_of_lt enough
      rw [queryLoop, if_neg more]

/-- The slices are the maximal runs of the buffer without the delimiter, in order. -/
def ExactRuns (sep : UInt8) (buf : Bytes) (slices : List Slice) : Prop :=
  slices.Pairwise (fun s t => s.start + s.length ≤ t.start) ∧ ∀ s, s ∈ slices ↔ MaximalRun sep buf s

theorem exactRuns_of_scanned {sep : UInt8} {buf : Bytes} {slices : List Slice} (scanned : Scanned sep buf 0 slices) :
    ExactRuns sep buf slices := by
  refine ⟨scanned.ordered,?_⟩
  intro s
  rw [scanned.exact]
  exact and_iff_left (Nat.zero_le _)

/-- Both loops end on every path and query, after no more turns than there are bytes and
    without a read past the end; the options are the maximal runs without the separator,
    in order. -/
theorem uri_scanned (path query : Bytes) :
    (∃ segments, (∀ fuel, path.length < fuel → pathLoop path fuel 0 path.length = some segments) ∧
      ExactRuns slash path segments ∧ segments.map (Slice.of path) = pathSegments path) ∧
    (∃ params, (∀ fuel, query.length < fuel → queryLoop query fuel 0 query.length = some params) ∧
      ExactRuns ampersand query params ∧ params.map (Slice.of query) = queryParams query) := by
  constructor
  · obtain ⟨slices,done,scanned⟩ := pathLoop_scanned (Nat.zero_add path.length) (.inl (.inl rfl))
    refine ⟨slices,done,exactRuns_of_scanned scanned,?_⟩
    rw [scanned.pieces, List.drop_zero, pathSegments_eq]
  · obtain ⟨slices,done,scanned⟩ := queryLoop_scanned (Nat.zero_add query.length) (fun _ => .inl rfl)
    refine ⟨slices,done,exactRuns_of_scanned scanned,?_⟩
    rw [scanned.pieces, List.drop_zero, queryParams_eq]

/-- The path `/r//dd`. -/
example : pathLoop [47, 114, 47, 47, 100, 100] 7 0 6 = some [⟨1,1⟩, ⟨4,2⟩] := rfl

end Ferriot
