import Ferriot.Client
import Ferriot.Delimited

/-!
# The URI options of a request

`send` puts the path of a request after `coap://localhost`, has libcoap cut the
URI into path and query, and makes an option of every path segment and of every
query parameter. Nothing is escaped on the way.
-/
namespace Ferriot
open Delimited

def slash : UInt8 := 47
def ampersand : UInt8 := 38
def questionMark : UInt8 := 63

/-- The loop over the path. -/
def pathSegments (path : Bytes) : List Bytes :=
  match path with
  | [] => []
  | b :: rest =>
    if b = slash then pathSegments rest
    else (b :: rest.takeWhile (· ≠ slash)) :: pathSegments (rest.dropWhile (· ≠ slash))
termination_by path.length
decreasing_by
  · simp
  · exact Nat.lt_succ_of_le (List.length_dropWhile_le _ _)

/-- The loop over the query: a parameter ends at an ampersand, which is skipped, or at the end. -/
def queryParams (query : Bytes) : List Bytes :=
  match query with
  | [] => []
  | b :: rest =>
    let param := (b :: rest).takeWhile (· ≠ ampersand)
    let after := ((b :: rest).dropWhile (· ≠ ampersand)).drop 1
    if param = [] then queryParams after else param :: queryParams after
termination_by query.length
decreasing_by
  all_goals
    have shorter := List.length_dropWhile_le (· ≠ ampersand) (b :: rest)
    simp only [List.length_drop, List.length_cons] at shorter ⊢
    omega

/-- The Uri-Path and the Uri-Query options of a request, in their order. -/
structure UriOptions where
  path : List Bytes := []
  query : List Bytes := []
deriving DecidableEq, Repr

def localhost : Bytes := lit ['c','o','a','p',':','/','/','l','o','c','a','l','h','o','s','t']

/-- The options that `send` makes of the path of a request. -/
def uriOptions (splitUri : Bytes → Option Uri) (uriPath : Bytes) : UriOptions :=
  match splitUri (localhost ++ uriPath) with
  | some uri => ⟨pathSegments uri.path,queryParams uri.query⟩
  | none => {}

/-- `coap_split_uri` cuts path from query at the first question mark. -/
structure CutsAtQuery (splitUri : Bytes → Option Uri) : Prop where
  plain : ∀ path, questionMark ∉ path →
    ∃ uri, splitUri (localhost ++ slash :: path) = some uri ∧ uri.path = path ∧ uri.query = []
  query : ∀ path query, questionMark ∉ path →
    ∃ uri, splitUri (localhost ++ slash :: (path ++ questionMark :: query)) = some uri ∧ uri.path = path ∧ uri.query = query

/-- The path options are the segments between slashes. -/
theorem pathSegments_eq (path : Bytes) : pathSegments path = pieces slash path := by
  induction path using pathSegments.induct with
  | case1 => rw [pathSegments, pieces_nil]
  | case2 rest ih => rw [pathSegments, if_pos rfl, ih, pieces_sep]
  | case3 b rest other ih =>
    rw [pathSegments, if_neg other, ih, pieces_cut slash (b :: rest)]
    simp [other]

/-- The query options are the parameters between ampersands. -/
theorem queryParams_eq (query : Bytes) : queryParams query = pieces ampersand query := by
  induction query using queryParams.induct with
  | case1 => rw [queryParams, pieces_nil]
  | case2 b rest param after empty ih =>
    rw [queryParams, pieces_cut, if_pos empty, if_pos empty, ← pieces_dropWhile]
    exact ih
  | case3 b rest param after some ih =>
    rw [queryParams, pieces_cut, if_neg some, if_neg some, ← pieces_dropWhile]
    exact congrArg (param :: ·) ih

section
variable {splitUri : Bytes → Option Uri} (cuts : CutsAtQuery splitUri)
include cuts

theorem uriOptions_plain {path : Bytes} (free : questionMark ∉ path) :
    uriOptions splitUri (slash :: path) = { path := pieces slash path } := by
  obtain ⟨uri,found,same,none⟩ := cuts.plain path free
  unfold uriOptions
  rw [found]
  dsimp only
  rw [pathSegments_eq, queryParams_eq, same, none, pieces_nil]

theorem uriOptions_query {path : Bytes} (free : questionMark ∉ path) (query : Bytes) :
    uriOptions splitUri (slash :: (path ++ questionMark :: query)) = ⟨pieces slash path,pieces ampersand query⟩ := by
  obtain ⟨uri,found,same,cut⟩ := cuts.query path query free
  unfold uriOptions
  rw [found]
  dsimp only
  rw [pathSegments_eq, queryParams_eq, same, cut]

end

/-- `coap_split_uri` on the URIs that `send` makes. -/
def splitLocalhost (uri : Bytes) : Option Uri :=
  match uri.drop localhost.length with
  | [] => none
  | _ :: rest =>
    some
      { scheme := .Coap
        host := lit ['l','o','c','a','l','h','o','s','t']
        port := 5683
        path := rest.takeWhile (· ≠ questionMark)
        query := (rest.dropWhile (· ≠ questionMark)).drop 1 }

theorem splitLocalhost_cuts : CutsAtQuery splitLocalhost := by
  have passes {path : Bytes} (free : questionMark ∉ path) : ∀ b ∈ path, decide (b ≠ questionMark) = true := by
    intro b member
    rw [decide_eq_true_eq]
    rintro rfl
    exact free member
  have dropped (rest : Bytes) : (localhost ++ slash :: rest).drop localhost.length = slash :: rest := List.drop_left
  constructor
  · intro path free
    unfold splitLocalhost
    rw [dropped]
    refine ⟨_,rfl,?_,?_⟩
    · exact List.takeWhile_eq_self_iff.mpr (passes free)
    · simp only [List.dropWhile_eq_nil_iff.mpr (passes free), List.drop_nil]
  · intro path query free
    unfold splitLocalhost
    rw [dropped]
    refine ⟨_,rfl,?_,?_⟩
    · dsimp only
      rw [List.takeWhile_append_of_pos (passes free), List.takeWhile_cons_of_neg (by simp), List.append_nil]
    · dsimp only
      rw [List.dropWhile_append_of_pos (passes free), List.dropWhile_cons_of_neg (by simp), List.drop_one, List.tail_cons]

/-! ### The registration request -/

/-- The options that say what the client means. -/
def registrationOptions (endpointName : Bytes) (srv : ServerInstance) : UriOptions :=
  { path := [lit ['r','d']]
    query :=
      [lit ['e','p','='] ++ endpointName, lit ['l','t','='] ++ Client.decimal srv.lifetime.toNat,
        lit ['l','w','m','2','m','=','1','.','1'], lit ['b','='] ++ srv.binding] }

/-- A decimal number holds no ampersand. -/
theorem decimal_digits (n : Nat) : ampersand ∉ Client.decimal n := by
  intro member
  unfold Client.decimal lit at member
  obtain ⟨digit,inside,same⟩ := List.mem_map.mp member
  have isDigit := Nat.isDigit_of_mem_toDigits (by decide) (by decide) inside
  unfold Char.isDigit at isDigit
  simp only [Bool.and_eq_true, decide_eq_true_eq, ge_iff_le] at isDigit
  obtain ⟨low,high⟩ := isDigit
  have low : 48 ≤ digit.toNat := low
  have high : digit.toNat ≤ 57 := high
  have number : digit.toNat % 256 = 38 := congrArg UInt8.toNat same
  omega

section
variable {U : Type} [Object U]

/-- The path of the registration request, parameter by parameter. -/
theorem registrationRequest_uriPath (c : Client U) (srv : ServerInstance) :
    (c.registrationRequest srv).uriPath =
      slash :: (lit ['r','d'] ++ questionMark :: (lit ['e','p','='] ++ c.config.endpointName ++ ampersand ::
        (lit ['l','t','='] ++ Client.decimal srv.lifetime.toNat ++ ampersand ::
          (lit ['l','w','m','2','m','=','1','.','1'] ++ ampersand :: (lit ['b','='] ++ srv.binding))))) := by
  unfold Client.registrationRequest
  simp only [List.append_assoc]
  rfl

/-- Only the endpoint name and the binding can hold an ampersand. -/
theorem registrationRequest_options {splitUri : Bytes → Option Uri} (cuts : CutsAtQuery splitUri) (c : Client U)
    (srv : ServerInstance) :
    uriOptions splitUri (c.registrationRequest srv).uriPath =
      ⟨[lit ['r','d']],pieces ampersand (lit ['e','p','='] ++ c.config.endpointName) ++
        (lit ['l','t','='] ++ Client.decimal srv.lifetime.toNat) :: lit ['l','w','m','2','m','=','1','.','1'] ::
          pieces ampersand (lit ['b','='] ++ srv.binding)⟩ := by
  have path : pieces slash (lit ['r','d']) = [lit ['r','d']] := pieces_free (by decide) (by decide)
  have lifetime : ampersand ∉ lit ['l','t','='] ++ Client.decimal srv.lifetime.toNat := by
    rw [List.mem_append, not_or]
    exact ⟨by decide,decimal_digits srv.lifetime.toNat⟩
  have version : pieces ampersand (lit ['l','w','m','2','m','=','1','.','1']) = [lit ['l','w','m','2','m','=','1','.','1']] :=
    pieces_free (by decide) (by decide)
  rw [registrationRequest_uriPath, uriOptions_query cuts (by decide), path, pieces_append, pieces_append, pieces_append,
    pieces_free lifetime (by simp [lit]), version]
  rfl

theorem registrationOptions_free {splitUri : Bytes → Option Uri} (cuts : CutsAtQuery splitUri) (c : Client U)
    (srv : ServerInstance)
    (same : uriOptions splitUri (c.registrationRequest srv).uriPath = registrationOptions c.config.endpointName srv) :
    ampersand ∉ c.config.endpointName ∧ ampersand ∉ srv.binding := by
  rw [registrationRequest_uriPath, uriOptions_query cuts (by decide)] at same
  have queries := congrArg UriOptions.query same
  have free (parameter : Bytes) (member : parameter ∈ (registrationOptions c.config.endpointName srv).query) :
      ampersand ∉ parameter := by
    rw [← queries] at member
    obtain ⟨-,free,-⟩ := mem_pieces member
    exact free
  constructor
  · intro inside
    exact free (lit ['e','p','='] ++ c.config.endpointName) (by simp [registrationOptions]) (List.mem_append_right _ inside)
  · intro inside
    exact free (lit ['b','='] ++ srv.binding) (by simp [registrationOptions]) (List.mem_append_right _ inside)

/-- The registration request says what the client means exactly if neither the
    endpoint name nor the binding holds an ampersand. -/
theorem registrationOptions_iff {splitUri : Bytes → Option Uri} (cuts : CutsAtQuery splitUri) (c : Client U)
    (srv : ServerInstance) :
    uriOptions splitUri (c.registrationRequest srv).uriPath = registrationOptions c.config.endpointName srv ↔
      ampersand ∉ c.config.endpointName ∧ ampersand ∉ srv.binding := by
  constructor
  · exact registrationOptions_free cuts c srv
  · rintro ⟨name,binding⟩
    have endpoint : ampersand ∉ lit ['e','p','='] ++ c.config.endpointName := by
      rw [List.mem_append, not_or]
      exact ⟨by decide,name⟩
    have mode : ampersand ∉ lit ['b','='] ++ srv.binding := by
      rw [List.mem_append, not_or]
      exact ⟨by decide,binding⟩
    rw [registrationRequest_options cuts, pieces_free endpoint (by simp [lit]), pieces_free mode (by simp [lit])]
    rfl

end

/-- The sample client with its default binding. -/
theorem registrationOptions_sample :
    uriOptions splitLocalhost (sampleClient.registrationRequest {}).uriPath =
        registrationOptions sampleClient.config.endpointName {} ↔
      ampersand ∉ sampleClient.config.endpointName ∧ ampersand ∉ (lit ['U']) :=
  registrationOptions_iff splitLocalhost_cuts sampleClient {}

/-- A server has written `U&x` as the binding. -/
theorem binding_split :
    CutsAtQuery splitLocalhost ∧
      uriOptions splitLocalhost (sampleClient.registrationRequest { binding := lit ['U','&','x'] }).uriPath ≠
        registrationOptions sampleClient.config.endpointName { binding := lit ['U','&','x'] } := by
  refine ⟨splitLocalhost_cuts,?_⟩
  intro same
  obtain ⟨-,binding⟩ := registrationOptions_free splitLocalhost_cuts sampleClient _ same
  exact binding (by decide)

end Ferriot
