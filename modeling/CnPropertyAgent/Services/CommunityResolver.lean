import CnPropertyAgent.Decision.Ranking
import CnPropertyAgent.Storage.Communities
import Mathlib.Data.List.ReduceOption

/-!
The community resolver, with scores as exact decimals.

A provider's own id decides where it is known. Otherwise the communities of the city with
the name of the query are scored by what the request says of the place, ranked, and the
first is taken if it leads the second clearly. The distance between two points, and the
text of one, are parameters.
-/

namespace CnPropertyAgent

open Python Decision

inductive ResolutionStatus where
  | resolved
  | ambiguous
  | notFound
deriving DecidableEq, Repr

structure CommunityResolutionRequestFields where
  query : Str
  cityCode : Str
  district : Option Str
  subdistrict : Option Str
  address : Option Str
  latitude : Option Double
  longitude : Option Double
  provider : Option Str
  providerEntityId : Option Str
deriving DecidableEq

def CommunityResolutionRequestFields.errors (r : CommunityResolutionRequestFields) : List ErrorItem :=
  thenModel
    (checkNonempty (str "query") r.query ++
    checkNonempty (str "city_code") r.cityCode ++
    checkOptional (checkFloatRange (str "latitude") (-90) 90) r.latitude ++
    checkOptional (checkFloatRange (str "longitude") (-180) 180) r.longitude)
    (if r.latitude.isNone ≠ r.longitude.isNone then
      [valueErrorItem (str "latitude and longitude must be provided together")]
    else if r.provider.isNone ≠ r.providerEntityId.isNone then
      [valueErrorItem (str "provider and provider_entity_id must be provided together")]
    else [])

structure CommunityResolutionRequest extends CommunityResolutionRequestFields where
  valid : toCommunityResolutionRequestFields.errors = []
deriving DecidableEq

theorem CommunityResolutionRequest.encodable_query_cityCode (r : CommunityResolutionRequest) :
    r.query.Encodable ∧ r.cityCode.Encodable := by
  have fields := (thenModel_eq_nil.mp r.valid).1
  simp only [List.append_eq_nil_iff, checkNonempty_eq_nil] at fields
  exact ⟨fields.1.1.1.1, fields.1.1.2.1⟩

/-! ### Confidence -/

/-- A `float` field with `ge=0` and `le=1`. -/
abbrev Confidence := {q : ℚ // 0 ≤ q ∧ q ≤ 1}

namespace Confidence

theorem bounds_zero : (0 : ℚ) ≤ 0 ∧ (0 : ℚ) ≤ 1 := ⟨le_rfl, zero_le_one⟩

theorem bounds_one : (0 : ℚ) ≤ 1 ∧ (1 : ℚ) ≤ 1 := ⟨zero_le_one, le_rfl⟩

theorem bounds_clamp (q : ℚ) : 0 ≤ max 0 (min 1 q) ∧ max 0 (min 1 q) ≤ 1 :=
  ⟨le_max_left _ _, max_le zero_le_one (min_le_left _ _)⟩

def zero : Confidence := ⟨0, bounds_zero⟩

def one : Confidence := ⟨1, bounds_one⟩

/-- `max(0.0, min(1.0, score))`. -/
def clamp (q : ℚ) : Confidence := ⟨max 0 (min 1 q), bounds_clamp q⟩

end Confidence

structure CommunityResolutionCandidate where
  community : Community
  confidence : Confidence
  reasons : List Str

structure CommunityResolution where
  status : ResolutionStatus
  community : Option Community
  confidence : Confidence
  candidates : List CommunityResolutionCandidate
  warnings : List Str

/-- What the resolver asks of the repository. -/
structure CommunityLookup where
  findByAlias : Str → Str → Str → Except Failure (Option Community)
  findByNormalizedName : Str → Str → Except Failure (List Community)

/-- The repository over the tables. -/
def CommunityTables.lookup [Runtime] (tables : CommunityTables) : CommunityLookup :=
  ⟨CommunityRepository.findByAlias tables, CommunityRepository.findByNormalizedName tables⟩

structure RepositoryCommunityResolver where
  geoConfirmationRadiusM : Double
  /-- `haversine_distance_m`. -/
  haversineDistanceM : Double → Double → Double → Double → Double
  /-- `f"{distance:.0f}"`. -/
  floatFixed : Double → Str

namespace RepositoryCommunityResolver

variable [Runtime] (resolver : RepositoryCommunityResolver)

/-! ### The score -/

/-- What one comparison adds to the score, and the reason it gives. -/
abbrev Evidence := Option (ℚ × Str)

/-- Texts that are both given are compared by their normal forms. -/
def textEvidence (requested stored : Option Str) (matched : ℚ × Str) (mismatched : Evidence) : Evidence :=
  match requested, stored with
  | some requested, some stored =>
      if normalizeText requested = normalizeText stored then some matched else mismatched
  | _, _ => none

omit [Runtime] in
/-- Coordinates that are all given are compared by their distance. -/
def geoEvidence (community : Community) (request : CommunityResolutionRequest) : Evidence :=
  match request.latitude, request.longitude, community.latitude, community.longitude with
  | some latitude, some longitude, some latitude', some longitude' =>
      let distance := resolver.haversineDistanceM latitude longitude latitude' longitude'
      if distance.le resolver.geoConfirmationRadiusM then
        some (15 / 100, str "coordinate match within " ++ resolver.floatFixed distance ++ str "m")
      else some (-25 / 100, str "coordinate mismatch (" ++ resolver.floatFixed distance ++ str "m)")
  | _, _, _, _ => none

/-- The comparisons in their order. -/
def evidence (community : Community) (request : CommunityResolutionRequest) : List Evidence :=
  [textEvidence request.district community.district (20 / 100, str "district match")
      (some (-20 / 100, str "district mismatch")),
    textEvidence request.subdistrict community.subdistrict (8 / 100, str "subdistrict match")
      (some (-10 / 100, str "subdistrict mismatch")),
    textEvidence request.address community.address (15 / 100, str "address match") none,
    resolver.geoEvidence community request]

def reasons (community : Community) (request : CommunityResolutionRequest) : List Str :=
  str "exact normalized name" :: (resolver.evidence community request).reduceOption.map Prod.snd

/-- What holds of every comparison, however it ends. -/
theorem forall_evidence {P : ℚ → Str → Prop} (district : P (20 / 100) (str "district match"))
    (district' : P (-20 / 100) (str "district mismatch"))
    (subdistrict : P (8 / 100) (str "subdistrict match"))
    (subdistrict' : P (-10 / 100) (str "subdistrict mismatch"))
    (address : P (15 / 100) (str "address match"))
    (near : ∀ d, P (15 / 100) (str "coordinate match within " ++ resolver.floatFixed d ++ str "m"))
    (far : ∀ d, P (-25 / 100) (str "coordinate mismatch (" ++ resolver.floatFixed d ++ str "m)"))
    (community : Community) (request : CommunityResolutionRequest) :
    ∀ e ∈ (resolver.evidence community request).reduceOption, P e.1 e.2 := by
  have text {requested stored : Option Str} {matched : ℚ × Str} {mismatched : Evidence}
      (hmatched : P matched.1 matched.2) (hmismatched : ∀ e ∈ mismatched, P e.1 e.2) :
      ∀ e ∈ textEvidence requested stored matched mismatched, P e.1 e.2 := by
    intro e mem
    unfold textEvidence at mem
    split at mem
    · split at mem
      · cases mem
        exact hmatched
      · exact hmismatched e mem
    · cases mem
  have geo : ∀ e ∈ resolver.geoEvidence community request, P e.1 e.2 := by
    intro e mem
    unfold geoEvidence at mem
    split at mem
    · dsimp only at mem
      split at mem
      · cases mem
        exact near _
      · cases mem
        exact far _
    · cases mem
  intro e mem
  rw [List.reduceOption_mem_iff] at mem
  simp only [evidence, List.mem_cons, List.not_mem_nil, or_false] at mem
  rcases mem with h | h | h | h
  · exact text district (by rintro _ ⟨⟩; exact district') e h.symm
  · exact text subdistrict (by rintro _ ⟨⟩; exact subdistrict') e h.symm
  · exact text address (by rintro _ ⟨⟩) e h.symm
  · exact geo e h.symm

def score (community : Community) (request : CommunityResolutionRequest) : CommunityResolutionCandidate :=
  ⟨community, .clamp (70 / 100 + ((resolver.evidence community request).reduceOption.map Prod.fst).sum),
    resolver.reasons community request⟩

/-! ### The decision -/

/-- `1e-9`. -/
def epsilon : ℚ := 1 / 10 ^ 9

/-- What becomes of the candidates with the name of the query. Without any, there is
nothing to rank. -/
def choose (request : CommunityResolutionRequest) (candidates : List Community) : CommunityResolution :=
  match ranked (·.confidence.val) (·.community.communityId) (candidates.map (resolver.score · request)) with
  | [] => ⟨.notFound, none, .zero, [], [str "no exact normalized-name candidate"]⟩
  | [only] => ⟨.resolved, some only.community, only.confidence, [only], []⟩
  | best :: second :: rest =>
      if 90 / 100 ≤ best.confidence.val + epsilon ∧
          15 / 100 ≤ best.confidence.val - second.confidence.val + epsilon then
        ⟨.resolved, some best.community, best.confidence, best :: second :: rest, []⟩
      else ⟨.ambiguous, none, best.confidence, best :: second :: rest,
        [str "multiple same-name candidates remain; geographic confirmation required"]⟩

/-- What becomes of a community that the provider's id names. -/
def resolveAlias (request : CommunityResolutionRequest) (aliased : Community) : CommunityResolution :=
  if aliased.cityCode ≠ request.cityCode then
    ⟨.notFound, none, .zero, [], [str "provider alias exists but belongs to another city"]⟩
  else ⟨.resolved, some aliased, .one,
    [⟨aliased, .one, [str "exact provider-native id"]⟩], []⟩

/-- The community of the provider's id; an empty text is no id. -/
def aliased (repository : CommunityLookup) (request : CommunityResolutionRequest) :
    Except Failure (Option Community) :=
  match request.provider.filter (· ≠ []), request.providerEntityId.filter (· ≠ []) with
  | some provider, some providerEntityId =>
      repository.findByAlias (str "community") provider providerEntityId
  | _, _ => .ok none

def resolve (repository : CommunityLookup) (request : CommunityResolutionRequest) :
    Except Failure CommunityResolution := do
  match ← aliased repository request with
  | some community => return resolveAlias request community
  | none =>
      let candidates ← repository.findByNormalizedName request.cityCode (normalizeText request.query)
      return resolver.choose request candidates

omit [Runtime] in
/-- The texts that looking up the provider's id binds. -/
def aliasTexts (request : CommunityResolutionRequest) : List Str :=
  match request.provider.filter (· ≠ []), request.providerEntityId.filter (· ≠ []) with
  | some provider, some providerEntityId => [provider, providerEntityId]
  | _, _ => []

section

variable {resolver} {repository : CommunityLookup} {request : CommunityResolutionRequest} {texts : List Str}

theorem resolve_of_aliased {community : Community}
    (h : aliased repository request = whenBound texts (some community)) :
    resolver.resolve repository request = whenBound texts (resolveAlias request community) := by
  rw [resolve, h, whenBound, whenBound]
  cases bindTexts texts <;> rfl

theorem resolve_of_candidates {candidates : List Community} (h : aliased repository request = whenBound texts none)
    (named : repository.findByNormalizedName request.cityCode (normalizeText request.query) =
      .ok candidates) :
    resolver.resolve repository request = whenBound texts (resolver.choose request candidates) := by
  rw [resolve, h, whenBound, whenBound]
  cases bindTexts texts with
  | error e => rfl
  | ok _ =>
      simp only [bind, Except.bind, named, pure, Except.pure]

end

end RepositoryCommunityResolver

end CnPropertyAgent
