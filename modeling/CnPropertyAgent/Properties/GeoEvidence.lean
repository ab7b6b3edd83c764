import CnPropertyAgent.Properties.Resolution

/-!
What a point near all candidates does to a resolution.

Every candidate gains the same, but a confidence ends at one. The first of the ranking is
already past the cap, so its lead shrinks to what the others lack of the cap: it stays
resolved exactly when no other was above the score of a bare name.
-/

namespace CnPropertyAgent

open Python Decision

/-! ### Clamped scores -/

namespace Confidence

theorem clamp_le_iff {q b : ℚ} (low : 0 ≤ b) (high : b < 1) : (clamp q).val ≤ b ↔ q ≤ b := by
  rw [clamp, max_le_iff, min_le_iff]
  simp [low, not_le.mpr high]

theorem le_clamp_iff {q b : ℚ} (low : 0 < b) (high : b ≤ 1) : b ≤ (clamp q).val ↔ b ≤ q := by
  rw [clamp, le_max_iff, le_min_iff]
  simp [not_le.mpr low, high]

end Confidence

namespace RepositoryCommunityResolver

section

variable [Runtime] {resolver : RepositoryCommunityResolver} {request : CommunityResolutionRequest}

variable (resolver request) in
/-- The score before it is clamped. -/
def total (community : Community) : ℚ :=
  70 / 100 + ((resolver.evidence community request).reduceOption.map Prod.fst).sum

theorem confidence_eq (community : Community) :
    resolver.confidence request community = (Confidence.clamp (resolver.total request community)).val := rfl

/-! ### Who is chosen -/

section

variable {candidates : List Community}

/-- A candidate that leads all others is chosen. -/
theorem choose_of_lead (nodup : (candidates.map (·.communityId)).Nodup) {community : Community}
    (mem : community ∈ candidates) (high : 90 / 100 ≤ resolver.confidence request community)
    (lead : ∀ other ∈ candidates, other ≠ community →
      resolver.confidence request other + 15 / 100 ≤ resolver.confidence request community) :
    (resolver.choose request candidates).status = .resolved ∧
      (resolver.choose request candidates).community = some community := by
  have ahead : ∀ y ∈ candidates.map (resolver.score · request), y ≠ resolver.score community request →
      y.confidence.val < (resolver.score community request).confidence.val := by
    intro y hy ne
    obtain ⟨other, mem', rfl⟩ := List.mem_map.mp hy
    have apart : other ≠ community := by
      rintro rfl
      exact ne rfl
    have led : resolver.confidence request other + 15 / 100 ≤ resolver.confidence request community :=
      lead other mem' apart
    unfold confidence at led
    linarith
  obtain ⟨rest, first⟩ : ∃ rest, ranked (·.confidence.val) (·.community.communityId)
      (candidates.map (resolver.score · request)) = resolver.score community request :: rest :=
    ranked_eq_cons_of_leads _ (List.mem_map_of_mem mem) ahead
  have perm := perm_communities resolver request candidates
  unfold choose
  rw [first] at perm ⊢
  cases rest with
  | nil => exact ⟨rfl, rfl⟩
  | cons second rest =>
      have distinct := perm.nodup_iff.mpr nodup.of_map
      have listed : second ∈ ranked (·.confidence.val) (·.community.communityId)
          (candidates.map (resolver.score · request)) :=
        first ▸ List.mem_cons_of_mem _ List.mem_cons_self
      obtain ⟨other, mem', rfl⟩ := List.mem_map.mp (mem_ranked.mp listed)
      have apart : other ≠ community := by
        rintro rfl
        exact (List.nodup_cons.mp distinct).1 List.mem_cons_self
      have led : resolver.confidence request other + 15 / 100 ≤ resolver.confidence request community :=
        lead other mem' apart
      unfold confidence at led high
      have positive : 0 < epsilon := by norm_num [epsilon]
      have leads : 90 / 100 ≤ (resolver.score community request).confidence.val + epsilon ∧
          15 / 100 ≤ (resolver.score community request).confidence.val -
            (resolver.score other request).confidence.val + epsilon :=
        ⟨by linarith, by linarith⟩
      dsimp only
      rw [if_pos leads]
      exact ⟨rfl, rfl⟩

/-- **Among several.** A candidate is chosen exactly when it leads all others. -/
theorem choose_resolved_iff (nodup : (candidates.map (·.communityId)).Nodup) {community : Community}
    (several : ∃ other ∈ candidates, other ≠ community) :
    ((resolver.choose request candidates).status = .resolved ∧
      (resolver.choose request candidates).community = some community) ↔
    community ∈ candidates ∧ 90 / 100 ≤ resolver.confidence request community ∧
      ∀ other ∈ candidates, other ≠ community →
        resolver.confidence request other + 15 / 100 ≤ resolver.confidence request community := by
  constructor
  · rintro ⟨resolved, chosen⟩
    obtain ⟨best, mem, chosen', -, leads⟩ := choose_resolved resolved
    cases chosen.symm.trans chosen'
    rcases leads with alone | ⟨high, lead⟩
    · obtain ⟨other, mem', ne⟩ := several
      exact absurd (alone other mem') ne
    · exact ⟨mem, high, lead⟩
  · rintro ⟨mem, high, lead⟩
    exact choose_of_lead nodup mem high lead

/-- Over a candidate at the cap, only that candidate can be chosen. -/
theorem choose_at_cap {community : Community} (mem : community ∈ candidates)
    (cap : resolver.confidence request community = 1) :
    (resolver.choose request candidates).status = .ambiguous ∨
      (resolver.choose request candidates).status = .resolved ∧
        (resolver.choose request candidates).community = some community := by
  cases status : (resolver.choose request candidates).status with
  | ambiguous => exact Or.inl rfl
  | notFound =>
      rw [choose_notFound status] at mem
      cases mem
  | resolved =>
      obtain ⟨best, listed, chosen, -, leads⟩ := choose_resolved status
      have same : best = community := by
        by_contra other
        rcases leads with alone | ⟨-, lead⟩
        · exact other (alone community mem).symm
        · have beyond := lead community mem (Ne.symm other)
          have bounded := (resolver.score best request).confidence.property.2
          rw [cap] at beyond
          unfold confidence at beyond
          linarith
      exact Or.inr ⟨rfl, chosen.trans (congrArg some same)⟩

end

/-! ### A point near all -/

variable (resolver) in
/-- The point lies within the radius of the stored coordinates. -/
def Near (latitude longitude : Double) (community : Community) : Prop :=
  ∃ latitude' ∈ community.latitude, ∃ longitude' ∈ community.longitude,
    (resolver.haversineDistanceM latitude longitude latitude' longitude').le resolver.geoConfirmationRadiusM = true

/-- The request with a point. -/
structure Locates (request' request : CommunityResolutionRequest) (latitude longitude : Double) : Prop where
  bare : request.latitude = none
  located : request'.toCommunityResolutionRequestFields =
    { request.toCommunityResolutionRequestFields with
      latitude := some latitude
      longitude := some longitude }

section

variable {request' : CommunityResolutionRequest} {latitude longitude : Double} {community : Community}

omit [Runtime] in
theorem geoEvidence_of_bare (bare : request.latitude = none) : resolver.geoEvidence community request = none := by
  rw [geoEvidence, bare]

omit [Runtime] in
theorem geoEvidence_of_near (locates : Locates request' request latitude longitude)
    (near : resolver.Near latitude longitude community) :
    ∃ reason, resolver.geoEvidence community request' = some (15 / 100, reason) := by
  obtain ⟨latitude', given, longitude', given', within⟩ := near
  rw [geoEvidence, locates.located, given, given']
  exact ⟨_, if_pos within⟩

/-- The point adds its amount to the score. -/
theorem total_of_near (locates : Locates request' request latitude longitude)
    (near : resolver.Near latitude longitude community) :
    resolver.total request' community = resolver.total request community + 15 / 100 := by
  obtain ⟨reason, gained⟩ := geoEvidence_of_near locates near
  have split (t : CommunityResolutionRequest) : resolver.total t community =
      70 / 100 + (((resolver.evidence community t).take 3).reduceOption.map Prod.fst).sum +
        ([resolver.geoEvidence community t].reduceOption.map Prod.fst).sum := by
    have parts : resolver.evidence community t =
        (resolver.evidence community t).take 3 ++ [resolver.geoEvidence community t] := rfl
    rw [total, parts, List.reduceOption_append, List.map_append, List.sum_append, add_assoc]
    rfl
  have same : (resolver.evidence community request').take 3 = (resolver.evidence community request).take 3 := by
    simp only [evidence, locates.located, List.take_succ_cons, List.take_zero]
  rw [split, split, same, gained, geoEvidence_of_bare locates.bare]
  simp [List.reduceOption]

/-- Who could be chosen reaches the cap. -/
theorem confidence_of_near (locates : Locates request' request latitude longitude)
    (near : resolver.Near latitude longitude community)
    (high : 90 / 100 ≤ resolver.confidence request community) :
    resolver.confidence request' community = 1 := by
  rw [confidence_eq, Confidence.le_clamp_iff (by norm_num) (by norm_num)] at high
  have full : (1 : ℚ) ≤ (Confidence.clamp (resolver.total request' community)).val := by
    rw [Confidence.le_clamp_iff one_pos le_rfl, total_of_near locates near]
    linarith
  exact le_antisymm (Confidence.clamp _).property.2 full

/-- A candidate stays the margin below the cap when it had no more than its name. -/
theorem below_cap_iff_of_near (locates : Locates request' request latitude longitude)
    (near : resolver.Near latitude longitude community) :
    resolver.confidence request' community + 15 / 100 ≤ 1 ↔
      resolver.confidence request community ≤ 70 / 100 := by
  have margin : resolver.confidence request' community ≤ 85 / 100 ↔
      resolver.confidence request community ≤ 70 / 100 := by
    rw [confidence_eq, Confidence.clamp_le_iff (by norm_num) (by norm_num), confidence_eq,
      Confidence.clamp_le_iff (by norm_num) (by norm_num), total_of_near locates near]
    constructor <;> intro h <;> linarith
  rw [← margin]
  constructor <;> intro h <;> linarith

omit [Runtime] in
theorem requestedAlias_iff {tables : CommunityTables} (locates : Locates request' request latitude longitude) :
    RequestedAlias tables request' community ↔ RequestedAlias tables request community := by
  simp only [RequestedAlias, locates.located]

omit [Runtime] in
theorem aliasTexts_eq (locates : Locates request' request latitude longitude) :
    aliasTexts request' = aliasTexts request := by
  simp only [aliasTexts, locates.located]

theorem sameName_iff {tables : CommunityTables} (locates : Locates request' request latitude longitude) :
    SameName tables request' community ↔ SameName tables request community := by
  simp only [SameName, locates.located]

end

/-! ### Two resolutions -/

/-- **Shared evidence.** A community that is resolved by name among several stays resolved, with
a point near them all, exactly when no other has more than its name without the point; else the
request becomes ambiguous. -/
theorem shared_evidence (resolver : RepositoryCommunityResolver) (statements : List CommunityStatement)
    (request request' : CommunityResolutionRequest) (latitude longitude : Double) (community : Community)
    (outcome : CommunityResolution) (locates : Locates request' request latitude longitude) :
    let tables := CommunityTables.after statements
    (∀ other, RequestedAlias tables request other → ¬ tables.Holds other) →
    (∃ other, SameName tables request other ∧ other ≠ community) →
    (∀ other, SameName tables request other → resolver.Near latitude longitude other) →
    resolver.resolve tables.lookup request = .ok outcome → outcome.status = .resolved →
    outcome.community = some community →
    ∃ outcome', resolver.resolve tables.lookup request' = .ok outcome' ∧
      ((outcome'.status = .resolved ∧ outcome'.community = some community) ↔
        ∀ other, SameName tables request other → other ≠ community →
          resolver.confidence request other ≤ 70 / 100) ∧
      (outcome'.status = .ambiguous ↔ ¬ ∀ other, SameName tables request other → other ≠ community →
        resolver.confidence request other ≤ 70 / 100) := by
  intro tables unnamed several near resolves resolved chosen
  have built := CommunityTables.built_after statements
  rcases resolver.resolve_cases built request with
    ⟨aliased, maps, held, -⟩ | ⟨-, candidates, nodup, members, answers⟩
  · exact absurd held (unnamed aliased maps)
  rcases resolver.resolve_cases built request' with
    ⟨aliased, maps, held, -⟩ | ⟨-, candidates', nodup', members', answers'⟩
  · exact absurd held (unnamed aliased ((requestedAlias_iff locates).mp maps))
  have named (other : Community) : other ∈ candidates' ↔ SameName tables request other :=
    (members' other).trans (sameName_iff locates)
  have answered := (answers _ (.refl _)).symm.trans resolves
  have plain := plainTexts_of_ok answered
  rw [whenBound_eq_ok plain] at answered
  cases answered
  obtain ⟨rival, rivals, ne⟩ := several
  obtain ⟨mem, high, -⟩ := (choose_resolved_iff nodup ⟨rival, (members rival).mpr rivals, ne⟩).mp
    ⟨resolved, chosen⟩
  have own := (members community).mp mem
  have cap := confidence_of_near locates (near community own) high
  have stays : ((resolver.choose request' candidates').status = .resolved ∧
      (resolver.choose request' candidates').community = some community) ↔
      ∀ other, SameName tables request other → other ≠ community →
        resolver.confidence request other ≤ 70 / 100 := by
    rw [choose_resolved_iff nodup' ⟨rival, (named rival).mpr rivals, ne⟩, cap]
    constructor
    · rintro ⟨-, -, lead⟩ other shares apart
      exact (below_cap_iff_of_near locates (near other shares)).mp (lead other ((named other).mpr shares) apart)
    · intro bare
      refine ⟨(named community).mpr own, by norm_num, ?_⟩
      intro other listed apart
      have shares := (named other).mp listed
      exact (below_cap_iff_of_near locates (near other shares)).mpr (bare other shares apart)
  have answered' := answers' _ (.refl _)
  rw [aliasTexts_eq locates, whenBound_eq_ok plain] at answered'
  refine ⟨_, answered', stays, ?_⟩
  rw [← stays]
  rcases choose_at_cap ((named community).mpr own) cap with ambiguous | kept
  · simp [ambiguous]
  · simp [kept]

end

/-! ### Two communities at one point -/

/-- A resolver of a world in one point. -/
def sampleResolver : RepositoryCommunityResolver where
  geoConfirmationRadiusM := 750
  haversineDistanceM _ _ _ _ := 0
  floatFixed _ := str "0"

/-- A community of which all is known. -/
def knownCommunity : Community :=
  ⟨{ sampleCommunityFields (str "cm-a") with
      district := some (str "浦东")
      subdistrict := some (str "塘桥")
      address := some (str "浦建路1号")
      latitude := some 31
      longitude := some 121 }, rfl⟩

/-- Its namesake of which only the address is known. -/
def addressedCommunity : Community :=
  ⟨{ sampleCommunityFields (str "cm-b") with
      address := some (str "浦建路1号")
      latitude := some 31
      longitude := some 121 }, rfl⟩

theorem other_community : addressedCommunity ≠ knownCommunity := by
  intro same
  exact absurd (congrArg (fun c => c.communityId) same) (by decide)

def namesakes : List CommunityStatement := [.upsert knownCommunity, .upsert addressedCommunity]

/-- A request for the name with a district. -/
def districtFields : CommunityResolutionRequestFields where
  query := str "sample"
  cityCode := str "310000"
  district := some (str "浦东")
  subdistrict := none
  address := none
  latitude := none
  longitude := none
  provider := none
  providerEntityId := none

def districtRequest : CommunityResolutionRequest := ⟨districtFields, rfl⟩

def districtRequestNear : CommunityResolutionRequest :=
  ⟨{ districtFields with
      latitude := some 31
      longitude := some 121 }, rfl⟩

/-- A request with all that is known of a community. -/
def knownFields : CommunityResolutionRequestFields :=
  { districtFields with
    subdistrict := some (str "塘桥")
    address := some (str "浦建路1号") }

def knownRequest : CommunityResolutionRequest := ⟨knownFields, rfl⟩

def knownRequestNear : CommunityResolutionRequest :=
  ⟨{ knownFields with
      latitude := some 31
      longitude := some 121 }, rfl⟩

/-- The communities with the name are the two. -/
theorem sameName_iff_of_namesakes {request : CommunityResolutionRequest} {other : Community} :
    let _ := sampleRuntime
    request.query = str "sample" → request.cityCode = str "310000" →
      (SameName (.after namesakes) request other ↔ other = knownCommunity ∨ other = addressedCommunity) := by
  intro _ query city
  obtain ⟨candidates, found, -, members⟩ := CommunityTables.findByNormalizedName_ok
    (CommunityTables.built_after namesakes) request.cityCode (normalizeText request.query)
  have listed : CommunityRepository.findByNormalizedName (.after namesakes) (str "310000")
      (normalizeText (str "sample")) = .ok [knownCommunity, addressedCommunity] := by decide +kernel
  rw [query, city, whenBound_eq_ok (by decide +kernel)] at found
  cases listed.symm.trans found
  rw [SameName, ← members other, List.mem_cons, List.mem_singleton]

theorem near_of_namesakes {request : CommunityResolutionRequest} {other : Community} : let _ := sampleRuntime
    request.query = str "sample" → request.cityCode = str "310000" →
      SameName (.after namesakes) request other → sampleResolver.Near 31 121 other := by
  intro _ query city shares
  rcases (sameName_iff_of_namesakes query city).mp shares with rfl | rfl
  · exact ⟨31, rfl, 121, rfl, rfl⟩
  · exact ⟨31, rfl, 121, rfl, rfl⟩

/-- What a request resolves to. -/
def resolvedTo [Runtime] (request : CommunityResolutionRequest) : Option (ResolutionStatus × Option Community) :=
  (sampleResolver.resolve (CommunityTables.after namesakes).lookup request).toOption.map
    fun outcome => (outcome.status, outcome.community)

theorem exists_of_resolvedTo [Runtime] {request : CommunityResolutionRequest} {status : ResolutionStatus}
    {community : Option Community} (h : resolvedTo request = some (status, community)) :
    ∃ outcome, sampleResolver.resolve (CommunityTables.after namesakes).lookup request = .ok outcome ∧
      outcome.status = status ∧ outcome.community = community := by
  unfold resolvedTo at h
  cases resolves : sampleResolver.resolve (CommunityTables.after namesakes).lookup request with
  | error e =>
      rw [resolves] at h
      cases h
  | ok outcome =>
      rw [resolves] at h
      cases h
      exact ⟨outcome, rfl, rfl, rfl⟩

/-- A district tells the namesakes apart, and still does with a point. -/
theorem shared_evidence_of_district : let _ := sampleRuntime
    ∃ outcome,
      sampleResolver.resolve (CommunityTables.after namesakes).lookup districtRequestNear = .ok outcome ∧
      outcome.status = .resolved ∧ outcome.community = some knownCommunity := by
  intro _
  have bare : resolvedTo districtRequest = some (.resolved, some knownCommunity) := by decide +kernel
  obtain ⟨outcome, resolves, resolved, chosen⟩ := exists_of_resolvedTo bare
  have rival : SameName (.after namesakes) districtRequest addressedCommunity :=
    (sameName_iff_of_namesakes rfl rfl).mpr (Or.inr rfl)
  obtain ⟨outcome', resolves', stays, -⟩ := shared_evidence sampleResolver namesakes districtRequest
    districtRequestNear 31 121 knownCommunity outcome ⟨rfl, rfl⟩ (by rintro _ ⟨_, ⟨⟩, -⟩)
    ⟨addressedCommunity, rival, other_community⟩ (fun _ => near_of_namesakes rfl rfl) resolves resolved chosen
  refine ⟨outcome', resolves', stays.mpr ?_⟩
  intro other shares apart
  rcases (sameName_iff_of_namesakes rfl rfl).mp shares with rfl | rfl
  · exact absurd rfl apart
  · decide +kernel

/-- With the address of both, a point at both makes them ambiguous. -/
theorem shared_evidence_of_address : let _ := sampleRuntime
    ¬ ∀ (resolver : RepositoryCommunityResolver) (statements : List CommunityStatement)
        (request request' : CommunityResolutionRequest) (latitude longitude : Double) (community : Community)
        (outcome outcome' : CommunityResolution), Locates request' request latitude longitude →
      (∀ other, RequestedAlias (.after statements) request other →
        ¬ (CommunityTables.after statements).Holds other) →
      (∃ other, SameName (.after statements) request other ∧ other ≠ community) →
      (∀ other, SameName (.after statements) request other → resolver.Near latitude longitude other) →
      resolver.resolve (CommunityTables.after statements).lookup request = .ok outcome →
      outcome.status = .resolved → outcome.community = some community →
      resolver.resolve (CommunityTables.after statements).lookup request' = .ok outcome' →
      outcome'.status = .resolved ∧ outcome'.community = some community := by
  intro _ stays
  have bare : resolvedTo knownRequest = some (.resolved, some knownCommunity) := by decide +kernel
  have located : resolvedTo knownRequestNear = some (.ambiguous, none) := by decide +kernel
  obtain ⟨outcome, resolves, resolved, chosen⟩ := exists_of_resolvedTo bare
  obtain ⟨outcome', resolves', ambiguous, -⟩ := exists_of_resolvedTo located
  have rival : SameName (.after namesakes) knownRequest addressedCommunity :=
    (sameName_iff_of_namesakes rfl rfl).mpr (Or.inr rfl)
  obtain ⟨resolved', -⟩ := stays sampleResolver namesakes knownRequest knownRequestNear 31 121 knownCommunity
    outcome outcome' ⟨rfl, rfl⟩ (by rintro _ ⟨_, ⟨⟩, -⟩) ⟨addressedCommunity, rival, other_community⟩
    (fun _ => near_of_namesakes rfl rfl) resolves resolved chosen resolves'
  cases ambiguous.symm.trans resolved'

end RepositoryCommunityResolver

end CnPropertyAgent
