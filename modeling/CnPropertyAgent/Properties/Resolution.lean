import CnPropertyAgent.Services.CommunityResolver
import Mathlib.Tactic.Linarith

/-!
What a resolution proves.

Scores are whole hundredths, so the tolerance of the comparisons never lets a score
through that is short of a threshold. The rule compares the first two of the ranking;
by `Decision.leads_all` it compares the first with all.
-/

namespace CnPropertyAgent

open Python Decision

/-! ### Whole hundredths -/

/-- The number has at most two decimals. -/
def Hundredths (q : ℚ) : Prop := ∃ n : ℤ, q = n / 100

theorem Hundredths.add {a b : ℚ} (ha : Hundredths a) (hb : Hundredths b) : Hundredths (a + b) := by
  obtain ⟨m, rfl⟩ := ha
  obtain ⟨n, rfl⟩ := hb
  exact ⟨m + n, by rw [Int.cast_add, add_div]⟩

theorem Hundredths.sum {xs : List ℚ} (each : ∀ x ∈ xs, Hundredths x) : Hundredths xs.sum := by
  induction xs with
  | nil => exact ⟨0, by simp⟩
  | cons x xs ih =>
      rw [List.sum_cons]
      exact (each x List.mem_cons_self).add (ih fun y mem => each y (List.mem_cons_of_mem x mem))

theorem Hundredths.clamp {q : ℚ} (h : Hundredths q) : Hundredths (Confidence.clamp q).val := by
  unfold Confidence.clamp
  rcases max_choice 0 (min 1 q) with zero | inside
  · exact ⟨0, zero.trans (by simp)⟩
  rcases min_choice 1 q with one | same
  · exact ⟨100, (inside.trans one).trans (by norm_num)⟩
  · obtain ⟨n, rfl⟩ := h
    exact ⟨n, inside.trans same⟩

/-- What falls short by no more than `1e-9` does not fall short. -/
theorem Hundredths.le_of_le_add_epsilon {a b : ℚ} (ha : Hundredths a) (hb : Hundredths b)
    (h : b ≤ a + RepositoryCommunityResolver.epsilon) : b ≤ a := by
  obtain ⟨m, rfl⟩ := ha
  obtain ⟨n, rfl⟩ := hb
  unfold RepositoryCommunityResolver.epsilon at h
  have close : (n : ℚ) < m + 1 := by linarith
  have le : n ≤ m := by
    have lt : n < m + 1 := by exact_mod_cast close
    omega
  have cast : (n : ℚ) ≤ m := by exact_mod_cast le
  linarith

namespace RepositoryCommunityResolver

variable [Runtime] (resolver : RepositoryCommunityResolver)

/-- How confident the resolver is of a community with the name of the query. -/
def confidence (request : CommunityResolutionRequest) (community : Community) : ℚ :=
  (resolver.score community request).confidence.val

theorem hundredths_confidence (request : CommunityResolutionRequest) (community : Community) :
    Hundredths (resolver.confidence request community) := by
  have each : ∀ e ∈ (resolver.evidence community request).reduceOption, Hundredths e.1 :=
    resolver.forall_evidence (P := fun amount _ => Hundredths amount) ⟨20, rfl⟩ ⟨-20, by norm_num⟩ ⟨8, rfl⟩
      ⟨-10, by norm_num⟩ ⟨15, rfl⟩ (fun _ => ⟨15, rfl⟩) (fun _ => ⟨-25, by norm_num⟩) community request
  apply Hundredths.clamp
  apply Hundredths.add ⟨70, rfl⟩
  apply Hundredths.sum
  intro amount mem
  obtain ⟨e, he, rfl⟩ := List.mem_map.mp mem
  exact each e he

/-! ### The decision -/

section

variable {resolver} {request : CommunityResolutionRequest} {candidates : List Community}

variable (resolver request) in
/-- The communities of the ranked candidates are the candidates. -/
theorem perm_communities (candidates : List Community) :
    ((ranked (·.confidence.val) (·.community.communityId)
      (candidates.map (resolver.score · request))).map (·.community)).Perm candidates := by
  have scored : (candidates.map (resolver.score · request)).map (·.community) = candidates := by
    rw [List.map_map]
    exact List.map_id _
  have perm := (perm_ranked (·.confidence.val) (·.community.communityId)
    (candidates.map (resolver.score · request))).map (·.community)
  rwa [scored] at perm

theorem choose_congr {candidates' : List Community} (perm : candidates.Perm candidates')
    (nodup : (candidates.map (·.communityId)).Nodup) :
    resolver.choose request candidates = resolver.choose request candidates' := by
  have distinct : ((candidates.map (resolver.score · request)).map (·.community.communityId)).Nodup := by
    rwa [List.map_map]
  have same := ranked_congr (·.confidence.val) (perm.map (resolver.score · request)) distinct
  unfold choose
  rw [same]

/-- A candidate is chosen alone, or by its lead over all others. -/
theorem choose_resolved (h : (resolver.choose request candidates).status = .resolved) :
    ∃ community ∈ candidates, (resolver.choose request candidates).community = some community ∧
      (resolver.choose request candidates).confidence.val = resolver.confidence request community ∧
      ((∀ other ∈ candidates, other = community) ∨
        90 / 100 ≤ resolver.confidence request community ∧ ∀ other ∈ candidates, other ≠ community →
          resolver.confidence request other + 15 / 100 ≤ resolver.confidence request community) := by
  have perm := perm_communities resolver request candidates
  unfold choose at h ⊢
  split at h
  · cases h
  · rename_i only hranked
    rw [hranked, List.map_singleton, List.singleton_perm] at perm
    subst perm
    have alone : only ∈ [only.community].map (resolver.score · request) :=
      mem_ranked.mp (hranked ▸ List.mem_cons_self)
    rw [List.map_singleton, List.mem_singleton] at alone
    exact ⟨_, List.mem_singleton_self _, rfl, congrArg (·.confidence.val) alone,
      Or.inl fun other mem => List.mem_singleton.mp mem⟩
  rename_i best second rest hranked
  split_ifs at h with leads
  have scored : best ∈ candidates.map (resolver.score · request) :=
    mem_ranked.mp (hranked ▸ List.mem_cons_self)
  obtain ⟨community, mem, rfl⟩ := List.mem_map.mp scored
  rw [if_pos leads]
  refine ⟨community, mem, rfl, rfl, Or.inr ⟨?_, ?_⟩⟩
  · exact (resolver.hundredths_confidence request community).le_of_le_add_epsilon ⟨90, rfl⟩ leads.1
  · intro other hother ne
    have apart : resolver.score other request ≠ resolver.score community request := by
      intro same
      exact ne (congrArg CommunityResolutionCandidate.community same)
    have lead := leads_all hranked (sub_le_iff_le_add.mpr leads.2) (List.mem_map_of_mem hother) apart
    have within : resolver.confidence request other + 15 / 100 ≤
        resolver.confidence request community + epsilon := by
      unfold confidence
      linarith
    exact (resolver.hundredths_confidence request community).le_of_le_add_epsilon
      ((resolver.hundredths_confidence request other).add ⟨15, rfl⟩) within

theorem choose_notFound (h : (resolver.choose request candidates).status = .notFound) : candidates = [] := by
  have perm := perm_communities resolver request candidates
  unfold choose at h
  split at h
  · rename_i hranked
    rw [hranked] at perm
    exact List.nil_perm.mp perm
  · cases h
  · split_ifs at h

theorem choose_ambiguous (h : (resolver.choose request candidates).status = .ambiguous) :
    (resolver.choose request candidates).community = none ∧
      ((resolver.choose request candidates).candidates.map (·.community)).Perm candidates := by
  have perm := perm_communities resolver request candidates
  unfold choose at h ⊢
  split at h
  · cases h
  · cases h
  · rename_i hranked
    split_ifs at h with leads
    rw [hranked] at perm
    rw [if_neg leads]
    exact ⟨rfl, perm⟩

end

/-! ### The resolution -/

/-- The provider's id of the request is mapped to the community. -/
def RequestedAlias (tables : CommunityTables) (request : CommunityResolutionRequest)
    (community : Community) : Prop :=
  ∃ provider ∈ request.provider, ∃ id ∈ request.providerEntityId, tables.MapsAlias provider id community

/-- A stored community of the city whose name has the normal form of the query. -/
def SameName (tables : CommunityTables) (request : CommunityResolutionRequest) (community : Community) :
    Prop :=
  tables.Holds community ∧ community.cityCode = request.cityCode ∧
    normalizeText community.canonicalName = normalizeText request.query

/-- The first repository answers like the second, its candidates in any order. -/
structure Reorders (repository repository' : CommunityLookup) : Prop where
  findByAlias : repository.findByAlias = repository'.findByAlias
  findByNormalizedName : ∀ cityCode name candidates,
    repository'.findByNormalizedName cityCode name = .ok candidates →
      ∃ reordered, repository.findByNormalizedName cityCode name = .ok reordered ∧
        reordered.Perm candidates

omit [Runtime] in
theorem Reorders.refl (repository : CommunityLookup) : Reorders repository repository where
  findByAlias := rfl
  findByNormalizedName _ _ candidates found := ⟨candidates, found, .refl _⟩

/-- The alias of the request, if it can be bound, is followed to a stored community. -/
theorem aliased_ok {tables : CommunityTables} (built : tables.Built) (request : CommunityResolutionRequest) :
    ∃ found, aliased tables.lookup request = whenBound (aliasTexts request) found ∧
      ∀ community, found = some community ↔
        RequestedAlias tables request community ∧ tables.Holds community := by
  unfold aliased aliasTexts
  split
  · rename_i provider id hprovider hid
    obtain ⟨given, -⟩ := Option.filter_eq_some_iff.mp hprovider
    obtain ⟨given', -⟩ := Option.filter_eq_some_iff.mp hid
    obtain ⟨found, hfound, names⟩ := CommunityTables.findByAlias_ok built provider id
    refine ⟨found, hfound, ?_⟩
    intro community
    rw [names]
    constructor
    · rintro ⟨maps, held⟩
      exact ⟨⟨provider, given, id, given', maps⟩, held⟩
    · rintro ⟨⟨_, given₁, _, given₁', maps⟩, held⟩
      cases given.symm.trans given₁
      cases given'.symm.trans given₁'
      exact ⟨maps, held⟩
  · rename_i absent
    refine ⟨none, rfl, ?_⟩
    intro community
    refine iff_of_false nofun ?_
    rintro ⟨⟨provider, given, id, given', maps⟩, -⟩
    -- an alias with an empty provider or id is never stored
    obtain ⟨nonempty, nonempty'⟩ := CommunityTables.ne_nil_of_mapsAlias built maps
    exact absent provider id (Option.filter_eq_some_iff.mpr ⟨given, by simpa using nonempty⟩)
      (Option.filter_eq_some_iff.mpr ⟨given', by simpa using nonempty'⟩)

omit [Runtime] in
/-- An alias into the city resolves, one into another city finds nothing. -/
theorem resolveAlias_cases (request : CommunityResolutionRequest) (community : Community) :
    (community.cityCode = request.cityCode ∧ (resolveAlias request community).status = .resolved ∧
      (resolveAlias request community).community = some community) ∨
    (community.cityCode ≠ request.cityCode ∧ (resolveAlias request community).status = .notFound) := by
  by_cases same : community.cityCode = request.cityCode
  · have inside : ¬ community.cityCode ≠ request.cityCode := not_not.mpr same
    rw [resolveAlias, if_neg inside]
    exact Or.inl ⟨same, rfl, rfl⟩
  · rw [resolveAlias, if_pos same]
    exact Or.inr ⟨same, rfl⟩

/-- **What a resolution does.** It follows the one stored community that the alias names,
or chooses among the stored communities with the name of the query, from every repository
that answers like the store. -/
theorem resolve_cases {tables : CommunityTables} (built : tables.Built)
    (request : CommunityResolutionRequest) :
    (∃ community, RequestedAlias tables request community ∧ tables.Holds community ∧
      (∀ other, RequestedAlias tables request other → tables.Holds other → other = community) ∧
      ∀ repository, Reorders repository tables.lookup →
        resolver.resolve repository request =
          whenBound (aliasTexts request) (resolveAlias request community)) ∨
    ((∀ other, RequestedAlias tables request other → ¬ tables.Holds other) ∧
      ∃ candidates, (candidates.map (·.communityId)).Nodup ∧
        (∀ community, community ∈ candidates ↔ SameName tables request community) ∧
        ∀ repository, Reorders repository tables.lookup →
          resolver.resolve repository request =
            whenBound (aliasTexts request) (resolver.choose request candidates)) := by
  obtain ⟨found, hfound, names⟩ := aliased_ok built request
  have sameAlias {repository : CommunityLookup} (same : Reorders repository tables.lookup) :
      aliased repository request = whenBound (aliasTexts request) found := by
    rw [← hfound, aliased, aliased, same.findByAlias]
  cases found with
  | some community =>
      obtain ⟨maps, held⟩ := (names community).mp rfl
      refine Or.inl ⟨community, maps, held, ?_, ?_⟩
      · intro other maps' held'
        exact (Option.some.inj ((names other).mpr ⟨maps', held'⟩)).symm
      · intro repository same
        exact resolve_of_aliased (sameAlias same)
  | none =>
      obtain ⟨candidates, hcandidates, nodup, members⟩ :=
        CommunityTables.findByNormalizedName_ok built request.cityCode (normalizeText request.query)
      obtain ⟨query, city⟩ := request.encodable_query_cityCode
      have plain : PlainTexts [request.cityCode, normalizeText request.query] := by
        simp [city, encodable_normalizeText query]
      rw [whenBound_eq_ok plain] at hcandidates
      refine Or.inr ⟨?_, candidates, nodup, members, ?_⟩
      · intro other maps held
        cases (names other).mpr ⟨maps, held⟩
      · intro repository same
        obtain ⟨reordered, hreordered, perm⟩ := same.findByNormalizedName _ _ _ hcandidates
        rw [resolve_of_candidates (sameAlias same) hreordered,
          choose_congr perm ((perm.map _).nodup_iff.mpr nodup)]

/-- **The resolution.** Every store that statements build is resolved over, for every request whose
provider's id can be bound. What is resolved is a stored community of the city that the alias
names, or that alone has the name of the query, or leads all others with the name; an alias into
another city finds nothing; an ambiguous outcome lists all candidates; and their order does not
matter. -/
theorem resolution_sound (statements : List CommunityStatement) (request : CommunityResolutionRequest) :
    let tables := CommunityTables.after statements
    ∃ outcome, resolver.resolve tables.lookup request = whenBound (aliasTexts request) outcome ∧
      (outcome.status = .resolved → ∃ community, outcome.community = some community ∧
        tables.Holds community ∧ community.cityCode = request.cityCode ∧
        (RequestedAlias tables request community ∨ SameName tables request community ∧
          outcome.confidence.val = resolver.confidence request community ∧
          ((∀ other, SameName tables request other → other = community) ∨
            90 / 100 ≤ resolver.confidence request community ∧
            ∀ other, SameName tables request other → other ≠ community →
              resolver.confidence request other + 15 / 100 ≤ resolver.confidence request community))) ∧
      (∀ community, RequestedAlias tables request community → tables.Holds community →
        community.cityCode ≠ request.cityCode → outcome.status = .notFound) ∧
      (outcome.status = .notFound →
        (∃ community, RequestedAlias tables request community ∧ tables.Holds community ∧
          community.cityCode ≠ request.cityCode) ∨ ∀ community, ¬ SameName tables request community) ∧
      (outcome.status = .ambiguous → outcome.community = none ∧
        (outcome.candidates.map (·.community)).Nodup ∧
        ∀ community, community ∈ outcome.candidates.map (·.community) ↔ SameName tables request community) ∧
      ∀ repository, Reorders repository tables.lookup →
        resolver.resolve repository request = whenBound (aliasTexts request) outcome := by
  intro tables
  rcases resolver.resolve_cases (CommunityTables.built_after statements) request with
    ⟨community, maps, held, only, answers⟩ | ⟨unnamed, candidates, nodup, members, answers⟩
  · refine ⟨resolveAlias request community, answers _ (.refl _), ?_, ?_, ?_, ?_, answers⟩
    · intro resolved
      rcases resolveAlias_cases request community with ⟨inside, -, chosen⟩ | ⟨-, missing⟩
      · exact ⟨community, chosen, held, inside, Or.inl maps⟩
      · cases missing.symm.trans resolved
    · intro other maps' held' elsewhere
      cases only other maps' held'
      rcases resolveAlias_cases request community with ⟨inside, -, -⟩ | ⟨-, missing⟩
      · exact absurd inside elsewhere
      · exact missing
    · intro missing
      rcases resolveAlias_cases request community with ⟨-, resolved, -⟩ | ⟨elsewhere, -⟩
      · cases missing.symm.trans resolved
      · exact Or.inl ⟨community, maps, held, elsewhere⟩
    · intro ambiguous
      rcases resolveAlias_cases request community with ⟨-, resolved, -⟩ | ⟨-, missing⟩
      · cases ambiguous.symm.trans resolved
      · cases ambiguous.symm.trans missing
  · refine ⟨resolver.choose request candidates, answers _ (.refl _), ?_, ?_, ?_, ?_, answers⟩
    · intro resolved
      obtain ⟨community, mem, chosen, confident, leads⟩ := choose_resolved resolved
      have named := (members community).mp mem
      refine ⟨community, chosen, named.1, named.2.1, Or.inr ⟨named, confident, ?_⟩⟩
      rcases leads with alone | ⟨high, ahead⟩
      · exact Or.inl fun other h => alone other ((members other).mpr h)
      · exact Or.inr ⟨high, fun other h => ahead other ((members other).mpr h)⟩
    · intro community maps held
      exact absurd held (unnamed community maps)
    · intro missing
      right
      intro community named
      have mem := (members community).mpr named
      rw [choose_notFound missing] at mem
      cases mem
    · intro ambiguous
      obtain ⟨none_chosen, listed⟩ := choose_ambiguous ambiguous
      refine ⟨none_chosen, listed.nodup_iff.mpr nodup.of_map, ?_⟩
      intro community
      rw [listed.mem_iff]
      exact members community

end RepositoryCommunityResolver

end CnPropertyAgent
