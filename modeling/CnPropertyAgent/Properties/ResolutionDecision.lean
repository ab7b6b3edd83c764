import CnPropertyAgent.Properties.GeoEvidence

/-!
What a resolution is decided by.

The decision is a matter of what is stored: whether the alias of the request names a stored
community, and of what city; and otherwise how many stored communities have the name of the
query, and whether one of them leads all others. The rules exclude one another and leave
nothing out, so each is met exactly when the resolver answers by it.
-/

namespace CnPropertyAgent

open Python Decision

namespace RepositoryCommunityResolver

variable [Runtime] (resolver : RepositoryCommunityResolver) (tables : CommunityTables)
  (request : CommunityResolutionRequest)

/-- The community is above the threshold, and above all others of the name by the margin. -/
def Leads (community : Community) : Prop :=
  90 / 100 ≤ resolver.confidence request community ∧
    ∀ other, SameName tables request other → other ≠ community →
      resolver.confidence request other + 15 / 100 ≤ resolver.confidence request community

omit [Runtime] in
/-- No alias of the request names a stored community. -/
def Unaliased : Prop := ∀ community, RequestedAlias tables request community → ¬ tables.Holds community

/-- How a request is decided. -/
inductive Decided : ResolutionStatus → Option Community → Prop where
  /-- By an alias into the city. -/
  | aliased {community : Community} (named : RequestedAlias tables request community)
      (held : tables.Holds community) (inside : community.cityCode = request.cityCode) :
      Decided .resolved (some community)
  /-- By an alias into another city. -/
  | elsewhere {community : Community} (named : RequestedAlias tables request community)
      (held : tables.Holds community) (outside : community.cityCode ≠ request.cityCode) :
      Decided .notFound none
  | unknown (unaliased : Unaliased tables request) (unnamed : ∀ community, ¬ SameName tables request community) :
      Decided .notFound none
  | alone {community : Community} (unaliased : Unaliased tables request)
      (named : SameName tables request community)
      (only : ∀ other, SameName tables request other → other = community) :
      Decided .resolved (some community)
  | leading {community : Community} (unaliased : Unaliased tables request)
      (named : SameName tables request community) (leads : resolver.Leads tables request community) :
      Decided .resolved (some community)
  | unclear {community other : Community} (unaliased : Unaliased tables request)
      (named : SameName tables request community) (named' : SameName tables request other)
      (differ : other ≠ community)
      (unled : ∀ best, SameName tables request best → ¬ resolver.Leads tables request best) :
      Decided .ambiguous none

variable {resolver tables request} {community : Community} {candidates : List Community}

/-- The request is decided by its alias, whenever it has one. -/
theorem decided_of_aliased (named : RequestedAlias tables request community) (held : tables.Holds community)
    (only : ∀ other, RequestedAlias tables request other → tables.Holds other → other = community)
    {status : ResolutionStatus} {chosen : Option Community} (h : resolver.Decided tables request status chosen) :
    community.cityCode = request.cityCode ∧ status = .resolved ∧ chosen = some community ∨
      community.cityCode ≠ request.cityCode ∧ status = .notFound ∧ chosen = none := by
  cases h with
  | aliased named' held' inside =>
      obtain rfl := only _ named' held'
      exact Or.inl ⟨inside, rfl, rfl⟩
  | elsewhere named' held' outside =>
      obtain rfl := only _ named' held'
      exact Or.inr ⟨outside, rfl, rfl⟩
  | unknown unaliased => exact absurd held (unaliased _ named)
  | alone unaliased => exact absurd held (unaliased _ named)
  | leading unaliased => exact absurd held (unaliased _ named)
  | unclear unaliased => exact absurd held (unaliased _ named)

theorem resolveAlias_iff_decided (named : RequestedAlias tables request community) (held : tables.Holds community)
    (only : ∀ other, RequestedAlias tables request other → tables.Holds other → other = community)
    (status : ResolutionStatus) (chosen : Option Community) :
    (resolveAlias request community).status = status ∧ (resolveAlias request community).community = chosen ↔
      resolver.Decided tables request status chosen := by
  constructor
  · rintro ⟨rfl, rfl⟩
    unfold resolveAlias
    split_ifs with outside
    · exact .elsewhere named held outside
    · exact .aliased named held (not_not.mp outside)
  · intro decided
    unfold resolveAlias
    rcases decided_of_aliased named held only decided with ⟨inside, rfl, rfl⟩ | ⟨outside, rfl, rfl⟩
    · rw [if_neg (not_not.mpr inside)]
      exact ⟨rfl, rfl⟩
    · rw [if_pos outside]
      exact ⟨rfl, rfl⟩

/-- Where the candidates are the communities of the name, the choice among them is a decision. -/
theorem decided_choose (unaliased : Unaliased tables request)
    (nodup : (candidates.map (·.communityId)).Nodup)
    (members : ∀ community, community ∈ candidates ↔ SameName tables request community) :
    resolver.Decided tables request (resolver.choose request candidates).status
      (resolver.choose request candidates).community := by
  cases status : (resolver.choose request candidates).status with
  | resolved =>
      obtain ⟨community, mem, chosen, -, leads⟩ := choose_resolved status
      rw [chosen]
      rcases leads with alone | leads
      · exact .alone unaliased ((members _).mp mem) fun other named => alone other ((members other).mpr named)
      · exact .leading unaliased ((members _).mp mem)
          ⟨leads.1, fun other named => leads.2 other ((members other).mpr named)⟩
  | notFound =>
      have empty := choose_notFound status
      subst empty
      exact .unknown unaliased fun community named => List.not_mem_nil ((members community).mpr named)
  | ambiguous =>
      obtain ⟨unchosen, listed⟩ := choose_ambiguous status
      have unled : ∀ best, SameName tables request best → ¬ resolver.Leads tables request best := by
        intro best named leads
        have chosen := choose_of_lead nodup ((members best).mpr named) leads.1
          fun other mem => leads.2 other ((members other).mp mem)
        cases status.symm.trans chosen.1
      rw [unchosen]
      match candidates, nodup, members, status with
      | [], _, _, status => cases status
      | [only], _, _, status => cases status
      | first :: second :: rest, nodup, members, _ =>
          have differ : second ≠ first := by
            rintro rfl
            simp at nodup
          exact .unclear unaliased ((members first).mp List.mem_cons_self)
            ((members second).mp (List.mem_cons_of_mem _ List.mem_cons_self)) differ unled

/-- What is decided without an alias is chosen among the candidates. -/
theorem choose_of_decided (unaliased : Unaliased tables request) (nodup : (candidates.map (·.communityId)).Nodup)
    (members : ∀ community, community ∈ candidates ↔ SameName tables request community)
    {status : ResolutionStatus} {chosen : Option Community} (h : resolver.Decided tables request status chosen) :
    (resolver.choose request candidates).status = status ∧
      (resolver.choose request candidates).community = chosen := by
  cases h with
  | aliased named held => exact absurd held (unaliased _ named)
  | elsewhere named held => exact absurd held (unaliased _ named)
  | unknown _ unnamed =>
      have empty : candidates = [] :=
        List.eq_nil_iff_forall_not_mem.mpr fun community mem => unnamed community ((members community).mp mem)
      subst empty
      exact ⟨rfl, rfl⟩
  | @alone community _ named only =>
      have single : candidates = [community] := by
        apply List.perm_singleton.mp
        refine (List.perm_ext_iff_of_nodup nodup.of_map (List.nodup_singleton _)).mpr fun other => ?_
        rw [members, List.mem_singleton]
        exact ⟨only other, fun same => same ▸ named⟩
      subst single
      exact ⟨rfl, rfl⟩
  | leading _ named leads =>
      exact choose_of_lead nodup ((members _).mpr named) leads.1
        fun other mem => leads.2 other ((members other).mp mem)
  | @unclear community other _ named named' differ unled =>
      cases answer : (resolver.choose request candidates).status with
      | ambiguous => exact ⟨rfl, (choose_ambiguous answer).1⟩
      | notFound =>
          have mem := (members community).mpr named
          rw [choose_notFound answer] at mem
          cases mem
      | resolved =>
          obtain ⟨best, mem, -, -, leads⟩ := choose_resolved answer
          rcases leads with alone | leads
          · have first := alone community ((members community).mpr named)
            exact absurd ((alone other ((members other).mpr named')).trans first.symm) differ
          · exact absurd ⟨leads.1, fun other named => leads.2 other ((members other).mpr named)⟩
              (unled best ((members best).mp mem))

end RepositoryCommunityResolver

end CnPropertyAgent
