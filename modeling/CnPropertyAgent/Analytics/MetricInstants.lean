import CnPropertyAgent.Analytics.ListingMetrics

/-!
The metrics are those of the instants.

Where `==` and `<` of the datetimes of snapshots are those of their instants, grouping,
sorting and the latest of the datetimes go by the instants, and the prices and statuses are
the same on either side. So the metrics of the snapshots and of the snapshots with their
instants alone (`ListingSnapshot.stored`) either agree or both raise.
-/

namespace CnPropertyAgent.ListingMetrics

open Python Relational

variable {U T : Type} [Datetime U] [Datetime T]

/-- The latest of the datetimes is at the latest of the instants. -/
theorem map_latestOf {ts : List T} (comparable : Datetime.Comparable ts) :
    (latestOf ts).map Datetime.instant = latestOf (ts.map Datetime.instant) := by
  cases ts with
  | nil => rfl
  | cons t ts =>
      have run : ∀ (rest : List T) (best : T), best ∈ t :: ts → rest ⊆ t :: ts →
          Datetime.instant (rest.foldl (fun best t => if Datetime.lt best t then t else best) best) =
            (rest.map Datetime.instant).foldl (fun best t => if Datetime.lt best t then t else best)
              (Datetime.instant best) := by
        intro rest
        induction rest with
        | nil => exact fun _ _ _ => rfl
        | cons x rest ih =>
            intro best inside subset
            obtain ⟨inX, subset⟩ := List.cons_subset.mp subset
            have told : Datetime.lt (Datetime.instant best) (Datetime.instant x) = Datetime.lt best x := by
              rw [Bool.eq_iff_iff, (comparable best inside x inX).2]
              exact decide_eq_true_iff
            rw [List.foldl_cons, List.map_cons, List.foldl_cons, told]
            split_ifs
            · exact ih x inX subset
            · exact ih best inside subset
      exact congrArg some (run ts t List.mem_cons_self (List.subset_cons_self t ts))

/-! ### What is read off a history -/

section

variable {α β γ ε : Type}

theorem item_map (f : α → β) (xs : List α) (i : Nat) : item (xs.map f) i = (item xs i).map f := by
  simp only [item, List.getElem?_map]
  cases xs[i]? <;> rfl

theorem lastItem_map (f : α → β) (xs : List α) : lastItem (xs.map f) = (lastItem xs).map f := by
  simp only [lastItem, List.getLast?_map]
  cases xs.getLast? <;> rfl

/-- Mapping what each computation returns maps what all return. -/
theorem mapM_map_out (f : α → Except ε β) (g : β → γ) (xs : List α) :
    xs.mapM (fun x => (f x).map g) = (xs.mapM f).map (List.map g) := by
  induction xs with
  | nil => rfl
  | cons x xs ih =>
      rw [List.mapM_cons, List.mapM_cons, ih]
      cases f x <;> cases xs.mapM f <;> rfl

/-- The last snapshots of histories are among these. -/
theorem subset_of_latest {T : Type} {history : List (Str × List (ListingSnapshot T))}
    {snapshots latest : List (ListingSnapshot T)}
    (subset : ∀ entry ∈ history, entry.2 ⊆ snapshots)
    (found : history.mapM (fun entry => lastItem entry.2) = .ok latest) : latest ⊆ snapshots := by
  intro s mem
  obtain ⟨entry, inside, last⟩ := (mem_of_mapM found).mp mem
  refine subset entry inside (List.mem_of_getLast? ?_)
  cases final : entry.2.getLast? with
  | none => rw [lastItem, final] at last; cases last
  | some x => rw [lastItem, final] at last; cases last; rfl

end

variable [Runtime] {communityId : Str} {minimum : Int} {history : List (Str × List (ListingSnapshot T))}

theorem priceChangeRatio_stored (snapshots : List (ListingSnapshot T)) :
    priceChangeRatio (snapshots.map (·.stored)) = priceChangeRatio snapshots := by
  unfold priceChangeRatio
  rw [item_map, lastItem_map]
  cases item snapshots 0 <;> cases lastItem snapshots <;> rfl

omit [Runtime] in
theorem latest_storedHistory : (storedHistory history).mapM (fun entry => lastItem entry.2) =
    (history.mapM fun entry => lastItem entry.2).map (List.map (·.stored)) := by
  rw [storedHistory, List.mapM_map, ← mapM_map_out]
  congr 1
  funext entry
  exact lastItem_map _ entry.2

theorem changes_storedHistory : ((storedHistory history).filter fun entry => entry.2.length > 1).mapM
    (fun entry => priceChangeRatio entry.2) =
      (history.filter fun entry => entry.2.length > 1).mapM fun entry => priceChangeRatio entry.2 := by
  rw [storedHistory, List.filter_map, List.mapM_map]
  simp only [Function.comp_def, List.length_map, priceChangeRatio_stored]

omit [Runtime] in
theorem statusCounts_stored (latest : List (ListingSnapshot T)) :
    statusCounts (latest.map (·.stored)) = statusCounts latest := by
  have count (status : ListingStatus) : ((latest.map (·.stored)).filter fun item => item.status = status).length =
      (latest.filter fun item => item.status = status).length := by
    rw [List.filter_map, List.length_map]
    rfl
  simp only [statusCounts, count]

/-! ### The metrics -/

omit [Runtime] in
/-- The metrics differ in the latest datetime alone. -/
theorem validate_stored (fields : CommunityListingMetricsFields T) :
    fields.validate.map (·.stored) = CommunityListingMetricsFields.validate
      { fields with latestSnapshotAt := fields.latestSnapshotAt.map Datetime.instant } := by
  have same : CommunityListingMetricsFields.errors
      { fields with latestSnapshotAt := fields.latestSnapshotAt.map Datetime.instant } = fields.errors := rfl
  by_cases valid : fields.errors = []
  · rw [CommunityListingMetricsFields.validate, dif_pos valid, CommunityListingMetricsFields.validate,
      dif_pos (same.trans valid)]
    rfl
  · rw [CommunityListingMetricsFields.validate, dif_neg valid, CommunityListingMetricsFields.validate,
      dif_neg fun none => valid (same.symm.trans none), same]
    rfl

theorem summarize_stored (identities : Dict Str (Listing U)) (comparable : ∀ latest,
      history.mapM (fun entry => lastItem entry.2) = .ok latest → ComparableAt latest) :
    (summarize communityId minimum identities history).map (·.stored) =
      summarize communityId minimum identities (storedHistory history) := by
  unfold summarize
  rw [latest_storedHistory, changes_storedHistory]
  cases found : history.mapM fun entry => lastItem entry.2 with
  | error e => rfl
  | ok latest =>
      have active : (latest.map (·.stored)).filter (fun item => item.status = .active) =
          (latest.filter fun item => item.status = .active).map (·.stored) := List.filter_map
      have prices : ((latest.filter fun item => item.status = .active).map (·.stored)).map
          (fun item => item.listPriceCny) =
            (latest.filter fun item => item.status = .active).map fun item => item.listPriceCny := List.map_map
      have unitPrices : ((latest.filter fun item => item.status = .active).map (·.stored)).filterMap
          (fun item => item.unitPriceCnySqm) =
            (latest.filter fun item => item.status = .active).filterMap fun item => item.unitPriceCnySqm :=
        List.filterMap_map
      have sources : (latest.map (·.stored)).map (fun item => item.source) =
          latest.map fun item => item.source := List.map_map
      have instants : latestOf ((latest.map (·.stored)).map fun item => item.snapshotAt) =
          (latestOf (latest.map fun item => item.snapshotAt)).map Datetime.instant := by
        rw [map_latestOf (comparable latest found), List.map_map, List.map_map]
        rfl
      have counts : ((storedHistory history).map fun entry => entry.2.length).sum =
          (history.map fun entry => entry.2.length).sum := by
        rw [storedHistory, List.map_map]
        simp only [Function.comp_def, List.length_map]
      have length : (storedHistory history).length = history.length := List.length_map _
      simp only [bind, Except.bind, Except.map, active, prices, unitPrices, sources, instants, counts, length,
        statusCounts_stored, List.length_map]
      cases ((history.filter fun entry => entry.2.length > 1).mapM fun entry => priceChangeRatio entry.2) with
      | error e => rfl
      | ok changes =>
          dsimp only
          cases medianMetric ((latest.filter fun item => item.status = .active).map
              fun item => item.listPriceCny) minimum with
          | error e => rfl
          | ok price =>
              dsimp only
              cases medianMetric ((latest.filter fun item => item.status = .active).filterMap
                  fun item => item.unitPriceCnySqm) minimum with
              | error e => rfl
              | ok unitPrice =>
                  dsimp only
                  cases medianMetric changes minimum with
                  | error e => rfl
                  | ok ratio => exact validate_stored _

theorem grouped_stored {snapshots : List (ListingSnapshot T)} (comparable : ComparableAt snapshots)
    (identities : Dict Str (Listing U)) :
    (groupSnapshots snapshots identities >>= summarize communityId minimum identities).toOption.map (·.stored) =
      (groupSnapshots (snapshots.map (·.stored)) identities >>=
        summarize communityId minimum identities).toOption := by
  have known : (∀ s ∈ snapshots.map (·.stored), s.listingId ∈ identities.keys) ↔
      ∀ s ∈ snapshots, s.listingId ∈ identities.keys := List.forall_mem_map
  rcases groupSnapshots_cases identities comparable with
    ⟨inside, agreeing, history, grouped, subset, histories⟩ | ⟨refused, message, raised⟩
  · rcases groupSnapshots_instants identities (snapshots.map (·.stored)) with
      ⟨-, -, history', grouped', histories'⟩ | ⟨refused, -⟩
    · have summarized : (summarize communityId minimum identities history).map (·.stored) =
          summarize communityId minimum identities (storedHistory history) :=
        summarize_stored identities fun latest found => comparable.of_subset (subset_of_latest subset found)
      rw [grouped, grouped', ← histories.unique histories' fun _ => Iff.rfl]
      show (summarize communityId minimum identities history).toOption.map _ =
        (summarize communityId minimum identities (storedHistory history)).toOption
      rw [← summarized]
      cases summarize communityId minimum identities history <;> rfl
    · exact absurd ⟨known.mpr inside, agreeing⟩ refused
  · rcases groupSnapshots_instants identities (snapshots.map (·.stored)) with
      ⟨inside, agreeing, -⟩ | ⟨-, message', raised'⟩
    · exact absurd ⟨known.mp inside, agreeing⟩ refused
    · rw [raised, raised']
      rfl

/-- **Instants.** Over snapshots that are compared by their instants the metrics are computed, and are
then the same, exactly when they are computed over the snapshots with their instants. -/
theorem compute_stored (listings : List (Listing U)) {snapshots : List (ListingSnapshot T)}
    (comparable : ComparableAt snapshots) (communityId : Str) (minimum : Int) :
    (computeCommunityListingMetrics listings snapshots communityId minimum).toOption.map (·.stored) =
      (computeCommunityListingMetrics listings (snapshots.map (·.stored)) communityId minimum).toOption := by
  simp only [computeCommunityListingMetrics, bind, Except.bind]
  cases validateMinimumSampleCount minimum with
  | error e => rfl
  | ok minimum =>
      dsimp only
      cases validateCommunityId communityId with
      | error e => rfl
      | ok communityId =>
          dsimp only
          cases indexListings listings communityId with
          | error e => rfl
          | ok identities => exact grouped_stored comparable identities

section

variable {listings : List (Listing U)} {snapshots : List (ListingSnapshot T)} (comparable : ComparableAt snapshots)

include comparable

theorem compute_instants_of_ok {metrics : CommunityListingMetrics T}
    (computed : computeCommunityListingMetrics listings snapshots communityId minimum = .ok metrics) :
    computeCommunityListingMetrics listings (snapshots.map (·.stored)) communityId minimum =
      .ok metrics.stored := by
  have told := compute_stored listings comparable communityId minimum
  rw [computed] at told
  cases outcome : computeCommunityListingMetrics listings (snapshots.map (·.stored)) communityId minimum with
  | error e => rw [outcome] at told; cases told
  | ok instants => rw [outcome] at told; rw [Option.some.inj told.symm]

theorem exists_compute_of_instants {instants : CommunityListingMetrics Instant}
    (computed : computeCommunityListingMetrics listings (snapshots.map (·.stored)) communityId minimum =
      .ok instants) :
    ∃ metrics, computeCommunityListingMetrics listings snapshots communityId minimum = .ok metrics ∧
      metrics.stored = instants := by
  have told := compute_stored listings comparable communityId minimum
  rw [computed] at told
  cases outcome : computeCommunityListingMetrics listings snapshots communityId minimum with
  | error e => rw [outcome] at told; cases told
  | ok metrics => rw [outcome] at told; exact ⟨metrics, rfl, Option.some.inj told⟩

theorem compute_raises_iff_instants :
    (∃ e, computeCommunityListingMetrics listings snapshots communityId minimum = .error e) ↔
      ∃ e, computeCommunityListingMetrics listings (snapshots.map (·.stored)) communityId minimum = .error e := by
  constructor
  · rintro ⟨e, raised⟩
    cases outcome : computeCommunityListingMetrics listings (snapshots.map (·.stored)) communityId minimum with
    | error e' => exact ⟨e', rfl⟩
    | ok instants =>
        obtain ⟨metrics, computed, -⟩ := exists_compute_of_instants comparable outcome
        cases raised.symm.trans computed
  · rintro ⟨e, raised⟩
    cases outcome : computeCommunityListingMetrics listings snapshots communityId minimum with
    | error e' => exact ⟨e', rfl⟩
    | ok metrics => cases raised.symm.trans (compute_instants_of_ok comparable outcome)

end

end CnPropertyAgent.ListingMetrics
