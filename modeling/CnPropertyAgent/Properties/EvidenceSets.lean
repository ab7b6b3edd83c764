import CnPropertyAgent.Analytics.MetricInstants
import CnPropertyAgent.Services.ListingRuns
import CnPropertyAgent.Utils

/-!
What the listing metrics read of their evidence.

Two deliveries of one set of snapshots leave one history (`HistoryOf.unique`), and
a listing is read by its id alone, so the metrics are the same however the evidence
arrives. Of each history they read only its two ends and, for the snapshot count, its
length. All this is by the instants, where the datetimes compare as these do; on a clock that
is turned back they need not.
-/

namespace CnPropertyAgent

open Python Relational

namespace ListingMetrics

variable {U : Type} [Datetime U] {communityId : Str} {minimum : Int} {identities : Dict Str (Listing U)}
  {listings listings' : List (Listing U)} {snapshots snapshots' : List (ListingSnapshot Instant)}
  {history : List (Str × List (ListingSnapshot Instant))}

/-! ### Evidence as a set -/

section

variable [Runtime]

/-- Metrics are computed of accepted evidence only. -/
theorem accepted_of_compute {metrics : CommunityListingMetrics Instant}
    (computed : computeCommunityListingMetrics listings snapshots communityId minimum = .ok metrics) :
    1 ≤ minimum ∧ Accepted communityId listings snapshots := by
  obtain ⟨enough, subject⟩ := arguments_of_compute computed
  rw [compute_of_arguments enough subject] at computed
  obtain ⟨identities, indexed, computed⟩ := eq_ok_of_bind computed
  obtain ⟨history, grouped, -⟩ := eq_ok_of_bind computed
  rcases indexListings_cases listings communityId with ⟨own, distinct, _, indexed', keys⟩ | ⟨-, _, refused⟩
  · cases indexed.symm.trans indexed'
    rcases groupSnapshots_instants identities snapshots with ⟨known, agreeing, -⟩ | ⟨-, _, refused⟩
    · exact ⟨enough, subject, own, distinct, fun s hs => (keys _).mp (known s hs), agreeing⟩
    · cases grouped.symm.trans refused
  · cases indexed.symm.trans refused

omit [Runtime] in
/-- Whether evidence is accepted does not depend on how it arrives. -/
theorem Accepted.congr (accepted : Accepted communityId listings snapshots)
    (perm : listings.Perm listings') (same : ∀ s, s ∈ snapshots ↔ s ∈ snapshots') :
    Accepted communityId listings' snapshots' where
  subject := accepted.subject
  own l mem := accepted.own l (perm.mem_iff.mpr mem)
  distinct := (perm.map _).nodup_iff.mp accepted.distinct
  known s mem := (perm.map _).mem_iff.mp (accepted.known s ((same s).mpr mem))
  agreeing a ha b hb := accepted.agreeing a ((same a).mpr ha) b ((same b).mpr hb)

/-- Accepted evidence is summarized alike however it arrives. -/
theorem compute_congr (accepted : Accepted communityId listings snapshots) (enough : 1 ≤ minimum)
    (perm : listings.Perm listings') (same : ∀ s, s ∈ snapshots ↔ s ∈ snapshots') :
    computeCommunityListingMetrics listings snapshots communityId minimum =
      computeCommunityListingMetrics listings' snapshots' communityId minimum := by
  obtain ⟨identities, history, keys, histories, computed⟩ := compute_of_accepted accepted enough
  obtain ⟨identities', history', keys', histories', computed'⟩ :=
    compute_of_accepted (accepted.congr perm same) enough
  have ids : ∀ id, id ∈ identities.keys ↔ id ∈ identities'.keys := by
    intro id
    rw [keys, keys', (perm.map _).mem_iff]
  rw [computed, computed', histories.unique histories' same, summarize_congr ids]

/-- Given valid arguments, evidence is refused exactly when it is not accepted. -/
theorem compute_raises_iff (enough : 1 ≤ minimum) (notBlank : communityId.strip ≠ [])
    (text : communityId.Encodable) :
    (∃ e, computeCommunityListingMetrics listings snapshots communityId minimum = .error e) ↔
      ¬ Accepted communityId listings snapshots := by
  constructor
  · rintro ⟨e, raised⟩ accepted
    obtain ⟨identities, history, keys, histories, computed⟩ := compute_of_accepted accepted enough
    have nonempty : communityId ≠ [] := by
      rintro rfl
      exact notBlank rfl
    obtain ⟨metrics, summarized, -⟩ := summarize_ok ⟨text, nonempty⟩ enough histories
      fun s hs => (keys _).mpr (accepted.known s hs)
    rw [computed, summarized] at raised
    cases raised
  · intro refused
    cases outcome : computeCommunityListingMetrics listings snapshots communityId minimum with
    | error e => exact ⟨e, rfl⟩
    | ok metrics => exact absurd (accepted_of_compute outcome).2 refused

omit [Runtime] in
/-- What keeps evidence from being accepted, one fault at least. -/
theorem not_accepted_iff (notBlank : communityId.strip ≠ []) :
    ¬ Accepted communityId listings snapshots ↔
      (∃ l ∈ listings, l.communityId ≠ communityId) ∨ ¬ (listings.map (·.listingId)).Nodup ∨
        (∃ s ∈ snapshots, s.listingId ∉ listings.map (·.listingId)) ∨
        ∃ a ∈ snapshots, ∃ b ∈ snapshots,
          a.listingId = b.listingId ∧ a.snapshotAt = b.snapshotAt ∧ a ≠ b := by
  constructor
  · intro refused
    by_contra! none_wrong
    obtain ⟨own, distinct, known, agreeing⟩ := none_wrong
    exact refused ⟨notBlank, own, distinct, known, fun a ha b hb key =>
      agreeing a ha b hb (congrArg Prod.fst key) (congrArg Prod.snd key)⟩
  · rintro (⟨l, mem, foreign⟩ | repeated | ⟨s, mem, unknown⟩ | ⟨a, ha, b, hb, id, instant, differ⟩) accepted
    · exact foreign (accepted.own l mem)
    · exact repeated accepted.distinct
    · exact unknown (accepted.known s mem)
    · exact differ (accepted.agreeing a ha b hb (Prod.ext id instant))

/-- One outcome of two deliveries of one set. -/
theorem toOption_compute_congr (perm : listings.Perm listings') (same : ∀ s, s ∈ snapshots ↔ s ∈ snapshots') :
    (computeCommunityListingMetrics listings snapshots communityId minimum).toOption =
      (computeCommunityListingMetrics listings' snapshots' communityId minimum).toOption := by
  cases outcome : computeCommunityListingMetrics listings snapshots communityId minimum with
  | ok metrics =>
      obtain ⟨enough, accepted⟩ := accepted_of_compute outcome
      rw [← compute_congr accepted enough perm same, outcome]
  | error e =>
      cases outcome' : computeCommunityListingMetrics listings' snapshots' communityId minimum with
      | error e' => rfl
      | ok metrics =>
          obtain ⟨enough, accepted⟩ := accepted_of_compute outcome'
          rw [compute_congr accepted enough perm.symm fun s => (same s).symm, outcome] at outcome'
          cases outcome'

/-- **Metrics of the set.** Over snapshots that are compared by their instants, listings in any
order with snapshots in any order and repetition make one outcome, and valid arguments raise over
four faults only. -/
theorem metrics_of_set :
    (∀ (listings listings' : List Listing) (snapshots snapshots' : List ListingSnapshot)
        (communityId : Str) (minimum : Int), ComparableAt snapshots → ComparableAt snapshots' →
      listings.Perm listings' → (∀ s, s ∈ snapshots.map (·.stored) ↔ s ∈ snapshots'.map (·.stored)) →
      (computeCommunityListingMetrics listings snapshots communityId minimum).toOption.map (·.stored) =
        (computeCommunityListingMetrics listings' snapshots' communityId minimum).toOption.map (·.stored)) ∧
    ∀ (listings : List Listing) (snapshots : List ListingSnapshot) (communityId : Str) (minimum : Int),
      ComparableAt snapshots → 1 ≤ minimum → communityId.strip ≠ [] → communityId.Encodable →
      ((∃ e, computeCommunityListingMetrics listings snapshots communityId minimum = .error e) ↔
        (∃ l ∈ listings, l.communityId ≠ communityId) ∨ ¬ (listings.map (·.listingId)).Nodup ∨
          (∃ s ∈ snapshots, s.listingId ∉ listings.map (·.listingId)) ∨
          ∃ a ∈ snapshots, ∃ b ∈ snapshots, a.listingId = b.listingId ∧
            a.snapshotAt.instant = b.snapshotAt.instant ∧ a.stored ≠ b.stored) := by
  constructor
  · intro listings listings' snapshots snapshots' communityId minimum comparable comparable' perm same
    rw [compute_stored listings comparable, compute_stored listings' comparable']
    exact toOption_compute_congr perm same
  · intro listings snapshots communityId minimum comparable enough notBlank text
    rw [compute_raises_iff_instants comparable, compute_raises_iff enough notBlank text, not_accepted_iff notBlank]
    simp only [List.mem_map, exists_exists_and_eq_and]
    rfl

end

/-- The listing of the samples in the repeated hour. -/
def repeatedSnapshot (minute : Fin 60) (fold : Bool) (price : Nat)
    (valid : (sampleSnapshotFields (str "lst-1") (repeatedHour minute fold) .active price).errors = []) :
    ListingSnapshot := ⟨_, valid⟩

/-- The same at the second half past one, on the clock of UTC. -/
def repeatedSnapshotUtc (price : Nat)
    (valid : (sampleSnapshotFields (str "lst-1") halfPastUtc .active price).errors = []) :
    ListingSnapshot := ⟨_, valid⟩

/-- One instant, written on a clock that shows its reading twice and in UTC, is two instants to the
metrics: a repetition counts twice, and a conflict is none. -/
theorem repeated_reading_is_another_instant : let _ := sampleRuntime
    (¬ ∀ (listings listings' : List Listing) (snapshots snapshots' : List ListingSnapshot)
        (communityId : Str) (minimum : Int), listings.Perm listings' →
      (∀ s, s ∈ snapshots.map (·.stored) ↔ s ∈ snapshots'.map (·.stored)) →
      (computeCommunityListingMetrics listings snapshots communityId minimum).toOption.map (·.stored) =
        (computeCommunityListingMetrics listings' snapshots' communityId minimum).toOption.map (·.stored)) ∧
    ¬ ∀ (listings : List Listing) (snapshots : List ListingSnapshot) (communityId : Str) (minimum : Int),
      1 ≤ minimum → communityId.strip ≠ [] → communityId.Encodable →
      ((∃ e, computeCommunityListingMetrics listings snapshots communityId minimum = .error e) ↔
        (∃ l ∈ listings, l.communityId ≠ communityId) ∨ ¬ (listings.map (·.listingId)).Nodup ∨
          (∃ s ∈ snapshots, s.listingId ∉ listings.map (·.listingId)) ∨
          ∃ a ∈ snapshots, ∃ b ∈ snapshots, a.listingId = b.listingId ∧
            a.snapshotAt.instant = b.snapshotAt.instant ∧ a.stored ≠ b.stored) := by
  intro _
  have again : (repeatedSnapshotUtc 3000000 rfl).stored = (repeatedSnapshot 30 true 3000000 rfl).stored := by
    decide +kernel
  constructor
  · intro ofSet
    have same := ofSet [seenActive.listing] [seenActive.listing] [repeatedSnapshot 30 true 3000000 rfl]
      [repeatedSnapshot 30 true 3000000 rfl, repeatedSnapshotUtc 3000000 rfl] (str "cm-a") 1 (List.Perm.refl _)
      (by simp [again])
    exact absurd (congrArg (Option.map (·.snapshotCount)) same) (by decide +kernel)
  · intro refuses
    obtain ⟨e, raised⟩ := (refuses [seenActive.listing]
      [repeatedSnapshot 30 true 3000000 rfl, repeatedSnapshotUtc 2900000 rfl] (str "cm-a") 1 le_rfl
      (by decide +kernel) (encodable_str _)).mpr (Or.inr (Or.inr (Or.inr
        ⟨_, List.mem_cons_self, _, List.mem_cons_of_mem _ (List.mem_singleton_self _), by decide +kernel⟩)))
    have refused := congrArg Except.isOk raised
    change _ = false at refused
    exact absurd refused (by decide +kernel)

/-- The first snapshot of the samples, on a clock eight hours ahead. -/
def seenActiveEast : ListingSnapshot :=
  ⟨sampleSnapshotFields (str "lst-1") firstDayEast .active 3000000, rfl⟩

theorem seenActiveEast_stored : seenActiveEast.stored = seenActive.snapshot.stored := by decide +kernel

/-- Two snapshots, delivered again in another order and with another offset, and a foreign listing. -/
theorem metrics_of_set_delivered_again : let _ := sampleRuntime
    (computeCommunityListingMetrics [seenActive.listing] [seenActive.snapshot, seenSold.snapshot]
        (str "cm-a") 1).toOption.map (·.stored) =
      (computeCommunityListingMetrics [seenActive.listing]
        [seenSold.snapshot, seenActiveEast, seenSold.snapshot] (str "cm-a") 1).toOption.map (·.stored) ∧
    ∃ e, computeCommunityListingMetrics [claimedByB.listing] ([] : List ListingSnapshot) (str "cm-a") 1 =
      .error e := by
  intro _
  constructor
  · apply metrics_of_set.1 _ _ _ _ _ _ ?_ ?_ (List.Perm.refl _)
    · intro s
      simp only [List.map_cons, List.map_nil, List.mem_cons, List.not_mem_nil, or_false, seenActiveEast_stored]
      constructor
      · rintro (rfl | rfl)
        · exact Or.inr (Or.inl rfl)
        · exact Or.inl rfl
      · rintro (rfl | rfl | rfl)
        · exact Or.inr rfl
        · exact Or.inl rfl
        · exact Or.inr rfl
    · exact AwareDatetime.Fixed.comparable (by decide +kernel)
    · exact AwareDatetime.Fixed.comparable (by decide +kernel)
  · refine (metrics_of_set.2 _ _ _ _ (by decide +kernel) le_rfl (by decide +kernel)
      (encodable_str _)).mpr (Or.inl ?_)
    exact ⟨claimedByB.listing, List.mem_singleton_self _, by decide +kernel⟩

/-! ### The ends of a history -/

section

variable [Runtime]

/-- Two histories that the metrics compare alike: with the same ends, and both of one
snapshot or both of more. -/
structure SameEnds (a b : List (ListingSnapshot Instant)) : Prop where
  first : a[0]? = b[0]?
  last : a.getLast? = b.getLast?
  repriced : 1 < a.length ↔ 1 < b.length

omit [Runtime] in
theorem SameEnds.lastItem {a b : List (ListingSnapshot Instant)} (h : SameEnds a b) :
    lastItem b = lastItem a := by
  rw [CnPropertyAgent.lastItem, CnPropertyAgent.lastItem, h.last]

theorem SameEnds.priceChangeRatio {a b : List (ListingSnapshot Instant)} (h : SameEnds a b) :
    priceChangeRatio b = priceChangeRatio a := by
  rw [ListingMetrics.priceChangeRatio, ListingMetrics.priceChangeRatio, item, item, h.first, h.lastItem]

omit [Runtime] in
/-- The snapshot count is checked against zero alone. -/
theorem validate_snapshotCount {fields : CommunityListingMetricsFields Instant}
    {metrics : CommunityListingMetrics Instant} (validated : fields.validate = .ok metrics) (count : Nat) :
    ∃ metrics', { fields with snapshotCount := count }.validate = .ok metrics' ∧
      metrics'.toCommunityListingMetricsFields =
        { metrics.toCommunityListingMetricsFields with snapshotCount := count } := by
  have same := CommunityListingMetricsFields.eq_of_validate validated
  have valid := metrics.valid
  rw [same] at valid
  refine ⟨⟨{ fields with snapshotCount := count }, ?_⟩, dif_pos _, ?_⟩
  · simp only [CommunityListingMetricsFields.errors, List.append_eq_nil_iff, checkAtLeast_eq_nil,
      and_assoc] at valid ⊢
    exact ⟨valid.1, valid.2.1, valid.2.2.1, Int.natCast_nonneg count, valid.2.2.2.2⟩
  · rw [same]

/-- Histories with the same ends have the same metrics but for the snapshot count. -/
theorem summarize_of_ends {metrics : CommunityListingMetrics Instant}
    {f : Str × List (ListingSnapshot Instant) → Str × List (ListingSnapshot Instant)}
    (ends : ∀ entry ∈ history, SameEnds entry.2 (f entry).2)
    (summarized : summarize communityId minimum identities history = .ok metrics) :
    ∃ metrics', summarize communityId minimum identities (history.map f) = .ok metrics' ∧
      metrics'.toCommunityListingMetricsFields =
        { metrics.toCommunityListingMetricsFields with
          snapshotCount := ((history.map fun entry => (f entry).2.length).sum : Nat) } := by
  obtain ⟨latest, hlatest, summarized⟩ := eq_ok_of_bind summarized
  obtain ⟨changes, hchanges, summarized⟩ := eq_ok_of_bind summarized
  obtain ⟨prices, hprices, summarized⟩ := eq_ok_of_bind summarized
  obtain ⟨unitPrices, hunitPrices, summarized⟩ := eq_ok_of_bind summarized
  obtain ⟨ratios, hratios, validated⟩ := eq_ok_of_bind summarized
  have latest_same : (history.map f).mapM (fun entry => lastItem entry.2) = .ok latest := by
    rw [mapM_eq_ok_iff] at hlatest ⊢
    rw [← hlatest, List.map_map]
    exact List.map_congr_left fun entry mem => (ends entry mem).lastItem
  have changes_same : ((history.map f).filter fun entry => entry.2.length > 1).mapM
      (fun entry => priceChangeRatio entry.2) = .ok changes := by
    have kept : (history.filter fun entry => (f entry).2.length > 1) =
        history.filter fun entry => entry.2.length > 1 :=
      List.filter_congr fun entry mem => decide_eq_decide.mpr (ends entry mem).repriced.symm
    rw [List.filter_map, Function.comp_def, kept]
    rw [mapM_eq_ok_iff] at hchanges ⊢
    rw [← hchanges, List.map_map]
    exact List.map_congr_left fun entry mem => (ends entry (List.mem_of_mem_filter mem)).priceChangeRatio
  obtain ⟨metrics', validated', fields⟩ :=
    validate_snapshotCount validated (history.map fun entry => (f entry).2.length).sum
  refine ⟨metrics', ?_, fields⟩
  rw [← validated']
  simp only [summarize, latest_same, changes_same, hprices, hunitPrices, hratios, bind, Except.bind,
    List.length_map, List.map_map, Function.comp_def]

end

/-! ### Intermediate snapshots -/

/-- A history with one more snapshot, after the earlier ones and before the later ones. -/
def insertBetween (s : ListingSnapshot Instant) (history : List (ListingSnapshot Instant)) :
    List (ListingSnapshot Instant) :=
  (history.filter fun x => x.snapshotAt < s.snapshotAt) ++
    s :: history.filter fun x => s.snapshotAt < x.snapshotAt

/-- The histories with one more snapshot, in that of its listing. -/
def insertInto (s : ListingSnapshot Instant) (entry : Str × List (ListingSnapshot Instant)) :
    Str × List (ListingSnapshot Instant) :=
  (entry.1, if entry.1 = s.listingId then insertBetween s entry.2 else entry.2)

section

variable {s : ListingSnapshot Instant} {one : List (ListingSnapshot Instant)}

theorem mem_insertBetween (new : ∀ x ∈ one, x.snapshotAt ≠ s.snapshotAt) {x : ListingSnapshot Instant} :
    x ∈ insertBetween s one ↔ x = s ∨ x ∈ one := by
  simp only [insertBetween, List.mem_append, List.mem_cons, List.mem_filter, decide_eq_true_eq]
  constructor
  · rintro (⟨mem, -⟩ | rfl | ⟨mem, -⟩)
    · exact Or.inr mem
    · exact Or.inl rfl
    · exact Or.inr mem
  · rintro (rfl | mem)
    · exact Or.inr (Or.inl rfl)
    · rcases lt_or_gt_of_ne (new x mem) with before | after
      · exact Or.inl ⟨mem, before⟩
      · exact Or.inr (Or.inr ⟨mem, after⟩)

theorem pairwise_insertBetween (sorted : one.Pairwise fun a b => a.snapshotAt < b.snapshotAt) :
    (insertBetween s one).Pairwise fun a b => a.snapshotAt < b.snapshotAt := by
  refine List.pairwise_append.mpr ⟨sorted.filter _, List.pairwise_cons.mpr ⟨?_, sorted.filter _⟩, ?_⟩
  · intro x mem
    exact of_decide_eq_true (List.mem_filter.mp mem).2
  · intro a ha b hb
    have before : a.snapshotAt < s.snapshotAt := of_decide_eq_true (List.mem_filter.mp ha).2
    rcases List.mem_cons.mp hb with rfl | hb
    · exact before
    · exact before.trans (of_decide_eq_true (List.mem_filter.mp hb).2)

/-- A snapshot between the two ends moves neither. -/
theorem sameEnds_insertBetween (sorted : one.Pairwise fun a b => a.snapshotAt < b.snapshotAt)
    (new : ∀ x ∈ one, x.snapshotAt ≠ s.snapshotAt)
    {a b : ListingSnapshot Instant} (ha : a ∈ one) (before : a.snapshotAt < s.snapshotAt) (hb : b ∈ one)
    (after : s.snapshotAt < b.snapshotAt) : SameEnds one (insertBetween s one) := by
  have halves : one = (one.filter fun x => x.snapshotAt < s.snapshotAt) ++
      one.filter fun x => s.snapshotAt < x.snapshotAt := by
    apply eq_of_pairwise_lt sorted
    · refine List.pairwise_append.mpr ⟨sorted.filter _, sorted.filter _, ?_⟩
      intro x hx y hy
      exact (of_decide_eq_true (List.mem_filter.mp hx).2 : x.snapshotAt < s.snapshotAt).trans
        (of_decide_eq_true (List.mem_filter.mp hy).2)
    · intro x
      simp only [List.mem_append, List.mem_filter, decide_eq_true_eq, ← and_or_left]
      exact ⟨fun mem => ⟨mem, lt_or_gt_of_ne (new x mem)⟩, fun h => h.1⟩
  have early : a ∈ one.filter fun x => x.snapshotAt < s.snapshotAt :=
    List.mem_filter.mpr ⟨ha, decide_eq_true before⟩
  have late : b ∈ one.filter fun x => s.snapshotAt < x.snapshotAt :=
    List.mem_filter.mpr ⟨hb, decide_eq_true after⟩
  unfold insertBetween
  generalize (one.filter fun x => x.snapshotAt < s.snapshotAt) = earlier at halves early
  generalize (one.filter fun x => s.snapshotAt < x.snapshotAt) = later at halves late
  obtain ⟨x, earlier, rfl⟩ := List.exists_cons_of_ne_nil (List.ne_nil_of_mem early)
  obtain ⟨y, later, rfl⟩ := List.exists_cons_of_ne_nil (List.ne_nil_of_mem late)
  subst halves
  refine ⟨rfl, ?_, ?_⟩
  · rw [List.getLast?_append, List.getLast?_append, List.getLast?_cons_cons]
  · simp

end

/-- The histories of one more snapshot. -/
theorem HistoryOf.insert (h : HistoryOf snapshots history) {s : ListingSnapshot Instant}
    (observed : ∃ x ∈ snapshots, x.listingId = s.listingId)
    (new : ∀ x ∈ snapshots, x.listingId = s.listingId → x.snapshotAt ≠ s.snapshotAt) :
    HistoryOf (s :: snapshots) (history.map (insertInto s)) := by
  have fresh : ∀ entry ∈ history, entry.1 = s.listingId →
      ∀ x ∈ entry.2, x.snapshotAt ≠ s.snapshotAt := by
    intro entry mem same x hx
    obtain ⟨inS, id⟩ := (h.mem_iff entry mem x).mp hx
    exact new x inS (id.trans same)
  refine ⟨?_, ?_, ?_, ?_, ?_⟩
  · rw [List.pairwise_map]
    exact h.ids_sorted
  · intro _ inserted
    obtain ⟨entry, mem, rfl⟩ := List.mem_map.mp inserted
    unfold insertInto
    split_ifs
    · exact pairwise_insertBetween (h.sorted entry mem)
    · exact h.sorted entry mem
  · intro _ inserted
    obtain ⟨entry, mem, rfl⟩ := List.mem_map.mp inserted
    unfold insertInto
    split_ifs
    · simp [insertBetween]
    · exact h.nonempty entry mem
  · intro _ inserted x
    obtain ⟨entry, mem, rfl⟩ := List.mem_map.mp inserted
    simp only [insertInto, List.mem_cons, or_and_right]
    split_ifs with same
    · rw [mem_insertBetween (fresh entry mem same), h.mem_iff entry mem]
      refine or_congr_left ⟨fun eq => ⟨eq, ?_⟩, fun both => both.1⟩
      rw [eq, same]
    · rw [h.mem_iff entry mem]
      refine ⟨Or.inr, fun either => either.resolve_left ?_⟩
      rintro ⟨rfl, id⟩
      exact same id.symm
  · intro x mem
    have entered : ∃ entry ∈ history, entry.1 = x.listingId := by
      rcases List.mem_cons.mp mem with rfl | mem
      · obtain ⟨y, hy, id⟩ := observed
        rw [← id]
        exact h.covers y hy
      · exact h.covers x mem
    obtain ⟨entry, mem, id⟩ := entered
    exact ⟨insertInto s entry, List.mem_map_of_mem mem, id⟩

/-- The histories of a set are those of any list of its members. -/
theorem HistoryOf.congr (h : HistoryOf snapshots history) (same : ∀ s, s ∈ snapshots ↔ s ∈ snapshots') :
    HistoryOf snapshots' history where
  ids_sorted := h.ids_sorted
  sorted := h.sorted
  nonempty := h.nonempty
  mem_iff entry mem s := by rw [h.mem_iff entry mem, same]
  covers s mem := h.covers s ((same s).mpr mem)

/-- The snapshots counted are the distinct ones. -/
theorem HistoryOf.length_firstOccurrences (h : HistoryOf snapshots history) :
    (history.map fun entry => entry.2.length).sum = (firstOccurrences snapshots).length :=
  (h.congr fun _ => mem_firstOccurrences.symm).snapshotCount (nodup_firstOccurrences snapshots)

/-- A snapshot between two of its listing moves the ends of no history. -/
theorem HistoryOf.sameEnds_insertInto (h : HistoryOf snapshots history) {s first last : ListingSnapshot Instant}
    (hfirst : first ∈ snapshots) (hlast : last ∈ snapshots)
    (firstId : first.listingId = s.listingId) (lastId : last.listingId = s.listingId)
    (later : first.snapshotAt < s.snapshotAt) (earlier : s.snapshotAt < last.snapshotAt)
    (new : ∀ x ∈ snapshots, x.listingId = s.listingId → x.snapshotAt ≠ s.snapshotAt) :
    ∀ entry ∈ history, SameEnds entry.2 (insertInto s entry).2 := by
  intro entry mem
  unfold insertInto
  split_ifs with same
  · have member {x : ListingSnapshot Instant} (hx : x ∈ snapshots) (id : x.listingId = s.listingId) :
        x ∈ entry.2 := (h.mem_iff entry mem x).mpr ⟨hx, id.trans same.symm⟩
    refine sameEnds_insertBetween (h.sorted entry mem) ?_ (member hfirst firstId) later
      (member hlast lastId) earlier
    intro x hx
    obtain ⟨inS, id⟩ := (h.mem_iff entry mem x).mp hx
    exact new x inS (id.trans same)
  · exact ⟨rfl, rfl, Iff.rfl⟩

/-- It is one more snapshot in all. -/
theorem HistoryOf.length_insertInto (h : HistoryOf snapshots history) {s x : ListingSnapshot Instant}
    (observed : x ∈ snapshots) (id : x.listingId = s.listingId)
    (new : ∀ x ∈ snapshots, x.listingId = s.listingId → x.snapshotAt ≠ s.snapshotAt) :
    (history.map fun entry => (insertInto s entry).2.length).sum = (firstOccurrences snapshots).length + 1 := by
  have distinct := (h.congr fun _ => mem_firstOccurrences.symm).insert
    ⟨x, mem_firstOccurrences.mpr observed, id⟩ fun y mem => new y (mem_firstOccurrences.mp mem)
  have absent : s ∉ firstOccurrences snapshots := by
    intro mem
    exact new s (mem_firstOccurrences.mp mem) rfl rfl
  have counted := distinct.snapshotCount (List.nodup_cons.mpr ⟨absent, nodup_firstOccurrences _⟩)
  rwa [List.map_map] at counted

/-- A snapshot between two of its listing can be added to accepted evidence. -/
theorem Accepted.insert (accepted : Accepted communityId listings snapshots) {s x : ListingSnapshot Instant}
    (observed : x ∈ snapshots) (id : x.listingId = s.listingId)
    (new : ∀ x ∈ snapshots, x.listingId = s.listingId → x.snapshotAt ≠ s.snapshotAt) :
    Accepted communityId listings (s :: snapshots) where
  subject := accepted.subject
  own := accepted.own
  distinct := accepted.distinct
  known y mem := by
    rcases List.mem_cons.mp mem with rfl | mem
    · exact id ▸ accepted.known x observed
    · exact accepted.known y mem
  agreeing a ha b hb key := by
    rcases List.mem_cons.mp ha with ha | ha <;> rcases List.mem_cons.mp hb with hb | hb
    · rw [ha, hb]
    · rw [ha] at key
      exact absurd (congrArg Prod.snd key).symm (new b hb (congrArg Prod.fst key).symm)
    · rw [hb] at key
      exact absurd (congrArg Prod.snd key) (new a ha (congrArg Prod.fst key))
    · exact accepted.agreeing a ha b hb key

section

variable [Runtime]

theorem snapshotCount_of_summarize {metrics : CommunityListingMetrics Instant}
    (summarized : summarize communityId minimum identities history = .ok metrics) :
    metrics.snapshotCount = ((history.map fun entry => entry.2.length).sum : Nat) := by
  obtain ⟨latest, -, summarized⟩ := eq_ok_of_bind summarized
  obtain ⟨changes, -, summarized⟩ := eq_ok_of_bind summarized
  obtain ⟨prices, -, summarized⟩ := eq_ok_of_bind summarized
  obtain ⟨unitPrices, -, summarized⟩ := eq_ok_of_bind summarized
  obtain ⟨ratios, -, validated⟩ := eq_ok_of_bind summarized
  rw [CommunityListingMetricsFields.eq_of_validate validated]

/-- A snapshot strictly between two of its listing, at an instant without one, adds one to the
count of the snapshots and changes nothing else. -/
theorem compute_insert {before after : List (ListingSnapshot Instant)}
    {metrics : CommunityListingMetrics Instant}
    (computed : computeCommunityListingMetrics listings (before ++ after) communityId minimum = .ok metrics)
    {s first last : ListingSnapshot Instant} (hfirst : first ∈ before ++ after) (hlast : last ∈ before ++ after)
    (firstId : first.listingId = s.listingId) (lastId : last.listingId = s.listingId)
    (later : first.snapshotAt < s.snapshotAt) (earlier : s.snapshotAt < last.snapshotAt)
    (new : ∀ x ∈ before ++ after, x.listingId = s.listingId → x.snapshotAt ≠ s.snapshotAt) :
    ∃ metrics', computeCommunityListingMetrics listings (before ++ s :: after) communityId minimum =
        .ok metrics' ∧
      metrics'.toCommunityListingMetricsFields =
        { metrics.toCommunityListingMetricsFields with snapshotCount := metrics.snapshotCount + 1 } := by
  obtain ⟨enough, accepted⟩ := accepted_of_compute computed
  obtain ⟨identities, history, keys, histories, summarized⟩ := compute_of_accepted accepted enough
  rw [computed] at summarized
  have inserted : Accepted communityId listings (s :: (before ++ after)) :=
    accepted.insert hfirst firstId new
  obtain ⟨identities', history', keys', histories', computed'⟩ := compute_of_accepted inserted enough
  have history_eq : history' = history.map (insertInto s) :=
    histories'.unique (histories.insert ⟨first, hfirst, firstId⟩ new) fun _ => Iff.rfl
  have ends := histories.sameEnds_insertInto hfirst hlast firstId lastId later earlier new
  obtain ⟨metrics', summarized', fields⟩ := summarize_of_ends ends summarized.symm
  refine ⟨metrics', ?_, ?_⟩
  · have moved : ∀ x, x ∈ s :: (before ++ after) ↔ x ∈ before ++ s :: after := fun x =>
      List.perm_middle.symm.mem_iff
    rw [← compute_congr inserted enough (List.Perm.refl listings) moved, computed', history_eq,
      ← summarized']
    exact summarize_congr fun id => by rw [keys, keys']
  · rw [fields, snapshotCount_of_summarize summarized.symm, histories.length_firstOccurrences,
      histories.length_insertInto hfirst firstId new]
    rfl

/-- **Intermediate observations.** Over snapshots that are compared by their instants, one strictly
between two of its listing, at an instant without one, adds one to the snapshot count and changes
nothing else. -/
theorem intermediate_snapshot (listings : List Listing) (before after : List ListingSnapshot)
    (communityId : Str) (minimum : Int) (metrics : CommunityListingMetrics)
    (computed : computeCommunityListingMetrics listings (before ++ after) communityId minimum = .ok metrics)
    (s first last : ListingSnapshot) (comparable : ComparableAt (before ++ s :: after))
    (hfirst : first ∈ before ++ after) (hlast : last ∈ before ++ after)
    (firstId : first.listingId = s.listingId) (lastId : last.listingId = s.listingId)
    (later : first.snapshotAt.instant < s.snapshotAt.instant)
    (earlier : s.snapshotAt.instant < last.snapshotAt.instant)
    (new : ∀ x ∈ before ++ after, x.listingId = s.listingId → x.snapshotAt.instant ≠ s.snapshotAt.instant) :
    ∃ metrics', computeCommunityListingMetrics listings (before ++ s :: after) communityId minimum =
        .ok metrics' ∧
      metrics'.stored.toCommunityListingMetricsFields =
        { metrics.stored.toCommunityListingMetricsFields with snapshotCount := metrics.snapshotCount + 1 } := by
  have fewer : before ++ after ⊆ before ++ s :: after :=
    (List.sublist_cons_self s after).append_left before |>.subset
  have instants := compute_instants_of_ok (comparable.of_subset fewer) computed
  have stored {x : ListingSnapshot} (mem : x ∈ before ++ after) :
      x.stored ∈ before.map (·.stored) ++ after.map (·.stored) := List.map_append ▸ List.mem_map_of_mem mem
  have fresh : ∀ x ∈ before.map (·.stored) ++ after.map (·.stored), x.listingId = s.stored.listingId →
      x.snapshotAt ≠ s.stored.snapshotAt := by
    rw [← List.map_append, List.forall_mem_map]
    exact new
  rw [List.map_append] at instants
  obtain ⟨_, inserted, fields⟩ :=
    compute_insert (s := s.stored) instants (stored hfirst) (stored hlast) firstId lastId later earlier fresh
  rw [← List.map_cons, ← List.map_append] at inserted
  obtain ⟨metrics', computed', rfl⟩ := exists_compute_of_instants comparable inserted
  exact ⟨metrics', computed', fields⟩

end

/-- The listing of the samples on its third day. -/
def seenThirdDay : ListingSnapshot :=
  ⟨sampleSnapshotFields (str "lst-1") thirdDay .active 2800000, rfl⟩

/-- The second half past one of a clock turned back, seen between the first one and a quarter of an
hour later, contradicts the first one. -/
theorem repeated_reading_conflicts : let _ := sampleRuntime
    ¬ ∀ (listings : List Listing) (before after : List ListingSnapshot) (communityId : Str) (minimum : Int)
      (metrics : CommunityListingMetrics),
      computeCommunityListingMetrics listings (before ++ after) communityId minimum = .ok metrics →
      ∀ s first last : ListingSnapshot, first ∈ before ++ after → last ∈ before ++ after →
        first.listingId = s.listingId → last.listingId = s.listingId →
        first.snapshotAt.instant < s.snapshotAt.instant → s.snapshotAt.instant < last.snapshotAt.instant →
        (∀ x ∈ before ++ after, x.listingId = s.listingId → x.snapshotAt.instant ≠ s.snapshotAt.instant) →
        ∃ metrics', computeCommunityListingMetrics listings (before ++ s :: after) communityId minimum =
            .ok metrics' ∧
          metrics'.stored.toCommunityListingMetricsFields =
            { metrics.stored.toCommunityListingMetricsFields with snapshotCount := metrics.snapshotCount + 1 } := by
  intro _ adds
  obtain ⟨metrics, computed⟩ := exists_eq_ok (x := computeCommunityListingMetrics [seenActive.listing]
    [repeatedSnapshot 30 false 3000000 rfl, repeatedSnapshot 45 true 2800000 rfl] (str "cm-a") 1)
    (by decide +kernel)
  obtain ⟨metrics', computed', -⟩ := adds [seenActive.listing] [repeatedSnapshot 30 false 3000000 rfl]
    [repeatedSnapshot 45 true 2800000 rfl] (str "cm-a") 1 metrics computed (repeatedSnapshot 30 true 2900000 rfl)
    (repeatedSnapshot 30 false 3000000 rfl) (repeatedSnapshot 45 true 2800000 rfl) (by simp) (by simp) rfl rfl
    (by decide +kernel) (by decide +kernel) (by decide +kernel)
  have accepted := congrArg Except.isOk computed'
  change _ = true at accepted
  exact absurd accepted (by decide +kernel)

/-- A snapshot of the second day, between those of the first and the third. -/
theorem intermediate_snapshot_second_day : let _ := sampleRuntime
    ∃ metrics metrics',
      computeCommunityListingMetrics [seenActive.listing] [seenActive.snapshot, seenThirdDay] (str "cm-a") 1 =
        .ok metrics ∧
      computeCommunityListingMetrics [seenActive.listing]
        [seenActive.snapshot, seenSold.snapshot, seenThirdDay] (str "cm-a") 1 = .ok metrics' ∧
      metrics'.stored.toCommunityListingMetricsFields =
        { metrics.stored.toCommunityListingMetricsFields with snapshotCount := metrics.snapshotCount + 1 } := by
  intro _
  obtain ⟨metrics, computed⟩ := exists_eq_ok (x := computeCommunityListingMetrics [seenActive.listing]
    [seenActive.snapshot, seenThirdDay] (str "cm-a") 1) (by decide +kernel)
  obtain ⟨metrics', computed', fields⟩ := intermediate_snapshot [seenActive.listing] [seenActive.snapshot]
    [seenThirdDay] (str "cm-a") 1 metrics computed seenSold.snapshot seenActive.snapshot seenThirdDay
    (by decide +kernel) (by simp) (by simp) rfl rfl (by decide +kernel) (by decide +kernel) (by decide +kernel)
  exact ⟨metrics, metrics', computed, computed', fields⟩

end ListingMetrics

end CnPropertyAgent
