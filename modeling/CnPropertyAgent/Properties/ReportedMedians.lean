import CnPropertyAgent.Properties.InventoryCounts
import CnPropertyAgent.Properties.TransactionSamples
import CnPropertyAgent.Python.Median
import CnPropertyAgent.Services.CommunityEvidence

/-!
The medians that the market evidence reports.

A median is reported exactly when enough records carry the field, and then at least half of
these records are on either side of it. What the samples are is read off the store: the
transactions of the community, the latest snapshots of its active listings, and the moves
between the first and the latest price of the listings seen at two instants.
-/

namespace CnPropertyAgent

open Python Relational

/-! ### One median -/

/-- What a metric says of the sample it was taken from. -/
structure Reports [Runtime] (sample : List Double) (minimum : Int) (metric : MedianMetric) : Prop where
  usableCount : metric.usableCount = sample.length
  given : metric.value.isSome = true ↔ minimum ≤ sample.length
  splits : ∀ value, metric.value = some value → (∀ x ∈ sample, x.Moderate) → Splits Double.le sample value

section

variable [MonotoneRuntime]

/-- **The median** splits its sample. -/
theorem median_splits {values : List Double} (moderate : ∀ x ∈ values, x.Moderate) {v : Double}
    (middle : median values = .ok v) : Splits Double.le values v := by
  have perm := Runtime.perm_sorted values
  have kept : ∀ x ∈ Runtime.sorted values, x.Moderate := fun x mem => moderate x (perm.mem_iff.mp mem)
  have sorted := Runtime.pairwise_sorted values fun x mem => (moderate x mem).ne_nan
  have self : ∀ x ∈ Runtime.sorted values, x.le x = true := fun x mem => Double.le_self (kept x mem).ne_nan
  refine Splits.congr ?_ perm
  unfold median at middle
  generalize Runtime.sorted values = data at middle kept sorted self
  dsimp only at middle
  split_ifs at middle with empty odd
  · cases middle
  · have inside : data.length / 2 < data.length := by omega
    rw [item_ok inside] at middle
    cases middle
    have here := self _ (List.getElem_mem inside)
    exact splits_of_between sorted self (fun a b c => Double.le_trans) inside inside (by omega) (by omega) here here
  · have low : data.length / 2 - 1 < data.length := by omega
    have high : data.length / 2 < data.length := by omega
    rw [item_ok low, item_ok high] at middle
    have half := TransactionMetrics.liftM_eq_ok.mp middle
    obtain ⟨lower, upper⟩ := Double.half_sum_between (kept _ (List.getElem_mem low))
      (kept _ (List.getElem_mem high)) (rel_getElem_of_le sorted self low high (Nat.sub_le _ _)) half
    exact splits_of_between sorted self (fun a b c => Double.le_trans) low high (by omega) (by omega) lower upper

theorem medianMetric_reports {sample : List Double} {minimum : Int} {metric : MedianMetric}
    (computed : medianMetric sample minimum = .ok metric) : Reports sample minimum metric := by
  have spec := ListingMetrics.medianMetric_spec computed
  refine ⟨spec.1, spec.1 ▸ spec.2, ?_⟩
  intro value reported moderate
  unfold medianMetric at computed
  split_ifs at computed with few
  · cases computed
    cases reported
  · cases middle : median sample with
    | error e =>
        rw [middle] at computed
        cases computed
    | ok v =>
        rw [middle] at computed
        cases computed
        cases reported
        exact median_splits moderate middle

end

/-! ### The medians of the transactions -/

namespace TransactionMetrics

/-- What the medians say of the transactions. -/
structure MediansReported [Runtime] (transactions : List Transaction) (minimum : Int)
    (metrics : CommunityTransactionMetrics) : Prop where
  unitPrices : Reports (transactions.map (·.unitPriceCnySqm)) minimum metrics.medianUnitPriceCnySqm
  dealPrices : Reports (transactions.map (·.dealPriceCny)) minimum metrics.medianDealPriceCny
  daysOnMarket : ∃ days, DaysOf transactions days ∧ Reports days minimum metrics.medianDaysOnMarketDays
  discounts : ∃ discounts, DiscountsOf transactions discounts ∧
    Reports discounts minimum metrics.medianNegotiationDiscount

theorem medians_reported [MonotoneRuntime] {transactions : List Transaction} {communityId : Str} {minimum : Int}
    {metrics : CommunityTransactionMetrics}
    (computed : computeCommunityTransactionMetrics transactions communityId minimum = .ok metrics) :
    MediansReported transactions minimum metrics := by
  have sampled := (accepted_of_compute computed).2
  obtain ⟨days, ofDays, onMarket⟩ := sampled.medianDaysOnMarketDays
  obtain ⟨discounts, ofDiscounts, discount⟩ := sampled.medianNegotiationDiscount
  exact ⟨medianMetric_reports sampled.medianUnitPriceCnySqm, medianMetric_reports sampled.medianDealPriceCny,
    ⟨days, ofDays, medianMetric_reports onMarket⟩, discounts, ofDiscounts, medianMetric_reports discount⟩

end TransactionMetrics

/-! ### The medians of the listings -/

namespace ListingMetrics

/-- The ends of the histories of more than one snapshot: each with its earliest and its latest. -/
structure EndsOf (snapshots : List (ListingSnapshot Instant))
    (ends : List (ListingSnapshot Instant × ListingSnapshot Instant)) : Prop where
  once : (ends.map (·.1.listingId)).Nodup
  member : ∀ first last, (first, last) ∈ ends ↔ first.listingId = last.listingId ∧
    IsEarliest snapshots first ∧ IsLatest snapshots last ∧ first.snapshotAt < last.snapshotAt

section

variable {snapshots : List (ListingSnapshot Instant)} {history : List (Str × List (ListingSnapshot Instant))}

/-- The first and the last of a history. -/
def endsOf (entry : Str × List (ListingSnapshot Instant)) :
    Option (ListingSnapshot Instant × ListingSnapshot Instant) :=
  match entry.2[0]?, entry.2.getLast? with
  | some first, some last => some (first, last)
  | _, _ => none

theorem Ends.endsOf_eq {entry : Str × List (ListingSnapshot Instant)} {first last : ListingSnapshot Instant}
    (ends : Ends snapshots entry first last) : endsOf entry = some (first, last) := by
  rw [endsOf, ends.head, ends.tail]

/-- The histories of more than one snapshot have the ends of the observable listings. -/
theorem HistoryOf.endsOf_several (h : HistoryOf snapshots history) (agreeing : Agreeing snapshots) :
    EndsOf snapshots ((history.filter fun entry => entry.2.length > 1).filterMap endsOf) := by
  have found : ∀ entry ∈ history.filter (fun entry => entry.2.length > 1),
      ∃ first last, Ends snapshots entry first last := by
    intro entry mem
    obtain ⟨mem, several⟩ := List.mem_filter.mp mem
    exact h.exists_ends mem (of_decide_eq_true several)
  constructor
  · have ids : ∀ entries : List (Str × List (ListingSnapshot Instant)),
        (∀ entry ∈ entries, ∃ first last, Ends snapshots entry first last) →
        (entries.filterMap ListingMetrics.endsOf).map (·.1.listingId) = entries.map Prod.fst := by
      intro entries all
      induction entries with
      | nil => rfl
      | cons entry entries ih =>
          obtain ⟨first, last, ends⟩ := all entry List.mem_cons_self
          rw [List.filterMap_cons_some ends.endsOf_eq, List.map_cons, List.map_cons, ends.firstId,
            ih fun e he => all e (List.mem_cons_of_mem _ he)]
    rw [ids _ found]
    have sorted : (history.map Prod.fst).Pairwise (· < ·) := List.pairwise_map.mpr h.ids_sorted
    exact (sorted.imp fun lt => ne_of_lt lt).sublist (List.filter_sublist.map _)
  · intro first last
    rw [List.mem_filterMap]
    constructor
    · rintro ⟨entry, mem, eq⟩
      obtain ⟨first', last', ends⟩ := found entry mem
      rw [ends.endsOf_eq] at eq
      cases eq
      exact ⟨ends.firstId.trans ends.lastId.symm, ends.earliest, ends.latest, ends.apart⟩
    · rintro ⟨same, earliest, latest, apart⟩
      obtain ⟨entry, mem, id⟩ := h.covers first earliest.1
      have several : 1 < entry.2.length := (h.observable_iff mem).mpr
        ⟨first, earliest.1, last, latest.1, id.symm, same.symm.trans id.symm, ne_of_lt apart⟩
      obtain ⟨first', last', ends⟩ := h.exists_ends mem several
      have firsts : first = first' := by
        have instant := le_antisymm (earliest.2 first' ends.earliest.1 (ends.firstId.trans id))
          (ends.earliest.2 first earliest.1 (id.symm.trans ends.firstId.symm))
        exact agreeing first earliest.1 first' ends.earliest.1 (Prod.ext (id.symm.trans ends.firstId.symm) instant)
      have lasts : last = last' := by
        have ids : last.listingId = last'.listingId := same.symm.trans (id.symm.trans ends.lastId.symm)
        have instant := le_antisymm (ends.latest.2 last latest.1 ids) (latest.2 last' ends.latest.1 ids.symm)
        exact agreeing last latest.1 last' ends.latest.1 (Prod.ext ids instant)
      rw [firsts, lasts]
      exact ⟨entry, List.mem_filter.mpr ⟨mem, decide_eq_true several⟩, ends.endsOf_eq⟩

end

section

variable [Runtime] {snapshots : List (ListingSnapshot Instant)}

/-- The move between the two ends, relative to the first. -/
def priceMove (ends : ListingSnapshot Instant × ListingSnapshot Instant) : Except Exc Double :=
  (ends.2.listPriceCny.sub ends.1.listPriceCny).div ends.1.listPriceCny

/-- The ratios of histories are the moves between their ends. -/
theorem mapM_priceChangeRatio {entries : List (Str × List (ListingSnapshot Instant))}
    (all : ∀ entry ∈ entries, ∃ first last, Ends snapshots entry first last) :
    entries.mapM (fun entry => priceChangeRatio entry.2) =
      (entries.filterMap endsOf).mapM fun ends => (liftM (priceMove ends) : Except Failure Double) := by
  induction entries with
  | nil => rfl
  | cons entry entries ih =>
      obtain ⟨first, last, ends⟩ := all entry List.mem_cons_self
      have ratio : priceChangeRatio entry.2 = liftM (priceMove (first, last)) := by
        rw [priceChangeRatio, item, lastItem, ends.head, ends.tail]
        rfl
      rw [List.filterMap_cons_some ends.endsOf_eq, List.mapM_cons, List.mapM_cons, ratio,
        ih fun e he => all e (List.mem_cons_of_mem _ he)]

/-- What the medians say of the snapshots. -/
structure MediansReported (snapshots : List (ListingSnapshot Instant)) (minimum : Int)
    (metrics : CommunityListingMetrics Instant) : Prop where
  active : ∃ latest, (latest.map (·.listingId)).Nodup ∧ (∀ s, s ∈ latest ↔ IsLatest snapshots s) ∧
    Reports ((activeOf latest).map (·.listPriceCny)) minimum metrics.medianActiveListPriceCny ∧
    Reports ((activeOf latest).filterMap (·.unitPriceCnySqm)) minimum metrics.medianActiveUnitPriceCnySqm
  moves : ∃ ends changes, EndsOf snapshots ends ∧
    ends.mapM (fun e => (liftM (priceMove e) : Except Failure Double)) = .ok changes ∧
    Reports changes minimum metrics.medianPriceChangeRatio

end

theorem medians_reported [MonotoneRuntime] {listings : List (Listing Instant)}
    {snapshots : List (ListingSnapshot Instant)} {communityId : Str} {minimum : Int}
    {metrics : CommunityListingMetrics Instant}
    (computed : computeCommunityListingMetrics listings snapshots communityId minimum = .ok metrics) :
    MediansReported snapshots minimum metrics := by
  obtain ⟨enough, accepted⟩ := accepted_of_compute computed
  obtain ⟨identities, history, -, h, summarized⟩ := compute_of_accepted accepted enough
  obtain ⟨latest, changes, hlatest, hchanges, tallied⟩ := tallied_of_summarize (summarized.symm.trans computed)
  obtain ⟨latest', hlatest', once, member⟩ := h.exists_latest
  cases hlatest.symm.trans hlatest'
  have several : ∀ entry ∈ history.filter (fun entry => entry.2.length > 1),
      ∃ first last, Ends snapshots entry first last := by
    intro entry mem
    obtain ⟨mem, several⟩ := List.mem_filter.mp mem
    exact h.exists_ends mem (of_decide_eq_true several)
  exact ⟨⟨latest, once, member, medianMetric_reports tallied.medianActiveListPriceCny,
      medianMetric_reports tallied.medianActiveUnitPriceCnySqm⟩,
    _, changes, h.endsOf_several accepted.agreeing, (mapM_priceChangeRatio several).symm.trans hchanges,
    medianMetric_reports tallied.medianPriceChangeRatio⟩

end ListingMetrics

/-! ### The evidence -/

/-- **The medians of the evidence** are medians of what the queries of the community return. -/
theorem evidence_reports_medians [MonotoneRuntime] {db : Database} {communityId : Str}
    {evidence : CommunityMarketEvidence}
    (answered : CommunityEvidenceService.getMarketEvidence db communityId = .ok evidence) :
    ∃ transactions snapshots,
      TransactionRepository.listForCommunity db.propertyTransaction communityId none none = .ok transactions ∧
      ListingQueryService.getCommunityListingHistory db.listings communityId = .ok snapshots ∧
      TransactionMetrics.MediansReported transactions minimumSampleCount evidence.transactionMetrics ∧
      ListingMetrics.MediansReported snapshots minimumSampleCount evidence.listingMetrics := by
  obtain ⟨query, validated, rest⟩ := eq_ok_of_bind answered
  obtain ⟨ofTransactions, hdeals, rest⟩ := eq_ok_of_bind rest
  obtain ⟨listings, -, rest⟩ := eq_ok_of_bind rest
  obtain ⟨snapshots, read, rest⟩ := eq_ok_of_bind rest
  obtain ⟨ofListings, computed, rest⟩ := eq_ok_of_bind rest
  obtain ⟨transactions, deals, metrics⟩ := eq_ok_of_bind hdeals
  have fields : query.toTransactionQueryFields = ⟨communityId, none, none⟩ := by
    unfold TransactionQueryFields.validate at validated
    split at validated
    · cases validated
      rfl
    · cases validated
  have parts : evidence.transactionMetrics = ofTransactions ∧ evidence.listingMetrics = ofListings := by
    unfold CommunityMarketEvidenceFields.validate at rest
    split at rest
    · cases rest
      exact ⟨rfl, rfl⟩
    · cases rest
  rw [TransactionQueryService.getTransactions, fields] at deals
  rw [fields] at read
  rw [parts.1, parts.2]
  exact ⟨transactions, snapshots, deals, read, TransactionMetrics.medians_reported metrics,
    ListingMetrics.medians_reported computed⟩

/-- Exact arithmetic keeps the order. -/
@[reducible] def sampleMonotoneRuntime : MonotoneRuntime where
  toRuntime := sampleRuntime
  round_mono _ _ le := Double.finite_le.mpr le

def thirdDeal : Transaction := ⟨TransactionMetrics.dealFields (str "tx-3"), rfl⟩

/-- A listing of community A that nobody else has. -/
def anotherListing : ListingObservation :=
  sampleObservation (str "lst-2") (str "cm-a") (str "102") firstDay .active 4000000
    (by decide +kernel) (by decide +kernel)

/-- The listing the day after, for less. -/
def cheaperListing : ListingObservation :=
  sampleObservation (str "lst-2") (str "cm-a") (str "102") secondDay .active 3800000
    (by decide +kernel) (by decide +kernel)

/-- Three deals of one community, two of its listings, and what was asked for them. -/
def threeDeals : Database :=
  [Statement.upsertTransaction TransactionMetrics.firstDeal, .upsertTransaction TransactionMetrics.secondDeal,
    .upsertTransaction thirdDeal, .upsertListing seenActive.listing, .appendSnapshot seenActive.snapshot,
    .upsertListing anotherListing.listing, .appendSnapshot anotherListing.snapshot,
    .appendSnapshot cheaperListing.snapshot].foldl (fun db s => s.apply db) Database.empty

theorem evidence_reports_medians_of_three_deals : let _ := sampleMonotoneRuntime
    ∃ evidence transactions snapshots,
      CommunityEvidenceService.getMarketEvidence threeDeals (str "cm-a") = .ok evidence ∧
      TransactionRepository.listForCommunity threeDeals.propertyTransaction (str "cm-a") none none =
        .ok transactions ∧
      ListingQueryService.getCommunityListingHistory threeDeals.listings (str "cm-a") = .ok snapshots ∧
      snapshots.length = 3 ∧
      TransactionMetrics.MediansReported transactions minimumSampleCount evidence.transactionMetrics ∧
      ListingMetrics.MediansReported snapshots minimumSampleCount evidence.listingMetrics := by
  intro _
  obtain ⟨evidence, answered⟩ := exists_eq_ok
    (x := CommunityEvidenceService.getMarketEvidence threeDeals (str "cm-a")) (by decide +kernel)
  obtain ⟨transactions, snapshots, deals, history, ofDeals, ofListings⟩ := evidence_reports_medians answered
  have length : (ListingQueryService.getCommunityListingHistory threeDeals.listings (str "cm-a")).toOption.map
      List.length = some 3 := by decide +kernel
  rw [history] at length
  exact ⟨evidence, transactions, snapshots, answered, deals, history, Option.some.inj length, ofDeals, ofListings⟩

end CnPropertyAgent
