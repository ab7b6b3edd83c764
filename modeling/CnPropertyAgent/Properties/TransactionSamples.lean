import CnPropertyAgent.Analytics.TransactionMetrics
import CnPropertyAgent.Properties.FiniteEvidence

/-!
What the transaction metrics read of their sample.

They are said to depend on the set of records only, but the sample is taken as it is
delivered: a repeated record is counted again in the sample, among the ids and in every
median. So the order of the records does not matter, and their repetition does.
-/

namespace CnPropertyAgent

open Python Relational

namespace TransactionMetrics

variable {communityId : Str} {minimum : Int} {transactions transactions' : List Transaction}

section

variable [Runtime]

attribute [ext] CommunityTransactionMetrics

/-- What the metrics accept: valid arguments, and transactions of the community whose days
on market are floats. -/
structure Accepted (communityId : Str) (minimum : Int) (transactions : List Transaction) : Prop where
  enough : 1 ≤ minimum
  notBlank : communityId.strip ≠ []
  text : communityId.Encodable
  own : ∀ item ∈ transactions, item.communityId = communityId
  days : ∀ item ∈ transactions, ∀ n ∈ item.daysOnMarket, ∃ x, Double.ofInt n = .ok x

theorem Accepted.congr (accepted : Accepted communityId minimum transactions)
    (same : ∀ item, item ∈ transactions ↔ item ∈ transactions') :
    Accepted communityId minimum transactions' where
  enough := accepted.enough
  notBlank := accepted.notBlank
  text := accepted.text
  own item mem := accepted.own item ((same item).mpr mem)
  days item mem := accepted.days item ((same item).mpr mem)

/-- The days on market of a sample, as floats. -/
def DaysOf (transactions : List Transaction) (days : List Double) : Prop :=
  (transactions.filterMap fun item => item.daysOnMarket).mapM
    (fun n => (liftM (Double.ofInt n) : Except Failure Double)) = .ok days

/-- The discounts of a sample. -/
def DiscountsOf (transactions : List Transaction) (discounts : List Double) : Prop :=
  (transactions.filterMap fun item => item.initialListingPriceCny.map fun initial =>
    (initial, item.dealPriceCny)).mapM
      (fun prices => (liftM (negotiationDiscount prices.1 prices.2) : Except Failure Double)) = .ok discounts

/-- How the metrics are read off the sample, record by record. -/
structure Sampled (communityId : Str) (minimum : Int) (transactions : List Transaction)
    (metrics : CommunityTransactionMetrics) : Prop where
  communityId : metrics.communityId = communityId
  minimumSampleCount : metrics.minimumSampleCount = minimum
  sampleCount : metrics.sampleCount = transactions.length
  latestDealDate : metrics.latestDealDate = (transactions.map (·.dealDate)).max?
  medianUnitPriceCnySqm :
    medianMetric (transactions.map (·.unitPriceCnySqm)) minimum = .ok metrics.medianUnitPriceCnySqm
  medianDealPriceCny :
    medianMetric (transactions.map (·.dealPriceCny)) minimum = .ok metrics.medianDealPriceCny
  medianDaysOnMarketDays : ∃ days, DaysOf transactions days ∧
    medianMetric days minimum = .ok metrics.medianDaysOnMarketDays
  medianNegotiationDiscount : ∃ discounts, DiscountsOf transactions discounts ∧
    medianMetric discounts minimum = .ok metrics.medianNegotiationDiscount
  transactionIds : metrics.transactionIds = orderBy id (transactions.map (·.transactionId))
  sources : metrics.sources = sortedSet (transactions.map (·.source))

omit [Runtime] in
/-- A Python computation returns inside the code what it returns outside. -/
theorem liftM_eq_ok {α : Type} {x : Except Exc α} {a : α} :
    (liftM x : Except Failure α) = .ok a ↔ x = .ok a := by
  cases x with
  | error e => exact iff_of_false (by intro h; cases h) (by intro h; cases h)
  | ok b => exact ⟨fun h => by cases h; rfl, fun h => by cases h; rfl⟩

/-- Metrics are computed of an accepted sample, and read off it. -/
theorem accepted_of_compute {metrics : CommunityTransactionMetrics}
    (computed : computeCommunityTransactionMetrics transactions communityId minimum = .ok metrics) :
    Accepted communityId minimum transactions ∧ Sampled communityId minimum transactions metrics := by
  obtain ⟨_, threshold, computed⟩ := eq_ok_of_bind computed
  obtain ⟨_, subject, rest⟩ := eq_ok_of_bind computed
  obtain ⟨enough, rfl⟩ := validateMinimumSampleCount_eq_ok.mp threshold
  obtain ⟨notBlank, rfl⟩ := validateCommunityId_eq_ok.mp subject
  dsimp only at rest
  split_ifs at rest with foreign
  · cases rest
  obtain ⟨unitPrice, hunitPrice, rest⟩ := eq_ok_of_bind rest
  obtain ⟨dealPrice, hdealPrice, rest⟩ := eq_ok_of_bind rest
  obtain ⟨days, hdays, rest⟩ := eq_ok_of_bind rest
  obtain ⟨onMarket, honMarket, rest⟩ := eq_ok_of_bind rest
  obtain ⟨discounts, hdiscounts, rest⟩ := eq_ok_of_bind rest
  obtain ⟨discount, hdiscount, validated⟩ := eq_ok_of_bind rest
  have fields := CommunityTransactionMetricsFields.eq_of_validate validated
  have valid := metrics.valid
  rw [fields] at valid
  simp only [CommunityTransactionMetricsFields.errors, List.append_eq_nil_iff, checkNonempty_eq_nil] at valid
  refine ⟨⟨enough, notBlank, valid.1.1.1, ?_, ?_⟩, ?_⟩
  · intro item mem
    by_contra other
    exact foreign (List.ne_nil_of_mem (List.mem_filterMap.mpr ⟨item, mem, if_pos other⟩))
  · intro item mem n hn
    obtain ⟨x, lifted⟩ := exists_of_mapM hdays (List.mem_filterMap.mpr ⟨item, mem, hn⟩)
    exact ⟨x, liftM_eq_ok.mp lifted⟩
  · constructor
    all_goals rw [fields]
    · exact hunitPrice
    · exact hdealPrice
    · exact ⟨days, hdays, honMarket⟩
    · exact ⟨discounts, hdiscounts, hdiscount⟩

end

/-! ### Samples in another order -/

section

variable [NearestRuntime]

/-- A discount on a finite listing price is a number. -/
theorem negotiationDiscount_ne_nan {initial deal x : Double} (positive : Double.lt 0 initial = true)
    (dealPositive : Double.lt 0 deal = true) (finite : initial ≠ .posInf)
    (computed : negotiationDiscount initial deal = .ok x) : x ≠ .nan := by
  obtain ⟨a, aPos, rfl⟩ := (Double.finite_or_posInf positive).resolve_right finite
  have nonzero : a ≠ 0 := ne_of_gt aPos
  rw [negotiationDiscount] at computed
  rcases Double.finite_or_posInf dealPositive with ⟨d, -, rfl⟩ | rfl
  · have difference : (Double.finite a).sub (.finite d) = Runtime.round (a + -d) := rfl
    rw [difference] at computed
    cases rounded : (Runtime.round (a + -d) : Double) with
    | finite q =>
        rw [rounded] at computed
        have quotient : (Double.finite q).div (.finite a) = .ok (Runtime.round (q / a)) := by
          simp [Double.div, nonzero]
        cases quotient.symm.trans computed
        exact NearestRuntime.round_ne_nan _
    | posInf =>
        rw [rounded, Double.posInf_div aPos] at computed
        cases computed
        simp
    | negInf =>
        rw [rounded, Double.negInf_div aPos] at computed
        cases computed
        simp
    | nan => exact absurd rounded (NearestRuntime.round_ne_nan _)
  · have difference : (Double.finite a).sub .posInf = .negInf := rfl
    rw [difference, Double.negInf_div aPos] at computed
    cases computed
    simp

/-- No listing price of the sample is infinite. -/
def FiniteListingPrices (transactions : List Transaction) : Prop :=
  ∀ item ∈ transactions, ∀ price ∈ item.initialListingPriceCny, price ≠ .posInf

theorem discounts_ne_nan (finite : FiniteListingPrices transactions) {discounts : List Double}
    (found : DiscountsOf transactions discounts) : ∀ x ∈ discounts, x ≠ .nan := by
  intro x mem
  obtain ⟨prices, hprices, computed⟩ := (mem_of_mapM found).mp mem
  obtain ⟨item, hitem, same⟩ := List.mem_filterMap.mp hprices
  obtain ⟨initial, hinitial, rfl⟩ := Option.map_eq_some_iff.mp same
  exact negotiationDiscount_ne_nan (item.initialListingPriceCny_pos initial hinitial) item.dealPriceCny_pos
    (finite item hitem initial hinitial) (liftM_eq_ok.mp computed)

end

/-- An integer becomes a finite float. -/
theorem days_ne_nan [Runtime] {days : List Double} (found : DaysOf transactions days) :
    ∀ x ∈ days, x ≠ .nan := by
  intro x mem
  obtain ⟨n, -, converted⟩ := (mem_of_mapM found).mp mem
  have float := liftM_eq_ok.mp converted
  rintro rfl
  unfold Double.ofInt at float
  split at float <;> cases float

/-- Of a permuted sample, whose discounts are numbers, the same metrics are read off. -/
theorem Sampled.eq_of_perm [NearestRuntime] (finite : FiniteListingPrices transactions)
    (perm : transactions.Perm transactions') {metrics metrics' : CommunityTransactionMetrics}
    (h : Sampled communityId minimum transactions metrics)
    (h' : Sampled communityId minimum transactions' metrics') : metrics = metrics' := by
  have median {xs ys : List Double} (perm : xs.Perm ys) (numbers : ∀ x ∈ xs, x ≠ .nan)
      {m m' : MedianMetric} (hm : medianMetric xs minimum = .ok m) (hm' : medianMetric ys minimum = .ok m') :
      m = m' := by
    rw [medianMetric_congr perm numbers, hm'] at hm
    exact (Except.ok.inj hm).symm
  have unitPrice := median (perm.map _) (by
    intro x mem
    obtain ⟨item, -, rfl⟩ := List.mem_map.mp mem
    exact Double.ne_nan_of_lt item.unitPriceCnySqm_pos) h.medianUnitPriceCnySqm h'.medianUnitPriceCnySqm
  have dealPrice := median (perm.map _) (by
    intro x mem
    obtain ⟨item, -, rfl⟩ := List.mem_map.mp mem
    exact Double.ne_nan_of_lt item.dealPriceCny_pos) h.medianDealPriceCny h'.medianDealPriceCny
  obtain ⟨days, hdays, onMarket⟩ := h.medianDaysOnMarketDays
  obtain ⟨days', hdays', onMarket'⟩ := h'.medianDaysOnMarketDays
  have daysOnMarket := median (perm_of_mapM (perm.filterMap _) hdays hdays') (days_ne_nan hdays)
    onMarket onMarket'
  obtain ⟨discounts, hdiscounts, discount⟩ := h.medianNegotiationDiscount
  obtain ⟨discounts', hdiscounts', discount'⟩ := h'.medianNegotiationDiscount
  have negotiation := median (perm_of_mapM (perm.filterMap _) hdiscounts hdiscounts')
    (discounts_ne_nan finite hdiscounts) discount discount'
  apply CommunityTransactionMetrics.ext
  · rw [h.communityId, h'.communityId]
  · rw [h.sampleCount, h'.sampleCount, perm.length_eq]
  · rw [h.minimumSampleCount, h'.minimumSampleCount]
  · rw [h.latestDealDate, h'.latestDealDate, max?_of_perm (perm.map _)]
  · exact unitPrice
  · exact dealPrice
  · exact daysOnMarket
  · exact negotiation
  · rw [h.transactionIds, h'.transactionIds, orderBy_id_of_perm (perm.map _)]
  · rw [h.sources, h'.sources]
    exact sortedSet_congr fun _ => (perm.map _).mem_iff

/-! ### Repeated records -/

/-- No two different records of the sample share an id. -/
def OneRecordPerId (transactions : List Transaction) : Prop :=
  ∀ a ∈ transactions, ∀ b ∈ transactions, a.transactionId = b.transactionId → a = b

/-- Where an id stands for one record, samples of one set with the same ids are permuted. -/
theorem perm_of_perm_ids (one : OneRecordPerId transactions)
    (same : ∀ item, item ∈ transactions ↔ item ∈ transactions')
    (perm : (transactions.map (·.transactionId)).Perm (transactions'.map (·.transactionId))) :
    transactions.Perm transactions' := by
  have recalled : ∀ sample : List Transaction, (∀ item ∈ sample, item ∈ transactions) →
      (sample.map (·.transactionId)).map (fun id => transactions.find? fun item => item.transactionId = id) =
        sample.map some := by
    intro sample sub
    rw [List.map_map]
    apply List.map_congr_left
    intro item mem
    cases found : transactions.find? fun other => other.transactionId = item.transactionId with
    | none => exact absurd (List.find?_eq_none.mp found item (sub item mem)) (by simp)
    | some other =>
        have sameId : other.transactionId = item.transactionId := by simpa using List.find?_some found
        rw [Function.comp_apply, found,
          one other (List.mem_of_find?_eq_some found) item (sub item mem) sameId]
  have records := perm.map fun id => transactions.find? fun item => item.transactionId = id
  rw [recalled transactions fun _ mem => mem, recalled transactions' fun item => (same item).mpr] at records
  exact (List.map_perm_map_iff (Option.some_injective _)).mp records

/-- A sample that is not accepted has no metrics. -/
theorem toOption_of_not_accepted [Runtime] (refused : ¬ Accepted communityId minimum transactions) :
    (computeCommunityTransactionMetrics transactions communityId minimum).toOption = none := by
  cases outcome : computeCommunityTransactionMetrics transactions communityId minimum with
  | error e => rfl
  | ok metrics => exact absurd (accepted_of_compute outcome).1 refused

/-- An accepted sample has metrics. -/
theorem Accepted.exists_sampled [NearestRuntime] (accepted : Accepted communityId minimum transactions) :
    ∃ metrics, computeCommunityTransactionMetrics transactions communityId minimum = .ok metrics ∧
      Sampled communityId minimum transactions metrics := by
  obtain ⟨metrics, computed, -⟩ := compute_ok accepted.text accepted.notBlank accepted.enough
    accepted.own accepted.days
  exact ⟨metrics, computed, (accepted_of_compute computed).2⟩

theorem toOption_eq_of_perm [NearestRuntime] (finite : FiniteListingPrices transactions)
    (perm : transactions.Perm transactions') :
    (computeCommunityTransactionMetrics transactions communityId minimum).toOption =
      (computeCommunityTransactionMetrics transactions' communityId minimum).toOption := by
  by_cases accepted : Accepted communityId minimum transactions
  · obtain ⟨metrics, computed, sampled⟩ := accepted.exists_sampled
    obtain ⟨metrics', computed', sampled'⟩ := (accepted.congr fun _ => perm.mem_iff).exists_sampled
    rw [computed, computed', sampled.eq_of_perm finite perm sampled']
  · have refused' : ¬ Accepted communityId minimum transactions' :=
      fun accepted' => accepted (accepted'.congr fun _ => perm.symm.mem_iff)
    rw [toOption_of_not_accepted accepted, toOption_of_not_accepted refused']

/-- Equal metrics list the same ids equally often. -/
theorem Accepted.perm_ids [NearestRuntime] (accepted : Accepted communityId minimum transactions)
    (equal : (computeCommunityTransactionMetrics transactions communityId minimum).toOption =
      (computeCommunityTransactionMetrics transactions' communityId minimum).toOption) :
    (transactions.map (·.transactionId)).Perm (transactions'.map (·.transactionId)) := by
  obtain ⟨metrics, computed, sampled⟩ := accepted.exists_sampled
  rw [computed] at equal
  cases outcome : computeCommunityTransactionMetrics transactions' communityId minimum with
  | error e =>
      rw [outcome] at equal
      cases equal
  | ok metrics' =>
      rw [outcome] at equal
      cases equal
      have ids := sampled.transactionIds.symm.trans (accepted_of_compute outcome).2.transactionIds
      exact (perm_orderBy id _).symm.trans (ids ▸ perm_orderBy id _)

/-- A deal of community A under an id. -/
def dealFields (transactionId : Str) : TransactionFields where
  transactionId := transactionId
  communityId := str "cm-a"
  source := str "lianjia"
  sourceTransactionId := none
  sourceUrl := none
  dealDate := sampleDate
  areaSqm := 100
  layout := none
  floorBucket := .unknown
  orientation := none
  builtYear := none
  initialListingPriceCny := some 4000000
  dealPriceCny := 3000000
  unitPriceCnySqm := 30000
  daysOnMarket := some 30
  rawPayloadRef := none
  collectedAt := sampleCollectedAt.instant
  parserVersion := str "v1"

def firstDeal : Transaction := ⟨dealFields (str "tx-1"), rfl⟩

def secondDeal : Transaction := ⟨dealFields (str "tx-2"), rfl⟩

end TransactionMetrics

end CnPropertyAgent
