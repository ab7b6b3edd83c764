import CnPropertyAgent.Analytics.Common
import CnPropertyAgent.Relational.Statements

/-!
Baseline statistics over the transactions of one community.
-/

namespace CnPropertyAgent

open Python Relational

structure CommunityTransactionMetricsFields where
  communityId : Str
  sampleCount : Int
  minimumSampleCount : Int
  latestDealDate : Option Date
  medianUnitPriceCnySqm : MedianMetric
  medianDealPriceCny : MedianMetric
  medianDaysOnMarketDays : MedianMetric
  medianNegotiationDiscount : MedianMetric
  transactionIds : List Str
  sources : List Str
deriving DecidableEq

def CommunityTransactionMetricsFields.errors (m : CommunityTransactionMetricsFields) :
    List ErrorItem :=
  checkNonempty (str "community_id") m.communityId ++
  checkAtLeast (str "sample_count") 0 m.sampleCount ++
  checkAtLeast (str "minimum_sample_count") 1 m.minimumSampleCount

structure CommunityTransactionMetrics extends CommunityTransactionMetricsFields where
  valid : toCommunityTransactionMetricsFields.errors = []
deriving DecidableEq

def CommunityTransactionMetricsFields.validate (fields : CommunityTransactionMetricsFields) :
    Except Failure CommunityTransactionMetrics :=
  if h : fields.errors = [] then .ok ⟨fields, h⟩ else .error (.validation fields.errors)

theorem CommunityTransactionMetricsFields.eq_of_validate {fields : CommunityTransactionMetricsFields}
    {m : CommunityTransactionMetrics} (h : fields.validate = .ok m) :
    m.toCommunityTransactionMetricsFields = fields := by
  unfold CommunityTransactionMetricsFields.validate at h
  split at h
  · cases h; rfl
  · cases h

namespace TransactionMetrics

variable [Runtime]

/-- Share of the initial asking price given up at the deal. -/
def negotiationDiscount (initialListingPriceCny dealPriceCny : Double) : Except Exc Double :=
  (initialListingPriceCny.sub dealPriceCny).div initialListingPriceCny

def computeCommunityTransactionMetrics (transactions : List Transaction) (communityId : Str)
    (minimum : Int) : Except Failure CommunityTransactionMetrics := do
  let minimum ← validateMinimumSampleCount minimum
  let communityId ← validateCommunityId communityId
  let foreign := transactions.filterMap fun item =>
    if item.communityId ≠ communityId then some item.communityId else none
  if foreign ≠ [] then
    raiseValueError (str "transactions must all belong to community " ++ communityId.pyRepr ++
      str ", also got: " ++ render foreign)
  else
    let medianUnitPriceCnySqm ←
      medianMetric (transactions.map fun item => item.unitPriceCnySqm) minimum
    let medianDealPriceCny ← medianMetric (transactions.map fun item => item.dealPriceCny) minimum
    let days ← (transactions.filterMap fun item => item.daysOnMarket).mapM fun days =>
      liftM (Double.ofInt days)
    let medianDaysOnMarketDays ← medianMetric days minimum
    let discounts ← (transactions.filterMap fun item => item.initialListingPriceCny.map fun initial =>
      (initial, item.dealPriceCny)).mapM fun prices => liftM (negotiationDiscount prices.1 prices.2)
    let medianNegotiationDiscount ← medianMetric discounts minimum
    CommunityTransactionMetricsFields.validate
      { communityId := communityId
        sampleCount := transactions.length
        minimumSampleCount := minimum
        latestDealDate := (transactions.map fun item => item.dealDate).max?
        medianUnitPriceCnySqm := medianUnitPriceCnySqm
        medianDealPriceCny := medianDealPriceCny
        medianDaysOnMarketDays := medianDaysOnMarketDays
        medianNegotiationDiscount := medianNegotiationDiscount
        transactionIds := orderBy id (transactions.map fun item => item.transactionId)
        sources := sortedSet (transactions.map fun item => item.source) }

section

variable {transactions : List Transaction}

/-- The days on market become floats as long as none is too large for one. -/
theorem daysFloats_ok
    (days : ∀ item ∈ transactions, ∀ n ∈ item.daysOnMarket, ∃ x, Double.ofInt n = .ok x) :
    ∃ floats, (transactions.filterMap fun item => item.daysOnMarket).mapM
      (fun n => (liftM (Double.ofInt n) : Except Failure Double)) = .ok floats := by
  apply mapM_total
  intro n mem
  obtain ⟨item, hitem, hn⟩ := List.mem_filterMap.mp mem
  obtain ⟨x, converted⟩ := days item hitem n hn
  exact ⟨x, congrArg (Except.mapError Failure.builtin) converted⟩

/-- The listing prices are positive, so every discount exists. -/
theorem negotiationDiscounts_ok (transactions : List Transaction) :
    ∃ discounts, (transactions.filterMap fun item => item.initialListingPriceCny.map fun initial =>
      (initial, item.dealPriceCny)).mapM
        (fun prices => (liftM (negotiationDiscount prices.1 prices.2) : Except Failure Double)) =
      .ok discounts := by
  apply mapM_total
  intro prices mem
  obtain ⟨item, hitem, hprices⟩ := List.mem_filterMap.mp mem
  obtain ⟨initial, hinitial, rfl⟩ := Option.map_eq_some_iff.mp hprices
  obtain ⟨discount, hdiscount⟩ := Double.div_ok_of_pos (a := initial.sub item.dealPriceCny)
    (item.initialListingPriceCny_pos initial hinitial)
  exact ⟨discount, congrArg (Except.mapError Failure.builtin) hdiscount⟩

end

/-- The metrics of the transactions of a community exist as long as no number of
days on market is too large to become a float. -/
theorem compute_ok {communityId : Str} {transactions : List Transaction} {minimum : Int}
    (subject : communityId.Encodable) (notBlank : communityId.strip ≠ []) (enough : 1 ≤ minimum)
    (own : ∀ item ∈ transactions, item.communityId = communityId)
    (days : ∀ item ∈ transactions, ∀ n ∈ item.daysOnMarket, ∃ x, Double.ofInt n = .ok x) :
    ∃ metrics, computeCommunityTransactionMetrics transactions communityId minimum = .ok metrics ∧
      metrics.communityId = communityId := by
  have none_foreign : (transactions.filterMap fun item =>
      if item.communityId ≠ communityId then some item.communityId else none) = [] := by
    rw [List.filterMap_eq_nil_iff]
    intro item mem
    exact if_neg (not_not_intro (own item mem))
  obtain ⟨floats, hfloats⟩ := daysFloats_ok days
  obtain ⟨discounts, hdiscounts⟩ := negotiationDiscounts_ok transactions
  obtain ⟨unitPrice, hunitPrice⟩ := medianMetric_ok
    (transactions.map fun item => item.unitPriceCnySqm) enough
  obtain ⟨dealPrice, hdealPrice⟩ := medianMetric_ok
    (transactions.map fun item => item.dealPriceCny) enough
  obtain ⟨onMarket, honMarket⟩ := medianMetric_ok floats enough
  obtain ⟨discount, hdiscount⟩ := medianMetric_ok discounts enough
  simp only [computeCommunityTransactionMetrics, validateMinimumSampleCount, validateCommunityId,
    if_neg (not_lt.mpr enough), if_neg notBlank, bind, Except.bind, none_foreign, ne_eq,
    not_true_eq_false, if_false, hunitPrice, hdealPrice, hfloats, honMarket, hdiscounts, hdiscount]
  refine ⟨⟨_, ?_⟩, dif_pos ?_, rfl⟩
  all_goals
    simp only [CommunityTransactionMetricsFields.errors, List.append_eq_nil_iff,
      checkNonempty_eq_nil, checkAtLeast_eq_nil]
    refine ⟨⟨⟨subject, ?_⟩, by omega⟩, enough⟩
    rintro rfl
    exact notBlank rfl

end TransactionMetrics

end CnPropertyAgent
