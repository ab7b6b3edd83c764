import CnPropertyAgent.Services.CommunityEvidence

/-!
The read side of the official market observations.
-/

namespace CnPropertyAgent

open Python Relational

structure MarketObservationQueryFields where
  cityCode : Str
  geographyType : Option Str
  geographyCode : Option Str
  metricName : Option Str
  startDate : Option Date
  endDate : Option Date
deriving DecidableEq

/-- A filter that is left out or names a value. -/
def checkOptionalFilter (fieldName : String) (value : Option Str) : List ErrorItem :=
  checkOptional (fun s => if s.strip = [] then
    [{ valueErrorItem (str fieldName ++ str " must not be blank when provided") with
      loc := [str fieldName] }]
  else []) value

def MarketObservationQueryFields.errors (q : MarketObservationQueryFields) : List ErrorItem :=
  thenModel
    (checkNotBlank "city_code" "city_code must not be blank" q.cityCode ++
    checkOptionalFilter "geography_type" q.geographyType ++
    checkOptionalFilter "geography_code" q.geographyCode ++
    checkOptionalFilter "metric_name" q.metricName)
    (windowErrors q.startDate q.endDate)

/-- One read request over canonical market observations. -/
structure MarketObservationQuery extends MarketObservationQueryFields where
  valid : toMarketObservationQueryFields.errors = []
deriving DecidableEq

def MarketObservationQueryFields.validate (fields : MarketObservationQueryFields) :
    Except Failure MarketObservationQuery :=
  if h : fields.errors = [] then .ok ⟨fields, h⟩ else .error (.validation fields.errors)

namespace MarketObservationQueryService

def getMarketObservations (table : MarketObservationTable) (query : MarketObservationQuery) :
    Except Failure (List MarketObservation) :=
  MarketObservationRepository.listForCity table query.cityCode query.geographyType
    query.geographyCode query.metricName query.startDate query.endDate

end MarketObservationQueryService

/-! ### What a query asks for -/

/-- The filters that are given. -/
def MarketObservationQueryFields.filters (q : MarketObservationQueryFields) : List Str :=
  q.geographyType.toList ++ q.geographyCode.toList ++ q.metricName.toList

theorem MarketObservationQuery.cityCode_encodable (q : MarketObservationQuery) : q.cityCode.Encodable := by
  have fields := (thenModel_eq_nil.mp q.valid).1
  simp only [List.append_eq_nil_iff] at fields
  exact (checkNonempty_eq_nil.mp (thenModel_eq_nil.mp fields.1.1.1).1).1

/-- The city code can be bound, so the filters decide. -/
theorem MarketObservationQuery.bindTexts_eq (q : MarketObservationQuery) :
    bindTexts (q.cityCode :: q.filters) = bindTexts q.filters := by
  have iff : PlainTexts (q.cityCode :: q.filters) ↔ PlainTexts q.filters := by
    simp only [plainTexts_cons, q.cityCode_encodable, true_and]
  simp only [bindTexts, iff]

/-- The observation is the city's, passes every filter given and lies inside the bounds. -/
def MarketObservationQuery.Selects (q : MarketObservationQuery) (o : MarketObservation) : Prop :=
  o.cityCode = q.cityCode ∧ (∀ type ∈ q.geographyType, o.geographyType = type) ∧
    (∀ code ∈ q.geographyCode, o.geographyCode = some code) ∧
    (∀ name ∈ q.metricName, o.metricName = name) ∧
    (∀ first ∈ q.startDate, first ≤ o.periodStart) ∧ ∀ last ∈ q.endDate, o.periodEnd ≤ last

/-- The series is read forwards in time, the shorter period first. -/
def MarketObservation.Precedes (a b : MarketObservation) : Prop :=
  a.periodStart < b.periodStart ∨ a.periodStart = b.periodStart ∧
    (a.periodEnd < b.periodEnd ∨ a.periodEnd = b.periodEnd ∧ a.observationId < b.observationId)

namespace MarketObservationQueryService

variable {table : MarketObservationTable} {query : MarketObservationQuery}

/-- The rows that the `WHERE` clause of a query selects. -/
def selected (table : MarketObservationTable) (query : MarketObservationQuery) :
    List MarketObservationRow :=
  table.rows.filter fun row => row.cityCode = query.cityCode &&
    whenGiven query.geographyType (row.geographyType = ·) &&
    whenGiven query.geographyCode (row.geographyCode = some ·) &&
    whenGiven query.metricName (row.metricName = ·) &&
    whenGiven query.startDate (· ≤ row.periodStart) && whenGiven query.endDate (row.periodEnd ≤ ·)

theorem mem_selected {o : MarketObservation} :
    MarketObservationRow.ofModel o ∈ selected table query ↔
      MarketObservationRow.ofModel o ∈ table.rows ∧ query.Selects o := by
  simp [selected, MarketObservationQuery.Selects, whenGiven, Option.all_eq_true,
    MarketObservationRow.ofModel, and_assoc]

/-- The order includes the primary key. -/
theorem pairwise_selected (table : MarketObservationTable) (query : MarketObservationQuery) :
    (orderBy MarketObservationRepository.listOrder (selected table query)).Pairwise fun a b =>
      MarketObservationRepository.listOrder a < MarketObservationRepository.listOrder b := by
  apply pairwise_lt_orderBy
  apply table.order_nodup
  intro a b same
  exact congrArg (fun place => (ofLex (ofLex place).2).2) same

/-- **The read.** A query whose filters can be bound returns the stored observations it selects, in order. -/
theorem getMarketObservations_ok
    (readable : EncodedBy MarketObservationRow.ofModel table.rows) (query : MarketObservationQuery) :
    ∃ items, getMarketObservations table query = whenBound query.filters items ∧
      (∀ o, o ∈ items ↔ MarketObservationRow.ofModel o ∈ table.rows ∧ query.Selects o) ∧
      items.Pairwise MarketObservation.Precedes := by
  have encoded : EncodedBy MarketObservationRow.ofModel
      (orderBy MarketObservationRepository.listOrder (selected table query)) :=
    readable.of_subset fun row mem => (List.mem_filter.mp (mem_orderBy.mp mem)).1
  obtain ⟨items, read, rows⟩ := encoded.mapM_decode MarketObservationRow.toModel_ofModel
  have answers : getMarketObservations table query = whenBound query.filters items :=
    calc getMarketObservations table query
        = (do
            bindTexts (query.cityCode :: query.filters)
            (orderBy MarketObservationRepository.listOrder (selected table query)).mapM
              MarketObservationRow.toModel) := rfl
      _ = whenBound query.filters items := by
          rw [query.bindTexts_eq, read]
          rfl
  refine ⟨items, answers, ?_, ?_⟩
  · intro o
    rw [mem_iff_of_map_eq MarketObservationRow.ofModel_injective rows, mem_orderBy, mem_selected]
  · have sorted := pairwise_selected table query
    rw [← rows, List.pairwise_map] at sorted
    apply sorted.imp
    intro a b lt
    rcases Prod.Lex.toLex_lt_toLex.mp lt with earlier | ⟨same, lt⟩
    · exact Or.inl earlier
    · exact Or.inr ⟨same, Prod.Lex.toLex_lt_toLex.mp lt⟩

end MarketObservationQueryService

end CnPropertyAgent
