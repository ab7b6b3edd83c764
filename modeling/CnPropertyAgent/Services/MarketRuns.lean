import CnPropertyAgent.Services.MarketObservationIngestion
import CnPropertyAgent.Storage.Reads

/-!
Runs of market observation ingestion, calls that raise included.

The table after a run is the replay of what each call writes (`afterAll_eq`), so the
row under an identifier is the version written last. A call that returns writes its batch.
One whose batch storage refuses has written the observations ahead of the one it cannot bind.
-/

namespace CnPropertyAgent

open Python Relational

/-! ### Sample batches -/

section Samples

def sampleMarketFields (observationId cityCode : Str) (value : Nat) : MarketObservationFields where
  observationId := observationId
  cityCode := cityCode
  geographyType := str "city"
  geographyCode := none
  geographyName := str "sample"
  periodStart := ⟨738884, by decide, by decide⟩
  periodEnd := ⟨738915, by decide, by decide⟩
  metricName := str "new_home_price_index"
  value := .finite value
  unit := str "index"
  source := str "stats"
  sourceUrl := none
  publicationDate := none
  collectedAt := ⟨738920 * dayMicros, by decide, by decide⟩
  parserVersion := str "v1"
  rawPayloadRef := none

/-- An index of the city of communities A and B, as it was first published. -/
def indexPublished : MarketObservation :=
  ⟨sampleMarketFields (str "obs-1") (str "310000") 101, by decide +kernel⟩

/-- The index with a corrected value. -/
def indexCorrected : MarketObservation :=
  ⟨sampleMarketFields (str "obs-1") (str "310000") 102, by decide +kernel⟩

def sampleMarketRequest : MarketObservationIngestionRequest :=
  ⟨⟨str "310000", none, none, none⟩, by decide +kernel⟩

end Samples

/-- One call, with what the provider answered. -/
structure MarketIngestCall where
  provider : Str
  request : MarketObservationIngestionRequest
  fetch : Except Str MarketObservationFetchResult

namespace MarketObservationIngestionService

/-- What a call leaves of the table, whether it returns or raises. -/
def after (table : MarketObservationTable) (c : MarketIngestCall) : MarketObservationTable :=
  (ingest c.provider table c.request c.fetch).state

/-- What a sequence of calls leaves of the empty table. -/
def afterAll (calls : List MarketIngestCall) : MarketObservationTable := calls.foldl after (.empty _)

/-- What a call delivers: the batch it fetched, if it returns. -/
def batchOf (table : MarketObservationTable) (c : MarketIngestCall) : List MarketObservation :=
  match c.fetch, (ingest c.provider table c.request c.fetch).result with
  | .ok fetched, .ok _ => fetched.observations
  | _, _ => []

/-- The log of a sequence of calls. -/
def deliveredFrom (table : MarketObservationTable) : List MarketIngestCall → List MarketObservation
  | [] => []
  | c :: rest => batchOf table c ++ deliveredFrom (after table c) rest

/-- What the calls that return deliver, from the empty table. -/
def delivered (calls : List MarketIngestCall) : List MarketObservation :=
  deliveredFrom (.empty _) calls

/-- What a call writes: what storage takes of a batch of the city asked for. -/
def writtenBy (c : MarketIngestCall) : List MarketObservation :=
  match c.fetch with
  | .error _ => []
  | .ok fetched =>
      if ∀ o ∈ fetched.observations, o.cityCode = c.request.cityCode then taken fetched.observations else []

/-- The log of a sequence of calls, those that raise included. -/
def writtenByAll (calls : List MarketIngestCall) : List MarketObservation := calls.flatMap writtenBy

/-- The last version of an observation in a log. -/
def lastVersion (log : List MarketObservation) (observationId : Str) : Option MarketObservation :=
  (log.filter fun o => o.observationId = observationId).getLast?

/-! ### The log determines the table -/

/-- Whatever is stored, a call writes the same. -/
theorem after_eq (table : MarketObservationTable) (c : MarketIngestCall) :
    after table c = written table (writtenBy c) := by
  unfold after writtenBy
  rcases ingest_cases c.provider table c.request c.fetch with
    ⟨message, failed, eq⟩ | ⟨fetched, answered, ⟨message, ⟨o, mem, foreign⟩, eq⟩ | ⟨own, eq⟩⟩
  · rw [eq, failed]
    rfl
  · rw [eq, answered]
    have refused : ¬ ∀ o ∈ fetched.observations, o.cityCode = c.request.cityCode :=
      fun own => foreign (own o mem)
    simp only [if_neg refused]
    rfl
  · rw [eq, answered]
    simp only [if_pos own]

/-- What a call contributes to the log, by the way it ends. -/
inductive Contributes (c : MarketIngestCall) :
    Except Failure MarketObservationIngestionResult → List MarketObservation → Prop
  | returned {fetched result} (answered : c.fetch = .ok fetched) :
      Contributes c (.ok result) fetched.observations
  | fetchFailed {message} :
      Contributes c (.error (.providerFetch c.provider c.request.cityCode message)) []
  | foreign {message} :
      Contributes c (.error (.providerContract c.provider c.request.cityCode message)) []
  | refused {fetched done o rest} (answered : c.fetch = .ok fetched)
      (split : fetched.observations = done ++ o :: rest) (bound : ∀ x ∈ done, Bindable x)
      (unbound : ¬ Bindable o) : Contributes c (.error .invalidInput) done

/-- Whatever is stored, a call writes what it contributes. -/
theorem contributes (table : MarketObservationTable) (c : MarketIngestCall) :
    Contributes c (ingest c.provider table c.request c.fetch).result (writtenBy c) := by
  unfold writtenBy
  rcases ingest_cases c.provider table c.request c.fetch with
    ⟨message, failed, eq⟩ | ⟨fetched, answered, ⟨message, ⟨o, mem, foreign⟩, eq⟩ | ⟨own, eq⟩⟩
  · rw [eq, failed]
    exact .fetchFailed
  · rw [eq, answered]
    have refused : ¬ ∀ o ∈ fetched.observations, o.cityCode = c.request.cityCode :=
      fun own => foreign (own o mem)
    simp only [if_neg refused]
    exact .foreign
  · rw [eq, answered]
    simp only [if_pos own]
    by_cases bound : ∀ o ∈ fetched.observations, Bindable o
    · rw [if_pos bound, taken_eq_self_iff.mpr bound]
      exact .returned answered
    · rw [if_neg bound]
      obtain ⟨done, o, rest, split, ahead, plain, unbound⟩ := exists_takeWhile_append bound
      rw [taken, ahead]
      exact .refused answered split plain unbound

theorem foldl_after (calls : List MarketIngestCall) (table : MarketObservationTable) :
    calls.foldl after table = written table (writtenByAll calls) := by
  induction calls generalizing table with
  | nil => rfl
  | cons c rest ih =>
      rw [List.foldl_cons, ih, after_eq, writtenByAll, writtenByAll, List.flatMap_cons, written, written,
        written, List.map_append, Table.upsertAll_append]

/-- **The log determines the table.** -/
theorem afterAll_eq (calls : List MarketIngestCall) :
    afterAll calls = written (.empty _) (writtenByAll calls) :=
  foldl_after calls _

theorem readable_afterAll (calls : List MarketIngestCall) :
    EncodedBy MarketObservationRow.ofModel (afterAll calls).rows := by
  rw [afterAll_eq]
  exact EncodedBy.upsertAll_of_overwrites MarketObservationRepository.onConflict_overwrites
    encodedBy_nil _

theorem get?_afterAll (calls : List MarketIngestCall) (observationId : Str) :
    (afterAll calls).get? observationId =
      (lastVersion (writtenByAll calls) observationId).map MarketObservationRow.ofModel := by
  rw [afterAll_eq, written, Table.get?_upsertAll_of_overwrites
    MarketObservationRepository.onConflict_overwrites, Table.get?_empty, Option.or_none,
    List.filter_map, List.getLast?_map]
  rfl

/-- An observation is stored exactly when it is the last version of its identifier. -/
theorem mem_afterAll {calls : List MarketIngestCall} {o : MarketObservation} :
    MarketObservationRow.ofModel o ∈ (afterAll calls).rows ↔
      lastVersion (writtenByAll calls) o.observationId = some o := by
  constructor
  · intro stored
    have found := Table.get?_key stored
    rw [get?_afterAll] at found
    obtain ⟨o', last, same⟩ := Option.map_eq_some_iff.mp found
    cases MarketObservationRow.ofModel_injective same
    exact last
  · intro last
    have found := get?_afterAll calls o.observationId
    rw [last] at found
    exact Table.mem_of_get? found

end MarketObservationIngestionService

end CnPropertyAgent
