import CnPropertyAgent.Providers.Parsing
import CnPropertyAgent.Python.Collections
import CnPropertyAgent.Storage.Repositories

/-!
Market observation ingestion: one city's official observations, persisted under
their identifiers after the whole batch was checked against the requested city.
-/

namespace CnPropertyAgent

open Python Relational

structure MarketObservationIngestionRequestFields where
  cityCode : Str
  startDate : Option Date
  endDate : Option Date
  geographyCode : Option Str
deriving DecidableEq

def MarketObservationIngestionRequestFields.errors (r : MarketObservationIngestionRequestFields) :
    List ErrorItem :=
  thenModel (checkNonempty (str "city_code") r.cityCode) (windowErrors r.startDate r.endDate)

structure MarketObservationIngestionRequest extends MarketObservationIngestionRequestFields where
  valid : toMarketObservationIngestionRequestFields.errors = []
deriving DecidableEq

structure MarketObservationIngestionResultFields where
  cityCode : Str
  sourceObservationCount : Nat
  persistedObservationCount : Nat
  observationIds : List Str
deriving DecidableEq

/-- The counts are naturals, as `ge=0` asks. -/
def MarketObservationIngestionResultFields.errors (r : MarketObservationIngestionResultFields) :
    List ErrorItem :=
  checkNonempty (str "city_code") r.cityCode

structure MarketObservationIngestionResult extends MarketObservationIngestionResultFields where
  valid : toMarketObservationIngestionResultFields.errors = []
deriving DecidableEq

def MarketObservationIngestionResultFields.validate
    (fields : MarketObservationIngestionResultFields) :
    Except Failure MarketObservationIngestionResult :=
  if h : fields.errors = [] then .ok ⟨fields, h⟩ else .error (.validation fields.errors)

namespace MarketObservationIngestionService

/-- Rejects the whole batch unless every observation belongs to `cityCode`. -/
def requireRequestedCity (provider cityCode : Str) : List MarketObservation → Except Failure Unit
  | [] => .ok ()
  | observation :: rest =>
      if observation.cityCode ≠ cityCode then
        .error (.providerContract provider cityCode (str "observation " ++
          observation.observationId ++ str " belongs to city " ++ observation.cityCode))
      else requireRequestedCity provider cityCode rest

/-- What the write loop counts. -/
structure Progress where
  persistedCount : Nat
  observationIds : List Str

/-- One pass of the write loop. -/
def persistObservation (table : MarketObservationTable) (progress : Progress)
    (observation : MarketObservation) : Outcome MarketObservationTable Failure Progress :=
  match MarketObservationRepository.upsert table observation with
  | .error e => ⟨table, .error e⟩
  | .ok table' => ⟨table', .ok
      { persistedCount := progress.persistedCount + 1
        observationIds := appendNew progress.observationIds observation.observationId }⟩

def ingest (provider : Str) (table : MarketObservationTable)
    (request : MarketObservationIngestionRequest)
    (fetch : Except Str MarketObservationFetchResult) :
    Outcome MarketObservationTable Failure MarketObservationIngestionResult :=
  match fetch with
  | .error message => ⟨table, .error (.providerFetch provider request.cityCode message)⟩
  | .ok fetched =>
      match requireRequestedCity provider request.cityCode fetched.observations with
      | .error e => ⟨table, .error e⟩
      | .ok () =>
          match forEach persistObservation table ⟨0, []⟩ fetched.observations with
          | ⟨table', .error e⟩ => ⟨table', .error e⟩
          | ⟨table', .ok progress⟩ => ⟨table', MarketObservationIngestionResultFields.validate
              { cityCode := request.cityCode
                sourceObservationCount := fetched.observationCount
                persistedObservationCount := progress.persistedCount
                observationIds := progress.observationIds }⟩

/-! ### The guard and the loop -/

theorem requireRequestedCity_ok_iff {provider cityCode : Str} {observations : List MarketObservation} :
    requireRequestedCity provider cityCode observations = .ok () ↔
      ∀ o ∈ observations, o.cityCode = cityCode := by
  induction observations with
  | nil => simp [requireRequestedCity]
  | cons o rest ih =>
      by_cases foreign : o.cityCode = cityCode
      · simp [requireRequestedCity, foreign, ih]
      · simp [requireRequestedCity, foreign]

theorem requireRequestedCity_error {provider cityCode : Str} {observations : List MarketObservation}
    {e : Failure} (refused : requireRequestedCity provider cityCode observations = .error e) :
    ∃ message, e = .providerContract provider cityCode message := by
  induction observations with
  | nil => cases refused
  | cons o rest ih =>
      unfold requireRequestedCity at refused
      split_ifs at refused with foreign
      · cases refused
        exact ⟨_, rfl⟩
      · exact ih refused

/-- The texts of the observation can be bound. -/
def Bindable (o : MarketObservation) : Prop := PlainTexts (MarketObservationRow.ofModel o).texts

instance : DecidablePred Bindable := fun o =>
  inferInstanceAs (Decidable (PlainTexts (MarketObservationRow.ofModel o).texts))

/-- The table after a batch. -/
def written (table : MarketObservationTable) (observations : List MarketObservation) :
    MarketObservationTable :=
  table.upsertAll MarketObservationRepository.onConflict
    (observations.map MarketObservationRow.ofModel)

/-- What the loop has counted after `done`. -/
def progressAfter (done : List MarketObservation) : Progress :=
  ⟨done.length, firstOccurrences (done.map fun o => o.observationId)⟩

/-- What storage takes of a batch: the observations ahead of the first it cannot bind. -/
def taken (observations : List MarketObservation) : List MarketObservation :=
  observations.takeWhile fun o => Bindable o

theorem mem_of_taken {observations : List MarketObservation} {o : MarketObservation}
    (mem : o ∈ taken observations) : o ∈ observations := (List.takeWhile_sublist _).subset mem

theorem taken_eq_self_iff {observations : List MarketObservation} :
    taken observations = observations ↔ ∀ o ∈ observations, Bindable o := by
  rw [taken, List.takeWhile_eq_self_iff]
  simp only [decide_eq_true_eq]

/-- The loop writes what storage takes, and raises if that is not the whole batch. -/
theorem persistAll_eq (table : MarketObservationTable) (observations : List MarketObservation) :
    forEach persistObservation table ⟨0, []⟩ observations =
      ⟨written table (taken observations),
        if ∀ o ∈ observations, Bindable o then .ok (progressAfter observations)
        else .error .invalidInput⟩ := by
  have loop : (forEach persistObservation table ⟨0, []⟩ observations).Satisfies
      (fun progress table' => (∀ o ∈ observations, Bindable o) ∧ table' = written table observations ∧
        progress = progressAfter observations)
      (fun e table' => ∃ done o rest, observations = done ++ o :: rest ∧ (∀ x ∈ done, Bindable x) ∧
        ¬ Bindable o ∧ table' = written table done ∧ e = .invalidInput) := by
    refine forEach_rule
      (I := fun done progress table' => (∀ o ∈ done, Bindable o) ∧ table' = written table done ∧
        progress = progressAfter done) ⟨by simp, rfl, rfl⟩ ?_
    rintro done o rest progress table' split ⟨bound, rfl, rfl⟩
    unfold persistObservation
    by_cases new : Bindable o
    · rw [MarketObservationRepository.upsert_of_plain new, Outcome.satisfies_ok]
      refine ⟨List.forall_mem_append.mpr ⟨bound, List.forall_mem_singleton.mpr new⟩, ?_, ?_⟩
      · simp only [written, List.map_append, Table.upsertAll_append]
        rfl
      · simp [progressAfter, firstOccurrences_append_singleton]
    · rw [MarketObservationRepository.upsert_of_not_plain new, Outcome.satisfies_error]
      exact ⟨done, o, rest, split, bound, new, rfl, rfl⟩
  cases h : forEach persistObservation table ⟨0, []⟩ observations with
  | mk table' result =>
      rw [h] at loop
      cases result with
      | ok progress =>
          obtain ⟨bound, rfl, rfl⟩ := loop
          rw [taken_eq_self_iff.mpr bound, if_pos bound]
      | error e =>
          obtain ⟨done, o, rest, rfl, bound, refused, rfl, rfl⟩ := loop
          have ahead : taken (done ++ o :: rest) = done := by
            rw [taken, List.takeWhile_append_of_pos fun x mem => decide_eq_true (bound x mem),
              List.takeWhile_cons_of_neg (by simpa using refused), List.append_nil]
          rw [ahead, if_neg fun all => refused (all o (List.mem_append_right _ List.mem_cons_self))]

/-! ### The call -/

/-- The result of a call that wrote the whole batch. -/
theorem result_valid (request : MarketObservationIngestionRequest)
    (fetched : MarketObservationFetchResult) :
    MarketObservationIngestionResultFields.errors
      { cityCode := request.cityCode
        sourceObservationCount := fetched.observationCount
        persistedObservationCount := fetched.observations.length
        observationIds := firstOccurrences (fetched.observations.map fun o => o.observationId) }
      = [] := by
  exact (thenModel_eq_nil.mp request.valid).1

/-- The result of a call that wrote the whole batch. -/
def resultOf (request : MarketObservationIngestionRequest) (fetched : MarketObservationFetchResult) :
    MarketObservationIngestionResult :=
  ⟨_, result_valid request fetched⟩

/-- **What a call can do.** It refuses the batch before any write, or writes what storage takes of it. -/
theorem ingest_cases (provider : Str) (table : MarketObservationTable)
    (request : MarketObservationIngestionRequest)
    (fetch : Except Str MarketObservationFetchResult) :
    (∃ message, fetch = .error message ∧ ingest provider table request fetch =
        ⟨table, .error (.providerFetch provider request.cityCode message)⟩) ∨
    ∃ fetched, fetch = .ok fetched ∧
      ((∃ message, (∃ o ∈ fetched.observations, o.cityCode ≠ request.cityCode) ∧
        ingest provider table request fetch =
          ⟨table, .error (.providerContract provider request.cityCode message)⟩) ∨
      (∀ o ∈ fetched.observations, o.cityCode = request.cityCode) ∧
        ingest provider table request fetch =
          ⟨written table (taken fetched.observations),
            if ∀ o ∈ fetched.observations, Bindable o then .ok (resultOf request fetched)
            else .error .invalidInput⟩) := by
  cases fetch with
  | error message => exact Or.inl ⟨message, rfl, rfl⟩
  | ok fetched =>
      refine Or.inr ⟨fetched, rfl, ?_⟩
      cases guard : requireRequestedCity provider request.cityCode fetched.observations with
      | error e =>
          have foreign := exists_not_of_refused requireRequestedCity_ok_iff guard
          obtain ⟨message, rfl⟩ := requireRequestedCity_error guard
          exact Or.inl ⟨message, foreign, by simp [ingest, guard]⟩
      | ok _ =>
          refine Or.inr ⟨requireRequestedCity_ok_iff.mp guard, ?_⟩
          simp only [ingest, guard, persistAll_eq, progressAfter]
          by_cases bound : ∀ o ∈ fetched.observations, Bindable o
          · rw [if_pos bound, if_pos bound]
            exact congrArg _ (dif_pos (result_valid request fetched))
          · rw [if_neg bound, if_neg bound]

end MarketObservationIngestionService

end CnPropertyAgent
