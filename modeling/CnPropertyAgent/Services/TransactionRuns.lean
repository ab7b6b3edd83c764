import CnPropertyAgent.Services.TransactionIngestion
import CnPropertyAgent.Storage.Reads

/-!
Runs of transaction ingestion, calls that raise included.
-/

namespace CnPropertyAgent

open Python Relational

/-! ### Sample batches -/

section Samples

/-- Two percent, the default. -/
def sampleTolerance : UnitPriceTolerance :=
  ⟨defaultUnitPriceTolerance, by decide +kernel, by decide +kernel, by decide +kernel⟩

def sampleDate : Date := ⟨738885, by decide, by decide⟩

def sampleRecordFields (sourceTransactionId : Str) (daysOnMarket : Int) : RawTransactionFields where
  source := str "lianjia"
  sourceTransactionId := some sourceTransactionId
  sourceUrl := none
  dealDate := some sampleDate
  areaSqm := some 89
  layout := none
  floorBucket := none
  orientation := none
  builtYear := none
  initialListingPriceCny := none
  dealPriceCny := some 3000000
  unitPriceCnySqm := none
  daysOnMarket := some daysOnMarket
  rawPayloadRef := none
  collectedAt := sampleCollectedAt.instant
  parserVersion := str "v1"

/-- A deal closed after a month. -/
def soldInAMonth : RawTransactionRecord :=
  ⟨sampleRecordFields (str "101") 30, by decide +kernel, by decide +kernel⟩

/-- A deal with a number of days that no `INTEGER` column holds. -/
def soldInAges : RawTransactionRecord :=
  ⟨sampleRecordFields (str "102") (2 ^ 31), by decide +kernel, by decide +kernel⟩

end Samples

/-- One call, with what the provider answered. -/
structure TransactionIngestCall where
  provider : Str
  tolerance : UnitPriceTolerance
  request : TransactionIngestionRequest
  fetch : Except Str TransactionFetchResult

namespace TransactionIngestionService

variable [Runtime]

/-- What a call leaves of the table, whether it returns or raises. -/
def after (table : TransactionTable) (c : TransactionIngestCall) : TransactionTable :=
  (ingest c.provider c.tolerance table c.request c.fetch).state

/-- What a sequence of calls leaves of the empty table. -/
def afterAll (calls : List TransactionIngestCall) : TransactionTable := calls.foldl after (.empty _)

section

variable {request : TransactionIngestionRequest} {tolerance : UnitPriceTolerance}
  {records : List RawTransactionRecord} {outcomes : List NormalizationOutcome}

omit [Runtime] in
theorem acceptedTransactions_append_singleton (outcomes : List NormalizationOutcome)
    (o : NormalizationOutcome) : acceptedTransactions (outcomes ++ [o]) =
      acceptedTransactions outcomes ++ (newlyAccepted outcomes o).map (·.transaction) := by
  rw [acceptedTransactions, emitted_append_singleton, List.map_append, acceptedTransactions]

omit [Runtime] in
theorem acceptedTransactions_initial (outcomes outcomes' : List NormalizationOutcome) :
    acceptedTransactions outcomes <+: acceptedTransactions (outcomes ++ outcomes') :=
  (emitted_initial outcomes outcomes').map _

/-- The accepted transactions ahead of one of them are those of the records ahead. -/
theorem exists_records_of_split (each : records.mapM (outcomeOf request tolerance) = .ok outcomes)
    {done rest : List Transaction} {t : Transaction}
    (split : acceptedTransactions outcomes = done ++ t :: rest) :
    ∃ taken ds, taken <+: records ∧ taken.mapM (outcomeOf request tolerance) = .ok ds ∧
      acceptedTransactions ds = done := by
  have mem : t ∈ acceptedTransactions outcomes := split ▸ List.mem_append_right done List.mem_cons_self
  obtain ⟨n, emits, rfl⟩ := List.mem_map.mp mem
  obtain ⟨ds, o, rs, rfl, new⟩ := mem_emitted.mp emits
  obtain ⟨taken, record, after, rfl, before, -⟩ := mapM_eq_ok_append_cons each
  refine ⟨taken, ds, List.prefix_append _ _, before, ?_⟩
  have only : newlyAccepted ds o = [n] := by
    cases o with
    | inr rejection => cases new
    | inl m =>
        unfold newlyAccepted at new ⊢
        dsimp only at new ⊢
        split at new
        · cases new
        · rw [List.mem_singleton.mp new, if_neg (by assumption)]
  obtain ⟨later, accepted⟩ := acceptedTransactions_initial (ds ++ [o]) rs
  rw [acceptedTransactions_append_singleton, only, List.append_assoc, ← List.append_cons] at accepted
  have nodup := (acceptedIds_nodup (ds ++ o :: rs)).of_map
  rw [← accepted] at nodup split
  have fresh := List.nodup_middle.mp nodup
  rw [List.nodup_cons, List.mem_append, not_or] at fresh
  exact ((List.append_cons_inj_of_notMem fresh.1.1 fresh.1.2).mp split).1

end

/-- **What a call writes.** Where nothing raises before the first write, what it
accepts of the parts of the batch, from its start, that storage takes. -/
theorem after_cases (table : TransactionTable) (c : TransactionIngestCall) :
    (after table c = table ∧ ∀ fetched, c.fetch = .ok fetched →
      ∃ record ∈ fetched.parsed, Raises record c.request.startDate c.request.endDate) ∨
    ∃ fetched, c.fetch = .ok fetched ∧
      (∀ record ∈ fetched.parsed, ¬ Raises record c.request.startDate c.request.endDate) ∧
      ∃ written : List Transaction, (written.map (·.transactionId)).Nodup ∧
        after table c = table.upsertAll TransactionRepository.onConflict
          (TransactionRepository.rowsOf written) ∧
        ∀ t, t ∈ written ↔ ∃ taken ds, taken <+: fetched.parsed ∧
          taken.mapM (outcomeOf c.request c.tolerance) = .ok ds ∧
          Storable c.request c.tolerance taken ∧ t ∈ acceptedTransactions ds := by
  unfold after
  rcases hfetch : c.fetch with message | fetched
  · refine Or.inl ⟨rfl, ?_⟩
    intro _ h
    cases h
  rcases ingest_cases c.provider c.tolerance table c.request fetched with
    ⟨raises, e, raised⟩ | ⟨evaluable, outcomes, each, ⟨fits, finished⟩ |
      ⟨done, t, rest, split, fits, refused, stopped⟩⟩
  · refine Or.inl ⟨by rw [raised], ?_⟩
    intro _ h
    cases h
    exact raises
  · refine Or.inr ⟨fetched, rfl, evaluable, acceptedTransactions outcomes, ?_, by rw [finished], ?_⟩
    · exact acceptedIds_nodup outcomes
    intro t
    constructor
    · intro mem
      exact ⟨_, _, List.prefix_refl _, each, (storable_iff each).mpr fits, mem⟩
    · rintro ⟨taken, ds, ⟨later, batch⟩, before, -, mem⟩
      rw [← batch] at each
      obtain ⟨ds', rs, rfl, before', -⟩ := mapM_append_eq_ok each
      cases before.symm.trans before'
      exact (acceptedTransactions_initial ds rs).subset mem
  · refine Or.inr ⟨fetched, rfl, evaluable, done, ?_, by rw [stopped], ?_⟩
    · have nodup := acceptedIds_nodup outcomes
      rw [split] at nodup
      exact nodup.sublist ((List.sublist_append_left done _).map _)
    intro t'
    constructor
    · intro mem
      obtain ⟨taken, ds, initial, before, rfl⟩ := exists_records_of_split each split
      exact ⟨taken, ds, initial, before, (storable_iff before).mpr fits, mem⟩
    · rintro ⟨taken, ds, ⟨later, batch⟩, before, storable, mem⟩
      rw [← batch] at each
      obtain ⟨ds', rs, rfl, before', -⟩ := mapM_append_eq_ok each
      cases before.symm.trans before'
      have initial := acceptedTransactions_initial ds rs
      rw [split] at initial
      rcases initial_or_holds initial with within | beyond
      · exact within.subset mem
      · -- the refused transaction is not among those that fit
        have held : t ∈ acceptedTransactions ds := beyond.subset (by simp)
        exact absurd ((storable_iff before).mp storable t held) refused

end TransactionIngestionService

end CnPropertyAgent
