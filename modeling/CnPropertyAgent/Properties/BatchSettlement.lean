import CnPropertyAgent.Services.TransactionRuns

/-!
Whether one bad transaction can cost the rest of the batch.

The gates, the canonical model and the columns differ in what they admit. A record
whose dates leave the calendar makes the gates raise, and so does a negative number
of days without a printable numeral; a number of days from 2^31 on passes gates and
model and is refused by the `INTEGER` column, after which nothing more is written.
-/

namespace CnPropertyAgent

open Python Relational

namespace TransactionIngestionService

variable [Runtime]

/-- Each record is written or reported, and nothing accepted is left unwritten. -/
structure SettledBy (request : TransactionIngestionRequest) (tolerance : UnitPriceTolerance)
    (records : List RawTransactionRecord) (table' : TransactionTable)
    (result : TransactionIngestionResult) : Prop where
  each : ∀ record ∈ records,
    (∃ n, outcomeOf request tolerance record = .ok (.inl n) ∧
      TransactionRow.ofModel n.transaction ∈ table'.rows) ∨
    ∃ rejection ∈ result.qualityRejections, RejectionOf record rejection
  written : ∀ id ∈ result.transactionIds,
    ∃ row ∈ table'.rows, row.transactionId = id ∧ row.communityId = request.community.communityId
  counted : result.upsertedCount + result.qualityRejectionCount = records.length

/-- The call returns, and its result settles the batch. -/
def Settles (request : TransactionIngestionRequest) (tolerance : UnitPriceTolerance)
    (fetched : TransactionFetchResult)
    (outcome : Outcome TransactionTable Failure TransactionIngestionResult) : Prop :=
  ∃ result, outcome.result = .ok result ∧
    SettledBy request tolerance fetched.parsed outcome.state result

/-- The gates can be evaluated on every record, and of each id the first record that
passes them has a number of days that an `INTEGER` column holds. -/
def Manageable (request : TransactionIngestionRequest) (tolerance : UnitPriceTolerance)
    (records : List RawTransactionRecord) : Prop :=
  (∀ record ∈ records, ¬ Raises record request.startDate request.endDate) ∧
    Storable request tolerance records

variable {request : TransactionIngestionRequest} {tolerance : UnitPriceTolerance}

/-- A finished call settles its batch. -/
theorem settledBy_finished (table : TransactionTable) {fetched : TransactionFetchResult}
    {outcomes : List NormalizationOutcome}
    (each : fetched.parsed.mapM (outcomeOf request tolerance) = .ok outcomes) :
    SettledBy request tolerance fetched.parsed
      (table.upsertAll TransactionRepository.onConflict
        (TransactionRepository.rowsOf (acceptedTransactions outcomes)))
      (resultOf request fetched outcomes) := by
  refine ⟨?_, ?_, ?_⟩
  · intro record mem
    obtain ⟨done, rest, split⟩ := List.append_of_mem mem
    rw [split] at each
    obtain ⟨ds, o, rs, rfl, before, outcome, -⟩ := mapM_append_cons_eq_ok each
    cases o with
    | inr rejection =>
        exact Or.inr ⟨rejection, mem_emitted.mpr ⟨ds, _, rs, rfl, List.mem_singleton_self _⟩,
          rejectionOf_outcome outcome⟩
    | inl n =>
        by_cases known : n.transaction.transactionId ∈ passingIds ds
        · refine Or.inr ⟨duplicateOf n.transaction,
            mem_emitted.mpr ⟨ds, _, rs, rfl, by simp [reported, known]⟩, ?_⟩
          have facts := normalizationOf_outcome outcome
          exact ⟨facts.source, facts.sourceTransactionId, facts.sourceUrl⟩
        · have accepted : n.transaction ∈ acceptedTransactions (ds ++ Sum.inl n :: rs) :=
            List.mem_map.mpr ⟨n, mem_emitted.mpr ⟨ds, _, rs, rfl, by simp [newlyAccepted, known]⟩, rfl⟩
          exact Or.inl ⟨n, outcome, Table.mem_of_get? (get?_written table (acceptedIds_nodup _) accepted)⟩
  · intro id mem
    obtain ⟨t, accepted, rfl⟩ := List.mem_map.mp mem
    obtain ⟨_, _, _, n, -, outcome, rfl, -⟩ := (mem_acceptedTransactions each).mp accepted
    exact ⟨_, Table.mem_of_get? (get?_written table (acceptedIds_nodup _) accepted), rfl,
      (normalizationOf_outcome outcome).subject⟩
  · rw [← length_of_mapM each]
    exact length_accepted_add_reported outcomes

omit [Runtime] in
/-- A number of days from 2^31 on leaves the rest of the batch unwritten. -/
theorem oversized_days_cost_the_batch :
    ¬ ∀ (_ : Runtime) (provider : Str) (tolerance : UnitPriceTolerance) (table : TransactionTable)
      (request : TransactionIngestionRequest) (fetched : TransactionFetchResult),
      Settles request tolerance fetched (ingest provider tolerance table request (.ok fetched)) := by
  intro settles
  obtain ⟨result, returned, -⟩ := settles sampleRuntime (str "Fake") sampleTolerance (.empty _)
    ⟨⟨communityA, none, none⟩, rfl⟩ ⟨[soldInAges, soldInAMonth], [], 2, by decide⟩
  have raised : (@ingest sampleRuntime (str "Fake") sampleTolerance (.empty _)
      ⟨⟨communityA, none, none⟩, rfl⟩
      (.ok ⟨[soldInAges, soldInAMonth], [], 2, by decide⟩)).result.isOk = false := by decide +kernel
  rw [returned] at raised
  cases raised

/-- **When a batch is settled.** After a fetch that succeeded, the call returns with
every record written or reported exactly when the batch is manageable. -/
theorem settles_iff_manageable (provider : Str) (tolerance : UnitPriceTolerance)
    (table : TransactionTable) (request : TransactionIngestionRequest) (fetched : TransactionFetchResult) :
    Settles request tolerance fetched (ingest provider tolerance table request (.ok fetched)) ↔
      Manageable request tolerance fetched.parsed := by
  rcases ingest_cases provider tolerance table request fetched with
    ⟨⟨record, mem, raises⟩, e, raised⟩ | ⟨evaluable, outcomes, each, ⟨fits, finished⟩ |
      ⟨done, t, rest, split, -, refused, stopped⟩⟩
  · rw [raised]
    constructor
    · rintro ⟨_, returned, _⟩
      cases returned
    · intro manageable
      exact absurd raises (manageable.1 record mem)
  · rw [finished]
    constructor
    · intro _
      exact ⟨evaluable, (storable_iff each).mpr fits⟩
    · intro _
      exact ⟨_, rfl, settledBy_finished table each⟩
  · rw [stopped]
    constructor
    · rintro ⟨_, returned, _⟩
      cases returned
    · intro manageable
      have mem : t ∈ acceptedTransactions outcomes :=
        split ▸ List.mem_append_right done List.mem_cons_self
      exact absurd ((storable_iff each).mp manageable.2 t mem) refused

end TransactionIngestionService

end CnPropertyAgent
