import CnPropertyAgent.Providers.Lianjia.TransactionParser
import CnPropertyAgent.Services.TransactionRuns

/-!
The accounting of a transaction batch from its source rows to the table.

Each row is one parse rejection or one record, each record one verdict of the gates,
and each verdict one written transaction or one reported rejection. Counts, ids,
rejections, warnings and table all follow from the same list of verdicts.
-/

namespace CnPropertyAgent

open Python Relational Lianjia

namespace TransactionIngestionService

/-- What a returned call says and does about a batch with these verdicts. -/
structure AccountedFor (rowCount : Nat) (outcomes : List NormalizationOutcome)
    (before after : TransactionTable) (result : TransactionIngestionResult) : Prop where
  rows : rowCount = result.upsertedCount + result.parseRejectionCount + result.qualityRejectionCount
  parsed : result.parsedCount = result.upsertedCount + result.qualityRejectionCount
  distinct : result.transactionIds.Nodup
  /-- Ids stand in the order of the first record that passes under them. -/
  ordered : result.transactionIds = firstOccurrences (passingIds outcomes)
  /-- What is stored is the normalization of the first record that passes. -/
  stored : ∀ id ∈ result.transactionIds, ∃ n,
    (passing outcomes).find? (fun n => n.transaction.transactionId = id) = some n ∧
    after.get? id = some (TransactionRow.ofModel n.transaction)
  rejections : result.qualityRejections = emitted reported outcomes
  warnings : result.warnings = emitted warned outcomes
  /-- A later record that passes adds one rejection and no warning. -/
  duplicates : ∀ earlier n later, outcomes = earlier ++ .inl n :: later →
    n.transaction.transactionId ∈ passingIds earlier →
    reported earlier (.inl n) = [duplicateOf n.transaction] ∧
    (duplicateOf n.transaction).reason = .duplicateInBatch ∧ warned earlier (.inl n) = []
  /-- No rejected record keeps one that passes from being accepted. -/
  unblocked : ∀ n, .inl n ∈ outcomes → n.transaction.transactionId ∈ result.transactionIds
  others : ∀ id, id ∉ result.transactionIds → after.get? id = before.get? id

variable [Runtime] {request : TransactionIngestionRequest} {tolerance : UnitPriceTolerance}

/-- A call that returns accounts for the rows its batch was parsed from. -/
theorem accountedFor_finished (table : TransactionTable) {fetched : TransactionFetchResult}
    {outcomes : List NormalizationOutcome}
    (each : fetched.parsed.mapM (outcomeOf request tolerance) = .ok outcomes) :
    AccountedFor (fetched.parsedCount + fetched.parseRejectionCount) outcomes table
      (table.upsertAll TransactionRepository.onConflict
        (TransactionRepository.rowsOf (acceptedTransactions outcomes)))
      (resultOf request fetched outcomes) := by
  have verdicts : (acceptedTransactions outcomes).length + (emitted reported outcomes).length =
      fetched.parsedCount := by
    rw [length_accepted_add_reported, length_of_mapM each, FetchResult.parsedCount]
  have accounted : fetched.parsedCount =
      (resultOf request fetched outcomes).upsertedCount +
        (resultOf request fetched outcomes).qualityRejectionCount := verdicts.symm
  have ids : (resultOf request fetched outcomes).transactionIds =
      firstOccurrences (passingIds outcomes) := ids_acceptedTransactions outcomes
  refine ⟨?_, accounted, acceptedIds_nodup outcomes, ids, ?_, rfl, rfl, ?_, ?_, ?_⟩
  · rw [accounted]
    exact Nat.add_right_comm _ _ _
  · intro id mem
    obtain ⟨t, written, rfl⟩ := List.mem_map.mp mem
    obtain ⟨n, accepted, rfl⟩ := List.mem_map.mp written
    refine ⟨n, ?_, get?_written table (acceptedIds_nodup outcomes) written⟩
    rw [← find?_newlyAccepted]
    -- the accepted outcomes are a table under their distinct ids
    have nodup : ((emitted newlyAccepted outcomes).map fun m => m.transaction.transactionId).Nodup :=
      ids_newlyAccepted outcomes ▸ nodup_firstOccurrences _
    exact Table.get?_key (t := ⟨_, nodup⟩) accepted
  · intro earlier n later _ known
    exact ⟨if_pos known, rfl, if_pos known⟩
  · intro n mem
    rw [ids, mem_firstOccurrences, passingIds]
    exact List.mem_map.mpr ⟨n, List.mem_filterMap.mpr ⟨_, mem, rfl⟩, rfl⟩
  · intro id absent
    apply Table.get?_upsertAll_of_forall_ne
    rintro row mem rfl
    obtain ⟨t, written, rfl⟩ := List.mem_map.mp mem
    exact absent (List.mem_map_of_mem written)

/-- **Every source row once.** When the rows are parsed, wrapped and ingested, each row
is one parse rejection, one reported rejection or one written transaction, and what the
result lists and the table holds is told by the verdicts of the gates. -/
theorem rows_accounted {context : LianjiaParseContext} {rows : List Json}
    {parsed : ParseResult RawTransactionRecord} {count : Option Int} {fetched : TransactionFetchResult}
    {table : TransactionTable} {result : TransactionIngestionResult} (provider : Str)
    (parse : parseTransactionRows context rows = .ok parsed)
    (wrap : FetchResult.fromParseResult parsed count = .ok fetched)
    (ingested : (ingest provider tolerance table request (.ok fetched)).result = .ok result) :
    ∃ outcomes, parsed.records.mapM (outcomeOf request tolerance) = .ok outcomes ∧
      AccountedFor rows.length outcomes table (ingest provider tolerance table request (.ok fetched)).state
        result := by
  obtain ⟨rowOutcomes, alone, rfl⟩ := parseRows_eq_ok_iff.mp parse
  obtain ⟨records, rejections⟩ := FetchResult.fromParseResult_ok wrap
  have counted : rows.length = fetched.parsedCount + fetched.parseRejectionCount := by
    rw [FetchResult.parsedCount, FetchResult.parseRejectionCount, records, rejections]
    refine .trans ?_ (buildParseResult_count rowOutcomes).symm
    simpa using congrArg List.length alone
  rw [← records, counted]
  rcases ingest_cases provider tolerance table request fetched with
    ⟨-, e, raised⟩ | ⟨-, outcomes, each, ⟨-, finished⟩ | ⟨_, _, _, -, -, -, stopped⟩⟩
  · rw [raised] at ingested
    cases ingested
  · rw [finished] at ingested ⊢
    cases ingested
    exact ⟨outcomes, each, accountedFor_finished table each⟩
  · rw [stopped] at ingested
    cases ingested

omit [Runtime] in
/-- A deal under the provider id 101. -/
def dealRow : Json :=
  .object [(str "链家编号", .text (str "101")), (str "成交日期", .text (str "2020-01-01")),
    (str "面积", .text (str "89")), (str "总价", .text (str "300万"))]

omit [Runtime] in
/-- One deal twice and a row that is no mapping. -/
theorem rows_accounted_repeated :
    ∃ fetched outcomes result, AccountedFor 3 outcomes (.empty _)
      (@ingest sampleRuntime (str "Fake") sampleTolerance (.empty _) ⟨⟨communityA, none, none⟩, rfl⟩
        (.ok fetched)).state result := by
  have returns : (do
      let parsed ← @parseTransactionRows sampleRuntime sampleContext [dealRow, dealRow, .null]
      let fetched ← FetchResult.fromParseResult parsed none
      (@ingest sampleRuntime (str "Fake") sampleTolerance (.empty _) ⟨⟨communityA, none, none⟩, rfl⟩
        (.ok fetched)).result).isOk = true := by decide +kernel
  obtain ⟨result, all⟩ := exists_eq_ok returns
  obtain ⟨parsed, parse, rest⟩ := eq_ok_of_bind all
  obtain ⟨fetched, wrap, ingested⟩ := eq_ok_of_bind rest
  obtain ⟨outcomes, -, accounted⟩ := @rows_accounted sampleRuntime _ _ _ _ _ _ _ _ _ _ parse wrap ingested
  exact ⟨fetched, outcomes, result, accounted⟩

end TransactionIngestionService

end CnPropertyAgent
