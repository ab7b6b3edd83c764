import CnPropertyAgent.Relational.Parts
import CnPropertyAgent.Services.CommunityEvidence
import CnPropertyAgent.Services.TransactionRuns

/-!
The transactions that a query reads after any calls.

A call that returns writes what it accepts; one that a column stops writes what it accepts
ahead of that; and one that raises earlier writes nothing. The table is the log of these,
with the last version of each transaction.
-/

namespace CnPropertyAgent

open Python Relational

namespace TransactionIngestionService

variable [Runtime]

/-- What a call writes: of what it accepts, all ahead of the first that no column holds. -/
def writtenBy (c : TransactionIngestCall) : List Transaction :=
  match c.fetch with
  | .error _ => []
  | .ok fetched =>
      match fetched.parsed.mapM (outcomeOf c.request c.tolerance) with
      | .error _ => []
      | .ok outcomes => (acceptedTransactions outcomes).takeWhile fun t => (TransactionRow.ofModel t).Fits

/-- The log of a sequence of calls. -/
def writtenByAll (calls : List TransactionIngestCall) : List Transaction := calls.flatMap writtenBy

theorem outcomeOf_raises {request : TransactionIngestionRequest} (tolerance : UnitPriceTolerance)
    {record : RawTransactionRecord} (raises : Raises record request.startDate request.endDate) :
    ∃ e, outcomeOf request tolerance record = .error e := by
  rcases normalizeTransaction_cases record request.community request.startDate request.endDate tolerance with
    ⟨-, e, raised⟩ | ⟨passes, -⟩
  · exact ⟨_, raised⟩
  · exact absurd raises passes

/-- A batch with a record that raises has no outcomes. -/
theorem mapM_outcomeOf_raises {request : TransactionIngestionRequest} (tolerance : UnitPriceTolerance)
    {records : List RawTransactionRecord} {record : RawTransactionRecord} (mem : record ∈ records)
    (raises : Raises record request.startDate request.endDate) :
    ∃ e, records.mapM (outcomeOf request tolerance) = .error e := by
  obtain ⟨e, raised⟩ := outcomeOf_raises tolerance raises
  cases each : records.mapM (outcomeOf request tolerance) with
  | error e => exact ⟨e, rfl⟩
  | ok outcomes =>
      obtain ⟨done, rest, rfl⟩ := List.append_of_mem mem
      obtain ⟨-, later, -, -, behind⟩ := mapM_append_eq_ok each
      obtain ⟨o, -, -, outcome, -⟩ := mapM_cons_eq_ok.mp behind
      cases raised.symm.trans outcome

/-- What the gating loop of a call leaves to be written. -/
def gatedValues (c : TransactionIngestCall) : List Transaction :=
  match c.fetch with
  | .error _ => []
  | .ok fetched =>
      match runAll (gateRecord c.request c.tolerance) ⟨.empty, [], []⟩ fetched.parsed with
      | .error _ => []
      | .ok gated => gated.accepted.values

omit [Runtime] in
/-- What can be bound is stored if the columns hold it. -/
theorem takeWhile_storable {transactions : List Transaction}
    (plain : ∀ t ∈ transactions, PlainTexts (TransactionRow.ofModel t).texts) :
    (transactions.takeWhile fun t => (TransactionRow.ofModel t).Storable) =
      transactions.takeWhile fun t => (TransactionRow.ofModel t).Fits := by
  induction transactions with
  | nil => rfl
  | cons t rest ih =>
      have same : (TransactionRow.ofModel t).Storable ↔ (TransactionRow.ofModel t).Fits :=
        and_iff_right (plain t List.mem_cons_self)
      rw [List.takeWhile_cons, List.takeWhile_cons, decide_eq_decide.mpr same,
        ih fun other mem => plain other (List.mem_cons_of_mem t mem)]

/-- The loop leaves the accepted transactions, or nothing when a record raises. -/
theorem takeWhile_gatedValues (c : TransactionIngestCall) :
    ((gatedValues c).takeWhile fun t => (TransactionRow.ofModel t).Storable) = writtenBy c := by
  unfold gatedValues writtenBy
  cases c.fetch with
  | error message => rfl
  | ok fetched =>
      dsimp only
      have start : GatedBy [] ⟨.empty, [], []⟩ := ⟨rfl, rfl, rfl⟩
      rcases gateAll_from c.request c.tolerance fetched.parsed start with
        ⟨⟨record, mem, raises⟩, e, raised⟩ | ⟨-, outcomes, gated, each, ran, inv⟩
      · obtain ⟨e, none_⟩ := mapM_outcomeOf_raises c.tolerance mem raises
        rw [raised, none_]
        rfl
      · have values : gated.accepted.values = acceptedTransactions outcomes := by
          rw [Dict.values, inv.accepted, List.map_map]
          rfl
        rw [ran, each]
        dsimp only
        rw [values]
        exact takeWhile_storable fun t mem => plainTexts_of_accepted each mem

omit [Runtime] in
theorem state_upsertMany (table : TransactionTable) (transactions : List Transaction) :
    (TransactionRepository.upsertMany table transactions).state =
      table.upsertAll TransactionRepository.onConflict (TransactionRepository.rowsOf
        (transactions.takeWhile fun t => (TransactionRow.ofModel t).Storable)) := by
  rcases TransactionRepository.upsertMany_cases table transactions with
    ⟨fits, written⟩ | ⟨done, t, rest, rfl, fits, refused, written⟩
  · rw [written, List.takeWhile_eq_self_iff.mpr fun t mem => decide_eq_true (fits t mem)]
  · rw [written, List.takeWhile_append_of_pos fun t mem => decide_eq_true (fits t mem),
      List.takeWhile_cons_of_neg (by simpa using refused), List.append_nil]

/-- A whole call writes what the loop leaves, up to the first that a column refuses. -/
theorem state_ingest (table : TransactionTable) (c : TransactionIngestCall) :
    after table c = (TransactionRepository.upsertMany table (gatedValues c)).state := by
  unfold after ingest gatedValues
  cases c.fetch with
  | error message => rfl
  | ok fetched =>
      dsimp only
      cases runAll (gateRecord c.request c.tolerance) ⟨.empty, [], []⟩ fetched.parsed with
      | error e => rfl
      | ok gated =>
          dsimp only
          cases upserted : TransactionRepository.upsertMany table gated.accepted.values with
          | mk table' result => cases result <;> rfl

/-- A call writes its part of the log. -/
theorem after_eq_written (table : TransactionTable) (c : TransactionIngestCall) :
    after table c = table.upsertAll TransactionRepository.onConflict
      (TransactionRepository.rowsOf (writtenBy c)) := by
  rw [state_ingest, state_upsertMany, takeWhile_gatedValues]

/-- **The log determines the table.** -/
theorem afterAll_eq_written (calls : List TransactionIngestCall) :
    afterAll calls = Table.upsertAll TransactionRepository.onConflict (.empty _)
      (TransactionRepository.rowsOf (writtenByAll calls)) := by
  induction calls using List.reverseRecOn with
  | nil => rfl
  | append_singleton calls c ih =>
      have step : afterAll (calls ++ [c]) = after (afterAll calls) c := List.foldl_append
      rw [step, ih, after_eq_written, ← Table.upsertAll_append, writtenByAll, writtenByAll, List.flatMap_append,
        List.flatMap_singleton, TransactionRepository.rowsOf, TransactionRepository.rowsOf,
        TransactionRepository.rowsOf, List.map_append]

/-- The version of a transaction that was written last. -/
def lastVersion (log : List Transaction) (transactionId : Str) : Option Transaction :=
  (log.filter fun t => t.transactionId = transactionId).getLast?

theorem get?_afterAll_written (calls : List TransactionIngestCall) (transactionId : Str) :
    (afterAll calls).get? transactionId =
      (lastVersion (writtenByAll calls) transactionId).map TransactionRow.ofModel := by
  rw [afterAll_eq_written, Table.get?_upsertAll_of_overwrites TransactionRepository.onConflict_overwrites,
    Table.get?_empty, Option.or_none, TransactionRepository.rowsOf, List.filter_map, List.getLast?_map]
  rfl

/-- A transaction is stored exactly when it is the last version under its id. -/
theorem mem_afterAll_written {calls : List TransactionIngestCall} {t : Transaction} :
    TransactionRow.ofModel t ∈ (afterAll calls).rows ↔
      lastVersion (writtenByAll calls) t.transactionId = some t := by
  constructor
  · intro stored
    have found := Table.get?_key stored
    rw [get?_afterAll_written] at found
    obtain ⟨t', last, same⟩ := Option.map_eq_some_iff.mp found
    cases TransactionRow.ofModel_injective same
    exact last
  · intro last
    have found := get?_afterAll_written calls t.transactionId
    rw [last] at found
    exact Table.mem_of_get? found

theorem readable_afterAll_written (calls : List TransactionIngestCall) :
    EncodedBy TransactionRow.ofModel (afterAll calls).rows := by
  rw [afterAll_eq_written]
  exact EncodedBy.upsertAll_of_overwrites TransactionRepository.onConflict_overwrites encodedBy_nil _

end TransactionIngestionService

/-- The query asks for the community and the dates of the transaction. -/
def TransactionQuery.Selects (q : TransactionQuery) (t : Transaction) : Prop :=
  t.communityId = q.communityId ∧ (∀ first ∈ q.startDate, first ≤ t.dealDate) ∧
    ∀ last ∈ q.endDate, t.dealDate ≤ last

/-- The newest deal is read first, and deals of one day in the order of their ids. -/
def Transaction.Precedes (a b : Transaction) : Prop :=
  b.dealDate < a.dealDate ∨ a.dealDate = b.dealDate ∧ a.transactionId < b.transactionId

namespace TransactionQueryService

variable {table : TransactionTable} {query : TransactionQuery}

/-- The rows that the `WHERE` clause of a query selects. -/
def selected (table : TransactionTable) (query : TransactionQuery) : List TransactionRow :=
  table.rows.filter fun row => row.communityId = query.communityId &&
    whenGiven query.startDate (· ≤ row.dealDate) && whenGiven query.endDate (row.dealDate ≤ ·)

theorem mem_selected {t : Transaction} :
    TransactionRow.ofModel t ∈ selected table query ↔
      TransactionRow.ofModel t ∈ table.rows ∧ query.Selects t := by
  simp [selected, TransactionQuery.Selects, whenGiven, Option.all_eq_true, TransactionRow.ofModel, and_assoc]

/-- A query reads the rows it selects, since its community can be bound. -/
theorem getTransactions_eq (table : TransactionTable) (query : TransactionQuery) :
    getTransactions table query =
      (orderBy TransactionRepository.listOrder (selected table query)).mapM TransactionRow.toModel := by
  rw [getTransactions, TransactionRepository.listForCommunity,
    bindTexts_ok (plainTexts_singleton.mpr query.encodable_communityId)]
  rfl

/-- **The read.** A query returns the stored transactions it selects, in order. -/
theorem getTransactions_ok (readable : EncodedBy TransactionRow.ofModel table.rows) (query : TransactionQuery) :
    ∃ items, getTransactions table query = .ok items ∧
      (∀ t, t ∈ items ↔ TransactionRow.ofModel t ∈ table.rows ∧ query.Selects t) ∧
      items.Pairwise Transaction.Precedes := by
  have encoded : EncodedBy TransactionRow.ofModel
      (orderBy TransactionRepository.listOrder (selected table query)) :=
    readable.of_subset fun row mem => (List.mem_filter.mp (mem_orderBy.mp mem)).1
  obtain ⟨items, decoded, rows⟩ := encoded.mapM_decode TransactionRow.toModel_ofModel
  refine ⟨items, (getTransactions_eq table query).trans decoded, ?_, ?_⟩
  · intro t
    rw [mem_iff_of_map_eq TransactionRow.ofModel_injective rows, mem_orderBy, mem_selected]
  · have byId : ∀ a b, TransactionRepository.listOrder a = TransactionRepository.listOrder b →
        a.transactionId = b.transactionId := fun a b same => congrArg (fun place => (ofLex place).2) same
    have sorted := pairwise_lt_orderBy (table.order_nodup (p := fun row =>
      row.communityId = query.communityId && whenGiven query.startDate (· ≤ row.dealDate) &&
        whenGiven query.endDate (row.dealDate ≤ ·)) byId)
    change (orderBy TransactionRepository.listOrder (selected table query)).Pairwise _ at sorted
    rw [← rows, List.pairwise_map] at sorted
    apply sorted.imp
    intro a b lt
    rcases Prod.Lex.toLex_lt_toLex.mp lt with later | ⟨same, lt⟩
    · exact Or.inl (OrderDual.toDual_lt_toDual.mp later)
    · exact Or.inr ⟨OrderDual.toDual.injective same, lt⟩

/-- A query sees the rows of its community, and not the order they are stored in. -/
theorem getTransactions_congr {table' : TransactionTable}
    (same : ∀ row : TransactionRow, row.communityId = query.communityId →
      (row ∈ table.rows ↔ row ∈ table'.rows)) :
    getTransactions table query = getTransactions table' query := by
  have byId : ∀ a b, TransactionRepository.listOrder a = TransactionRepository.listOrder b →
      a.transactionId = b.transactionId := fun a b eq => congrArg (fun place => (ofLex place).2) eq
  rw [getTransactions_eq, getTransactions_eq]
  apply congrArg (List.mapM TransactionRow.toModel)
  apply Table.orderBy_filter_congr byId
  intro row
  simp only [Bool.and_eq_true, decide_eq_true_eq]
  exact and_congr_left fun selected => same row selected.1.1

end TransactionQueryService

open TransactionIngestionService

/-- **The transactions.** After any sequence of calls, raising ones included, a query returns, of what the
calls wrote, the last version of each transaction if the query selects it, each once and in
order. -/
theorem TransactionQueryService.transactions_are_log [Runtime] (calls : List TransactionIngestCall)
    (query : TransactionQuery) :
    ∃ items, getTransactions (afterAll calls) query = .ok items ∧
      (∀ t, t ∈ items ↔ lastVersion (writtenByAll calls) t.transactionId = some t ∧ query.Selects t) ∧
      items.Pairwise Transaction.Precedes := by
  obtain ⟨items, read, mem, sorted⟩ := getTransactions_ok (readable_afterAll_written calls) query
  refine ⟨items, read, ?_, sorted⟩
  intro t
  rw [mem, mem_afterAll_written]

end CnPropertyAgent
