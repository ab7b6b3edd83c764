import CnPropertyAgent.Properties.AskingPriceHistory
import CnPropertyAgent.Properties.ComposedRuns
import CnPropertyAgent.Properties.RowGrammar
import CnPropertyAgent.Properties.TransactionSeries
import CnPropertyAgent.Services.CommunityEvidence

/-!
From recorded files to what is read back.

The log of a run is what the rows of its usable files write, call after call, as far as storage
takes it. The history of a listing has, for each instant at which the log has the listing, the
last observation of it; a transaction query has the last version of each transaction, of those
that the gates let through.
-/

namespace CnPropertyAgent

open Python Relational Lianjia

/-! ### Listings -/

namespace RecordedListingCall

open ListingIngestionService

variable [CharacterRuntime] [Pydantic] {limit : Nat}

/-- What storage takes of the observations as a whole: those ahead of the first with a text that it
cannot bind. -/
def stored (observations : List ListingObservation) : List ListingObservation :=
  observations.takeWhile fun o => PlainObservation o

/-- The file is usable for the request, and its rows write observations of which these are stored. -/
def Gives (limit : Nat) (call : RecordedListingCall) (observations : List ListingObservation) : Prop :=
  ∃ snapshot parsed, Usable limit call.file call.community snapshot ∧
    WrittenBy (WritesListing snapshot.parseContext) snapshot.rows parsed ∧ observations = stored parsed

/-- The observations that a call stores, if its file is usable. -/
def answer (limit : Nat) (call : RecordedListingCall) : Option (List ListingObservation) :=
  (call.fetch limit).toOption.map fun fetched => stored fetched.parsed

theorem answer_iff_gives {call : RecordedListingCall} {observations : List ListingObservation} :
    call.answer limit = some observations ↔ call.Gives limit observations := by
  constructor
  · intro answered
    cases fetched : call.fetch limit with
    | ok batch =>
        obtain ⟨snapshot, usable, from_⟩ := fetchCurrentListings_ok_iff.mp fetched
        simp only [answer, fetched, Except.toOption, Option.map_some, Option.some_inj] at answered
        exact ⟨snapshot, batch.parsed, usable,
          (parseListingRows_records_iff.mp ⟨_, from_.parsed, rfl⟩).2, answered.symm⟩
    | error error =>
        simp only [answer, fetched, Except.toOption, Option.map_none, reduceCtorEq] at answered
  · rintro ⟨snapshot, parsed, usable, written, rfl⟩
    obtain ⟨batch, fetched, from_⟩ : ∃ batch, call.fetch limit = .ok batch ∧ FetchedFrom snapshot batch :=
      exists_fetchedFrom call.path usable
    obtain ⟨result, same, rfl⟩ := parseListingRows_records_iff.mpr ⟨usable.2.2, written⟩
    cases from_.parsed.symm.trans same
    simp only [answer, fetched, Except.toOption, Option.map_some]

omit [CharacterRuntime] [Pydantic] in
/-- Of the snapshots in a run of statements, those of stored observations are reached. -/
theorem snapshots_bindable (observations : List ListingObservation) :
    (bindable (observations.flatMap statements)).filterMap Sum.getRight? =
      (stored observations).map (·.snapshot) := by
  induction observations with
  | nil => rfl
  | cons o rest ih =>
      have pair : (o :: rest).flatMap statements = .inl o.listing :: .inr o.snapshot :: rest.flatMap statements :=
        rfl
      rw [pair, bindable, stored]
      by_cases listed : Bindable (.inl o.listing)
      · by_cases seen : Bindable (.inr o.snapshot)
        · have plain : PlainObservation o := ⟨listed, seen⟩
          rw [List.takeWhile_cons_of_pos (by simpa using listed),
            List.takeWhile_cons_of_pos (by simpa using seen), List.takeWhile_cons_of_pos (by simpa using plain)]
          exact congrArg (o.snapshot :: ·) ih
        · have refused : ¬ PlainObservation o := fun plain => seen plain.2
          rw [List.takeWhile_cons_of_pos (by simpa using listed),
            List.takeWhile_cons_of_neg (by simpa using seen), List.takeWhile_cons_of_neg (by simpa using refused)]
          rfl
      · have refused : ¬ PlainObservation o := fun plain => listed plain.1
        rw [List.takeWhile_cons_of_neg (by simpa using listed),
          List.takeWhile_cons_of_neg (by simpa using refused)]
        rfl

variable (limit) in
/-- A run takes the snapshots that its files give. -/
theorem snapshots_written (calls : List RecordedListingCall) :
    (calls.flatMap (written limit)).filterMap Sum.getRight? =
      (calls.filterMap (answer limit)).flatten.map (·.snapshot) := by
  induction calls with
  | nil => rfl
  | cons call calls ih =>
      rw [List.flatMap_cons, List.filterMap_append, ih]
      cases fetched : call.fetch limit with
      | ok batch =>
          have answered : call.answer limit = some (stored batch.parsed) := by
            simp only [answer, fetched, Except.toOption, Option.map_some]
          rw [written, fetched, List.filterMap_cons_some answered, List.flatten_cons, List.map_append,
            snapshots_bindable]
      | error error =>
          have silent : call.answer limit = none := by
            simp only [answer, fetched, Except.toOption, Option.map_none]
          rw [written, fetched, List.filterMap_cons_none silent]
          rfl

end RecordedListingCall

section

open RecordedListingCall ListingIngestionService

/-- **Recorded histories.** After any calls over any files, what is stored of the observations that the
rows of the usable files write, call after call, is determined, and the history of a listing has
in order of time, for each instant, the last of them that is about the listing at that instant. -/
theorem recorded_history_as_written [CharacterRuntime] [Pydantic] (limit : Nat) (failureText : Failure → Str)
    (calls : List RecordedListingCall) :
    ∃ batches, (∀ other, WrittenBy (Gives limit) calls other ↔ other = batches) ∧ ∀ listingId, ∃ history,
      ListingQueryService.getListingHistory (afterAll limit failureText calls) listingId =
          whenBound [listingId] history ∧
        (history.Pairwise fun a b => a.snapshotAt < b.snapshotAt) ∧
        ∀ s, s ∈ history ↔ s.listingId = listingId ∧
          (lastDelivered batches.flatten listingId s.snapshotAt).map (·.snapshot.stored) = some s := by
  have ran := runAll_written limit failureText calls
  have encoded := encodedBy_of_execute encodedBy_nil ran
  refine ⟨_, fun other => writtenBy_iff fun call observations => answer_iff_gives, ?_⟩
  intro listingId
  obtain ⟨history, read, rows⟩ := ListingRepository.exists_history encoded listingId
  refine ⟨history, read, ListingRepository.pairwise_of_rows_history rows, ?_⟩
  intro s
  have log : (afterAll limit failureText calls).listingSnapshot =
      (Table.empty SnapshotRow.key).upsertAll ListingRepository.snapshotOnConflict
        (snapshotRows (calls.filterMap (answer limit)).flatten) := by
    rw [(tables_of_execute ran).2, snapshots_written, List.map_map]
    rfl
  rw [ListingRepository.mem_of_rows_history rows, log, mem_upsertAll_snapshotRows, and_comm]
  constructor
  · rintro ⟨rfl, last⟩
    exact ⟨rfl, last⟩
  · rintro ⟨rfl, last⟩
    exact ⟨rfl, last⟩

end

/-! ### Transactions -/

namespace ComposedCall

open TransactionIngestionService

variable [CharacterRuntime] [Pydantic] {limit : Nat} {composed : RecordedLianjiaTransactionProvider}

omit [Pydantic] in
/-- What ingestion stores of a batch of records: of the accepted ones, all ahead of the first that
no column holds, and nothing when a record raises. -/
def stored (call : ComposedCall) (records : List RawTransactionRecord) : List Transaction :=
  match records.mapM (outcomeOf call.request call.tolerance) with
  | .error _ => []
  | .ok outcomes => (acceptedTransactions outcomes).takeWhile fun t => (TransactionRow.ofModel t).Fits

/-- The rows of the file write records of which the transactions are stored. -/
def Gives (limit : Nat) (call : ComposedCall) (transactions : List Transaction) : Prop :=
  ∃ snapshot records, UsableTransactions limit call.file snapshot ∧
    WrittenBy (WritesTransaction snapshot.parseContext) snapshot.rows records ∧
    transactions = call.stored records

theorem answered_iff_gives {call : ComposedCall} {transactions : List Transaction} :
    (call.answered limit composed).map writtenBy = some transactions ↔ call.Gives limit transactions := by
  constructor
  · intro answer
    cases fetched : call.fetch limit composed with
    | ok batch =>
        obtain ⟨snapshot, usable⟩ := usable_of_fetchTransactions fetched
        obtain ⟨batch', again, from_⟩ : ∃ batch', call.fetch limit composed = .ok batch' ∧
            TransactionsFrom snapshot batch' := exists_transactionsFrom usable
        cases fetched.symm.trans again
        simp only [answered, fetched, Option.map_some, Option.some_inj] at answer
        exact ⟨snapshot, batch.parsed, usable,
          (parseTransactionRows_records_iff.mp ⟨_, from_.parsed, rfl⟩).2, answer.symm⟩
    | error error =>
        simp only [answered, fetched, Option.map_none, reduceCtorEq] at answer
  · rintro ⟨snapshot, records, usable, written, rfl⟩
    obtain ⟨batch, fetched, from_⟩ : ∃ batch, call.fetch limit composed = .ok batch ∧
        TransactionsFrom snapshot batch := exists_transactionsFrom usable
    obtain ⟨result, parsed, rfl⟩ := parseTransactionRows_records_iff.mpr ⟨usable.2, written⟩
    cases from_.parsed.symm.trans parsed
    simp only [answered, fetched, Option.map_some]
    rfl

variable (limit composed) in
/-- A run writes what its files give. -/
theorem writtenByAll_made (failureText : Failure → Str) (calls : List ComposedCall) :
    writtenByAll (calls.map (made limit failureText composed)) =
      (calls.filterMap fun call => (call.answered limit composed).map writtenBy).flatten := by
  induction calls with
  | nil => rfl
  | cons call calls ih =>
      rw [writtenByAll, List.map_cons, List.flatMap_cons, ← writtenByAll, ih]
      cases fetched : call.fetch limit composed with
      | ok batch =>
          have answer : (call.answered limit composed).map writtenBy =
              some (writtenBy (call.made limit failureText composed)) := by
            simp only [answered, made, fetched, Option.map_some, Except.mapError]
          simp only [List.filterMap_cons, answer, List.flatten_cons]
      | error error =>
          have silent : (call.answered limit composed).map writtenBy = none := by
            simp only [answered, fetched, Option.map_none]
          have nothing : writtenBy (call.made limit failureText composed) = [] := by
            simp only [writtenBy, made, fetched, Except.mapError]
          simp only [List.filterMap_cons, silent, nothing, List.nil_append]

end ComposedCall

section

open ComposedCall TransactionIngestionService

/-- **Recorded deals.** After any calls over any files, what is stored of the records that the rows of
the usable files write is determined, and a query returns of it the last version of each
transaction if the query selects it, each once and in order. -/
theorem recorded_deals_as_written [CharacterRuntime] [Pydantic] (limit : Nat) (failureText : Failure → Str)
    (composed : RecordedLianjiaTransactionProvider) (calls : List ComposedCall) :
    ∃ batches, (∀ other, WrittenBy (Gives limit) calls other ↔ other = batches) ∧ ∀ query, ∃ items,
      TransactionQueryService.getTransactions (afterAll (calls.map (made limit failureText composed))) query =
          .ok items ∧
        (∀ t, t ∈ items ↔ lastVersion batches.flatten t.transactionId = some t ∧ query.Selects t) ∧
        items.Pairwise Transaction.Precedes := by
  have reads (call : ComposedCall) (transactions : List Transaction) :
      (call.answered limit composed).map writtenBy = some transactions ↔ call.Gives limit transactions :=
    answered_iff_gives
  refine ⟨_, fun other => writtenBy_iff reads, ?_⟩
  intro query
  obtain ⟨items, read, mem, sorted⟩ := TransactionQueryService.getTransactions_ok
    (readable_afterAll_written (calls.map (made limit failureText composed))) query
  refine ⟨items, read, ?_, sorted⟩
  intro t
  rw [mem, mem_afterAll_written, writtenByAll_made]

end

end CnPropertyAgent
