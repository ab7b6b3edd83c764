import CnPropertyAgent.Config.Composition
import CnPropertyAgent.Properties.RecordedRuns
import CnPropertyAgent.Properties.RowAccounting

/-!
Runs of transaction ingestion through the provider that a deployment composes.

Composition refuses whatever cannot deliver, and the file is read again by every call. A file
that is no snapshot by then costs its call the fetch and nothing else; of any other, each row
is accounted for. An empty success is therefore an empty batch, and never a misconfiguration.
-/

namespace CnPropertyAgent

open Python Relational Lianjia

namespace Lianjia

section

variable [Runtime] [Pydantic]

/-- The file is a snapshot of transactions, and the parser gets through its rows. -/
def UsableTransactions (limit : Nat) (file : FileContent) (snapshot : LianjiaTransactionSnapshot) : Prop :=
  (∃ payload, ReadsAs limit file payload ∧ LianjiaTransactionSnapshot.validate payload = .ok snapshot) ∧
    ∀ row ∈ snapshot.rows, TransactionParser.Returns row

/-- The rows of the snapshot, parsed. -/
structure TransactionsFrom (snapshot : LianjiaTransactionSnapshot) (fetched : TransactionFetchResult) : Prop where
  parsed : parseTransactionRows snapshot.parseContext snapshot.rows =
    .ok ⟨fetched.parsed, fetched.parseRejections⟩
  counted : fetched.sourceRowCount = snapshot.rows.length

omit [Pydantic] in
/-- Every row is a record or a rejection. -/
theorem TransactionsFrom.accounted {snapshot : LianjiaTransactionSnapshot} {fetched : TransactionFetchResult}
    (h : TransactionsFrom snapshot fetched) :
    fetched.parsedCount + fetched.parseRejectionCount = snapshot.rows.length := by
  obtain ⟨result, -, parsed, accounted, -⟩ := isolated_iff_returns.mpr ⟨_, h.parsed⟩
  have same := Except.ok.inj (h.parsed.symm.trans parsed)
  rw [← accounted, ← same]
  rfl

variable {limit : Nat} {path : Str} {file : FileContent}

/-- A usable file is fetched as all of its rows. -/
theorem exists_transactionsFrom {snapshot : LianjiaTransactionSnapshot}
    (usable : UsableTransactions limit file snapshot) :
    ∃ fetched, fetchTransactions limit path file = .ok fetched ∧ TransactionsFrom snapshot fetched := by
  obtain ⟨read, returns⟩ := usable
  have loaded : loadTransactionSnapshot limit path file = .ok snapshot :=
    loadTransactionSnapshot_ok_iff.mpr read
  have isolated := (isolated_iff_forall (parseTransactionRow_returns_iff snapshot.parseContext)).mpr returns
  obtain ⟨result, -, parsed, accounted, -⟩ := isolated
  obtain ⟨fetched, wrapped, records, rejections, counted⟩ := FetchResult.fromParseResult_of_count accounted
  refine ⟨fetched, ?_, ?_, counted⟩
  · rw [fetchTransactions, loaded]
    simp only [bind, Except.bind]
    rw [parseTransactionRows, parsed]
    simp only [Except.mapError]
    rw [wrapped]
  · rw [records, rejections]
    exact parsed

/-- What is fetched is a usable file. -/
theorem usable_of_fetchTransactions {fetched : TransactionFetchResult}
    (answered : fetchTransactions limit path file = .ok fetched) :
    ∃ snapshot, UsableTransactions limit file snapshot := by
  obtain ⟨snapshot, loaded, rest⟩ := eq_ok_of_bind answered
  obtain ⟨result, parsed, -⟩ := eq_ok_of_bind rest
  have isolated := isolated_iff_returns.mpr ⟨result, mapError_eq_ok.mp parsed⟩
  exact ⟨snapshot, loadTransactionSnapshot_ok_iff.mp loaded,
    (isolated_iff_forall (parseTransactionRow_returns_iff snapshot.parseContext)).mp isolated⟩

end

end Lianjia

/-! ### Calls -/

/-- A request, with what the path of the provider leads to when it is made. -/
structure ComposedCall where
  file : FileContent
  tolerance : UnitPriceTolerance
  request : TransactionIngestionRequest

namespace ComposedCall

open TransactionIngestionService

/-- `type(self.provider).__name__`. -/
def provider : Str := str "RecordedLianjiaTransactionProvider"

section

variable [Runtime] [Pydantic]

def fetch (limit : Nat) (composed : RecordedLianjiaTransactionProvider) (call : ComposedCall) :
    Except RecordedError TransactionFetchResult :=
  fetchTransactions limit composed.snapshotPath call.file

/-- The call that the service makes. -/
def made (limit : Nat) (failureText : Failure → Str) (composed : RecordedLianjiaTransactionProvider)
    (call : ComposedCall) : TransactionIngestCall :=
  ⟨provider, call.tolerance, call.request, (call.fetch limit composed).mapError (RecordedError.text failureText)⟩

/-- The call with the batch it fetches, if the file is usable. -/
def answered (limit : Nat) (composed : RecordedLianjiaTransactionProvider) (call : ComposedCall) :
    Option TransactionIngestCall :=
  match call.fetch limit composed with
  | .ok fetched => some ⟨provider, call.tolerance, call.request, .ok fetched⟩
  | .error _ => none

/-- What comes of ingesting a snapshot: every row is accounted for, or a record raises before the
first write, or a write meets a number that no column holds. -/
inductive Settles (snapshot : LianjiaTransactionSnapshot) (call : ComposedCall) (before : TransactionTable) :
    Outcome TransactionTable Failure TransactionIngestionResult → Prop
  | returned {after result records outcomes}
      (parsed : parseTransactionRows snapshot.parseContext snapshot.rows = .ok ⟨records, result.parseRejections⟩)
      (verdicts : records.mapM (outcomeOf call.request call.tolerance) = .ok outcomes)
      (counted : result.sourceRowCount = snapshot.rows.length)
      (accounted : AccountedFor snapshot.rows.length outcomes before after result) :
      Settles snapshot call before ⟨after, .ok result⟩
  | raised {records rejections record e}
      (parsed : parseTransactionRows snapshot.parseContext snapshot.rows = .ok ⟨records, rejections⟩)
      (mem : record ∈ records) (raises : Raises record call.request.startDate call.request.endDate) :
      Settles snapshot call before ⟨before, .error (.builtin e)⟩
  | refused {after records rejections outcomes t}
      (parsed : parseTransactionRows snapshot.parseContext snapshot.rows = .ok ⟨records, rejections⟩)
      (verdicts : records.mapM (outcomeOf call.request call.tolerance) = .ok outcomes)
      (mem : t ∈ acceptedTransactions outcomes) (unfit : ¬ (TransactionRow.ofModel t).Fits) :
      Settles snapshot call before ⟨after, .error .conversion⟩

variable {limit : Nat} {failureText : Failure → Str} {composed : RecordedLianjiaTransactionProvider}

/-- A file that is no snapshot costs the call its fetch. -/
theorem unusable_fails (table : TransactionTable) {call : ComposedCall}
    (unusable : ∀ snapshot, ¬ UsableTransactions limit call.file snapshot) :
    call.answered limit composed = none ∧ ∃ message,
      ingest provider call.tolerance table call.request (call.made limit failureText composed).fetch =
        ⟨table, .error (.providerFetch provider call.request.community.communityId message)⟩ := by
  cases answer : call.fetch limit composed with
  | error error => exact ⟨by simp only [answered, answer], _, by simp only [made, answer, Except.mapError]; rfl⟩
  | ok fetched =>
      obtain ⟨snapshot, usable⟩ := usable_of_fetchTransactions answer
      exact absurd usable (unusable snapshot)

/-- A snapshot settles. -/
theorem usable_settles (table : TransactionTable) {call : ComposedCall} {snapshot : LianjiaTransactionSnapshot}
    (usable : UsableTransactions limit call.file snapshot) :
    call.answered limit composed = some (call.made limit failureText composed) ∧
      Settles snapshot call table
        (ingest provider call.tolerance table call.request (call.made limit failureText composed).fetch) := by
  obtain ⟨fetched, answer, from_⟩ : ∃ fetched,
      fetchTransactions limit composed.snapshotPath call.file = .ok fetched ∧
        TransactionsFrom snapshot fetched :=
    exists_transactionsFrom usable
  have same : (call.made limit failureText composed).fetch = .ok fetched := by
    simp only [made, fetch, answer, Except.mapError]
  refine ⟨by simp only [answered, made, fetch, answer, Except.mapError], ?_⟩
  rw [same]
  rcases ingest_cases provider call.tolerance table call.request fetched with
    ⟨⟨record, mem, raises⟩, e, raised⟩ | ⟨-, outcomes, each, ⟨-, finished⟩ |
      ⟨done, t, rest, split, -, unfit, stopped⟩⟩
  · rw [raised]
    exact .raised from_.parsed mem raises
  · rw [finished]
    exact .returned from_.parsed each from_.counted (from_.accounted ▸ accountedFor_finished table each)
  · rw [stopped]
    exact .refused from_.parsed each (split ▸ List.mem_append_right done List.mem_cons_self) unfit

end

end ComposedCall

open ComposedCall TransactionIngestionService

/-- **Composed runs.** A deployment has a provider exactly when its profile names the recorded one
and its settings lead to a file. Through it, whatever the file holds when each call is made, a
run is the run of the calls that find a snapshot; a call that finds none raises
`ProviderFetchError` and writes nothing, and any other accounts for every row or raises. -/
theorem composed_transaction_runs [Runtime] [Pydantic] (limit : Nat) (failureText : Failure → Str)
    (isFile : Str → Bool) (profile : CityProfile) (settings : ProviderSettings) :
    ((∃ composed, buildTransactionProvider isFile profile settings = .ok composed) ↔
      profile.providers.transactions = some lianjiaSource ∧
        ∃ path ∈ settings.lianjiaTransactionSnapshotPath, isFile path = true) ∧
    ∀ composed, buildTransactionProvider isFile profile settings = .ok composed →
      settings.lianjiaTransactionSnapshotPath = some composed.snapshotPath ∧
      ∀ calls : List ComposedCall,
        let table := afterAll (calls.map (made limit failureText composed))
        table = afterAll (calls.filterMap (answered limit composed)) ∧
        ∀ next : ComposedCall,
          ((∀ snapshot, ¬ UsableTransactions limit next.file snapshot) → ∃ message,
            ingest provider next.tolerance table next.request (next.made limit failureText composed).fetch =
              ⟨table, .error (.providerFetch provider next.request.community.communityId message)⟩) ∧
          ∀ snapshot, UsableTransactions limit next.file snapshot → Settles snapshot next table
            (ingest provider next.tolerance table next.request (next.made limit failureText composed).fetch) := by
  refine ⟨?_, fun composed built => ⟨((buildTransactionProvider_ok_iff isFile).mp built).2.1, fun calls => ?_⟩⟩
  · simp only [buildTransactionProvider_ok_iff, Option.mem_def]
    constructor
    · rintro ⟨⟨path⟩, named, told, file⟩
      exact ⟨named, path, told, file⟩
    · rintro ⟨named, path, told, file⟩
      exact ⟨⟨path⟩, named, told, file⟩
  · refine ⟨?_, fun next => ⟨fun unusable => (unusable_fails _ unusable).2,
      fun snapshot usable => (usable_settles _ usable).2⟩⟩
    induction calls using List.reverseRecOn with
    | nil => rfl
    | append_singleton calls call ih =>
        rw [List.map_append, List.filterMap_append, afterAll, afterAll, List.foldl_append, List.foldl_append,
          ← afterAll, ← afterAll, ih]
        by_cases usable : ∃ snapshot, UsableTransactions limit call.file snapshot
        · obtain ⟨snapshot, usable⟩ := usable
          have kept : call.answered limit composed = some (call.made limit failureText composed) :=
            (usable_settles (.empty _) usable).1
          rw [List.filterMap_cons_some kept]
          rfl
        · obtain ⟨none_, message, failed⟩ :=
            unusable_fails (afterAll (calls.filterMap (answered limit composed))) (not_exists.mp usable)
          rw [List.filterMap_cons_none none_]
          exact congrArg Outcome.state failed

end CnPropertyAgent
