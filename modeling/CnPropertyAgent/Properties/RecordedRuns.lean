import CnPropertyAgent.Properties.LianjiaIdentity
import CnPropertyAgent.Providers.Lianjia.Recorded
import CnPropertyAgent.Services.ListingRuns

/-!
Runs of listing ingestion over recorded snapshots.

Whatever the files hold and whoever they are requested for, a call does one of two
things. The file is usable for the community: it reads as a snapshot that names it, and
the parser gets through its rows; then every row is counted, and storage takes the
observations up to the first with a text that it cannot bind. Or the file is not usable, and
the call raises `ProviderFetchError` with nothing written. What a run leaves is therefore what
the usable files leave, one after the other.
-/

namespace CnPropertyAgent

open Python Relational Lianjia ListingIngestionService

theorem mapError_eq_ok {ε ε' α : Type} {x : Except ε α} {f : ε → ε'} {a : α} :
    x.mapError f = .ok a ↔ x = .ok a := by
  cases x <;> simp [Except.mapError]

/-- A batch whose rows are all accounted for is wrapped. -/
theorem FetchResult.fromParseResult_of_count {α : Type} {parsed : ParseResult α} {count : Nat}
    (counted : parsed.parsedCount + parsed.rejectedCount = count) :
    ∃ fetched, FetchResult.fromParseResult parsed (some count) = .ok fetched ∧
      fetched.parsed = parsed.records ∧ fetched.parseRejections = parsed.rejections ∧
      fetched.sourceRowCount = count := by
  refine ⟨⟨parsed.records, parsed.rejections, count, le_of_eq counted⟩, ?_, rfl, rfl, rfl⟩
  have natural : ¬ (count : Int) < 0 := by omega
  have enough : ¬ (count : Int) < (parsed.records.length + parsed.rejections.length : Nat) := by
    have accounted : parsed.records.length + parsed.rejections.length = count := counted
    omega
  simp only [FetchResult.fromParseResult, FetchResult.validate, Option.getD_some]
  rw [if_neg natural, dif_neg enough]
  simp only [Int.toNat_natCast]

namespace Lianjia

section

variable [Runtime]

/-- The file holds the UTF-8 text of a JSON object. -/
def ReadsAs (limit : Nat) (file : FileContent) (payload : Payload) : Prop :=
  ∃ data text, file = .ok data ∧ readText data = .ok text ∧ Json.loads limit text = .ok (.object payload)

theorem loadSnapshotDocument_ok_iff {limit : Nat} (path : Str) {file : FileContent} {payload : Payload} :
    loadSnapshotDocument limit path file = .ok payload ↔ ReadsAs limit file payload := by
  unfold loadSnapshotDocument ReadsAs
  cases file with
  | error error => cases error <;> simp
  | ok data =>
      cases decoded : readText data with
      | error error => simp [decoded]
      | ok text =>
          cases loaded : Json.loads limit text with
          | error error => cases error <;> simp [decoded, loaded]
          | ok value => cases value <;> simp [decoded, loaded]

variable [Pydantic]

theorem loadListingSnapshot_ok_iff {limit : Nat} {path : Str} {file : FileContent}
    {snapshot : LianjiaListingSnapshot} : loadListingSnapshot limit path file = .ok snapshot ↔
      ∃ payload, ReadsAs limit file payload ∧ LianjiaListingSnapshot.validate payload = .ok snapshot := by
  simp only [← loadSnapshotDocument_ok_iff path]
  unfold loadListingSnapshot
  cases loadSnapshotDocument limit path file with
  | error error => simp [bind, Except.bind]
  | ok payload => simp [bind, Except.bind, mapError_eq_ok]

theorem loadTransactionSnapshot_ok_iff {limit : Nat} {path : Str} {file : FileContent}
    {snapshot : LianjiaTransactionSnapshot} : loadTransactionSnapshot limit path file = .ok snapshot ↔
      ∃ payload, ReadsAs limit file payload ∧ LianjiaTransactionSnapshot.validate payload = .ok snapshot := by
  simp only [← loadSnapshotDocument_ok_iff path]
  unfold loadTransactionSnapshot
  cases loadSnapshotDocument limit path file with
  | error error => simp [bind, Except.bind]
  | ok payload => simp [bind, Except.bind, mapError_eq_ok]

/-- The file is a snapshot recorded for the community, and the parser gets through its rows. -/
def Usable (limit : Nat) (file : FileContent) (community : Community) (snapshot : LianjiaListingSnapshot) : Prop :=
  (∃ payload, ReadsAs limit file payload ∧ LianjiaListingSnapshot.validate payload = .ok snapshot) ∧
    snapshot.communityId = community.communityId ∧
    ∀ row ∈ snapshot.rows, ListingParser.Returns row

/-- The rows of the snapshot, parsed. -/
structure FetchedFrom (snapshot : LianjiaListingSnapshot) (fetched : ListingFetchResult) : Prop where
  parsed : parseListingRows snapshot.parseContext snapshot.rows =
    .ok ⟨fetched.parsed, fetched.parseRejections⟩
  counted : fetched.sourceRowCount = snapshot.rows.length

omit [Pydantic] in
/-- Every row is an observation or a rejection. -/
theorem FetchedFrom.accounted {snapshot : LianjiaListingSnapshot} {fetched : ListingFetchResult}
    (h : FetchedFrom snapshot fetched) :
    fetched.parsedCount + fetched.parseRejectionCount = fetched.sourceRowCount := by
  obtain ⟨result, -, parsed, accounted, -⟩ := isolated_iff_returns.mpr ⟨_, h.parsed⟩
  have same := Except.ok.inj (h.parsed.symm.trans parsed)
  rw [h.counted, ← accounted, ← same]
  rfl

/-- A usable file is fetched. -/
theorem exists_fetchedFrom {limit : Nat} (path : Str) {file : FileContent} {community : Community}
    {snapshot : LianjiaListingSnapshot} (usable : Usable limit file community snapshot) :
    ∃ fetched, fetchCurrentListings limit path file community = .ok fetched ∧ FetchedFrom snapshot fetched := by
  obtain ⟨read, own, returns⟩ := usable
  have loaded : loadListingSnapshot limit path file = .ok snapshot := loadListingSnapshot_ok_iff.mpr read
  have isolated := (isolated_iff_forall (parseListingRow_returns_iff snapshot.parseContext)).mpr returns
  obtain ⟨result, -, parsed, accounted, -⟩ := isolated
  obtain ⟨fetched, wrapped, records, rejections, counted⟩ := FetchResult.fromParseResult_of_count accounted
  refine ⟨fetched, ?_, ?_, counted⟩
  · rw [fetchCurrentListings, loaded]
    simp only [bind, Except.bind, ne_eq, own, not_true_eq_false, ↓reduceIte]
    rw [parseListingRows, parsed]
    simp only [Except.mapError]
    rw [wrapped]
  · rw [records, rejections]
    exact parsed

/-- A file is fetched exactly when it is usable, and then as all of its rows. -/
theorem fetchCurrentListings_ok_iff {limit : Nat} {path : Str} {file : FileContent} {community : Community}
    {fetched : ListingFetchResult} : fetchCurrentListings limit path file community = .ok fetched ↔
      ∃ snapshot, Usable limit file community snapshot ∧ FetchedFrom snapshot fetched := by
  constructor
  · intro answered
    obtain ⟨snapshot, loaded, rest⟩ := eq_ok_of_bind answered
    split_ifs at rest with own
    obtain ⟨result, parsed, rest⟩ := eq_ok_of_bind rest
    have isolated := isolated_iff_returns.mpr ⟨result, mapError_eq_ok.mp parsed⟩
    have usable : Usable limit file community snapshot := ⟨loadListingSnapshot_ok_iff.mp loaded,
      not_not.mp own, (isolated_iff_forall (parseListingRow_returns_iff snapshot.parseContext)).mp isolated⟩
    obtain ⟨fetched', again, from_⟩ := exists_fetchedFrom path usable
    cases answered.symm.trans again
    exact ⟨snapshot, usable, from_⟩
  · rintro ⟨snapshot, usable, parsed, counted⟩
    obtain ⟨fetched', answered, parsed', counted'⟩ := exists_fetchedFrom path usable
    have same : fetched' = fetched := by
      have records := Except.ok.inj (parsed'.symm.trans parsed)
      cases fetched
      cases fetched'
      simp_all
    rw [answered, same]

omit [Pydantic] in
/-- What is fetched is about the community the snapshot names. -/
theorem FetchedFrom.communityId {snapshot : LianjiaListingSnapshot} {fetched : ListingFetchResult}
    (h : FetchedFrom snapshot fetched) : ∀ o ∈ fetched.parsed, o.listing.communityId = snapshot.communityId := by
  intro o mem
  obtain ⟨i, row, -, alone⟩ := exists_row_of_records h.parsed mem
  obtain ⟨_, _, _, _, _, _, -, -, -, -, -, -, built⟩ := parseListingRow_inl alone
  rw [(ListingParser.buildObservation_ok built).1]
  rfl

end

end Lianjia

/-! ### Calls -/

/-- A request for the listings of a community, answered from a file. -/
structure RecordedListingCall where
  path : Str
  file : FileContent
  community : Community

namespace RecordedListingCall

/-- `type(self.provider).__name__`. -/
def provider : Str := str "RecordedLianjiaListingProvider"

section

variable [Runtime] [Pydantic]

def fetch (limit : Nat) (call : RecordedListingCall) : Except RecordedError ListingFetchResult :=
  fetchCurrentListings limit call.path call.file call.community

/-- `ListingIngestionService(provider=RecordedLianjiaListingProvider(path)).ingest(community)`. -/
def outcome (limit : Nat) (failureText : Failure → Str) (tables : ListingTables) (call : RecordedListingCall) :
    Outcome ListingTables Failure ListingIngestionResult :=
  ingest provider tables call.community ((call.fetch limit).mapError (RecordedError.text failureText))

/-- What a sequence of calls leaves of the empty tables. -/
def afterAll (limit : Nat) (failureText : Failure → Str) (calls : List RecordedListingCall) : ListingTables :=
  calls.foldl (fun tables call => (call.outcome limit failureText tables).state) .empty

/-- The statements that storage takes of a call: those on the observations of its file, ahead of the
first that cannot be bound, and none of an unusable file. -/
def written (limit : Nat) (call : RecordedListingCall) : List (Listing ⊕ ListingSnapshot) :=
  match call.fetch limit with
  | .ok fetched => bindable (fetched.parsed.flatMap statements)
  | .error _ => []

/-- How a call ends that finds a snapshot. -/
structure Settles (snapshot : LianjiaListingSnapshot) (parsed : ParseResult ListingObservation)
    (before : ListingTables) (ended : Outcome ListingTables Failure ListingIngestionResult) : Prop where
  fromRows : parseListingRows snapshot.parseContext snapshot.rows = .ok parsed
  /-- Every row is an observation or a rejection. -/
  everyRow : parsed.records.length + parsed.rejections.length = snapshot.rows.length
  written : runAll execute before (bindable (parsed.records.flatMap statements)) = .ok ended.state
  returned : (∀ o ∈ parsed.records, PlainObservation o) → ∃ result, ended.result = .ok result ∧
    runAll writeObservation before parsed.records = .ok ended.state ∧
    result.communityId = snapshot.communityId ∧ result.sourceRowCount = snapshot.rows.length ∧
    result.persistedObservationCount = parsed.records.length ∧ result.parseRejections = parsed.rejections
  refused : (¬ ∀ o ∈ parsed.records, PlainObservation o) → ended.result = .error .invalidInput

variable {limit : Nat} {failureText : Failure → Str}

variable (failureText) in
/-- What is fetched from a file comes from the rows of its snapshot. -/
theorem fromRows (call : RecordedListingCall) :
    ∀ fetched, (call.fetch limit).mapError (RecordedError.text failureText) = .ok fetched →
      ∀ o ∈ fetched.parsed, o.FromRows := by
  intro fetched answered o mem
  obtain ⟨snapshot, -, from_⟩ := fetchCurrentListings_ok_iff.mp (mapError_eq_ok.mp answered)
  exact ⟨_, _, _, from_.parsed, mem⟩

variable (limit failureText) in
/-- The call that the service makes. -/
def made (call : RecordedListingCall) : LianjiaIngestCall :=
  ⟨provider, call.community, (call.fetch limit).mapError (RecordedError.text failureText),
    call.fromRows failureText⟩

/-- Every batch that is fetched is about the community it was requested for. -/
theorem bindable_batch_made (call : RecordedListingCall) :
    bindable ((call.made limit failureText).batch.flatMap statements) = call.written limit := by
  have asked : (call.made limit failureText).fetch =
      (call.fetch limit).mapError (RecordedError.text failureText) := rfl
  cases fetched : call.fetch limit with
  | error error =>
      rw [fetched] at asked
      simp only [written, LianjiaIngestCall.batch, fetched, asked, Except.mapError]
      rfl
  | ok batch =>
      obtain ⟨snapshot, usable, from_⟩ := fetchCurrentListings_ok_iff.mp fetched
      have own : ∀ o ∈ batch.parsed, o.listing.communityId = call.community.communityId :=
        fun o mem => (from_.communityId o mem).trans usable.2.1
      rw [fetched] at asked
      rw [LianjiaIngestCall.batch_of_own asked own, written, fetched]

variable (failureText) in
/-- An unusable file costs the call its fetch. -/
theorem outcome_unusable (tables : ListingTables) {call : RecordedListingCall}
    (unusable : ∀ snapshot, ¬ Usable limit call.file call.community snapshot) :
    ∃ message, call.outcome limit failureText tables =
      ⟨tables, .error (.providerFetch provider call.community.communityId message)⟩ := by
  unfold outcome
  cases fetched : call.fetch limit with
  | error error => exact ⟨_, rfl⟩
  | ok batch =>
      obtain ⟨snapshot, usable, -⟩ := fetchCurrentListings_ok_iff.mp fetched
      exact absurd usable (unusable snapshot)

variable (failureText) in
/-- A usable file settles. -/
theorem outcome_usable {tables : ListingTables} (inv : tables.Identified) {call : RecordedListingCall}
    {snapshot : LianjiaListingSnapshot} (usable : Usable limit call.file call.community snapshot) :
    ∃ parsed, Settles snapshot parsed tables (call.outcome limit failureText tables) := by
  obtain ⟨fetched, answered, from_⟩ : ∃ fetched, call.fetch limit = .ok fetched ∧
      FetchedFrom snapshot fetched := exists_fetchedFrom call.path usable
  have own : ∀ o ∈ fetched.parsed, o.listing.communityId = call.community.communityId :=
    fun o mem => (from_.communityId o mem).trans usable.2.1
  obtain ⟨ran, -, ended⟩ := (call.made limit failureText).outcome_spec inv
  have same : (call.made limit failureText).fetch = .ok fetched := mapError_eq_ok.mpr answered
  have result := ended fetched same own
  rw [bindable_batch_made, written, answered] at ran
  refine ⟨⟨fetched.parsed, fetched.parseRejections⟩, from_.parsed, from_.counted ▸ from_.accounted, ran,
    fun plain => ⟨_, result.trans (if_pos plain), ?_, usable.2.1.symm, from_.counted, rfl, rfl⟩,
    fun refused => result.trans (if_neg refused)⟩
  have all : bindable (fetched.parsed.flatMap statements) = fetched.parsed.flatMap statements := by
    rw [bindable, List.takeWhile_eq_self_iff]
    simpa using forall_bindable_iff.mpr plain
  rw [runAll_writeObservation, ← all]
  exact ran

variable (limit failureText) in
theorem identified_afterAll (calls : List RecordedListingCall) :
    (afterAll limit failureText calls).Identified := by
  induction calls using List.reverseRecOn with
  | nil => exact fun row mem => nomatch mem
  | append_singleton calls call ih =>
      rw [afterAll, List.foldl_append]
      exact ((call.made limit failureText).outcome_spec ih).2.1

variable (limit failureText) in
/-- The statements that storage took, call after call, are all that a run leaves. -/
theorem runAll_written (calls : List RecordedListingCall) :
    runAll execute .empty (calls.flatMap (written limit)) = .ok (afterAll limit failureText calls) := by
  induction calls using List.reverseRecOn with
  | nil => rfl
  | append_singleton calls call ih =>
      have last := ((call.made limit failureText).outcome_spec (identified_afterAll limit failureText calls)).1
      rw [bindable_batch_made] at last
      have next : afterAll limit failureText (calls ++ [call]) =
          (call.outcome limit failureText (afterAll limit failureText calls)).state := by
        rw [afterAll, List.foldl_append]
        rfl
      rw [List.flatMap_append, List.flatMap_singleton, runAll_append, ih, next]
      exact last

end

end RecordedListingCall

open RecordedListingCall

/-- **Recorded runs.** After any sequence of calls over any files, the tables are what the
statements that storage took of each usable file leave, one after the other. A following call
whose file is usable counts every row and persists every observation if storage can bind their
texts, and otherwise keeps the statements ahead of the first it cannot; one whose file is not
raises `ProviderFetchError` and writes nothing. -/
theorem recorded_listing_runs [Runtime] [Pydantic] (limit : Nat) (failureText : Failure → Str)
    (calls : List RecordedListingCall) :
    runAll execute .empty (calls.flatMap (written limit)) = .ok (afterAll limit failureText calls) ∧
    ∀ next : RecordedListingCall,
      ((∀ snapshot, ¬ Usable limit next.file next.community snapshot) → ∃ message,
        next.outcome limit failureText (afterAll limit failureText calls) =
          ⟨afterAll limit failureText calls,
            .error (.providerFetch provider next.community.communityId message)⟩) ∧
      ∀ snapshot, Usable limit next.file next.community snapshot → ∃ parsed,
        Settles snapshot parsed (afterAll limit failureText calls)
          (next.outcome limit failureText (afterAll limit failureText calls)) := by
  refine ⟨runAll_written limit failureText calls, fun next => ⟨outcome_unusable failureText _, ?_⟩⟩
  intro snapshot usable
  exact outcome_usable failureText (identified_afterAll limit failureText calls) usable

end CnPropertyAgent
