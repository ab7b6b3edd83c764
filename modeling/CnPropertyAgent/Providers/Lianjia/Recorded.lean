import CnPropertyAgent.Domain.Payload
import CnPropertyAgent.Providers.Lianjia.ListingParser
import CnPropertyAgent.Providers.Lianjia.TransactionParser
import CnPropertyAgent.Python.JsonText
import CnPropertyAgent.Python.ReadText

/-!
The recorded Lianjia providers, which replay a snapshot file.

A file is the bytes that reading it gives, or why there are none. It becomes a document,
the document a snapshot, and the rows of the snapshot what the parsers make of them.
`LianjiaSnapshotError` covers all of that but a path that cannot be opened, the other errors
of `json.loads`, and those that a parser raises out of a batch.
-/

namespace CnPropertyAgent.Lianjia

open Python

/-- What a recorded provider can raise. -/
inductive RecordedError where
  /-- `LianjiaSnapshotError(path, message)`. -/
  | snapshot (path message : Str)
  /-- An error of `json.loads` that is no `JSONDecodeError`. -/
  | json (error : JsonError)
  /-- What opening the path, a parser or a model of the provider raises. -/
  | raised (failure : Failure)

/-- `str(error)`; the texts of the errors that are not the provider's own are given. -/
def RecordedError.text (failureText : Failure → Str) : RecordedError → Str
  | .snapshot path message => str "lianjia snapshot " ++ path ++ str ": " ++ message
  | .json (.decode message) => message
  | .json (.value message) => message
  | .json (.recursion message) => message
  | .raised failure => failureText failure

/-- What both kinds of snapshot record of a batch. -/
structure RecordedBatch where
  sourceUrl : Option Str
  rawPayloadRef : Option Str
  rows : List Json
  validUrl : checkOptional (checkNonempty (str "source_url")) sourceUrl = []
  validRef : checkOptional (checkNonempty (str "raw_payload_ref")) rawPayloadRef = []

/-- The part of the parse context that both parsers share. -/
def RecordedBatch.context (batch : RecordedBatch) : BatchContext where
  sourceUrl := batch.sourceUrl
  rawPayloadRef := batch.rawPayloadRef

/-- `rows: tuple[Any, ...]`. -/
def validateRows (loc : Str) : Json → Validated (List Json)
  | .array rows => .ok rows
  | _ => .error [⟨[loc], str "Input should be a valid tuple"⟩]

def RecordedBatch.validate (payload : Payload) : Validated RecordedBatch :=
  (Validated.both (optionalText payload (str "source_url") (checkNonempty (str "source_url")))
    (Validated.both (optionalText payload (str "raw_payload_ref") (checkNonempty (str "raw_payload_ref")))
      (requireField payload (str "rows") (validateRows (str "rows"))))).map
    fun (url, ref, rows) => ⟨url.1, ref.1, rows, url.2, ref.2⟩

/-- The payload has the batch under the names of its fields. -/
def RecordedBatch.InPayload (batch : RecordedBatch) (payload : Payload) : Prop :=
  SaysText payload (str "source_url") batch.sourceUrl ∧
    SaysText payload (str "raw_payload_ref") batch.rawPayloadRef ∧
    payload.get? (str "rows") = some (.array batch.rows)

theorem validateRows_eq_ok {loc : Str} {value : Json} {rows : List Json} :
    validateRows loc value = .ok rows ↔ value = .array rows := by
  cases value <;> simp [validateRows]

theorem RecordedBatch.validate_eq_ok {payload : Payload} {batch : RecordedBatch} :
    RecordedBatch.validate payload = .ok batch ↔ batch.InPayload payload := by
  unfold RecordedBatch.validate InPayload
  simp only [Validated.map_eq_ok, Prod.exists, Validated.both_eq_ok, optionalText_eq_ok, requireField_eq_ok,
    validateRows_eq_ok, Subtype.exists]
  constructor
  · rintro ⟨url, validUrl, ref, validRef, rows, ⟨url_told, ref_told, _, found, rfl⟩, rfl⟩
    exact ⟨url_told, ref_told, found⟩
  · rintro ⟨url_told, ref_told, found⟩
    exact ⟨_, batch.validUrl, _, batch.validRef, _, ⟨url_told, ref_told, _, found, rfl⟩, rfl⟩

/-! ### Documents -/

section

variable [Runtime]

/-- Reads one snapshot file as a JSON object. -/
def loadSnapshotDocument (limit : Nat) (path : Str) (file : FileContent) : Except RecordedError Payload :=
  match file with
  | .error (.os text) => .error (.snapshot path (str "cannot be read: " ++ text))
  | .error (.path error) => .error (.raised (.builtin error))
  | .ok data =>
      match readText data with
      | .error error => .error (.snapshot path (str "is not valid UTF-8: " ++ error.text))
      | .ok text =>
          match Json.loads limit text with
          | .error (.decode message) => .error (.snapshot path (str "is not valid JSON: " ++ message))
          | .error error => .error (.json error)
          | .ok (.object entries) => .ok entries
          | .ok payload => .error (.snapshot path
              (str "expected a JSON object at the top level, got " ++ payload.typeName))

variable [Pydantic]

/-! ### Listings -/

/-- One recorded batch: which community was observed, when, and the rows seen. -/
structure LianjiaListingSnapshot extends RecordedBatch where
  communityId : Str
  snapshotAt : AwareDatetime
  validCommunity : checkNonempty (str "community_id") communityId = []

def LianjiaListingSnapshot.validate (payload : Payload) : Validated LianjiaListingSnapshot :=
  (Validated.both
    (requireField payload (str "community_id") (validateText (str "community_id")
      (checkNonempty (str "community_id"))))
    (Validated.both (requireField payload (str "snapshot_at") (validateAwareDatetime (str "snapshot_at")))
      (RecordedBatch.validate payload))).map
    fun (community, snapshotAt, batch) => ⟨batch, community.1, snapshotAt, community.2⟩

/-- The payload has the snapshot under the names of its fields. -/
def LianjiaListingSnapshot.InPayload (snapshot : LianjiaListingSnapshot) (payload : Payload) : Prop :=
  payload.get? (str "community_id") = some (.text snapshot.communityId) ∧
    (∃ value, payload.get? (str "snapshot_at") = some value ∧
      Pydantic.awareDatetime value = .ok snapshot.snapshotAt) ∧
    snapshot.toRecordedBatch.InPayload payload

omit [Runtime] in
theorem LianjiaListingSnapshot.validate_eq_ok {payload : Payload} {snapshot : LianjiaListingSnapshot} :
    LianjiaListingSnapshot.validate payload = .ok snapshot ↔ snapshot.InPayload payload := by
  unfold LianjiaListingSnapshot.validate InPayload
  simp only [Validated.map_eq_ok, Prod.exists, Validated.both_eq_ok, requireField_eq_ok, validateText_eq_ok,
    validateAwareDatetime_eq_ok, RecordedBatch.validate_eq_ok, Subtype.exists]
  constructor
  · rintro ⟨community, valid, snapshotAt, batch, ⟨⟨_, found, rfl⟩, moment, told⟩, rfl⟩
    exact ⟨found, moment, told⟩
  · rintro ⟨found, moment, told⟩
    exact ⟨_, snapshot.validCommunity, _, _, ⟨⟨_, found, rfl⟩, moment, told⟩, rfl⟩

def LianjiaListingSnapshot.parseContext (snapshot : LianjiaListingSnapshot) : LianjiaListingParseContext where
  toBatchContext := snapshot.context
  communityId := snapshot.communityId
  snapshotAt := snapshot.snapshotAt
  validCommunity := snapshot.validCommunity

def loadListingSnapshot (limit : Nat) (path : Str) (file : FileContent) :
    Except RecordedError LianjiaListingSnapshot := do
  let payload ← loadSnapshotDocument limit path file
  (LianjiaListingSnapshot.validate payload).mapError fun items =>
    .snapshot path (formatValidationError items)

/-- `RecordedLianjiaListingProvider.fetch_current_listings`. -/
def fetchCurrentListings (limit : Nat) (path : Str) (file : FileContent) (community : Community) :
    Except RecordedError ListingFetchResult := do
  let snapshot ← loadListingSnapshot limit path file
  if snapshot.communityId ≠ community.communityId then
    .error (.snapshot path (str "was recorded for community " ++ snapshot.communityId.pyRepr ++
      str ", not the requested " ++ community.communityId.pyRepr))
  else
    let parsed ← (parseListingRows snapshot.parseContext snapshot.rows).mapError .raised
    (FetchResult.fromParseResult parsed (some snapshot.rows.length)).mapError .raised

/-! ### Transactions -/

/-- One recorded batch: its provenance and the rows observed with it. -/
structure LianjiaTransactionSnapshot extends RecordedBatch where
  collectedAt : AwareDatetime

def LianjiaTransactionSnapshot.validate (payload : Payload) : Validated LianjiaTransactionSnapshot :=
  (Validated.both (requireField payload (str "collected_at") (validateAwareDatetime (str "collected_at")))
    (RecordedBatch.validate payload)).map fun (collectedAt, batch) => ⟨batch, collectedAt⟩

/-- The payload has the snapshot under the names of its fields. -/
def LianjiaTransactionSnapshot.InPayload (snapshot : LianjiaTransactionSnapshot) (payload : Payload) : Prop :=
  (∃ value, payload.get? (str "collected_at") = some value ∧
    Pydantic.awareDatetime value = .ok snapshot.collectedAt) ∧
    snapshot.toRecordedBatch.InPayload payload

omit [Runtime] in
theorem LianjiaTransactionSnapshot.validate_eq_ok {payload : Payload} {snapshot : LianjiaTransactionSnapshot} :
    LianjiaTransactionSnapshot.validate payload = .ok snapshot ↔ snapshot.InPayload payload := by
  unfold LianjiaTransactionSnapshot.validate InPayload
  simp only [Validated.map_eq_ok, Prod.exists, Validated.both_eq_ok, requireField_eq_ok,
    validateAwareDatetime_eq_ok, RecordedBatch.validate_eq_ok]
  constructor
  · rintro ⟨collectedAt, batch, ⟨moment, told⟩, rfl⟩
    exact ⟨moment, told⟩
  · rintro ⟨moment, told⟩
    exact ⟨_, _, ⟨moment, told⟩, rfl⟩

def LianjiaTransactionSnapshot.parseContext (snapshot : LianjiaTransactionSnapshot) : LianjiaParseContext where
  toBatchContext := snapshot.context
  collectedAt := snapshot.collectedAt

def loadTransactionSnapshot (limit : Nat) (path : Str) (file : FileContent) :
    Except RecordedError LianjiaTransactionSnapshot := do
  let payload ← loadSnapshotDocument limit path file
  (LianjiaTransactionSnapshot.validate payload).mapError fun items =>
    .snapshot path (formatValidationError items)

/-- `RecordedLianjiaTransactionProvider.fetch_transactions`; neither the community nor the window
selects anything. -/
def fetchTransactions (limit : Nat) (path : Str) (file : FileContent) :
    Except RecordedError TransactionFetchResult := do
  let snapshot ← loadTransactionSnapshot limit path file
  let parsed ← (parseTransactionRows snapshot.parseContext snapshot.rows).mapError .raised
  (FetchResult.fromParseResult parsed (some snapshot.rows.length)).mapError .raised

end

end CnPropertyAgent.Lianjia
