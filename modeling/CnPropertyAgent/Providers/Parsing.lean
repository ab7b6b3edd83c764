import CnPropertyAgent.Domain.Models

/-!
What a provider hands back: raw records, parse rejections, and the fetch results
that carry both with their row accounting.
-/

namespace CnPropertyAgent

open Python

/-! ### Raw transaction records -/

structure RawTransactionFields where
  source : Str
  sourceTransactionId : Option Str
  sourceUrl : Option Str
  dealDate : Option Date
  areaSqm : Option Double
  layout : Option Str
  floorBucket : Option Str
  orientation : Option Str
  builtYear : Option Int
  initialListingPriceCny : Option Double
  dealPriceCny : Option Double
  unitPriceCnySqm : Option Double
  daysOnMarket : Option Int
  rawPayloadRef : Option Str
  collectedAt : Instant
  parserVersion : Str
deriving DecidableEq

namespace RawTransactionFields

/-- `str_strip_whitespace=True`. -/
def strip (r : RawTransactionFields) : RawTransactionFields :=
  { r with
    source := r.source.trim
    sourceTransactionId := r.sourceTransactionId.map Str.trim
    sourceUrl := r.sourceUrl.map Str.trim
    layout := r.layout.map Str.trim
    floorBucket := r.floorBucket.map Str.trim
    orientation := r.orientation.map Str.trim
    rawPayloadRef := r.rawPayloadRef.map Str.trim
    parserVersion := r.parserVersion.trim }

def errors (r : RawTransactionFields) : List ErrorItem :=
  checkNonempty (str "source") r.source ++
  checkOptional (checkStr (str "source_transaction_id")) r.sourceTransactionId ++
  checkOptional (checkStr (str "source_url")) r.sourceUrl ++
  checkOptional (checkStr (str "layout")) r.layout ++
  checkOptional (checkStr (str "floor_bucket")) r.floorBucket ++
  checkOptional (checkStr (str "orientation")) r.orientation ++
  checkOptional (checkStr (str "raw_payload_ref")) r.rawPayloadRef ++
  checkNonempty (str "parser_version") r.parserVersion

theorem errors_eq_nil_iff {r : RawTransactionFields} :
    r.errors = [] ↔
      (r.source.Encodable ∧ r.source ≠ []) ∧ (∀ id ∈ r.sourceTransactionId, id.Encodable) ∧
      (∀ url ∈ r.sourceUrl, url.Encodable) ∧ (∀ layout ∈ r.layout, layout.Encodable) ∧
      (∀ floor ∈ r.floorBucket, floor.Encodable) ∧
      (∀ orientation ∈ r.orientation, orientation.Encodable) ∧
      (∀ ref ∈ r.rawPayloadRef, ref.Encodable) ∧
      r.parserVersion.Encodable ∧ r.parserVersion ≠ [] := by
  simp [errors, and_assoc]

theorem strip_strip (r : RawTransactionFields) : r.strip.strip = r.strip := by
  simp [strip, Str.trim_trim, Function.comp_def]

end RawTransactionFields

/-- Provider output for one observed transaction, before any quality gate. -/
structure RawTransactionRecord extends RawTransactionFields where
  stripped : toRawTransactionFields.strip = toRawTransactionFields
  valid : toRawTransactionFields.errors = []
deriving DecidableEq

def RawTransactionFields.validate (given : RawTransactionFields) : Except Failure RawTransactionRecord :=
  if h : given.strip.errors = [] then .ok ⟨given.strip, given.strip_strip, h⟩
  else .error (.validation given.strip.errors)

theorem RawTransactionFields.eq_of_validate {given : RawTransactionFields} {record : RawTransactionRecord}
    (h : given.validate = .ok record) : record.toRawTransactionFields = given.strip := by
  unfold RawTransactionFields.validate at h
  split at h
  · cases h; rfl
  · cases h

theorem RawTransactionFields.validate_raises (given : RawTransactionFields) :
    OnlyRaises IsModelError given.validate :=
  isModelError_of_validate (by simp [RawTransactionFields.errors])

/-! ### Parse rejections -/

structure SourceRowRefFields where
  source : Str
  rowIndex : Option Nat
  sourceRowId : Option Str
  sourceUrl : Option Str
  rawPayloadRef : Option Str
deriving DecidableEq

def SourceRowRefFields.errors (r : SourceRowRefFields) : List ErrorItem :=
  checkNonempty (str "source") r.source

/-- Minimal pointer back to one source row. -/
structure SourceRowRef extends SourceRowRefFields where
  valid : toSourceRowRefFields.errors = []
deriving DecidableEq

def SourceRowRefFields.validate (fields : SourceRowRefFields) : Except Failure SourceRowRef :=
  if h : fields.errors = [] then .ok ⟨fields, h⟩ else .error (.validation fields.errors)

structure ParseRejectionFields where
  row : SourceRowRef
  reason : ParseRejectionReason
  field : Option Str
  detail : Str
deriving DecidableEq

def ParseRejectionFields.errors (r : ParseRejectionFields) : List ErrorItem :=
  checkNonempty (str "detail") r.detail

/-- One source row that a parser refused to interpret. -/
structure ParseRejection extends ParseRejectionFields where
  valid : toParseRejectionFields.errors = []
deriving DecidableEq

def ParseRejectionFields.validate (fields : ParseRejectionFields) : Except Failure ParseRejection :=
  if h : fields.errors = [] then .ok ⟨fields, h⟩ else .error (.validation fields.errors)

/-! ### Parse results -/

/-- The outcome of parsing a batch; a record is what one row was parsed into. -/
structure ParseResult (α : Type) where
  records : List α
  rejections : List ParseRejection
deriving DecidableEq

def ParseResult.parsedCount {α : Type} (result : ParseResult α) : Nat := result.records.length

def ParseResult.rejectedCount {α : Type} (result : ParseResult α) : Nat := result.rejections.length

/-- Outcomes split by kind, in order. -/
def buildParseResult {α : Type} (outcomes : List (α ⊕ ParseRejection)) : ParseResult α :=
  outcomes.foldl
    (fun result outcome => match outcome with
      | .inl record => { result with records := result.records ++ [record] }
      | .inr rejection => { result with rejections := result.rejections ++ [rejection] })
    ⟨[], []⟩

theorem buildParseResult_eq {α : Type} (outcomes : List (α ⊕ ParseRejection)) :
    buildParseResult outcomes =
      ⟨outcomes.filterMap Sum.getLeft?, outcomes.filterMap Sum.getRight?⟩ := by
  induction outcomes using List.reverseRecOn with
  | nil => rfl
  | append_singleton outcomes outcome ih =>
      rw [buildParseResult, List.foldl_append, ← buildParseResult, ih]
      cases outcome <;> simp

theorem buildParseResult_count {α : Type} (outcomes : List (α ⊕ ParseRejection)) :
    (buildParseResult outcomes).parsedCount + (buildParseResult outcomes).rejectedCount =
      outcomes.length := by
  rw [buildParseResult_eq, ParseResult.parsedCount, ParseResult.rejectedCount]
  induction outcomes with
  | nil => rfl
  | cons outcome outcomes ih => cases outcome <;> simp [List.filterMap_cons] at ih ⊢ <;> omega

/-! ### Fetch results -/

/-- A fetched batch. The rows the parser accounts for never outnumber the rows
the provider observed. -/
structure FetchResult (α : Type) where
  parsed : List α
  parseRejections : List ParseRejection
  sourceRowCount : Nat
  accounted_le : parsed.length + parseRejections.length ≤ sourceRowCount
deriving DecidableEq

abbrev TransactionFetchResult := FetchResult RawTransactionRecord

abbrev ListingFetchResult := FetchResult ListingObservation

namespace FetchResult

variable {α : Type}

def parsedCount (fetched : FetchResult α) : Nat := fetched.parsed.length

def parseRejectionCount (fetched : FetchResult α) : Nat := fetched.parseRejections.length

/-- The constructor: a missing count is the number of rows accounted for. -/
def validate (parsed : List α) (parseRejections : List ParseRejection) (sourceRowCount : Option Int) :
    Except Failure (FetchResult α) :=
  let accounted := parsed.length + parseRejections.length
  let count := sourceRowCount.getD accounted
  if count < 0 then
    .error (.validation
      [⟨[str "source_row_count"], str "Input should be greater than or equal to 0"⟩])
  else if h : count < accounted then
    .error (.validation [valueErrorItem (str "source_row_count " ++ intStr count ++
      str " is smaller than the " ++ natStr accounted ++ str " rows already accounted for")])
  else .ok ⟨parsed, parseRejections, count.toNat, by omega⟩

def fromParseResult (parseResult : ParseResult α) (sourceRowCount : Option Int) :
    Except Failure (FetchResult α) :=
  validate parseResult.records parseResult.rejections sourceRowCount

theorem fromParseResult_ok {parseResult : ParseResult α} {count : Option Int} {fetched : FetchResult α}
    (h : fromParseResult parseResult count = .ok fetched) :
    fetched.parsed = parseResult.records ∧ fetched.parseRejections = parseResult.rejections := by
  unfold fromParseResult validate at h
  dsimp only at h
  split at h
  · cases h
  · split at h
    · cases h
    · cases h
      exact ⟨rfl, rfl⟩

/-- `from_records` and `from_observations`: every observed row parsed cleanly. -/
def fromParsed (parsed : List α) : FetchResult α := ⟨parsed, [], parsed.length, by simp⟩

end FetchResult

/-- A fetched batch of official observations, canonical on arrival. -/
structure MarketObservationFetchResult where
  observations : List MarketObservation
deriving DecidableEq

def MarketObservationFetchResult.observationCount (fetched : MarketObservationFetchResult) : Nat :=
  fetched.observations.length

end CnPropertyAgent
