import CnPropertyAgent.Domain.Models
import CnPropertyAgent.Relational.Table

/-!
The tables the services read and write: their columns in the order of the schema,
their keys, and how a row is made of a model and read back into one.

`ofModel` lists the parameters of the positional `INSERT` and `toModel` validates
the selected columns by name, so that a column out of place would break
`toModel_ofModel`.
-/

namespace CnPropertyAgent

open Python Relational

/-- An `INTEGER` column holds 32 signed bits. -/
def FitsInteger (n : Int) : Prop := -2 ^ 31 ≤ n ∧ n < 2 ^ 31

instance (n : Int) : Decidable (FitsInteger n) := inferInstanceAs (Decidable (_ ∧ _))

theorem fitsInteger_of_year {n : Int} (h : 1800 ≤ n ∧ n ≤ 2200) : FitsInteger n := by
  unfold FitsInteger; omega

/-- Texts that UTF-8 can encode, which is what DuckDB takes as parameters. -/
def PlainTexts (texts : List Str) : Prop := ∀ text ∈ texts, text.Encodable

instance (texts : List Str) : Decidable (PlainTexts texts) :=
  inferInstanceAs (Decidable (∀ text ∈ texts, text.Encodable))

/-- Binding the texts among the parameters of a statement or a query. -/
def bindTexts (texts : List Str) : Except Failure Unit :=
  if PlainTexts texts then .ok () else .error .invalidInput

theorem bindTexts_ok {texts : List Str} (plain : PlainTexts texts) : bindTexts texts = .ok () := if_pos plain

theorem bindTexts_refused {texts : List Str} (refused : ¬ PlainTexts texts) :
    bindTexts texts = .error .invalidInput := if_neg refused

/-- What follows the binding returns only where the texts are bound. -/
theorem plainTexts_of_ok {α : Type} {texts : List Str} {next : Except Failure α} {a : α}
    (h : (do bindTexts texts; next) = .ok a) : PlainTexts texts := by
  by_contra refused
  rw [bindTexts_refused refused] at h
  cases h

/-- What a query over the texts returns. -/
def whenBound {α : Type} (texts : List Str) (a : α) : Except Failure α := do
  bindTexts texts
  return a

theorem whenBound_eq_ok {α : Type} {texts : List Str} {a : α} (plain : PlainTexts texts) :
    whenBound texts a = .ok a := by
  rw [whenBound, bindTexts_ok plain]
  rfl

@[simp] theorem plainTexts_nil : PlainTexts [] := fun _ mem => nomatch mem

@[simp] theorem plainTexts_cons {text : Str} {texts : List Str} :
    PlainTexts (text :: texts) ↔ text.Encodable ∧ PlainTexts texts := List.forall_mem_cons

@[simp] theorem plainTexts_append {texts texts' : List Str} :
    PlainTexts (texts ++ texts') ↔ PlainTexts texts ∧ PlainTexts texts' := List.forall_mem_append

/-- An enumeration column that holds none of its values. -/
def notEnumValue (loc : String) : ErrorItem := ⟨[str loc], str "Input should be a valid enum value"⟩

@[simp] theorem plainTexts_toList {text : Option Str} : PlainTexts text.toList ↔ ∀ s ∈ text, s.Encodable := by
  cases text <;> simp

@[simp] theorem plainTexts_singleton {text : Str} : PlainTexts [text] ↔ text.Encodable := by simp

/-! ### `property_transaction` -/

structure TransactionRow where
  transactionId : Str
  communityId : Str
  source : Str
  sourceTransactionId : Option Str
  sourceUrl : Option Str
  dealDate : Date
  areaSqm : Double
  layout : Option Str
  floorBucket : Str
  orientation : Option Str
  builtYear : Option Int
  initialListingPriceCny : Option Double
  dealPriceCny : Double
  unitPriceCnySqm : Double
  daysOnMarket : Option Int
  rawPayloadRef : Option Str
  collectedAt : Instant
  parserVersion : Str
deriving DecidableEq

namespace TransactionRow

/-- Both `INTEGER` columns can hold their values. -/
def Fits (row : TransactionRow) : Prop :=
  (∀ year ∈ row.builtYear, FitsInteger year) ∧ ∀ days ∈ row.daysOnMarket, FitsInteger days

instance (row : TransactionRow) : Decidable row.Fits := inferInstanceAs (Decidable (_ ∧ _))

/-- The texts among the parameters of the `INSERT`. -/
def texts (row : TransactionRow) : List Str :=
  [row.transactionId, row.communityId, row.source, row.floorBucket, row.parserVersion] ++
    row.sourceTransactionId.toList ++ row.sourceUrl.toList ++ row.layout.toList ++ row.orientation.toList ++
    row.rawPayloadRef.toList

/-- The row can be written. -/
def Storable (row : TransactionRow) : Prop := PlainTexts row.texts ∧ row.Fits

instance (row : TransactionRow) : Decidable row.Storable := inferInstanceAs (Decidable (_ ∧ _))

/-- Why a row that cannot be written is refused: the parameters are bound first. -/
def refusal (row : TransactionRow) : Failure :=
  if PlainTexts row.texts then .conversion else .invalidInput

def ofModel (item : Transaction) : TransactionRow :=
  ⟨item.transactionId, item.communityId, item.source, item.sourceTransactionId, item.sourceUrl,
    item.dealDate, item.areaSqm, item.layout, item.floorBucket.value, item.orientation,
    item.builtYear, item.initialListingPriceCny, item.dealPriceCny, item.unitPriceCnySqm,
    item.daysOnMarket, item.rawPayloadRef, item.collectedAt, item.parserVersion⟩

/-- `Transaction.model_validate` of the selected columns. -/
def toModel (row : TransactionRow) : Except Failure Transaction :=
  match FloorBucket.ofValue? row.floorBucket with
  | none => .error (.validation [notEnumValue "floor_bucket"])
  | some floorBucket => TransactionFields.validate
      { transactionId := row.transactionId
        communityId := row.communityId
        source := row.source
        sourceTransactionId := row.sourceTransactionId
        sourceUrl := row.sourceUrl
        dealDate := row.dealDate
        areaSqm := row.areaSqm
        layout := row.layout
        floorBucket := floorBucket
        orientation := row.orientation
        builtYear := row.builtYear
        initialListingPriceCny := row.initialListingPriceCny
        dealPriceCny := row.dealPriceCny
        unitPriceCnySqm := row.unitPriceCnySqm
        daysOnMarket := row.daysOnMarket
        rawPayloadRef := row.rawPayloadRef
        collectedAt := row.collectedAt
        parserVersion := row.parserVersion }

@[simp] theorem toModel_ofModel (item : Transaction) : (ofModel item).toModel = .ok item := by
  simp only [toModel, ofModel, FloorBucket.ofValue?_value]
  exact item.validate_fields

/-- The texts that no validator of the model looks at. -/
theorem plainTexts_ofModel_iff {item : Transaction} :
    PlainTexts (ofModel item).texts ↔ (∀ s ∈ item.sourceTransactionId, s.Encodable) ∧
      (∀ s ∈ item.sourceUrl, s.Encodable) ∧ (∀ s ∈ item.layout, s.Encodable) ∧
      (∀ s ∈ item.orientation, s.Encodable) ∧ ∀ s ∈ item.rawPayloadRef, s.Encodable := by
  obtain ⟨⟨id, -⟩, ⟨subject, -⟩, ⟨source, -⟩, -, -, -, -, -, -, version, -⟩ :=
    TransactionFields.errors_eq_nil_iff.mp item.valid
  simp [texts, ofModel, id, subject, source, version]

theorem fits_ofModel_iff {item : Transaction} :
    (ofModel item).Fits ↔ ∀ days ∈ item.daysOnMarket, FitsInteger days := by
  have years : ∀ year ∈ item.builtYear, FitsInteger year := by
    intro year hyear
    exact fitsInteger_of_year (item.builtYear_range year hyear)
  exact ⟨fun h => h.2, fun h => ⟨years, h⟩⟩

end TransactionRow

/-! ### `listing` and `listing_snapshot` -/

structure ListingRow where
  listingId : Str
  communityId : Str
  source : Str
  sourceListingId : Str
  areaSqm : Option Double
  layout : Option Str
  floorBucket : Str
  orientation : Option Str
  builtYear : Option Int
  buildingType : Option Str
  firstSeenAt : Instant
  lastSeenAt : Instant
  status : Str
deriving DecidableEq

namespace ListingRow

/-- The columns of `UNIQUE(source, source_listing_id)`. -/
def sourceIdentity (row : ListingRow) : Str × Str := (row.source, row.sourceListingId)

/-- The `INTEGER` column can hold its value. -/
def Fits (row : ListingRow) : Prop := ∀ year ∈ row.builtYear, FitsInteger year

instance (row : ListingRow) : Decidable row.Fits :=
  inferInstanceAs (Decidable (∀ year ∈ row.builtYear, FitsInteger year))

/-- The texts among the parameters of the `INSERT`. -/
def texts (row : ListingRow) : List Str :=
  [row.listingId, row.communityId, row.source, row.sourceListingId, row.floorBucket, row.status] ++
    row.layout.toList ++ row.orientation.toList ++ row.buildingType.toList

def ofModel {T : Type} [Datetime T] (item : Listing T) : ListingRow :=
  ⟨item.listingId, item.communityId, item.source, item.sourceListingId, item.areaSqm, item.layout,
    item.floorBucket.value, item.orientation, item.builtYear, item.buildingType,
    Datetime.instant item.firstSeenAt, Datetime.instant item.lastSeenAt, item.status.value⟩

/-- `Listing.model_validate` of the selected columns. -/
def toModel (row : ListingRow) : Except Failure (Listing Instant) :=
  match FloorBucket.ofValue? row.floorBucket, ListingStatus.ofValue? row.status with
  | none, none => .error (.validation [notEnumValue "floor_bucket", notEnumValue "status"])
  | none, some _ => .error (.validation [notEnumValue "floor_bucket"])
  | some _, none => .error (.validation [notEnumValue "status"])
  | some floorBucket, some status => ListingFields.validate
      { listingId := row.listingId
        communityId := row.communityId
        source := row.source
        sourceListingId := row.sourceListingId
        areaSqm := row.areaSqm
        layout := row.layout
        floorBucket := floorBucket
        orientation := row.orientation
        builtYear := row.builtYear
        buildingType := row.buildingType
        firstSeenAt := row.firstSeenAt
        lastSeenAt := row.lastSeenAt
        status := status }

theorem ids_of_toModel {row : ListingRow} {item : Listing Instant} (read : row.toModel = .ok item) :
    item.listingId = row.listingId ∧ item.communityId = row.communityId := by
  unfold toModel at read
  split at read
  · cases read
  · cases read
  · cases read
  · rw [ListingFields.eq_of_validate read]
    exact ⟨rfl, rfl⟩

@[simp] theorem toModel_ofModel (item : Listing Instant) : (ofModel item).toModel = .ok item := by
  simp only [toModel, ofModel, FloorBucket.ofValue?_value, ListingStatus.ofValue?_value]
  exact item.validate_fields

section

variable {T : Type} [Datetime T]

theorem fits_ofModel (item : Listing T) : (ofModel item).Fits := by
  intro year hyear
  exact fitsInteger_of_year (item.builtYear_range year hyear)

/-- The texts that no validator of the model looks at. -/
theorem plainTexts_ofModel_iff {item : Listing T} :
    PlainTexts (ofModel item).texts ↔ (∀ s ∈ item.layout, s.Encodable) ∧
      (∀ s ∈ item.orientation, s.Encodable) ∧ ∀ s ∈ item.buildingType, s.Encodable := by
  obtain ⟨⟨id, -⟩, ⟨subject, -⟩, ⟨source, -⟩, ⟨sourceId, -⟩, -⟩ :=
    ListingFields.errors_eq_nil_iff.mp item.valid
  simp [texts, ofModel, id, subject, source, sourceId]

end

end ListingRow

structure SnapshotRow where
  listingId : Str
  snapshotAt : Instant
  listPriceCny : Double
  unitPriceCnySqm : Option Double
  status : Str
  source : Str
  sourceUrl : Option Str
  rawPayloadRef : Option Str
  parserVersion : Str
deriving DecidableEq

namespace SnapshotRow

/-- The texts among the parameters of the `INSERT`. -/
def texts (row : SnapshotRow) : List Str :=
  [row.listingId, row.status, row.source, row.parserVersion] ++ row.sourceUrl.toList ++ row.rawPayloadRef.toList

/-- `PRIMARY KEY(listing_id, snapshot_at)`. -/
def key (row : SnapshotRow) : Str × Instant := (row.listingId, row.snapshotAt)

def ofModel {T : Type} [Datetime T] (item : ListingSnapshot T) : SnapshotRow :=
  ⟨item.listingId, Datetime.instant item.snapshotAt, item.listPriceCny, item.unitPriceCnySqm, item.status.value,
    item.source, item.sourceUrl, item.rawPayloadRef, item.parserVersion⟩

/-- `ListingSnapshot.model_validate` of the selected columns. -/
def toModel (row : SnapshotRow) : Except Failure (ListingSnapshot Instant) :=
  match ListingStatus.ofValue? row.status with
  | none => .error (.validation [notEnumValue "status"])
  | some status => ListingSnapshotFields.validate
      { listingId := row.listingId
        snapshotAt := row.snapshotAt
        listPriceCny := row.listPriceCny
        unitPriceCnySqm := row.unitPriceCnySqm
        status := status
        source := row.source
        sourceUrl := row.sourceUrl
        rawPayloadRef := row.rawPayloadRef
        parserVersion := row.parserVersion }

@[simp] theorem toModel_ofModel (item : ListingSnapshot Instant) : (ofModel item).toModel = .ok item := by
  simp only [toModel, ofModel, ListingStatus.ofValue?_value]
  exact item.validate_fields

/-- The texts that no validator of the model looks at. -/
theorem plainTexts_ofModel_iff {T : Type} [Datetime T] {item : ListingSnapshot T} :
    PlainTexts (ofModel item).texts ↔
      (∀ s ∈ item.sourceUrl, s.Encodable) ∧ ∀ s ∈ item.rawPayloadRef, s.Encodable := by
  obtain ⟨⟨id, -⟩, -, -, ⟨source, -⟩, version, -⟩ := ListingSnapshotFields.errors_eq_nil_iff.mp item.valid
  simp [texts, ofModel, id, source, version]

end SnapshotRow

/-! ### `market_observation` -/

structure MarketObservationRow where
  observationId : Str
  cityCode : Str
  geographyType : Str
  geographyCode : Option Str
  geographyName : Str
  periodStart : Date
  periodEnd : Date
  metricName : Str
  value : Double
  unit : Str
  source : Str
  sourceUrl : Option Str
  publicationDate : Option Date
  collectedAt : Instant
  parserVersion : Str
  rawPayloadRef : Option Str
deriving DecidableEq

namespace MarketObservationRow

/-- The texts among the parameters of the `INSERT`. -/
def texts (row : MarketObservationRow) : List Str :=
  [row.observationId, row.cityCode, row.geographyType, row.geographyName, row.metricName, row.unit, row.source,
    row.parserVersion] ++ row.geographyCode.toList ++ row.sourceUrl.toList ++ row.rawPayloadRef.toList

def ofModel (item : MarketObservation) : MarketObservationRow :=
  ⟨item.observationId, item.cityCode, item.geographyType, item.geographyCode, item.geographyName,
    item.periodStart, item.periodEnd, item.metricName, item.value, item.unit, item.source,
    item.sourceUrl, item.publicationDate, item.collectedAt, item.parserVersion, item.rawPayloadRef⟩

/-- `MarketObservation.model_validate` of the selected columns. -/
def toModel (row : MarketObservationRow) : Except Failure MarketObservation :=
  MarketObservationFields.validate
    { observationId := row.observationId
      cityCode := row.cityCode
      geographyType := row.geographyType
      geographyCode := row.geographyCode
      geographyName := row.geographyName
      periodStart := row.periodStart
      periodEnd := row.periodEnd
      metricName := row.metricName
      value := row.value
      unit := row.unit
      source := row.source
      sourceUrl := row.sourceUrl
      publicationDate := row.publicationDate
      collectedAt := row.collectedAt
      parserVersion := row.parserVersion
      rawPayloadRef := row.rawPayloadRef }

@[simp] theorem toModel_ofModel (item : MarketObservation) : (ofModel item).toModel = .ok item :=
  item.validate_fields

/-- The texts that no validator of the model looks at. -/
theorem plainTexts_ofModel_iff {item : MarketObservation} :
    PlainTexts (ofModel item).texts ↔ (∀ s ∈ item.geographyCode, s.Encodable) ∧
      (∀ s ∈ item.sourceUrl, s.Encodable) ∧ ∀ s ∈ item.rawPayloadRef, s.Encodable := by
  have fields := (thenModel_eq_nil.mp item.valid).1
  simp only [List.append_eq_nil_iff, checkNonempty_eq_nil, and_assoc] at fields
  obtain ⟨id, -, city, -, kind, -, name, -, metric, -, unit, -, source, -, version, -⟩ := fields
  simp [texts, ofModel, id, city, kind, name, metric, unit, source, version]

end MarketObservationRow

end CnPropertyAgent
