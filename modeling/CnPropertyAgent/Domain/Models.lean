import CnPropertyAgent.Domain.Validation

/-!
The canonical models: communities, transactions, listings with their snapshots,
and official market observations.

Each model extends its field values with the proof that they pass its validators;
`validate` is the constructor call, which raises what the validators report.

Listings, snapshots and what is computed of them are about datetimes of any kind: those that
are delivered are Python's, and what is read of a column are instants. Of the times at which
transactions and market observations were collected, only the instants are ever looked at.
-/

namespace CnPropertyAgent

open Python

inductive FloorBucket where
  | low | mid | high | unknown
deriving DecidableEq, Repr

def FloorBucket.value : FloorBucket → Str
  | .low => str "low"
  | .mid => str "mid"
  | .high => str "high"
  | .unknown => str "unknown"

def FloorBucket.all : List FloorBucket := [.low, .mid, .high, .unknown]

/-- `FloorBucket(value)`. -/
def FloorBucket.ofValue? (value : Str) : Option FloorBucket :=
  FloorBucket.all.find? fun bucket => bucket.value = value

@[simp] theorem FloorBucket.ofValue?_value (bucket : FloorBucket) :
    FloorBucket.ofValue? bucket.value = some bucket := by
  cases bucket <;> decide

@[simp] theorem FloorBucket.encodable_value (bucket : FloorBucket) : bucket.value.Encodable := by
  cases bucket <;> exact encodable_str _

inductive ListingStatus where
  | active | sold | withdrawn | offMarket | unknown
deriving DecidableEq, Repr

def ListingStatus.value : ListingStatus → Str
  | .active => str "active"
  | .sold => str "sold"
  | .withdrawn => str "withdrawn"
  | .offMarket => str "off_market"
  | .unknown => str "unknown"

/-- The statuses in the order of the enumeration. -/
def ListingStatus.all : List ListingStatus := [.active, .sold, .withdrawn, .offMarket, .unknown]

/-- `ListingStatus(value)`. -/
def ListingStatus.ofValue? (value : Str) : Option ListingStatus :=
  ListingStatus.all.find? fun status => status.value = value

@[simp] theorem ListingStatus.ofValue?_value (status : ListingStatus) :
    ListingStatus.ofValue? status.value = some status := by
  cases status <;> decide

@[simp] theorem ListingStatus.encodable_value (status : ListingStatus) : status.value.Encodable := by
  cases status <;> exact encodable_str _

/-! ### Communities -/

structure SourceRef where
  provider : Str
  providerEntityId : Option Str
  providerUrl : Option Str
deriving DecidableEq

def SourceRef.errors (ref : SourceRef) : List ErrorItem :=
  checkNonempty (str "provider") ref.provider

structure CommunityFields where
  communityId : Str
  cityCode : Str
  canonicalName : Str
  district : Option Str
  subdistrict : Option Str
  address : Option Str
  latitude : Option Double
  longitude : Option Double
  builtYearMin : Option Int
  builtYearMax : Option Int
  buildingTypes : List Str
  sourceRefs : List SourceRef
deriving DecidableEq

def CommunityFields.errors (c : CommunityFields) : List ErrorItem :=
  thenModel
    (checkNonempty (str "community_id") c.communityId ++
    checkNonempty (str "city_code") c.cityCode ++
    checkNonempty (str "canonical_name") c.canonicalName ++
    checkOptional (checkFloatRange (str "latitude") (-90) 90) c.latitude ++
    checkOptional (checkFloatRange (str "longitude") (-180) 180) c.longitude ++
    checkOptional (checkIntRange (str "built_year_min") 1800 2200) c.builtYearMin ++
    checkOptional (checkIntRange (str "built_year_max") 1800 2200) c.builtYearMax ++
    checkEach (str "source_refs") SourceRef.errors c.sourceRefs)
    (if ∃ lower ∈ c.builtYearMin, ∃ upper ∈ c.builtYearMax, upper < lower then
      [valueErrorItem (str "built_year_min must be <= built_year_max")]
    else if c.latitude.isNone ≠ c.longitude.isNone then
      [valueErrorItem (str "latitude and longitude must be provided together")]
    else [])

structure Community extends CommunityFields where
  valid : toCommunityFields.errors = []
deriving DecidableEq

def CommunityFields.validate (fields : CommunityFields) : Except Failure Community :=
  if h : fields.errors = [] then .ok ⟨fields, h⟩ else .error (.validation fields.errors)

structure EntityAliasFields where
  entityType : Str
  entityId : Str
  provider : Str
  providerEntityId : Str
  providerUrl : Option Str
deriving DecidableEq

def EntityAliasFields.errors (a : EntityAliasFields) : List ErrorItem :=
  checkNonempty (str "entity_type") a.entityType ++
  checkNonempty (str "entity_id") a.entityId ++
  checkNonempty (str "provider") a.provider ++
  checkNonempty (str "provider_entity_id") a.providerEntityId

/-- The name a provider has for an entity. -/
structure EntityAlias extends EntityAliasFields where
  valid : toEntityAliasFields.errors = []
deriving DecidableEq

/-! ### Listings

Listings and snapshots are built with datetimes as callers have them, and are read back from storage
with those of its columns. -/

structure ListingFields (T : Type := AwareDatetime) where
  listingId : Str
  communityId : Str
  source : Str
  sourceListingId : Str
  areaSqm : Option Double
  layout : Option Str
  floorBucket : FloorBucket
  orientation : Option Str
  builtYear : Option Int
  buildingType : Option Str
  firstSeenAt : T
  lastSeenAt : T
  status : ListingStatus
deriving DecidableEq

def ListingFields.errors {T : Type} [Datetime T] (l : ListingFields T) : List ErrorItem :=
  thenModel
    (checkNonempty (str "listing_id") l.listingId ++
    checkNonempty (str "community_id") l.communityId ++
    checkNonempty (str "source") l.source ++
    checkNonempty (str "source_listing_id") l.sourceListingId ++
    checkOptional (checkPositive (str "area_sqm")) l.areaSqm ++
    checkOptional (checkIntRange (str "built_year") 1800 2200) l.builtYear)
    (if Datetime.lt l.lastSeenAt l.firstSeenAt then
      [valueErrorItem (str "first_seen_at must be <= last_seen_at")]
    else [])

/-- A stable listing identity. -/
structure Listing (T : Type := AwareDatetime) [Datetime T] extends ListingFields T where
  valid : toListingFields.errors = []
deriving DecidableEq

def ListingFields.validate {T : Type} [Datetime T] (fields : ListingFields T) : Except Failure (Listing T) :=
  if h : fields.errors = [] then .ok ⟨fields, h⟩ else .error (.validation fields.errors)

structure ListingSnapshotFields (T : Type := AwareDatetime) where
  listingId : Str
  snapshotAt : T
  listPriceCny : Double
  unitPriceCnySqm : Option Double
  status : ListingStatus
  source : Str
  sourceUrl : Option Str
  rawPayloadRef : Option Str
  parserVersion : Str
deriving DecidableEq

def ListingSnapshotFields.errors {T : Type} (s : ListingSnapshotFields T) : List ErrorItem :=
  checkNonempty (str "listing_id") s.listingId ++
  checkPositive (str "list_price_cny") s.listPriceCny ++
  checkOptional (checkPositive (str "unit_price_cny_sqm")) s.unitPriceCnySqm ++
  checkNonempty (str "source") s.source ++
  checkNonempty (str "parser_version") s.parserVersion

/-- One observation of a listing. -/
@[ext] structure ListingSnapshot (T : Type := AwareDatetime) extends ListingSnapshotFields T where
  valid : toListingSnapshotFields.errors = []
deriving DecidableEq

def ListingSnapshotFields.validate {T : Type} (fields : ListingSnapshotFields T) :
    Except Failure (ListingSnapshot T) :=
  if h : fields.errors = [] then .ok ⟨fields, h⟩ else .error (.validation fields.errors)

section

variable {T : Type} [Datetime T]

/-- `a == b`. -/
def ListingSnapshot.eq (a b : ListingSnapshot T) : Bool :=
  a.listingId = b.listingId && Datetime.eq a.snapshotAt b.snapshotAt && a.listPriceCny = b.listPriceCny &&
    a.unitPriceCnySqm = b.unitPriceCnySqm && a.status = b.status && a.source = b.source &&
    a.sourceUrl = b.sourceUrl && a.rawPayloadRef = b.rawPayloadRef && a.parserVersion = b.parserVersion

/-- The observation with its instant. -/
def ListingSnapshot.stored (s : ListingSnapshot T) : ListingSnapshot Instant :=
  ⟨{ s.toListingSnapshotFields with snapshotAt := Datetime.instant s.snapshotAt }, s.valid⟩

/-- What identifies an observation in storage. -/
def ListingSnapshot.key (s : ListingSnapshot T) : Str × Instant := (s.listingId, Datetime.instant s.snapshotAt)

/-- Where the datetimes are compared by their instants, so are the observations. -/
theorem ListingSnapshot.eq_iff {a b : ListingSnapshot T} (told : Datetime.eq a.snapshotAt b.snapshotAt = true ↔
    Datetime.instant a.snapshotAt = Datetime.instant b.snapshotAt) : a.eq b = true ↔ a.stored = b.stored := by
  rw [ListingSnapshot.ext_iff]
  simp only [eq, stored, Bool.and_eq_true, decide_eq_true_eq, told, and_assoc]

@[simp] theorem ListingSnapshot.stored_stored (s : ListingSnapshot Instant) : s.stored = s := rfl

/-- By its instants the listing was seen first no later than last. -/
def Listing.Ordered (l : Listing T) : Prop := Datetime.instant l.firstSeenAt ≤ Datetime.instant l.lastSeenAt

instance (l : Listing T) : Decidable l.Ordered := inferInstanceAs (Decidable (_ ≤ _))

end

/-- What one source row shows: an identity and its snapshot, of one listing. -/
structure ListingObservation where
  listing : Listing
  snapshot : ListingSnapshot
  identity : listing.listingId = snapshot.listingId
deriving DecidableEq

def ListingObservation.validate (listing : Listing) (snapshot : ListingSnapshot) :
    Except Failure ListingObservation :=
  if h : listing.listingId = snapshot.listingId then .ok ⟨listing, snapshot, h⟩
  else .error (.validation [valueErrorItem (str "listing and snapshot listing_id must match")])

/-- The listing and the snapshot carry one datetime and one status, as one row shows them. -/
def ListingObservation.OneRow (o : ListingObservation) : Prop :=
  o.listing.firstSeenAt = o.snapshot.snapshotAt ∧ o.listing.lastSeenAt = o.snapshot.snapshotAt ∧
    o.listing.status = o.snapshot.status

/-- One row proves one instant, and the listing and the snapshot carry one status. -/
def ListingObservation.SingleInstant (o : ListingObservation) : Prop :=
  o.listing.firstSeenAt.instant = o.snapshot.snapshotAt.instant ∧
    o.listing.lastSeenAt.instant = o.snapshot.snapshotAt.instant ∧ o.listing.status = o.snapshot.status

theorem ListingObservation.OneRow.singleInstant {o : ListingObservation} (row : o.OneRow) : o.SingleInstant :=
  ⟨congrArg AwareDatetime.instant row.1, congrArg AwareDatetime.instant row.2.1, row.2.2⟩

theorem ListingObservation.SingleInstant.ordered {o : ListingObservation} (single : o.SingleInstant) :
    o.listing.Ordered := (single.1.trans single.2.1.symm).le

/-! ### Transactions -/

structure TransactionFields where
  transactionId : Str
  communityId : Str
  source : Str
  sourceTransactionId : Option Str
  sourceUrl : Option Str
  dealDate : Date
  areaSqm : Double
  layout : Option Str
  floorBucket : FloorBucket
  orientation : Option Str
  builtYear : Option Int
  initialListingPriceCny : Option Double
  dealPriceCny : Double
  unitPriceCnySqm : Double
  daysOnMarket : Option Int
  rawPayloadRef : Option Str
  collectedAt : Instant
  parserVersion : Str
deriving DecidableEq

def TransactionFields.errors (t : TransactionFields) : List ErrorItem :=
  checkNonempty (str "transaction_id") t.transactionId ++
  checkNonempty (str "community_id") t.communityId ++
  checkNonempty (str "source") t.source ++
  checkPositive (str "area_sqm") t.areaSqm ++
  checkOptional (checkIntRange (str "built_year") 1800 2200) t.builtYear ++
  checkOptional (checkPositive (str "initial_listing_price_cny")) t.initialListingPriceCny ++
  checkPositive (str "deal_price_cny") t.dealPriceCny ++
  checkPositive (str "unit_price_cny_sqm") t.unitPriceCnySqm ++
  checkOptional (checkAtLeast (str "days_on_market") 0) t.daysOnMarket ++
  checkNonempty (str "parser_version") t.parserVersion

structure Transaction extends TransactionFields where
  valid : toTransactionFields.errors = []
deriving DecidableEq

def TransactionFields.validate (fields : TransactionFields) : Except Failure Transaction :=
  if h : fields.errors = [] then .ok ⟨fields, h⟩ else .error (.validation fields.errors)

/-! ### Market observations -/

structure MarketObservationFields where
  observationId : Str
  cityCode : Str
  geographyType : Str
  geographyCode : Option Str
  geographyName : Str
  periodStart : Date
  periodEnd : Date
  metricName : Str
  value : Double
  unit : Str
  source : Str
  sourceUrl : Option Str
  publicationDate : Option Date
  collectedAt : Instant
  parserVersion : Str
  rawPayloadRef : Option Str
deriving DecidableEq

def MarketObservationFields.errors (o : MarketObservationFields) : List ErrorItem :=
  thenModel
    (checkNonempty (str "observation_id") o.observationId ++
    checkNonempty (str "city_code") o.cityCode ++
    checkNonempty (str "geography_type") o.geographyType ++
    checkNonempty (str "geography_name") o.geographyName ++
    checkNonempty (str "metric_name") o.metricName ++
    checkNonempty (str "unit") o.unit ++
    checkNonempty (str "source") o.source ++
    checkNonempty (str "parser_version") o.parserVersion)
    (if o.periodEnd < o.periodStart then
      [valueErrorItem (str "period_start must be <= period_end")]
    else [])

/-- One published measurement of one metric, for one geography, over one period. -/
structure MarketObservation extends MarketObservationFields where
  valid : toMarketObservationFields.errors = []
deriving DecidableEq

def MarketObservationFields.validate (fields : MarketObservationFields) :
    Except Failure MarketObservation :=
  if h : fields.errors = [] then .ok ⟨fields, h⟩ else .error (.validation fields.errors)

/-! ### Validation of valid fields -/

section

variable {T : Type} [Datetime T]

@[simp] theorem Listing.validate_fields (l : Listing T) : l.toListingFields.validate = .ok l :=
  dif_pos l.valid

omit [Datetime T] in
@[simp] theorem ListingSnapshot.validate_fields (s : ListingSnapshot T) :
    s.toListingSnapshotFields.validate = .ok s :=
  dif_pos s.valid

end

@[simp] theorem Transaction.validate_fields (t : Transaction) :
    t.toTransactionFields.validate = .ok t :=
  dif_pos t.valid

@[simp] theorem MarketObservation.validate_fields (o : MarketObservation) :
    o.toMarketObservationFields.validate = .ok o :=
  dif_pos o.valid

@[simp] theorem Community.validate_fields (c : Community) : c.toCommunityFields.validate = .ok c :=
  dif_pos c.valid

section

variable {T : Type}

theorem ListingFields.errors_eq_nil_iff [Datetime T] {l : ListingFields T} :
    l.errors = [] ↔
      (l.listingId.Encodable ∧ l.listingId ≠ []) ∧ (l.communityId.Encodable ∧ l.communityId ≠ []) ∧
      (l.source.Encodable ∧ l.source ≠ []) ∧
      (l.sourceListingId.Encodable ∧ l.sourceListingId ≠ []) ∧
      (∀ area ∈ l.areaSqm, Double.lt 0 area = true) ∧
      (∀ year ∈ l.builtYear, 1800 ≤ year ∧ year ≤ 2200) ∧
      Datetime.lt l.lastSeenAt l.firstSeenAt = false := by
  unfold ListingFields.errors
  simp [and_assoc]

theorem TransactionFields.errors_eq_nil_iff {t : TransactionFields} :
    t.errors = [] ↔
      (t.transactionId.Encodable ∧ t.transactionId ≠ []) ∧
      (t.communityId.Encodable ∧ t.communityId ≠ []) ∧ (t.source.Encodable ∧ t.source ≠ []) ∧
      Double.lt 0 t.areaSqm = true ∧ (∀ year ∈ t.builtYear, 1800 ≤ year ∧ year ≤ 2200) ∧
      (∀ price ∈ t.initialListingPriceCny, Double.lt 0 price = true) ∧
      Double.lt 0 t.dealPriceCny = true ∧ Double.lt 0 t.unitPriceCnySqm = true ∧
      (∀ days ∈ t.daysOnMarket, 0 ≤ days) ∧ t.parserVersion.Encodable ∧ t.parserVersion ≠ [] := by
  unfold TransactionFields.errors
  simp only [List.append_eq_nil_iff, checkNonempty_eq_nil, checkOptional_eq_nil, checkPositive_eq_nil,
    checkIntRange_eq_nil, checkAtLeast_eq_nil, and_assoc]

theorem ListingSnapshotFields.errors_eq_nil_iff {s : ListingSnapshotFields T} :
    s.errors = [] ↔
      (s.listingId.Encodable ∧ s.listingId ≠ []) ∧ Double.lt 0 s.listPriceCny = true ∧
      (∀ price ∈ s.unitPriceCnySqm, Double.lt 0 price = true) ∧
      (s.source.Encodable ∧ s.source ≠ []) ∧ s.parserVersion.Encodable ∧ s.parserVersion ≠ [] := by
  unfold ListingSnapshotFields.errors
  simp only [List.append_eq_nil_iff, checkNonempty_eq_nil, checkOptional_eq_nil, checkPositive_eq_nil, and_assoc]

end

/-! ### What the constructors build and raise -/

theorem ListingFields.eq_of_validate {T : Type} [Datetime T] {fields : ListingFields T} {l : Listing T}
    (h : fields.validate = .ok l) : l.toListingFields = fields := by
  unfold ListingFields.validate at h
  split at h
  · cases h; rfl
  · cases h

theorem ListingSnapshotFields.eq_of_validate {T : Type} {fields : ListingSnapshotFields T}
    {s : ListingSnapshot T} (h : fields.validate = .ok s) : s.toListingSnapshotFields = fields := by
  unfold ListingSnapshotFields.validate at h
  split at h
  · cases h; rfl
  · cases h

theorem ListingObservation.eq_of_validate {listing : Listing} {snapshot : ListingSnapshot}
    {o : ListingObservation} (h : ListingObservation.validate listing snapshot = .ok o) :
    o.listing = listing ∧ o.snapshot = snapshot := by
  unfold ListingObservation.validate at h
  split at h
  · cases h; exact ⟨rfl, rfl⟩
  · cases h

theorem ListingFields.validate_raises (fields : ListingFields) :
    OnlyRaises IsModelError fields.validate := by
  refine isModelError_of_validate (encodableItems_thenModel (by simp) ?_)
  split
  · exact encodableItems_valueErrorItem (encodable_str _)
  · exact encodableItems_nil

theorem ListingSnapshotFields.validate_raises (fields : ListingSnapshotFields) :
    OnlyRaises IsModelError fields.validate :=
  isModelError_of_validate (by simp [ListingSnapshotFields.errors])

theorem ListingObservation.validate_raises (listing : Listing) (snapshot : ListingSnapshot) :
    OnlyRaises IsModelError (ListingObservation.validate listing snapshot) := by
  intro e raised
  unfold ListingObservation.validate at raised
  split at raised
  · cases raised
  · cases raised
    exact ⟨_, rfl, by simp, encodableItems_valueErrorItem (encodable_str _)⟩

/-! ### Sample communities -/

def sampleCommunityFields (communityId : Str) : CommunityFields where
  communityId := communityId
  cityCode := str "310000"
  canonicalName := str "sample"
  district := none
  subdistrict := none
  address := none
  latitude := none
  longitude := none
  builtYearMin := none
  builtYearMax := none
  buildingTypes := []
  sourceRefs := []

def communityA : Community := ⟨sampleCommunityFields (str "cm-a"), by decide +kernel⟩

def communityB : Community := ⟨sampleCommunityFields (str "cm-b"), by decide +kernel⟩

/-! ### Fields of valid models -/

theorem Community.communityId_valid (c : Community) : c.communityId.Encodable ∧ c.communityId ≠ [] := by
  have fields := (thenModel_eq_nil.mp c.valid).1
  simp only [List.append_eq_nil_iff, and_assoc] at fields
  exact checkNonempty_eq_nil.mp fields.1

theorem Transaction.initialListingPriceCny_pos (t : Transaction) :
    ∀ price ∈ t.initialListingPriceCny, Double.lt 0 price = true := by
  obtain ⟨-, -, -, -, -, prices, -⟩ := TransactionFields.errors_eq_nil_iff.mp t.valid
  exact prices

theorem Transaction.dealPriceCny_pos (t : Transaction) : Double.lt 0 t.dealPriceCny = true := by
  obtain ⟨-, -, -, -, -, -, price, -⟩ := TransactionFields.errors_eq_nil_iff.mp t.valid
  exact price

theorem Transaction.unitPriceCnySqm_pos (t : Transaction) : Double.lt 0 t.unitPriceCnySqm = true := by
  obtain ⟨-, -, -, -, -, -, -, price, -⟩ := TransactionFields.errors_eq_nil_iff.mp t.valid
  exact price

theorem Transaction.daysOnMarket_nonneg (t : Transaction) : ∀ days ∈ t.daysOnMarket, 0 ≤ days := by
  obtain ⟨-, -, -, -, -, -, -, -, days, -⟩ := TransactionFields.errors_eq_nil_iff.mp t.valid
  exact days

theorem Transaction.builtYear_range (t : Transaction) :
    ∀ year ∈ t.builtYear, 1800 ≤ year ∧ year ≤ 2200 := by
  obtain ⟨-, -, -, -, years, -⟩ := TransactionFields.errors_eq_nil_iff.mp t.valid
  exact years

theorem Listing.ordered (l : Listing Instant) : l.Ordered := by
  obtain ⟨-, -, -, -, -, -, seen⟩ := ListingFields.errors_eq_nil_iff.mp l.valid
  exact not_lt.mp (of_decide_eq_false seen)

section

variable {T : Type} [Datetime T]

theorem Listing.listingId_valid (l : Listing T) : l.listingId.Encodable ∧ l.listingId ≠ [] :=
  (ListingFields.errors_eq_nil_iff.mp l.valid).1

theorem Listing.communityId_valid (l : Listing T) : l.communityId.Encodable ∧ l.communityId ≠ [] :=
  (ListingFields.errors_eq_nil_iff.mp l.valid).2.1

theorem Listing.builtYear_range (l : Listing T) :
    ∀ year ∈ l.builtYear, 1800 ≤ year ∧ year ≤ 2200 := by
  obtain ⟨-, -, -, -, -, years, -⟩ := ListingFields.errors_eq_nil_iff.mp l.valid
  exact years

/-- The listing with the instants of its datetimes. -/
def Listing.stored (l : Listing T) (ordered : l.Ordered) : Listing Instant where
  toListingFields := { l.toListingFields with
    firstSeenAt := Datetime.instant l.firstSeenAt
    lastSeenAt := Datetime.instant l.lastSeenAt }
  valid := by
    have fields := ListingFields.errors_eq_nil_iff.mp l.valid
    rw [ListingFields.errors_eq_nil_iff]
    exact ⟨fields.1, fields.2.1, fields.2.2.1, fields.2.2.2.1, fields.2.2.2.2.1, fields.2.2.2.2.2.1,
      decide_eq_false (not_lt.mpr ordered)⟩

end

theorem MarketObservation.cityCode_valid (o : MarketObservation) :
    o.cityCode.Encodable ∧ o.cityCode ≠ [] := by
  have fields := (thenModel_eq_nil.mp o.valid).1
  simp only [List.append_eq_nil_iff, and_assoc] at fields
  exact checkNonempty_eq_nil.mp fields.2.1

theorem ListingSnapshot.listPriceCny_pos {T : Type} (s : ListingSnapshot T) :
    Double.lt 0 s.listPriceCny = true :=
  (ListingSnapshotFields.errors_eq_nil_iff.mp s.valid).2.1

theorem ListingSnapshot.unitPriceCnySqm_pos {T : Type} (s : ListingSnapshot T) :
    ∀ price ∈ s.unitPriceCnySqm, Double.lt 0 price = true :=
  (ListingSnapshotFields.errors_eq_nil_iff.mp s.valid).2.2.1

end CnPropertyAgent
