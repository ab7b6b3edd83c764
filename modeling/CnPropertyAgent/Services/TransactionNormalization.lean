import CnPropertyAgent.Decision.Gates
import CnPropertyAgent.Providers.Parsing
import CnPropertyAgent.Utils

/-!
The data-quality gates: one provider record against a resolved community.

The gates run in a fixed order and the first that objects decides the rejection.
Three steps can raise instead: the collection date in UTC and the day after it
must exist, and a negative number of days must have a numeral that Python prints.
-/

namespace CnPropertyAgent

open Python Decision

/-! ### Tolerances -/

section

variable [Runtime]

/-- Rejects tolerances that would disable the consistency gate. -/
def validateUnitPriceTolerance (value : Double) : Except Failure Double :=
  if ¬ value.isFinite then
    raiseValueError (str "unit_price_tolerance must be finite, got " ++ Runtime.floatRepr value)
  else if ¬ (Double.le 0 value ∧ value.le 1) then
    raiseValueError (str "unit_price_tolerance must be between 0 and " ++ Runtime.floatRepr 1 ++
      str ", got " ++ Runtime.floatRepr value)
  else .ok value

end

/-- `DEFAULT_UNIT_PRICE_TOLERANCE`. -/
def defaultUnitPriceTolerance : Double := .finite (1 / 50)

/-- A tolerance that the service accepts: a share from 0 to 1. -/
structure UnitPriceTolerance where
  value : Double
  finite : value.isFinite = true
  nonneg : Double.le 0 value = true
  le_one : value.le 1 = true

@[simp] theorem UnitPriceTolerance.validate_value [Runtime] (tolerance : UnitPriceTolerance) :
    validateUnitPriceTolerance tolerance.value = .ok tolerance.value := by
  simp [validateUnitPriceTolerance, tolerance.finite, tolerance.nonneg, tolerance.le_one]

/-- A tolerance that passes is returned as it is. -/
theorem exists_tolerance_of_validate [Runtime] {value returned : Double}
    (h : validateUnitPriceTolerance value = .ok returned) :
    ∃ tolerance : UnitPriceTolerance, tolerance.value = value ∧ returned = value := by
  unfold validateUnitPriceTolerance at h
  split_ifs at h with finite range
  · cases h
    exact ⟨⟨value, finite, range.1, range.2⟩, rfl, rfl⟩
  · cases h
  · cases h

/-! ### Outcomes -/

inductive RejectionReason where
  | missingSourceIdentity
  | missingDealDate
  | dealDateInFuture
  | dealDateOutOfRange
  | invalidArea
  | invalidDealPrice
  | invalidUnitPrice
  | invalidListingPrice
  | invalidDaysOnMarket
  | inconsistentUnitPrice
  | duplicateInBatch
  | schemaInvalid
deriving DecidableEq, Repr

/-- A provider record that failed a data-quality gate. -/
structure TransactionRejection where
  source : Str
  sourceTransactionId : Option Str
  sourceUrl : Option Str
  reason : RejectionReason
  detail : Str
deriving DecidableEq

structure NormalizedTransaction where
  transaction : Transaction
  warnings : List Str
deriving DecidableEq

abbrev NormalizationOutcome := NormalizedTransaction ⊕ TransactionRejection

/-! ### The gates -/

section

variable [Runtime]

def buildTransactionId (source sourceTransactionId : Str) : Except Failure Str :=
  stableId "tx" [source, sourceTransactionId]

/-- The text of a `float | None`. -/
def optionalFloatStr : Option Double → Str
  | none => str "None"
  | some x => Runtime.floatRepr x

def coerceFloorBucket (value : Option Str) (warnings : List Str) : FloorBucket × List Str :=
  match value with
  | none => (.unknown, warnings)
  | some value =>
      match FloorBucket.ofValue? (Runtime.casefold value.strip) with
      | some bucket => (bucket, warnings)
      | none => (.unknown, warnings ++ [str "unrecognized floor_bucket " ++ value.pyRepr ++
          str " stored as " ++ FloorBucket.unknown.value])

def rejectRecord (record : RawTransactionRecord) (reason : RejectionReason) (detail : Str) :
    Except Failure NormalizationOutcome :=
  .ok (.inr
    { source := record.source
      sourceTransactionId := record.sourceTransactionId
      sourceUrl := record.sourceUrl
      reason := reason
      detail := detail })

/-- The unit price of the record, or the one derived from price and area, and the
warning that says so; `none` with the rejection when the gate objects. -/
def unitPriceGate (unitPrice : Option Double) (areaSqm dealPriceCny tolerance : Double) :
    Except Exc (Double × List Str ⊕ RejectionReason × Str) :=
  match unitPrice with
  | none => do
      let derived ← dealPriceCny.div areaSqm
      return .inl (derived, [str "unit_price_cny_sqm derived from deal_price_cny and area_sqm"])
  | some unitPrice =>
      if unitPrice.le 0 then
        return .inr (.invalidUnitPrice,
          str "unit_price_cny_sqm must be positive when present, got " ++ Runtime.floatRepr unitPrice)
      else do
        let deviation ← ((unitPrice.mul areaSqm).sub dealPriceCny).abs.div dealPriceCny
        if tolerance.lt deviation then
          return .inr (.inconsistentUnitPrice,
            str "unit_price_cny_sqm * area_sqm deviates from deal_price_cny by " ++
              Runtime.floatPercent deviation ++ str " (tolerance " ++ Runtime.floatPercent tolerance ++
              str ")")
        else return .inl (unitPrice, [])

/-- The model of a record that passed the gates, or the schema rejection. -/
def buildTransaction (record : RawTransactionRecord) (community : Community)
    (sourceTransactionId : Str) (dealDate : Date) (areaSqm dealPriceCny unitPriceCnySqm : Double)
    (floorBucket : FloorBucket) (warnings : List Str) : Except Failure NormalizationOutcome := do
  let transactionId ← buildTransactionId record.source sourceTransactionId
  match TransactionFields.validate
    { transactionId := transactionId
      communityId := community.communityId
      source := record.source
      sourceTransactionId := record.sourceTransactionId
      sourceUrl := record.sourceUrl
      dealDate := dealDate
      areaSqm := areaSqm
      layout := record.layout
      floorBucket := floorBucket
      orientation := record.orientation
      builtYear := record.builtYear
      initialListingPriceCny := record.initialListingPriceCny
      dealPriceCny := dealPriceCny
      unitPriceCnySqm := unitPriceCnySqm
      daysOnMarket := record.daysOnMarket
      rawPayloadRef := record.rawPayloadRef
      collectedAt := record.collectedAt
      parserVersion := record.parserVersion } with
  | .ok transaction => .ok (.inl { transaction := transaction, warnings := warnings })
  | .error (.validation items) => rejectRecord record .schemaInvalid (formatValidationError items)
  | .error e => .error e

/-- From the unit price on: the gate, the floor bucket and the model. -/
def gateUnitPrice (record : RawTransactionRecord) (community : Community) (sourceTransactionId : Str)
    (dealDate : Date) (areaSqm dealPriceCny tolerance : Double) :
    Except Failure NormalizationOutcome := do
  match ← unitPriceGate record.unitPriceCnySqm areaSqm dealPriceCny tolerance with
  | .inr (reason, detail) => rejectRecord record reason detail
  | .inl (unitPrice, warnings) =>
      let coerced := coerceFloorBucket record.floorBucket warnings
      buildTransaction record community sourceTransactionId dealDate areaSqm dealPriceCny unitPrice
        coerced.1 coerced.2

/-- The gates on the measurements, from the area on. -/
def gateMeasurements (record : RawTransactionRecord) (community : Community)
    (sourceTransactionId : Str) (dealDate : Date) (tolerance : Double) :
    Except Failure NormalizationOutcome :=
  match record.areaSqm.filter (!·.le 0) with
  | none => rejectRecord record .invalidArea
      (str "area_sqm must be positive, got " ++ optionalFloatStr record.areaSqm)
  | some areaSqm =>
  match record.dealPriceCny.filter (!·.le 0) with
  | none => rejectRecord record .invalidDealPrice
      (str "deal_price_cny must be positive, got " ++ optionalFloatStr record.dealPriceCny)
  | some dealPriceCny =>
  if record.initialListingPriceCny.any (·.le 0) then
    rejectRecord record .invalidListingPrice
      (str "initial_listing_price_cny must be positive when present, got " ++
        optionalFloatStr record.initialListingPriceCny)
  else
  match record.daysOnMarket.filter (· < 0) with
  | some days => do
      let days ← strInt days
      rejectRecord record .invalidDaysOnMarket (str "days_on_market must not be negative, got " ++ days)
  | none =>
  gateUnitPrice record community sourceTransactionId dealDate areaSqm dealPriceCny tolerance

/-- From the collection date on: the deal date against it and against the window. -/
def gateDates (record : RawTransactionRecord) (community : Community) (startDate endDate : Option Date)
    (sourceTransactionId : Str) (dealDate : Date) (tolerance : Double) :
    Except Failure NormalizationOutcome := do
  let observedOn ← record.collectedAt.utcDate
  let latest ← observedOn.addDays 1
  if latest < dealDate then
    rejectRecord record .dealDateInFuture (str "deal_date " ++ dealDate.isoformat ++
      str " is after collected_at date " ++ observedOn.isoformat)
  else
  match startDate.filter (dealDate < ·) with
  | some startDate => rejectRecord record .dealDateOutOfRange (str "deal_date " ++
      dealDate.isoformat ++ str " is before requested start " ++ startDate.isoformat)
  | none =>
  match endDate.filter (· < dealDate) with
  | some endDate => rejectRecord record .dealDateOutOfRange (str "deal_date " ++
      dealDate.isoformat ++ str " is after requested end " ++ endDate.isoformat)
  | none => gateMeasurements record community sourceTransactionId dealDate tolerance

/-- Validates one provider record against a resolved community. -/
def normalizeTransaction (record : RawTransactionRecord) (community : Community)
    (startDate endDate : Option Date) (unitPriceTolerance : Double) :
    Except Failure NormalizationOutcome := do
  let tolerance ← validateUnitPriceTolerance unitPriceTolerance
  match record.sourceTransactionId.filter (· ≠ []) with
  | none =>
      rejectRecord record .missingSourceIdentity (str "record has no stable source_transaction_id")
  | some sourceTransactionId =>
  match record.dealDate with
  | none => rejectRecord record .missingDealDate (str "deal_date is missing")
  | some dealDate =>
  gateDates record community startDate endDate sourceTransactionId dealDate tolerance

end

/-! ### What can raise -/

/-- The dates of the record are compared, but a day it needs does not exist. -/
def Undatable (record : RawTransactionRecord) : Prop :=
  (∃ id ∈ record.sourceTransactionId, id ≠ []) ∧ record.dealDate ≠ none ∧
    ¬ record.collectedAt.HasNextDay

/-- The gates between the window and the days on market pass. -/
structure PlausiblePrices (record : RawTransactionRecord) : Prop where
  area : ∃ area ∈ record.areaSqm, area.le 0 = false
  dealPrice : ∃ price ∈ record.dealPriceCny, price.le 0 = false
  listingPrice : ∀ price ∈ record.initialListingPriceCny, price.le 0 = false

/-- All gates ahead of the one on days on market pass. -/
structure ReachesDays (record : RawTransactionRecord) (startDate endDate : Option Date) : Prop
    extends PlausiblePrices record where
  identity : ∃ id ∈ record.sourceTransactionId, id ≠ []
  dealDate : ∃ dealDate ∈ record.dealDate,
    dealDate.ordinal ≤ record.collectedAt.micros / dayMicros + 2 ∧
      (∀ first ∈ startDate, first ≤ dealDate) ∧ ∀ last ∈ endDate, dealDate ≤ last

/-- A negative number of days that Python does not print. -/
def UnprintableDays (record : RawTransactionRecord) : Prop :=
  ∃ days ∈ record.daysOnMarket, days < 0 ∧ 10 ^ maxStrDigits ≤ days.natAbs

/-- The record is refused for its days on market, in a message that cannot be written. -/
def Unprintable (record : RawTransactionRecord) (startDate endDate : Option Date) : Prop :=
  ReachesDays record startDate endDate ∧ UnprintableDays record

def Raises (record : RawTransactionRecord) (startDate endDate : Option Date) : Prop :=
  Undatable record ∨ Unprintable record startDate endDate

/-! ### What comes of a record -/

section

variable [Runtime] {record : RawTransactionRecord} {community : Community}

/-- What an accepted record keeps. -/
structure NormalizationOf (record : RawTransactionRecord) (community : Community)
    (n : NormalizedTransaction) : Prop where
  transactionId : ∃ id ∈ record.sourceTransactionId,
    buildTransactionId record.source id = .ok n.transaction.transactionId
  subject : n.transaction.communityId = community.communityId
  source : n.transaction.source = record.source
  sourceTransactionId : n.transaction.sourceTransactionId = record.sourceTransactionId
  sourceUrl : n.transaction.sourceUrl = record.sourceUrl
  layout : n.transaction.layout = record.layout
  orientation : n.transaction.orientation = record.orientation
  daysOnMarket : n.transaction.daysOnMarket = record.daysOnMarket
  rawPayloadRef : n.transaction.rawPayloadRef = record.rawPayloadRef

/-- What a rejection says about the record. -/
structure RejectionOf (record : RawTransactionRecord) (rejection : TransactionRejection) : Prop where
  source : rejection.source = record.source
  sourceTransactionId : rejection.sourceTransactionId = record.sourceTransactionId
  sourceUrl : rejection.sourceUrl = record.sourceUrl

def Rejected (record : RawTransactionRecord) (outcome : Except Failure NormalizationOutcome) : Prop :=
  ∃ rejection, outcome = .ok (.inr rejection) ∧ RejectionOf record rejection

def Accepted (record : RawTransactionRecord) (community : Community)
    (outcome : Except Failure NormalizationOutcome) : Prop :=
  ∃ n, outcome = .ok (.inl n) ∧ NormalizationOf record community n

omit [Runtime] in
theorem rejectRecord_ne_inl {reason : RejectionReason} {detail : Str} {n : NormalizedTransaction} :
    rejectRecord record reason detail ≠ .ok (.inl n) := by
  intro same
  cases same

omit [Runtime] in
theorem rejected_rejectRecord {reason : RejectionReason} {detail : Str} :
    Rejected record (rejectRecord record reason detail) := ⟨_, rfl, rfl, rfl, rfl⟩

/-- The record is refused for the reason. -/
def Refused (record : RawTransactionRecord) (outcome : Except Failure NormalizationOutcome)
    (reason : RejectionReason) : Prop :=
  ∃ detail, outcome = rejectRecord record reason detail

omit [Runtime] in
theorem Refused.rejected {outcome : Except Failure NormalizationOutcome} {reason : RejectionReason}
    (h : Refused record outcome reason) : Rejected record outcome := by
  obtain ⟨detail, rfl⟩ := h
  exact rejected_rejectRecord

/-- Without a unit price, the gate derives one from a positive area. -/
theorem unitPriceGate_none {areaSqm : Double} (area : areaSqm.le 0 = false)
    (dealPriceCny tolerance : Double) :
    ∃ derived, dealPriceCny.div areaSqm = .ok derived ∧
      unitPriceGate none areaSqm dealPriceCny tolerance = .ok (.inl (derived,
        [str "unit_price_cny_sqm derived from deal_price_cny and area_sqm"])) := by
  obtain ⟨derived, hderived⟩ := Double.div_ok (a := dealPriceCny) area
  refine ⟨derived, hderived, ?_⟩
  rw [unitPriceGate, hderived]
  rfl

/-- A unit price must be positive and, against a positive deal price, within the tolerance. -/
theorem unitPriceGate_some {dealPriceCny : Double} (price : dealPriceCny.le 0 = false)
    (unitPrice areaSqm tolerance : Double) :
    ∃ deviation, ((unitPrice.mul areaSqm).sub dealPriceCny).abs.div dealPriceCny = .ok deviation ∧
      ((unitPrice.le 0 = true ∧ ∃ detail,
        unitPriceGate (some unitPrice) areaSqm dealPriceCny tolerance =
          .ok (.inr (.invalidUnitPrice, detail))) ∨
      (unitPrice.le 0 = false ∧ tolerance.lt deviation = true ∧ ∃ detail,
        unitPriceGate (some unitPrice) areaSqm dealPriceCny tolerance =
          .ok (.inr (.inconsistentUnitPrice, detail))) ∨
      (unitPrice.le 0 = false ∧ tolerance.lt deviation = false ∧
        unitPriceGate (some unitPrice) areaSqm dealPriceCny tolerance = .ok (.inl (unitPrice, [])))) := by
  obtain ⟨deviation, hdeviation⟩ :=
    Double.div_ok (a := ((unitPrice.mul areaSqm).sub dealPriceCny).abs) price
  refine ⟨deviation, hdeviation, ?_⟩
  unfold unitPriceGate
  dsimp only
  by_cases low : unitPrice.le 0 = true
  · rw [if_pos low]
    exact Or.inl ⟨low, _, rfl⟩
  rw [if_neg low, hdeviation]
  have positive := Bool.eq_false_of_not_eq_true low
  by_cases far : tolerance.lt deviation = true
  · exact Or.inr (Or.inl ⟨positive, far, _, if_pos far⟩)
  · exact Or.inr (Or.inr ⟨positive, Bool.eq_false_of_not_eq_true far, if_neg far⟩)

/-- The unit price gate never raises on a price and an area that passed theirs. -/
theorem unitPriceGate_cases (unitPrice : Option Double) {areaSqm dealPriceCny : Double}
    (area : areaSqm.le 0 = false) (price : dealPriceCny.le 0 = false) (tolerance : Double) :
    (∃ used warnings, unitPriceGate unitPrice areaSqm dealPriceCny tolerance =
      .ok (.inl (used, warnings))) ∨
    ∃ reason detail, unitPriceGate unitPrice areaSqm dealPriceCny tolerance =
      .ok (.inr (reason, detail)) := by
  cases unitPrice with
  | none =>
      obtain ⟨derived, -, passed⟩ := unitPriceGate_none area dealPriceCny tolerance
      exact Or.inl ⟨derived, _, passed⟩
  | some unitPrice =>
      obtain ⟨_, -, branch⟩ := unitPriceGate_some price unitPrice areaSqm tolerance
      rcases branch with ⟨-, detail, refused⟩ | ⟨-, -, detail, refused⟩ | ⟨-, -, passed⟩
      · exact Or.inr ⟨_, detail, refused⟩
      · exact Or.inr ⟨_, detail, refused⟩
      · exact Or.inl ⟨unitPrice, [], passed⟩

/-- A record that passed the gates is accepted or fails its schema. -/
theorem buildTransaction_cases {sourceTransactionId : Str}
    (identity : sourceTransactionId ∈ record.sourceTransactionId) (dealDate : Date)
    (areaSqm dealPriceCny unitPriceCnySqm : Double) (floorBucket : FloorBucket) (warnings : List Str) :
    let outcome := buildTransaction record community sourceTransactionId dealDate areaSqm dealPriceCny
      unitPriceCnySqm floorBucket warnings
    Rejected record outcome ∨ Accepted record community outcome := by
  obtain ⟨⟨source, -⟩, ids, -⟩ := RawTransactionFields.errors_eq_nil_iff.mp record.valid
  have plain : ∀ part ∈ [record.source, sourceTransactionId], part.Encodable := by
    simpa [source] using ids _ identity
  obtain ⟨id, hid, -⟩ := stableId_ok "tx" plain
  have built : buildTransactionId record.source sourceTransactionId = .ok id := hid
  simp only [buildTransaction, built, bind, Except.bind]
  unfold TransactionFields.validate
  split_ifs with valid
  · exact Or.inr ⟨_, rfl, ⟨_, identity, built⟩, rfl, rfl, rfl, rfl, rfl, rfl, rfl, rfl⟩
  · exact Or.inl rejected_rejectRecord

/-- A unit price that passes its gate leaves the decision to the model. -/
theorem gateUnitPrice_of_passed {sourceTransactionId : Str} {dealDate : Date}
    {areaSqm dealPriceCny tolerance used : Double} {warnings : List Str}
    (passed : unitPriceGate record.unitPriceCnySqm areaSqm dealPriceCny tolerance =
      .ok (.inl (used, warnings))) :
    gateUnitPrice record community sourceTransactionId dealDate areaSqm dealPriceCny tolerance =
      buildTransaction record community sourceTransactionId dealDate areaSqm dealPriceCny used
        (coerceFloorBucket record.floorBucket warnings).1
        (coerceFloorBucket record.floorBucket warnings).2 := by
  rw [gateUnitPrice, passed]
  rfl

theorem gateUnitPrice_of_refused {sourceTransactionId : Str} {dealDate : Date}
    {areaSqm dealPriceCny tolerance : Double} {reason : RejectionReason} {detail : Str}
    (refused : unitPriceGate record.unitPriceCnySqm areaSqm dealPriceCny tolerance =
      .ok (.inr (reason, detail))) :
    gateUnitPrice record community sourceTransactionId dealDate areaSqm dealPriceCny tolerance =
      rejectRecord record reason detail := by
  rw [gateUnitPrice, refused]
  rfl

theorem gateUnitPrice_cases {sourceTransactionId : Str}
    (identity : sourceTransactionId ∈ record.sourceTransactionId) (dealDate : Date)
    {areaSqm dealPriceCny : Double} (area : areaSqm.le 0 = false) (price : dealPriceCny.le 0 = false)
    (tolerance : Double) :
    let outcome := gateUnitPrice record community sourceTransactionId dealDate areaSqm dealPriceCny
      tolerance
    Rejected record outcome ∨ Accepted record community outcome := by
  rcases unitPriceGate_cases record.unitPriceCnySqm area price tolerance with
    ⟨used, warnings, passed⟩ | ⟨reason, detail, refused⟩
  · rw [gateUnitPrice_of_passed passed]
    exact buildTransaction_cases identity dealDate areaSqm dealPriceCny used _ _
  · rw [gateUnitPrice_of_refused refused]
    exact Or.inl rejected_rejectRecord

/-- The gates ahead of the unit price. -/
def figureGates (record : RawTransactionRecord) : Gates RejectionReason :=
  [(.invalidArea, ∃ areaSqm ∈ record.areaSqm, areaSqm.le 0 = false),
    (.invalidDealPrice, ∃ dealPriceCny ∈ record.dealPriceCny, dealPriceCny.le 0 = false),
    (.invalidListingPrice, ∀ price ∈ record.initialListingPriceCny, price.le 0 = false),
    (.invalidDaysOnMarket, ∀ days ∈ record.daysOnMarket, 0 ≤ days)]

/-- The record is refused for the reason, or for days on market that the message cannot write. -/
def Objects (record : RawTransactionRecord) (outcome : Except Failure NormalizationOutcome)
    (reason : RejectionReason) : Prop :=
  (Refused record outcome reason ∧ (reason = .invalidDaysOnMarket → ¬ UnprintableDays record)) ∨
    (reason = .invalidDaysOnMarket ∧ UnprintableDays record ∧
      ∃ message, outcome = .error (.builtin (.valueError message)))

variable (record community) in
/-- The gates from the area to the days leave the decision to the unit price. -/
theorem gateMeasurements_gates (sourceTransactionId : Str) (dealDate : Date) (tolerance : Double) :
    let outcome := gateMeasurements record community sourceTransactionId dealDate tolerance
    Decides
      (∃ areaSqm ∈ record.areaSqm, areaSqm.le 0 = false ∧
        ∃ dealPriceCny ∈ record.dealPriceCny, dealPriceCny.le 0 = false ∧
          (∀ days ∈ record.daysOnMarket, 0 ≤ days) ∧
          outcome = gateUnitPrice record community sourceTransactionId dealDate areaSqm dealPriceCny
            tolerance)
      (Objects record outcome) (figureGates record) := by
  dsimp only
  unfold gateMeasurements
  split
  · rename_i refused
    refine Or.inl ⟨?_, Or.inl ⟨⟨_, rfl⟩, by simp⟩⟩
    rintro ⟨area, mem, positive⟩
    simpa [positive] using Option.filter_eq_none_iff.mp refused area mem
  rename_i areaSqm harea
  obtain ⟨area, areaPos⟩ := Option.filter_eq_some_iff.mp harea
  rw [Bool.not_eq_true'] at areaPos
  refine Or.inr ⟨⟨areaSqm, area, areaPos⟩, ?_⟩
  split
  · rename_i refused
    refine Or.inl ⟨?_, Or.inl ⟨⟨_, rfl⟩, by simp⟩⟩
    rintro ⟨price, mem, positive⟩
    simpa [positive] using Option.filter_eq_none_iff.mp refused price mem
  rename_i dealPriceCny hprice
  obtain ⟨price, pricePos⟩ := Option.filter_eq_some_iff.mp hprice
  rw [Bool.not_eq_true'] at pricePos
  refine Or.inr ⟨⟨dealPriceCny, price, pricePos⟩, ?_⟩
  split
  · rename_i refused
    refine Or.inl ⟨?_, Or.inl ⟨⟨_, rfl⟩, by simp⟩⟩
    intro positive
    obtain ⟨listing, mem, low⟩ := (Option.any_eq_true _ _).mp refused
    simp [positive listing mem] at low
  rename_i hlisting
  refine Or.inr ⟨(Option.any_eq_false _ _).mp (Bool.eq_false_of_not_eq_true hlisting), ?_⟩
  split
  · rename_i days hdays
    obtain ⟨mem, negative⟩ := Option.filter_eq_some_iff.mp hdays
    rw [decide_eq_true_eq] at negative
    refine Or.inl ⟨fun nonneg => absurd negative (not_lt.mpr (nonneg days mem)), ?_⟩
    by_cases short : days.natAbs < 10 ^ maxStrDigits
    · rw [strInt, if_pos short]
      refine Or.inl ⟨⟨_, rfl⟩, ?_⟩
      rintro - ⟨days', mem', -, long⟩
      cases mem.symm.trans mem'
      exact absurd short (Nat.not_lt.mpr long)
    · rw [strInt, if_neg short]
      exact Or.inr ⟨rfl, ⟨days, mem, negative, Nat.not_lt.mp short⟩, _, rfl⟩
  · rename_i hdays
    have nonneg : ∀ n ∈ record.daysOnMarket, 0 ≤ n := by
      intro n mem
      simpa using Option.filter_eq_none_iff.mp hdays n mem
    exact Or.inr ⟨nonneg, areaSqm, area, areaPos, dealPriceCny, price, pricePos, nonneg, rfl⟩

/-- From the area on, only the numeral of the days can raise. -/
theorem gateMeasurements_cases (community : Community) {sourceTransactionId : Str}
    (identity : sourceTransactionId ∈ record.sourceTransactionId) (dealDate : Date) (tolerance : Double) :
    let outcome := gateMeasurements record community sourceTransactionId dealDate tolerance
    (PlausiblePrices record ∧ UnprintableDays record ∧
      ∃ message, outcome = .error (.builtin (.valueError message))) ∨
    (¬ (PlausiblePrices record ∧ UnprintableDays record) ∧
      (Rejected record outcome ∨ Accepted record community outcome)) := by
  rcases (gateMeasurements_gates record community sourceTransactionId dealDate tolerance).cases with
    ⟨-, areaSqm, -, areaPos, dealPriceCny, -, pricePos, nonneg, passed⟩ | ⟨reason, first, objects⟩
  · rw [passed]
    refine Or.inr ⟨?_, gateUnitPrice_cases identity dealDate areaPos pricePos tolerance⟩
    rintro ⟨-, days, mem, negative, -⟩
    exact absurd negative (not_lt.mpr (nonneg days mem))
  simp only [figureGates, FirstFailing] at first
  rcases objects with ⟨refused, printable⟩ | ⟨rfl, unprintable, raised⟩
  · refine Or.inr ⟨?_, Or.inl refused.rejected⟩
    rintro ⟨priced, unprintable⟩
    rcases first with ⟨no_area, -⟩ | ⟨-, ⟨no_price, -⟩ | ⟨-, ⟨low, -⟩ | ⟨-, ⟨-, rfl⟩ | ⟨-, absent⟩⟩⟩⟩
    · exact no_area priced.area
    · exact no_price priced.dealPrice
    · exact low priced.listingPrice
    · exact printable rfl unprintable
    · exact absent
  · rcases first with ⟨-, other⟩ | ⟨area, ⟨-, other⟩ | ⟨price, ⟨-, other⟩ | ⟨listing, -⟩⟩⟩
    · cases other
    · cases other
    · cases other
    · exact Or.inl ⟨⟨area, price, listing⟩, unprintable, raised⟩

/-- The deal date lies within a day of the collection date and inside the window. -/
def WithinDates (record : RawTransactionRecord) (startDate endDate : Option Date) (dealDate : Date) : Prop :=
  dealDate.ordinal ≤ record.collectedAt.micros / dayMicros + 2 ∧
    (∀ first ∈ startDate, first ≤ dealDate) ∧ ∀ last ∈ endDate, dealDate ≤ last

section Dates

variable {startDate endDate : Option Date} {dealDate : Date}

variable (community) in
/-- Without a collection date, or a day after it, the comparison raises. -/
theorem gateDates_undatable (undatable : ¬ record.collectedAt.HasNextDay) (sourceTransactionId : Str)
    (tolerance : Double) :
    ∃ e, gateDates record community startDate endDate sourceTransactionId dealDate tolerance =
      .error (.builtin e) := by
  cases hday : record.collectedAt.utcDate with
  | error e => exact ⟨e, by rw [gateDates, hday]; rfl⟩
  | ok observedOn =>
      cases hnext : observedOn.addDays 1 with
      | error e =>
          refine ⟨e, ?_⟩
          rw [gateDates, hday]
          simp only [bind, Except.bind, liftM, monadLift, MonadLift.monadLift, Except.mapError, hnext]
      | ok latest => exact absurd (Instant.hasNextDay_iff.mpr ⟨_, _, hday, hnext⟩) undatable

variable (record startDate endDate dealDate) in
/-- The gates on the deal date, against the collection date and the window. -/
def dateGates : Gates RejectionReason :=
  [(.dealDateInFuture, dealDate.ordinal ≤ record.collectedAt.micros / dayMicros + 2),
    (.dealDateOutOfRange, ∀ first ∈ startDate, first ≤ dealDate),
    (.dealDateOutOfRange, ∀ last ∈ endDate, dealDate ≤ last)]

variable (community startDate endDate dealDate) in
/-- With them, the gates on the dates leave the decision to the measurements. -/
theorem gateDates_gates (datable : record.collectedAt.HasNextDay) (sourceTransactionId : Str)
    (tolerance : Double) :
    let outcome := gateDates record community startDate endDate sourceTransactionId dealDate tolerance
    Decides (outcome = gateMeasurements record community sourceTransactionId dealDate tolerance)
      (Refused record outcome) (dateGates record startDate endDate dealDate) := by
  obtain ⟨observedOn, latest, hday, hnext, latestOrdinal⟩ := datable.exists_days
  simp only [gateDates, hday, hnext, bind, Except.bind, liftM, monadLift, MonadLift.monadLift,
    Except.mapError]
  split
  · rename_i future
    rw [Date.lt_def, latestOrdinal] at future
    exact Or.inl ⟨not_le.mpr future, _, rfl⟩
  rename_i past
  rw [Date.lt_def, latestOrdinal, not_lt] at past
  refine Or.inr ⟨past, ?_⟩
  split
  · rename_i first before
    obtain ⟨mem, lt⟩ := Option.filter_eq_some_iff.mp before
    rw [decide_eq_true_eq] at lt
    exact Or.inl ⟨fun started => absurd lt (not_lt.mpr (started first mem)), _, rfl⟩
  rename_i started
  refine Or.inr ⟨fun first mem => by simpa using Option.filter_eq_none_iff.mp started first mem, ?_⟩
  split
  · rename_i last after
    obtain ⟨mem, lt⟩ := Option.filter_eq_some_iff.mp after
    rw [decide_eq_true_eq] at lt
    exact Or.inl ⟨fun ended => absurd lt (not_lt.mpr (ended last mem)), _, rfl⟩
  rename_i ended
  exact Or.inr ⟨fun last mem => by simpa using Option.filter_eq_none_iff.mp ended last mem, rfl⟩

/-- A date out of bounds is rejected and any other leaves the decision to the measurements. -/
theorem gateDates_datable (datable : record.collectedAt.HasNextDay) (sourceTransactionId : Str)
    (tolerance : Double) :
    let outcome := gateDates record community startDate endDate sourceTransactionId dealDate tolerance
    (¬ WithinDates record startDate endDate dealDate ∧ Rejected record outcome) ∨
    (WithinDates record startDate endDate dealDate ∧
      outcome = gateMeasurements record community sourceTransactionId dealDate tolerance) := by
  have within : AllHold (dateGates record startDate endDate dealDate) ↔
      WithinDates record startDate endDate dealDate := by
    simp only [dateGates, allHold_cons, allHold_nil, and_true, WithinDates]
  rw [← within]
  rcases (gateDates_gates community startDate endDate dealDate datable sourceTransactionId
    tolerance).cases with ⟨all, passed⟩ | ⟨reason, first, refused⟩
  · exact Or.inr ⟨all, passed⟩
  · exact Or.inl ⟨not_allHold_of_firstFailing first, refused.rejected⟩

/-- On the dates, the calendar can raise; past them, the measurements decide. -/
theorem gateDates_cases {sourceTransactionId : Str}
    (identity : sourceTransactionId ∈ record.sourceTransactionId) (nonempty : sourceTransactionId ≠ [])
    (dated : dealDate ∈ record.dealDate) (tolerance : Double) :
    let outcome := gateDates record community startDate endDate sourceTransactionId dealDate tolerance
    (Raises record startDate endDate ∧ ∃ e, outcome = .error (.builtin e)) ∨
    (¬ Raises record startDate endDate ∧
      (Rejected record outcome ∨ Accepted record community outcome)) := by
  have hasDate : record.dealDate ≠ none := by
    rw [Option.mem_def.mp dated]
    simp
  by_cases datable : record.collectedAt.HasNextDay
  · have raises : Raises record startDate endDate ↔ Unprintable record startDate endDate := by
      apply or_iff_right
      intro undatable
      exact undatable.2.2 datable
    rw [raises]
    rcases gateDates_datable datable sourceTransactionId tolerance with
      ⟨outside, rejected⟩ | ⟨within, measured⟩
    · refine Or.inr ⟨?_, Or.inl rejected⟩
      intro unprintable
      obtain ⟨dealDate', mem, within⟩ := unprintable.1.dealDate
      cases dated.symm.trans mem
      exact outside within
    · have reaches : PlausiblePrices record ∧ UnprintableDays record ↔
          Unprintable record startDate endDate := by
        constructor
        · rintro ⟨priced, unprintable⟩
          exact ⟨⟨priced, ⟨_, identity, nonempty⟩, ⟨_, dated, within⟩⟩, unprintable⟩
        · rintro ⟨reached, unprintable⟩
          exact ⟨reached.toPlausiblePrices, unprintable⟩
      rw [measured, ← reaches]
      rcases gateMeasurements_cases community identity dealDate tolerance with
        ⟨priced, unprintable, message, raised⟩ | settled
      · exact Or.inl ⟨⟨priced, unprintable⟩, _, raised⟩
      · exact Or.inr settled
  · exact Or.inl ⟨Or.inl ⟨⟨_, identity, nonempty⟩, hasDate, datable⟩,
      gateDates_undatable community datable sourceTransactionId tolerance⟩

end Dates

/-- The gates ahead of the dates. -/
def identityGates (record : RawTransactionRecord) : Gates RejectionReason :=
  [(.missingSourceIdentity, ∃ id ∈ record.sourceTransactionId, id ≠ []),
    (.missingDealDate, record.dealDate ≠ none)]

variable (record community) in
/-- The gates on the identity leave the decision to the dates. -/
theorem normalizeTransaction_gates (startDate endDate : Option Date) (tolerance : UnitPriceTolerance) :
    let outcome := normalizeTransaction record community startDate endDate tolerance.value
    Decides
      (∃ id ∈ record.sourceTransactionId, id ≠ [] ∧ ∃ dealDate ∈ record.dealDate,
        outcome = gateDates record community startDate endDate id dealDate tolerance.value)
      (Refused record outcome) (identityGates record) := by
  simp only [normalizeTransaction, tolerance.validate_value, bind, Except.bind]
  cases hid : record.sourceTransactionId.filter (· ≠ []) with
  | none =>
      refine Or.inl ⟨?_, _, rfl⟩
      rintro ⟨id, mem, nonempty⟩
      simpa [nonempty] using Option.filter_eq_none_iff.mp hid id mem
  | some sourceTransactionId =>
      obtain ⟨identity, nonempty⟩ := Option.filter_eq_some_iff.mp hid
      rw [decide_eq_true_eq] at nonempty
      refine Or.inr ⟨⟨_, identity, nonempty⟩, ?_⟩
      cases hdate : record.dealDate with
      | none => exact Or.inl ⟨by simp, _, rfl⟩
      | some dealDate => exact Or.inr ⟨by simp, _, identity, nonempty, dealDate, rfl, rfl⟩

/-- **What comes of a record.** It raises exactly when it is undatable or unprintable,
and otherwise is rejected or accepted. -/
theorem normalizeTransaction_cases (record : RawTransactionRecord) (community : Community)
    (startDate endDate : Option Date) (tolerance : UnitPriceTolerance) :
    let outcome := normalizeTransaction record community startDate endDate tolerance.value
    (Raises record startDate endDate ∧ ∃ e, outcome = .error (.builtin e)) ∨
    (¬ Raises record startDate endDate ∧
      (Rejected record outcome ∨ Accepted record community outcome)) := by
  rcases (normalizeTransaction_gates record community startDate endDate tolerance).cases with
    ⟨-, id, identity, nonempty, dealDate, dated, passed⟩ | ⟨reason, first, refused⟩
  · rw [passed]
    exact gateDates_cases identity nonempty dated tolerance.value
  · refine Or.inr ⟨?_, Or.inl refused.rejected⟩
    intro raises
    apply not_allHold_of_firstFailing first
    simp only [identityGates, allHold_cons, allHold_nil, and_true]
    rcases raises with ⟨identity, dated, -⟩ | ⟨reached, -⟩
    · exact ⟨identity, dated⟩
    · obtain ⟨dealDate, dated, -⟩ := reached.dealDate
      exact ⟨reached.identity, Option.ne_none_iff_exists'.mpr ⟨dealDate, dated⟩⟩

end

end CnPropertyAgent
