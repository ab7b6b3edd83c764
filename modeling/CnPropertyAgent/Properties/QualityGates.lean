import CnPropertyAgent.Decision.Gates
import CnPropertyAgent.Services.TransactionRuns

/-!
What the data-quality gates accept.

The gates are one list of conditions in the order of the code, the last being the model's
own validation. A record is accepted exactly when all hold, its rejection names the first
that does not, and the accepted transaction is the record with its unit price derived
where it has none and its floor text read. On finite numbers the conditions are the
plain comparisons of rationals.
-/

namespace CnPropertyAgent

open Python Decision

section

variable [Runtime]

/-- The unit price of the transaction: the one of the record, or price by area. -/
def usedUnitPrice (record : RawTransactionRecord) (areaSqm dealPriceCny : Double) : Except Exc Double :=
  match record.unitPriceCnySqm with
  | some unitPrice => .ok unitPrice
  | none => dealPriceCny.div areaSqm

/-- How far a reported unit price is off, relative to the deal price. -/
def deviation (unitPrice areaSqm dealPriceCny : Double) : Except Exc Double :=
  ((unitPrice.mul areaSqm).sub dealPriceCny).abs.div dealPriceCny

/-- What the model asks for beyond the gates. -/
structure SchemaValid (record : RawTransactionRecord) (areaSqm dealPriceCny unitPriceCnySqm : Double) :
    Prop where
  areaSqm : Double.lt 0 areaSqm = true
  builtYear : ∀ year ∈ record.builtYear, 1800 ≤ year ∧ year ≤ 2200
  listingPrice : ∀ price ∈ record.initialListingPriceCny, Double.lt 0 price = true
  dealPrice : Double.lt 0 dealPriceCny = true
  unitPrice : Double.lt 0 unitPriceCnySqm = true

/-- The gates from the unit price on, the model included. -/
def priceGates (record : RawTransactionRecord) (tolerance : Double) : Gates RejectionReason :=
  [(.invalidUnitPrice, ∀ price ∈ record.unitPriceCnySqm, price.le 0 = false),
    (.inconsistentUnitPrice, ∀ price ∈ record.unitPriceCnySqm, ∀ areaSqm ∈ record.areaSqm,
      ∀ dealPriceCny ∈ record.dealPriceCny, ∀ d, deviation price areaSqm dealPriceCny = .ok d →
        tolerance.lt d = false),
    (.schemaInvalid, ∀ areaSqm ∈ record.areaSqm, ∀ dealPriceCny ∈ record.dealPriceCny, ∀ price,
      usedUnitPrice record areaSqm dealPriceCny = .ok price →
        SchemaValid record areaSqm dealPriceCny price)]

/-- The gates from the area on. -/
def measurementGates (record : RawTransactionRecord) (tolerance : Double) : Gates RejectionReason :=
  (.invalidArea, ∃ areaSqm ∈ record.areaSqm, areaSqm.le 0 = false) ::
  (.invalidDealPrice, ∃ dealPriceCny ∈ record.dealPriceCny, dealPriceCny.le 0 = false) ::
  (.invalidListingPrice, ∀ price ∈ record.initialListingPriceCny, price.le 0 = false) ::
  (.invalidDaysOnMarket, ∀ days ∈ record.daysOnMarket, 0 ≤ days) :: priceGates record tolerance

/-- The gates in the order of the code. The deal date is compared with the UTC date of
the collection, by its ordinal, and with the window. -/
def qualityGates (record : RawTransactionRecord) (startDate endDate : Option Date)
    (tolerance : Double) : Gates RejectionReason :=
  (.missingSourceIdentity, ∃ id ∈ record.sourceTransactionId, id ≠ []) ::
  (.missingDealDate, record.dealDate ≠ none) ::
  (.dealDateInFuture, ∀ dealDate ∈ record.dealDate,
    dealDate.ordinal ≤ record.collectedAt.micros / dayMicros + 2) ::
  (.dealDateOutOfRange, ∀ dealDate ∈ record.dealDate, ∀ first ∈ startDate, first ≤ dealDate) ::
  (.dealDateOutOfRange, ∀ dealDate ∈ record.dealDate, ∀ last ∈ endDate, dealDate ≤ last) ::
  measurementGates record tolerance

/-- The bucket that a floor text names. -/
def floorBucketOf (text : Option Str) : FloorBucket :=
  (text.bind fun t => FloorBucket.ofValue? (Runtime.casefold t.strip)).getD .unknown

/-- The warning of a floor text that names none. -/
def floorWarnings (text : Option Str) : List Str :=
  (text.filter fun t => FloorBucket.ofValue? (Runtime.casefold t.strip) = none).toList.map fun t =>
    str "unrecognized floor_bucket " ++ t.pyRepr ++ str " stored as " ++ FloorBucket.unknown.value

theorem coerceFloorBucket_eq (text : Option Str) (warnings : List Str) :
    coerceFloorBucket text warnings = (floorBucketOf text, warnings ++ floorWarnings text) := by
  cases text with
  | none => simp [coerceFloorBucket, floorBucketOf, floorWarnings]
  | some t =>
      cases named : FloorBucket.ofValue? (Runtime.casefold t.strip) with
      | none => simp [coerceFloorBucket, floorBucketOf, floorWarnings, Option.filter, named]
      | some bucket => simp [coerceFloorBucket, floorBucketOf, floorWarnings, Option.filter, named]

/-- The transaction that a record is accepted as. -/
def canonicalFields (record : RawTransactionRecord) (community : Community) (transactionId : Str)
    (dealDate : Date) (areaSqm dealPriceCny unitPriceCnySqm : Double) : TransactionFields where
  transactionId := transactionId
  communityId := community.communityId
  source := record.source
  sourceTransactionId := record.sourceTransactionId
  sourceUrl := record.sourceUrl
  dealDate := dealDate
  areaSqm := areaSqm
  layout := record.layout
  floorBucket := floorBucketOf record.floorBucket
  orientation := record.orientation
  builtYear := record.builtYear
  initialListingPriceCny := record.initialListingPriceCny
  dealPriceCny := dealPriceCny
  unitPriceCnySqm := unitPriceCnySqm
  daysOnMarket := record.daysOnMarket
  rawPayloadRef := record.rawPayloadRef
  collectedAt := record.collectedAt
  parserVersion := record.parserVersion

/-- The warning of a unit price that the record did not have. -/
def derivedWarnings (record : RawTransactionRecord) : List Str :=
  if record.unitPriceCnySqm = none then
    [str "unit_price_cny_sqm derived from deal_price_cny and area_sqm"]
  else []

/-- The normalized transaction is the record, attributed to the community. -/
def AcceptedAs (record : RawTransactionRecord) (community : Community) (n : NormalizedTransaction) :
    Prop :=
  ∃ sourceTransactionId ∈ record.sourceTransactionId, ∃ dealDate ∈ record.dealDate,
    ∃ areaSqm ∈ record.areaSqm, ∃ dealPriceCny ∈ record.dealPriceCny, ∃ unitPrice transactionId,
      usedUnitPrice record areaSqm dealPriceCny = .ok unitPrice ∧
      buildTransactionId record.source sourceTransactionId = .ok transactionId ∧
      n.transaction.toTransactionFields =
        canonicalFields record community transactionId dealDate areaSqm dealPriceCny unitPrice ∧
      n.warnings = derivedWarnings record ++ floorWarnings record.floorBucket

/-- The record is rejected for the reason; where it has a negative number of days that
Python does not print, the rejection raises instead. -/
def Fails (record : RawTransactionRecord) (outcome : Except Failure NormalizationOutcome)
    (reason : RejectionReason) : Prop :=
  (∃ rejection, outcome = .ok (.inr rejection) ∧ rejection.reason = reason) ∨
    reason = .invalidDaysOnMarket ∧ UnprintableDays record ∧ ∃ e, outcome = .error e

variable {record : RawTransactionRecord} {community : Community} {sourceTransactionId : Str}
  {dealDate : Date} {areaSqm dealPriceCny : Double}

omit [Runtime] in
theorem fails_rejectRecord {reason : RejectionReason} {detail : Str} :
    Fails record (rejectRecord record reason detail) reason := Or.inl ⟨_, rfl, rfl⟩

omit [Runtime] in
theorem Refused.fails {outcome : Except Failure NormalizationOutcome} {reason : RejectionReason}
    (h : Refused record outcome reason) : Fails record outcome reason := by
  obtain ⟨detail, rfl⟩ := h
  exact fails_rejectRecord

/-- Behind the other gates, the model objects exactly to what `SchemaValid` excludes. -/
theorem canonicalFields_errors_iff {transactionId : Str} {unitPriceCnySqm : Double}
    (id : transactionId.Encodable ∧ transactionId ≠ []) (days : ∀ n ∈ record.daysOnMarket, 0 ≤ n) :
    (canonicalFields record community transactionId dealDate areaSqm dealPriceCny
      unitPriceCnySqm).errors = [] ↔ SchemaValid record areaSqm dealPriceCny unitPriceCnySqm := by
  obtain ⟨source, -, -, -, -, -, -, parser⟩ := RawTransactionFields.errors_eq_nil_iff.mp record.valid
  rw [TransactionFields.errors_eq_nil_iff]
  constructor
  · rintro ⟨-, -, -, area, year, listing, price, unit, -⟩
    exact ⟨area, year, listing, price, unit⟩
  · rintro ⟨area, year, listing, price, unit⟩
    exact ⟨id, community.communityId_valid, source, area, year, listing, price, unit, days, parser⟩

/-! ### The gates, from the last one on -/

/-- The model is built of the record, or objects. -/
theorem buildTransaction_decides {unitPrice : Double}
    (identity : sourceTransactionId ∈ record.sourceTransactionId) (dated : dealDate ∈ record.dealDate)
    (area : areaSqm ∈ record.areaSqm) (price : dealPriceCny ∈ record.dealPriceCny)
    (used : usedUnitPrice record areaSqm dealPriceCny = .ok unitPrice)
    (days : ∀ n ∈ record.daysOnMarket, 0 ≤ n) {warnings : List Str}
    (same : warnings = derivedWarnings record) :
    let coerced := coerceFloorBucket record.floorBucket warnings
    let outcome := buildTransaction record community sourceTransactionId dealDate areaSqm dealPriceCny
      unitPrice coerced.1 coerced.2
    (¬ SchemaValid record areaSqm dealPriceCny unitPrice ∧ Fails record outcome .schemaInvalid) ∨
      (SchemaValid record areaSqm dealPriceCny unitPrice ∧
        ∃ n, outcome = .ok (.inl n) ∧ AcceptedAs record community n) := by
  subst same
  obtain ⟨⟨source, -⟩, ids, -⟩ := RawTransactionFields.errors_eq_nil_iff.mp record.valid
  have plain : ∀ part ∈ [record.source, sourceTransactionId], part.Encodable := by
    simpa [source] using ids _ identity
  obtain ⟨transactionId, hid, text⟩ := stableId_ok "tx" plain
  have built : buildTransactionId record.source sourceTransactionId = .ok transactionId := hid
  have valid : (canonicalFields record community transactionId dealDate areaSqm dealPriceCny
      unitPrice).errors = [] ↔ SchemaValid record areaSqm dealPriceCny unitPrice :=
    canonicalFields_errors_iff text days
  simp only [coerceFloorBucket_eq, buildTransaction, built, bind, Except.bind]
  unfold TransactionFields.validate
  split_ifs with accepted
  · refine Or.inr ⟨valid.mp accepted, ⟨⟨_, accepted⟩, _⟩, rfl, ?_⟩
    exact ⟨_, identity, _, dated, _, area, _, price, _, _, used, built, rfl, rfl⟩
  · exact Or.inl ⟨fun h => accepted (valid.mpr h), fails_rejectRecord⟩

theorem gateUnitPrice_decides (identity : sourceTransactionId ∈ record.sourceTransactionId)
    (dated : dealDate ∈ record.dealDate) (area : areaSqm ∈ record.areaSqm)
    (areaPos : areaSqm.le 0 = false) (price : dealPriceCny ∈ record.dealPriceCny)
    (pricePos : dealPriceCny.le 0 = false) (days : ∀ n ∈ record.daysOnMarket, 0 ≤ n)
    (tolerance : Double) :
    let outcome := gateUnitPrice record community sourceTransactionId dealDate areaSqm dealPriceCny
      tolerance
    Decides (∃ n, outcome = .ok (.inl n) ∧ AcceptedAs record community n) (Fails record outcome)
      (priceGates record tolerance) := by
  have areas : record.areaSqm = some areaSqm := area
  have prices : record.dealPriceCny = some dealPriceCny := price
  simp only [priceGates, areas, prices, Option.mem_def, Option.some.injEq, forall_eq']
  cases given : record.unitPriceCnySqm with
  | none =>
      obtain ⟨derived, hderived, passed⟩ := unitPriceGate_none areaPos dealPriceCny tolerance
      rw [← given] at passed
      have used : usedUnitPrice record areaSqm dealPriceCny = .ok derived := by
        rw [usedUnitPrice, given]
        exact hderived
      have warned : derivedWarnings record =
          [str "unit_price_cny_sqm derived from deal_price_cny and area_sqm"] := if_pos given
      rw [gateUnitPrice_of_passed passed]
      refine Or.inr ⟨by simp, Or.inr ⟨by simp, ?_⟩⟩
      simp only [used, Except.ok.injEq, forall_eq']
      exact buildTransaction_decides identity dated area price used days warned.symm
  | some unitPrice =>
      obtain ⟨d, hd, branch⟩ := unitPriceGate_some pricePos unitPrice areaSqm tolerance
      have used : usedUnitPrice record areaSqm dealPriceCny = .ok unitPrice := by
        rw [usedUnitPrice, given]
      have unwarned : derivedWarnings record = [] := if_neg (by simp [given])
      have deviates : deviation unitPrice areaSqm dealPriceCny = .ok d := hd
      simp only [used, deviates, Except.ok.injEq, forall_eq', Option.some.injEq]
      rw [← given] at branch
      rcases branch with ⟨low, detail, refused⟩ | ⟨positive, far, detail, refused⟩ |
        ⟨positive, near, passed⟩
      · rw [gateUnitPrice_of_refused refused]
        exact Or.inl ⟨by simp [low], fails_rejectRecord⟩
      · rw [gateUnitPrice_of_refused refused]
        exact Or.inr ⟨positive, Or.inl ⟨by simp [far], fails_rejectRecord⟩⟩
      · rw [gateUnitPrice_of_passed passed]
        refine Or.inr ⟨positive, Or.inr ⟨near, ?_⟩⟩
        exact buildTransaction_decides identity dated area price used days unwarned.symm

theorem gateMeasurements_decides (identity : sourceTransactionId ∈ record.sourceTransactionId)
    (dated : dealDate ∈ record.dealDate) (tolerance : Double) :
    let outcome := gateMeasurements record community sourceTransactionId dealDate tolerance
    Decides (∃ n, outcome = .ok (.inl n) ∧ AcceptedAs record community n) (Fails record outcome)
      (measurementGates record tolerance) := by
  refine (gateMeasurements_gates record community sourceTransactionId dealDate tolerance).append ?_ ?_
  · rintro reason (⟨refused, -⟩ | ⟨rfl, unprintable, message, raised⟩)
    · exact refused.fails
    · exact Or.inr ⟨rfl, unprintable, _, raised⟩
  · rintro ⟨areaSqm, area, areaPos, dealPriceCny, price, pricePos, nonneg, passed⟩
    rw [passed]
    exact gateUnitPrice_decides identity dated area areaPos price pricePos nonneg tolerance

variable (community) in
/-- **The gates.** A record whose collection date has a next day is decided by the gates. -/
theorem normalizeTransaction_decides {startDate endDate : Option Date}
    (datable : record.collectedAt.HasNextDay) (tolerance : UnitPriceTolerance) :
    let outcome := normalizeTransaction record community startDate endDate tolerance.value
    Decides (∃ n, outcome = .ok (.inl n) ∧ AcceptedAs record community n) (Fails record outcome)
      (qualityGates record startDate endDate tolerance.value) := by
  refine (normalizeTransaction_gates record community startDate endDate tolerance).append
    (fun _ refused => refused.fails) ?_
  rintro ⟨id, identity, nonempty, dealDate, dated, passed⟩
  rw [passed, Option.mem_def.mp dated]
  simp only [Option.mem_def, Option.some.injEq, forall_eq']
  refine (gateDates_gates community startDate endDate dealDate datable id tolerance.value).append
    (fun _ refused => refused.fails) ?_
  intro measured
  rw [measured]
  exact gateMeasurements_decides identity dated tolerance.value

/-- The collection date has a next day, the tolerance is one the service takes, and all
gates hold. -/
structure PassesGates (record : RawTransactionRecord) (startDate endDate : Option Date)
    (tolerance : Double) : Prop where
  datable : record.collectedAt.HasNextDay
  validated : validateUnitPriceTolerance tolerance = .ok tolerance
  gates : AllHold (qualityGates record startDate endDate tolerance)

theorem PassesGates.consistent {startDate endDate : Option Date} {tolerance : Double}
    (passes : PassesGates record startDate endDate tolerance) :
    ∀ price ∈ record.unitPriceCnySqm, ∀ areaSqm ∈ record.areaSqm, ∀ dealPriceCny ∈ record.dealPriceCny,
      ∀ d, deviation price areaSqm dealPriceCny = .ok d → tolerance.lt d = false := by
  have all := passes.gates
  simp only [qualityGates, measurementGates, priceGates, allHold_cons] at all
  obtain ⟨-, -, -, -, -, -, -, -, -, -, consistent, -⟩ := all
  exact consistent

/-- A record that passes is accepted. -/
theorem PassesGates.accepted {startDate endDate : Option Date} {tolerance : Double}
    (passes : PassesGates record startDate endDate tolerance) (community : Community) :
    ∃ n, normalizeTransaction record community startDate endDate tolerance = .ok (.inl n) ∧
      AcceptedAs record community n := by
  obtain ⟨valid, rfl, -⟩ := exists_tolerance_of_validate passes.validated
  rcases (normalizeTransaction_decides community passes.datable valid).cases with
    ⟨-, accepted⟩ | ⟨reason, first, -⟩
  · exact accepted
  · exact absurd passes.gates (not_allHold_of_firstFailing first)

/-- What is accepted has passed, and is the record. -/
theorem passesGates_of_accepted {startDate endDate : Option Date} {tolerance : Double}
    {n : NormalizedTransaction}
    (h : normalizeTransaction record community startDate endDate tolerance = .ok (.inl n)) :
    PassesGates record startDate endDate tolerance ∧ AcceptedAs record community n := by
  obtain ⟨_, validated, -⟩ := eq_ok_of_bind h
  obtain ⟨valid, rfl, rfl⟩ := exists_tolerance_of_validate validated
  have datable : record.collectedAt.HasNextDay := by
    by_contra undatable
    rcases (normalizeTransaction_gates record community startDate endDate valid).cases with
      ⟨-, id, -, -, dealDate, -, passed⟩ | ⟨reason, -, detail, refused⟩
    · obtain ⟨e, raised⟩ := gateDates_undatable community undatable id valid.value
      cases (passed.trans raised).symm.trans h
    · exact rejectRecord_ne_inl (refused.symm.trans h)
  rcases (normalizeTransaction_decides community datable valid).cases with
    ⟨all, n', accepted, same⟩ | ⟨reason, -, ⟨rejection, rejected, -⟩ | ⟨-, -, e, raised⟩⟩
  · cases accepted.symm.trans h
    exact ⟨⟨datable, valid.validate_value, all⟩, same⟩
  · cases rejected.symm.trans h
  · cases raised.symm.trans h

/-! ### Finite numbers -/

omit [Runtime] in
theorem le_zero_eq_false_iff {q : ℚ} : (Double.finite q).le 0 = false ↔ 0 < q := by
  simp [Double.le, Double.lt, OfNat.ofNat]

omit [Runtime] in
theorem zero_lt_iff {q : ℚ} : Double.lt 0 (.finite q) = true ↔ 0 < q := by
  simp [Double.lt, OfNat.ofNat]

/-- The numbers of a record whose floats are all finite. -/
structure Figures where
  areaSqm : Option ℚ
  dealPriceCny : Option ℚ
  initialListingPriceCny : Option ℚ
  unitPriceCnySqm : Option ℚ

/-- The figures are those of the record. -/
structure Figures.Of (figures : Figures) (record : RawTransactionRecord) : Prop where
  areaSqm : record.areaSqm = figures.areaSqm.map .finite
  dealPriceCny : record.dealPriceCny = figures.dealPriceCny.map .finite
  initialListingPriceCny : record.initialListingPriceCny = figures.initialListingPriceCny.map .finite
  unitPriceCnySqm : record.unitPriceCnySqm = figures.unitPriceCnySqm.map .finite

/-- The conditions of a plausible record, over the rationals. -/
def plausibility (record : RawTransactionRecord) (figures : Figures) (startDate endDate : Option Date)
    (tolerance : ℚ) : Gates RejectionReason :=
  [(.missingSourceIdentity, ∃ id ∈ record.sourceTransactionId, id ≠ []),
    (.missingDealDate, record.dealDate ≠ none),
    (.dealDateInFuture, ∀ dealDate ∈ record.dealDate, ∀ observedOn,
      record.collectedAt.utcDate = .ok observedOn → dealDate.ordinal ≤ observedOn.ordinal + 1),
    (.dealDateOutOfRange, ∀ dealDate ∈ record.dealDate, ∀ first ∈ startDate, first ≤ dealDate),
    (.dealDateOutOfRange, ∀ dealDate ∈ record.dealDate, ∀ last ∈ endDate, dealDate ≤ last),
    (.invalidArea, ∃ area ∈ figures.areaSqm, 0 < area),
    (.invalidDealPrice, ∃ deal ∈ figures.dealPriceCny, 0 < deal),
    (.invalidListingPrice, ∀ price ∈ figures.initialListingPriceCny, 0 < price),
    (.invalidDaysOnMarket, ∀ days ∈ record.daysOnMarket, 0 ≤ days),
    (.invalidUnitPrice, ∀ price ∈ figures.unitPriceCnySqm, 0 < price),
    (.inconsistentUnitPrice, ∀ price ∈ figures.unitPriceCnySqm, ∀ area ∈ figures.areaSqm,
      ∀ deal ∈ figures.dealPriceCny, |price * area - deal| ≤ tolerance * deal),
    (.schemaInvalid, ∀ year ∈ record.builtYear, 1800 ≤ year ∧ year ≤ 2200)]

section Exact

variable (exact : ∀ q, Runtime.round q = .finite q) {figures : Figures} {tolerance : ℚ}
include exact

theorem deviation_exact {price area deal : ℚ} (positive : 0 < deal) :
    deviation (.finite price) (.finite area) (.finite deal) =
      .ok (.finite (|price * area - deal| / deal)) := by
  have nonzero : deal ≠ 0 := ne_of_gt positive
  simp [deviation, Double.mul, Double.sub, Double.add, Double.neg, Double.abs, Double.div, exact, nonzero,
    sub_eq_add_neg]

theorem usedUnitPrice_exact (numbers : figures.Of record) {area deal : ℚ} (positive : 0 < area) :
    usedUnitPrice record (.finite area) (.finite deal) =
      .ok (.finite (figures.unitPriceCnySqm.getD (deal / area))) := by
  have nonzero : area ≠ 0 := ne_of_gt positive
  unfold usedUnitPrice
  rw [numbers.unitPriceCnySqm]
  cases figures.unitPriceCnySqm with
  | none => simp [Double.div, exact, nonzero]
  | some price => rfl

/-- On finite numbers, behind the others each gate is the plain comparison. -/
theorem equivalent_plausibility (numbers : figures.Of record) (datable : record.collectedAt.HasNextDay)
    (startDate endDate : Option Date) :
    Equivalent (qualityGates record startDate endDate (.finite tolerance))
      (plausibility record figures startDate endDate tolerance) := by
  obtain ⟨observedOn, -, hday, -⟩ := Instant.hasNextDay_iff.mp datable
  have ordinal := Instant.utcDate_eq_ok_iff.mp hday
  refine ⟨rfl, Iff.rfl, fun _ => ⟨rfl, Iff.rfl, fun _ => ⟨rfl, ?_, fun _ => ?_⟩⟩⟩
  · simp only [hday, Except.ok.injEq, forall_eq', ordinal]
    exact forall₂_congr fun _ _ => by omega
  refine ⟨rfl, Iff.rfl, fun _ => ⟨rfl, Iff.rfl, fun _ => ⟨rfl, ?_, fun areaPos => ?_⟩⟩⟩
  · simp [numbers.areaSqm, le_zero_eq_false_iff]
  refine ⟨rfl, ?_, fun dealPos => ?_⟩
  · simp [numbers.dealPriceCny, le_zero_eq_false_iff]
  refine ⟨rfl, ?_, fun listingPos => ⟨rfl, Iff.rfl, fun _ => ⟨rfl, ?_, fun unitPos => ?_⟩⟩⟩
  · simp [numbers.initialListingPriceCny, le_zero_eq_false_iff]
  · simp [numbers.unitPriceCnySqm, le_zero_eq_false_iff]
  -- the last two gates read an area and a price that are positive by now
  simp only [numbers.areaSqm, numbers.dealPriceCny, numbers.unitPriceCnySqm,
    numbers.initialListingPriceCny, Option.mem_map, exists_exists_and_eq_and, forall_exists_index,
    and_imp, forall_apply_eq_imp_iff₂, le_zero_eq_false_iff] at areaPos dealPos listingPos unitPos ⊢
  obtain ⟨area, hArea, areaPos⟩ := areaPos
  obtain ⟨deal, hDeal, dealPos⟩ := dealPos
  rw [Option.mem_def] at hArea hDeal
  simp only [hArea, hDeal, Option.mem_def, Option.some.injEq, forall_eq']
  refine ⟨rfl, ?_, fun _ => ⟨rfl, ?_, fun _ => trivial⟩⟩
  · apply forall₂_congr
    intro price _
    simp only [deviation_exact exact dealPos, Except.ok.injEq, forall_eq', Double.lt,
      decide_eq_false_iff_not, not_lt]
    exact div_le_iff₀ dealPos
  · simp only [usedUnitPrice_exact exact numbers areaPos, Except.ok.injEq, forall_eq']
    constructor
    · intro valid
      exact valid.builtYear
    · intro years
      refine ⟨zero_lt_iff.mpr areaPos, years, ?_, zero_lt_iff.mpr dealPos, zero_lt_iff.mpr ?_⟩
      · intro price mem
        rw [numbers.initialListingPriceCny] at mem
        obtain ⟨q, hq, rfl⟩ := Option.mem_map.mp mem
        exact zero_lt_iff.mpr (listingPos q hq)
      · cases given : figures.unitPriceCnySqm with
        | none => exact div_pos dealPos areaPos
        | some price => exact unitPos price given

end Exact

/-- The accepted transaction is the record, on its figures. -/
def ExactlyAs (record : RawTransactionRecord) (community : Community) (figures : Figures)
    (n : NormalizedTransaction) : Prop :=
  ∃ sourceTransactionId ∈ record.sourceTransactionId, ∃ dealDate ∈ record.dealDate,
    ∃ area ∈ figures.areaSqm, ∃ deal ∈ figures.dealPriceCny, ∃ transactionId,
      buildTransactionId record.source sourceTransactionId = .ok transactionId ∧
      n.transaction.toTransactionFields = canonicalFields record community transactionId dealDate
        (.finite area) (.finite deal) (.finite (figures.unitPriceCnySqm.getD (deal / area))) ∧
      n.warnings = derivedWarnings record ++ floorWarnings record.floorBucket

theorem AcceptedAs.exactly (exact : ∀ q, Runtime.round q = .finite q) {figures : Figures}
    (numbers : figures.Of record) {n : NormalizedTransaction} (accepted : AcceptedAs record community n) :
    ExactlyAs record community figures n := by
  obtain ⟨id, identity, dealDate, dated, areaSqm, area, dealPriceCny, price, unitPrice, transactionId,
    used, built, fields, warnings⟩ := accepted
  rw [numbers.areaSqm] at area
  rw [numbers.dealPriceCny] at price
  obtain ⟨a, ha, rfl⟩ := Option.mem_map.mp area
  obtain ⟨p, hp, rfl⟩ := Option.mem_map.mp price
  have areaPos : 0 < a := by
    have positive := (TransactionFields.errors_eq_nil_iff.mp n.transaction.valid).2.2.2.1
    rw [fields] at positive
    exact zero_lt_iff.mp positive
  rw [usedUnitPrice_exact exact numbers areaPos] at used
  cases used
  exact ⟨id, identity, dealDate, dated, a, ha, p, hp, transactionId, built, fields, warnings⟩

/-- **The quality gates.** In exact arithmetic, a record with finite numbers is accepted
exactly when it is plausible, as itself; where it is rejected, the reason is that of the
first condition that fails; and a call that raises does so on the days on market. -/
theorem quality_gates (exact : ∀ q, Runtime.round q = .finite q) (record : RawTransactionRecord)
    (community : Community) (startDate endDate : Option Date) (tolerance : ℚ) (nonneg : 0 ≤ tolerance)
    (le_one : tolerance ≤ 1) (figures : Figures) (numbers : figures.Of record)
    (datable : record.collectedAt.HasNextDay) :
    let outcome := normalizeTransaction record community startDate endDate (.finite tolerance)
    let gates := plausibility record figures startDate endDate tolerance
    ((∃ n, outcome = .ok (.inl n)) ↔ AllHold gates) ∧
    (∀ n, outcome = .ok (.inl n) → ExactlyAs record community figures n) ∧
    (∀ rejection, outcome = .ok (.inr rejection) → FirstFailing gates rejection.reason) ∧
    ∀ e, outcome = .error e → FirstFailing gates .invalidDaysOnMarket ∧ UnprintableDays record := by
  intro outcome gates
  have decides : Decides (∃ n, outcome = .ok (.inl n) ∧ AcceptedAs record community n)
      (Fails record outcome) gates :=
    (normalizeTransaction_decides community datable ⟨.finite tolerance, rfl,
      by simpa [Double.le, Double.lt, OfNat.ofNat], by simpa [Double.le, Double.lt, OfNat.ofNat]⟩).congr
      (equivalent_plausibility exact numbers datable startDate endDate)
  rcases decides.cases with ⟨all, n, hn, accepted⟩ | ⟨reason, first, failed⟩
  · refine ⟨iff_of_true ⟨n, hn⟩ all, ?_, ?_, ?_⟩
    · intro n' hn'
      cases hn.symm.trans hn'
      exact accepted.exactly exact numbers
    · intro rejection rejected
      cases hn.symm.trans rejected
    · intro e raised
      cases hn.symm.trans raised
  have some_fails : ¬ AllHold gates := not_allHold_of_firstFailing first
  rcases failed with ⟨rejection, rejected, rfl⟩ | ⟨rfl, unprintable, e, raised⟩
  · refine ⟨iff_of_false ?_ some_fails, ?_, ?_, ?_⟩
    · rintro ⟨n, hn⟩
      cases rejected.symm.trans hn
    · intro n hn
      cases rejected.symm.trans hn
    · intro rejection' rejected'
      cases rejected.symm.trans rejected'
      exact first
    · intro e raised
      cases rejected.symm.trans raised
  · refine ⟨iff_of_false ?_ some_fails, ?_, ?_, ?_⟩
    · rintro ⟨n, hn⟩
      cases raised.symm.trans hn
    · intro n hn
      cases raised.symm.trans hn
    · intro rejection rejected
      cases raised.symm.trans rejected
    · intro e' _
      exact ⟨first, unprintable⟩

end

/-- A deal closed after a month is plausible, and accepted. -/
theorem quality_gates_in_a_month : ∃ n, @normalizeTransaction sampleRuntime soldInAMonth communityA none none
    (.finite (1 / 50)) = .ok (.inl n) := by
  have holds : AllHold (plausibility soldInAMonth ⟨some 89, some 3000000, none, none⟩ none none (1 / 50)) := by
    have dated : sampleDate.ordinal ≤ soldInAMonth.collectedAt.micros / dayMicros + 2 := by decide +kernel
    simp only [plausibility, allHold_cons, allHold_nil, and_true]
    refine ⟨⟨str "101", rfl, by decide⟩, ?_, ?_, by simp, by simp, ⟨89, rfl, by decide +kernel⟩,
      ⟨3000000, rfl, by decide +kernel⟩, by simp, ?_, by simp, by simp, ?_⟩
    · rintro ⟨⟩
    · rintro _ ⟨⟩ observedOn hday
      have ordinal := Instant.utcDate_eq_ok_iff.mp hday
      omega
    · rintro _ ⟨⟩
      decide
    · rintro _ ⟨⟩
  exact (@quality_gates sampleRuntime (fun _ => rfl) soldInAMonth communityA none none (1 / 50)
    (by decide +kernel) (by decide +kernel) ⟨some 89, some 3000000, none, none⟩ ⟨rfl, rfl, rfl, rfl⟩
    (by decide +kernel)).1.mpr holds

end CnPropertyAgent
