import CnPropertyAgent.Properties.FieldGrammar
import CnPropertyAgent.Providers.Lianjia.ListingParser
import CnPropertyAgent.Providers.Lianjia.TransactionParser

/-!
What rows write.

A row writes a record when each of its fields does. The parsers return exactly the records
that the rows of a batch write, in the order of the rows.
-/

namespace CnPropertyAgent

open Python

namespace Lianjia

/-! ### What a row says -/

section

variable [CharacterRuntime]

/-- The field names one value of the table, or none. -/
def SaysWord {α : Type} (cells : Dict Str Json) (field : Field) (table : List (List Str × α))
    (unknown value : α) : Prop :=
  Silent cells field ∧ value = unknown ∨
    ∃ text, States cells field text ∧ WritesWord table unknown text value

/-- A floor bucket by its value. -/
def WritesFloor (text value : Str) : Prop :=
  ∃ bucket, WritesWord floorBuckets .unknown text bucket ∧ bucket.value = value

/-- The fields of a deal as its row writes them. -/
structure SaysDeal (cells : Dict Str Json) (fields : RawTransactionFields) : Prop where
  dealDate : Says cells TransactionParser.dealDateField WritesDate fields.dealDate
  areaSqm : Says cells areaField (WritesNumber areaUnits) fields.areaSqm
  layout : SaysLayout cells fields.layout
  floorBucket : Says cells floorField WritesFloor fields.floorBucket
  orientation : Says cells orientationField Eq fields.orientation
  builtYear : Says cells builtYearField (WritesWhole yearUnits) fields.builtYear
  initialListingPriceCny : Says cells TransactionParser.initialListingPriceField WritesWan
    fields.initialListingPriceCny
  dealPriceCny : Says cells TransactionParser.dealPriceField WritesWan fields.dealPriceCny
  unitPriceCnySqm : Says cells TransactionParser.unitPriceField (WritesNumber unitPriceUnits)
    fields.unitPriceCnySqm
  daysOnMarket : Says cells TransactionParser.daysOnMarketField (WritesWhole dayUnits) fields.daysOnMarket

/-- A deal with its identity, and with where it is from. -/
structure SaysTransaction (context : LianjiaParseContext) (cells : Dict Str Json)
    (fields : RawTransactionFields) : Prop extends SaysDeal cells fields where
  source : fields.source = lianjiaSource
  sourceTransactionId : ∃ id, States cells TransactionParser.sourceIdField id ∧
    fields.sourceTransactionId = some id
  sourceUrl : Provides cells sourceUrlField context.sourceUrl fields.sourceUrl
  rawPayloadRef : Provides cells rawPayloadRefField context.rawPayloadRef fields.rawPayloadRef
  collectedAt : fields.collectedAt = context.collectedAt.instant
  parserVersion : fields.parserVersion = lianjiaTransactionParserVersion

/-- The cells of a listing as its row writes them. -/
structure SaysCells (cells : Dict Str Json) (read : ListingCells) : Prop where
  snapshotAt : Says cells ListingParser.snapshotAtField WritesInstant read.snapshotAt
  listPriceCny : Says cells ListingParser.listPriceField WritesWan read.listPriceCny
  unitPriceCnySqm : Says cells ListingParser.unitPriceField (WritesNumber unitPriceUnits)
    read.unitPriceCnySqm
  areaSqm : Says cells areaField (WritesNumber areaUnits) read.areaSqm
  builtYear : Says cells builtYearField (WritesWhole yearUnits) read.builtYear
  orientation : Says cells orientationField Eq read.orientation
  buildingType : Says cells ListingParser.buildingTypeField Eq read.buildingType
  layout : SaysLayout cells read.layout
  floorBucket : SaysWord cells floorField floorBuckets .unknown read.floorBucket
  status : SaysWord cells ListingParser.statusField listingStatuses .unknown read.status

/-- The cells of an observation whose row states this instant, or none. -/
def observedCells (o : ListingObservation) (stated : Option AwareDatetime) : ListingCells :=
  ⟨stated, some o.snapshot.listPriceCny, o.snapshot.unitPriceCnySqm, o.listing.areaSqm, o.listing.builtYear,
    o.listing.orientation, o.listing.buildingType, o.listing.layout, o.listing.floorBucket, o.listing.status⟩

/-- An observation with its identity, its instant, and with where it is from. -/
structure SaysListing (context : LianjiaListingParseContext) (cells : Dict Str Json)
    (o : ListingObservation) : Prop where
  observed : ∃ stated, SaysCells cells (observedCells o stated) ∧
    o.snapshot.snapshotAt = stated.getD context.snapshotAt
  oneRow : o.OneRow
  sourceListingId : States cells ListingParser.sourceIdField o.listing.sourceListingId
  listingId : buildListingId lianjiaSource o.listing.sourceListingId = .ok o.listing.listingId
  communityId : o.listing.communityId = context.communityId
  source : o.listing.source = lianjiaSource ∧ o.snapshot.source = lianjiaSource
  sourceUrl : Provides cells sourceUrlField context.sourceUrl o.snapshot.sourceUrl
  rawPayloadRef : Provides cells rawPayloadRefField context.rawPayloadRef o.snapshot.rawPayloadRef
  parserVersion : o.snapshot.parserVersion = lianjiaListingParserVersion

/-- The row writes the observation. -/
def WritesListing (context : LianjiaListingParseContext) (row : Json) (o : ListingObservation) : Prop :=
  ∃ entries, row = .object entries ∧ SaysListing context (normalizeRowKeys entries) o

/-- The row writes the record, which keeps its texts stripped. -/
def WritesTransaction (context : LianjiaParseContext) (row : Json) (record : RawTransactionRecord) : Prop :=
  ∃ entries fields, row = .object entries ∧ SaysTransaction context (normalizeRowKeys entries) fields ∧
    record.toRawTransactionFields = fields.strip

variable {cells : Dict Str Json}

omit [CharacterRuntime] in
theorem nodup_floorBuckets : floorBuckets.Nodup := by decide

omit [CharacterRuntime] in
theorem nodup_listingStatuses : listingStatuses.Nodup := by decide

section

variable {field : Field}

theorem convert_date_iff {value : Option Date} :
    convert cells field parseDealDate = .ok value ↔ Says cells field WritesDate value :=
  convert_eq_ok_iff fun _ _ => parseDealDate_ok_iff

theorem convert_instant_iff {value : Option AwareDatetime} :
    convert cells field parseAwareDatetime = .ok value ↔ Says cells field WritesInstant value :=
  convert_eq_ok_iff fun _ _ => parseAwareDatetime_ok_iff

theorem convert_area_iff {value : Option Double} :
    convert cells field parseAreaSqm = .ok value ↔ Says cells field (WritesNumber areaUnits) value :=
  convert_eq_ok_iff fun _ _ => parseNumber_ok_iff_writes (by decide)

theorem convert_unitPrice_iff {value : Option Double} :
    convert cells field parseUnitPriceCnySqm = .ok value ↔
      Says cells field (WritesNumber unitPriceUnits) value :=
  convert_eq_ok_iff fun _ _ => parseNumber_ok_iff_writes (by decide)

theorem convert_wan_iff {value : Option Double} :
    convert cells field parseWanToCny = .ok value ↔ Says cells field WritesWan value :=
  convert_eq_ok_iff fun _ _ => parseWanToCny_ok_iff

theorem convert_year_iff {value : Option Int} :
    convert cells field parseYear = .ok value ↔ Says cells field (WritesWhole yearUnits) value :=
  convert_eq_ok_iff fun _ _ => parseInt_ok_iff (by decide)

theorem convert_days_iff {value : Option Int} :
    convert cells field parseDays = .ok value ↔ Says cells field (WritesWhole dayUnits) value :=
  convert_eq_ok_iff fun _ _ => parseInt_ok_iff (by decide)

/-- A field whose words are looked up in a table. -/
theorem word_eq_ok_iff {α : Type} {table : List (List Str × α)} (nodup : table.Nodup) {unknown value : α} :
    (cell cells field).map (fun text => (text.map (onlyMatch table unknown)).getD unknown) = .ok value ↔
      SaysWord cells field table unknown value := by
  constructor
  · intro read
    cases own : cell cells field with
    | error e =>
        rw [own] at read
        cases read
    | ok text =>
        rw [own] at read
        have same := Except.ok.inj read
        cases text with
        | none => exact Or.inl ⟨cell_eq_none_iff.mp own, same.symm⟩
        | some text => exact Or.inr ⟨text, cell_eq_some_iff.mp own, (onlyMatch_iff nodup).mp same⟩
  · rintro (⟨silent, rfl⟩ | ⟨text, stated, written⟩)
    · rw [cell_eq_none_iff.mpr silent]
      rfl
    · rw [cell_eq_some_iff.mpr stated]
      exact congrArg Except.ok ((onlyMatch_iff nodup).mpr written)

end

theorem transactionFloor_eq_ok_iff {value : Option Str} :
    TransactionParser.floorBucket cells = .ok value ↔ Says cells floorField WritesFloor value := by
  have converts : TransactionParser.floorBucket cells =
      convert cells floorField fun text _ => .ok (parseFloorBucket text).value := by
    unfold TransactionParser.floorBucket convert
    cases cell cells floorField with
    | error e => rfl
    | ok text => cases text <;> rfl
  rw [converts]
  apply convert_eq_ok_iff
  intro text value
  rw [Except.ok.injEq]
  constructor
  · rintro rfl
    exact ⟨_, (onlyMatch_iff nodup_floorBuckets).mp rfl, rfl⟩
  · rintro ⟨bucket, written, rfl⟩
    rw [parseFloorBucket, (onlyMatch_iff nodup_floorBuckets).mpr written]

theorem listingFloor_eq_ok_iff {value : FloorBucket} :
    ListingParser.floorBucket cells = .ok value ↔ SaysWord cells floorField floorBuckets .unknown value := by
  refine Iff.trans ?_ (word_eq_ok_iff nodup_floorBuckets)
  unfold ListingParser.floorBucket
  cases cell cells floorField <;> rfl

theorem status_eq_ok_iff {value : ListingStatus} :
    ListingParser.status cells = .ok value ↔
      SaysWord cells ListingParser.statusField listingStatuses .unknown value := by
  refine Iff.trans ?_ (word_eq_ok_iff nodup_listingStatuses)
  unfold ListingParser.status
  cases cell cells ListingParser.statusField <;> rfl

theorem readFields_eq_ok_iff {context : LianjiaParseContext} {ref : SourceRowRef} {id : Str}
    {fields : RawTransactionFields} :
    TransactionParser.readFields context cells ref id = .ok fields ↔ SaysDeal cells fields ∧
      fields.source = lianjiaSource ∧ fields.sourceTransactionId = some id ∧ fields.sourceUrl = ref.sourceUrl ∧
      fields.rawPayloadRef = ref.rawPayloadRef ∧ fields.collectedAt = context.collectedAt.instant ∧
      fields.parserVersion = lianjiaTransactionParserVersion := by
  constructor
  · intro read
    obtain ⟨_, dealDate, read⟩ := eq_ok_of_bind read
    obtain ⟨_, areaSqm, read⟩ := eq_ok_of_bind read
    obtain ⟨_, layout, read⟩ := eq_ok_of_bind read
    obtain ⟨_, floorBucket, read⟩ := eq_ok_of_bind read
    obtain ⟨_, orientation, read⟩ := eq_ok_of_bind read
    obtain ⟨_, builtYear, read⟩ := eq_ok_of_bind read
    obtain ⟨_, initialListingPriceCny, read⟩ := eq_ok_of_bind read
    obtain ⟨_, dealPriceCny, read⟩ := eq_ok_of_bind read
    obtain ⟨_, unitPriceCnySqm, read⟩ := eq_ok_of_bind read
    obtain ⟨_, daysOnMarket, read⟩ := eq_ok_of_bind read
    cases read
    refine ⟨?_, rfl, rfl, rfl, rfl, rfl, rfl⟩
    exact {
      dealDate := convert_date_iff.mp dealDate
      areaSqm := convert_area_iff.mp areaSqm
      layout := layout_eq_ok_iff.mp layout
      floorBucket := transactionFloor_eq_ok_iff.mp floorBucket
      orientation := cell_eq_ok_iff.mp orientation
      builtYear := convert_year_iff.mp builtYear
      initialListingPriceCny := convert_wan_iff.mp initialListingPriceCny
      dealPriceCny := convert_wan_iff.mp dealPriceCny
      unitPriceCnySqm := convert_unitPrice_iff.mp unitPriceCnySqm
      daysOnMarket := convert_days_iff.mp daysOnMarket }
  · rintro ⟨said, source, id', sourceUrl, rawPayloadRef, collectedAt, parserVersion⟩
    simp only [TransactionParser.readFields, convert_date_iff.mpr said.dealDate,
      convert_area_iff.mpr said.areaSqm, layout_eq_ok_iff.mpr said.layout,
      transactionFloor_eq_ok_iff.mpr said.floorBucket, cell_eq_ok_iff.mpr said.orientation,
      convert_year_iff.mpr said.builtYear,
      convert_wan_iff.mpr said.initialListingPriceCny, convert_wan_iff.mpr said.dealPriceCny,
      convert_unitPrice_iff.mpr said.unitPriceCnySqm, convert_days_iff.mpr said.daysOnMarket, bind,
      Except.bind, ← source, ← id', ← sourceUrl, ← rawPayloadRef, ← collectedAt, ← parserVersion]
    rfl

theorem readCells_eq_ok_iff {read : ListingCells} :
    ListingParser.readCells cells = .ok read ↔ SaysCells cells read := by
  constructor
  · intro h
    obtain ⟨_, snapshotAt, h⟩ := eq_ok_of_bind h
    obtain ⟨_, listPriceCny, h⟩ := eq_ok_of_bind h
    obtain ⟨_, unitPriceCnySqm, h⟩ := eq_ok_of_bind h
    obtain ⟨_, areaSqm, h⟩ := eq_ok_of_bind h
    obtain ⟨_, builtYear, h⟩ := eq_ok_of_bind h
    obtain ⟨_, orientation, h⟩ := eq_ok_of_bind h
    obtain ⟨_, buildingType, h⟩ := eq_ok_of_bind h
    obtain ⟨_, layout, h⟩ := eq_ok_of_bind h
    obtain ⟨_, floorBucket, h⟩ := eq_ok_of_bind h
    obtain ⟨_, status, h⟩ := eq_ok_of_bind h
    cases h
    exact {
      snapshotAt := convert_instant_iff.mp snapshotAt
      listPriceCny := convert_wan_iff.mp listPriceCny
      unitPriceCnySqm := convert_unitPrice_iff.mp unitPriceCnySqm
      areaSqm := convert_area_iff.mp areaSqm
      builtYear := convert_year_iff.mp builtYear
      orientation := cell_eq_ok_iff.mp orientation
      buildingType := cell_eq_ok_iff.mp buildingType
      layout := layout_eq_ok_iff.mp layout
      floorBucket := listingFloor_eq_ok_iff.mp floorBucket
      status := status_eq_ok_iff.mp status }
  · intro said
    simp only [ListingParser.readCells, convert_instant_iff.mpr said.snapshotAt,
      convert_wan_iff.mpr said.listPriceCny, convert_unitPrice_iff.mpr said.unitPriceCnySqm,
      convert_area_iff.mpr said.areaSqm, convert_year_iff.mpr said.builtYear,
      cell_eq_ok_iff.mpr said.orientation, cell_eq_ok_iff.mpr said.buildingType,
      layout_eq_ok_iff.mpr said.layout, listingFloor_eq_ok_iff.mpr said.floorBucket,
      status_eq_ok_iff.mpr said.status, bind, Except.bind]
    rfl

/-! ### The row reference -/

theorem Provides.unique {field : Field} {batch value value' : Option Str}
    (provides : Provides cells field batch value) (provides' : Provides cells field batch value') :
    value = value' := by
  obtain ⟨text, read⟩ := rawText_ok_iff.mpr provides.shallow
  rw [(provides_iff read).mp provides, (provides_iff read).mp provides']

section

variable {sourceId : Field} {context : BatchContext} (rowIndex : Option Nat)

theorem buildRowRef_provides {ref : SourceRowRef}
    (built : buildRowRef sourceId context cells rowIndex = .ok ref) :
    Provides cells sourceUrlField context.sourceUrl ref.sourceUrl ∧
      Provides cells rawPayloadRefField context.rawPayloadRef ref.rawPayloadRef := by
  obtain ⟨url, payload, readUrl, readPayload, -, sameUrl, samePayload⟩ := buildRowRef_ok built
  exact ⟨(provides_iff readUrl).mpr sameUrl, (provides_iff readPayload).mpr samePayload⟩

/-- What the row provides is in its reference. -/
theorem exists_rowRef {id : Str} {url payload : Option Str} (named : States cells sourceId id)
    (provided : Provides cells sourceUrlField context.sourceUrl url)
    (provided' : Provides cells rawPayloadRefField context.rawPayloadRef payload) :
    ∃ ref, buildRowRef sourceId context cells rowIndex = .ok ref ∧ url = ref.sourceUrl ∧
      payload = ref.rawPayloadRef := by
  obtain ⟨ref, built⟩ : ∃ ref, buildRowRef sourceId context cells rowIndex = .ok ref :=
    buildRowRef_ok_iff.mpr ⟨provided.shallow, provided'.shallow, named.2.1.2⟩
  obtain ⟨ofUrl, ofPayload⟩ := buildRowRef_provides rowIndex built
  exact ⟨ref, built, provided.unique ofUrl, provided'.unique ofPayload⟩

end

/-! ### Rows -/

section

variable {row : Json} {rowIndex : Option Nat}

/-- A row is parsed into a record exactly when it writes it. -/
theorem parseTransactionRow_inl_iff {context : LianjiaParseContext} {record : RawTransactionRecord} :
    parseTransactionRow context row rowIndex = .ok (.inl record) ↔ WritesTransaction context row record := by
  constructor
  · intro parsed
    obtain ⟨entries, ref, id, fields, rfl, built, identity, read, same⟩ := parseTransactionRow_inl parsed
    obtain ⟨deal, source, named, url, payload, collectedAt, parserVersion⟩ := readFields_eq_ok_iff.mp read
    obtain ⟨ofUrl, ofPayload⟩ := buildRowRef_provides rowIndex built
    refine ⟨entries, fields, rfl, ?_, same⟩
    exact {
      toSaysDeal := deal
      source := source
      sourceTransactionId := ⟨id, cell_eq_some_iff.mp identity, named⟩
      sourceUrl := url ▸ ofUrl
      rawPayloadRef := payload ▸ ofPayload
      collectedAt := collectedAt
      parserVersion := parserVersion }
  · rintro ⟨entries, fields, rfl, said, same⟩
    obtain ⟨id, named, ofId⟩ := said.sourceTransactionId
    have valid : fields.strip.errors = [] := same ▸ record.valid
    obtain ⟨ref, built, url, payload⟩ := exists_rowRef rowIndex named said.sourceUrl said.rawPayloadRef
    have read : TransactionParser.readFields context (normalizeRowKeys entries) ref id = .ok fields :=
      readFields_eq_ok_iff.mpr ⟨said.toSaysDeal, said.source, ofId, url, payload, said.collectedAt,
        said.parserVersion⟩
    have validated : fields.validate = .ok record := by
      obtain ⟨_, stripped, _⟩ := record
      cases same
      exact dif_pos valid
    simp only [parseTransactionRow, parseRow, built, bind, Except.bind, cell_eq_some_iff.mpr named, catchField,
      TransactionParser.parseIdentified, read, validated, catchValidation]

omit [CharacterRuntime] in
theorem eq_of_fields {o o' : ListingObservation}
    (listing : o.listing.toListingFields = o'.listing.toListingFields)
    (snapshot : o.snapshot.toListingSnapshotFields = o'.snapshot.toListingSnapshotFields) : o = o' := by
  obtain ⟨⟨_, _⟩, ⟨_, _⟩, _⟩ := o
  cases listing
  cases snapshot
  rfl

/-- A row is parsed into an observation exactly when it writes it. -/
theorem parseListingRow_eq_inl_iff {context : LianjiaListingParseContext} {observation : ListingObservation} :
    parseListingRow context row rowIndex = .ok (.inl observation) ↔ WritesListing context row observation := by
  constructor
  · intro parsed
    obtain ⟨entries, ref, id, cells, price, listingId, rfl, built, identity, read, priced, hashed, made⟩ :=
      parseListingRow_inl parsed
    obtain ⟨listing, snapshot⟩ := ListingParser.buildObservation_ok made
    obtain ⟨ofUrl, ofPayload⟩ := buildRowRef_provides rowIndex built
    have observed : observedCells observation cells.snapshotAt = cells := by
      simp only [observedCells, listing, snapshot, ← priced]
    refine ⟨entries, rfl, ?_⟩
    exact {
      observed := ⟨cells.snapshotAt, observed.symm ▸ readCells_eq_ok_iff.mp read, by rw [snapshot]⟩
      oneRow := parseListingRow_oneRow parsed
      sourceListingId := by
        rw [listing]
        exact cell_eq_some_iff.mp identity
      listingId := by
        rw [listing]
        exact hashed
      communityId := by rw [listing]
      source := by
        rw [listing, snapshot]
        exact ⟨rfl, rfl⟩
      sourceUrl := by
        rw [snapshot]
        exact ofUrl
      rawPayloadRef := by
        rw [snapshot]
        exact ofPayload
      parserVersion := by rw [snapshot] }
  · rintro ⟨entries, rfl, said⟩
    obtain ⟨stated, observed, instant⟩ := said.observed
    obtain ⟨-, -, -, plainId, area, year, -⟩ := ListingFields.errors_eq_nil_iff.mp observation.listing.valid
    obtain ⟨-, price, unit, -⟩ := ListingSnapshotFields.errors_eq_nil_iff.mp observation.snapshot.valid
    obtain ⟨ref, built, url, payload⟩ := exists_rowRef rowIndex said.sourceListingId said.sourceUrl
      said.rawPayloadRef
    obtain ⟨other, made⟩ : ∃ other, ListingParser.buildObservation context ref
        observation.listing.sourceListingId observation.listing.listingId (observedCells observation stated)
        observation.snapshot.listPriceCny = .ok other :=
      (ListingParser.buildObservation_ok_iff observation.listing.listingId_valid plainId.1).mpr
        ⟨plainId.2, price, unit, area, year⟩
    have same : other = observation := by
      obtain ⟨listing, snapshot⟩ := ListingParser.buildObservation_ok made
      obtain ⟨first, last, status⟩ := said.oneRow
      apply eq_of_fields
      · rw [listing]
        exact (ListingFields.mk.injEq ..).mpr ⟨rfl, said.communityId.symm, said.source.1.symm, rfl, rfl,
          rfl, rfl, rfl, rfl, rfl, (first.trans instant).symm, (last.trans instant).symm, rfl⟩
      · rw [snapshot]
        exact (ListingSnapshotFields.mk.injEq ..).mpr ⟨observation.identity, instant.symm, rfl, rfl, status,
          said.source.2.symm, url.symm, payload.symm, said.parserVersion.symm⟩
    have priced : (observedCells observation stated).listPriceCny =
        some observation.snapshot.listPriceCny := rfl
    simp only [parseListingRow, parseRow, built, bind, Except.bind, cell_eq_some_iff.mpr said.sourceListingId,
      catchField, ListingParser.parseIdentified, readCells_eq_ok_iff.mpr observed, priced, said.listingId, made,
      catchValidation, same]

end

/-! ### Batches -/

/-- What sources such as rows write, in their order; one that writes nothing is passed over. -/
inductive WrittenBy {κ α : Type} (writes : κ → α → Prop) : List κ → List α → Prop where
  | nil : WrittenBy writes [] []
  | record {row : κ} {rows : List κ} {a : α} {records : List α} (written : writes row a)
      (rest : WrittenBy writes rows records) : WrittenBy writes (row :: rows) (a :: records)
  | passed {row : κ} {rows : List κ} {records : List α} (silent : ∀ a, ¬ writes row a)
      (rest : WrittenBy writes rows records) : WrittenBy writes (row :: rows) records

section

variable {κ α : Type} {writes : κ → α → Prop} {rows : List κ} {records : List α}

omit [CharacterRuntime] in
theorem WrittenBy.unique (functional : ∀ row a b, writes row a → writes row b → a = b)
    (written : WrittenBy writes rows records) {others : List α} (written' : WrittenBy writes rows others) :
    records = others := by
  induction written generalizing others with
  | nil =>
      cases written'
      rfl
  | @record row rows a records first rest ih =>
      cases written' with
      | record first' rest' => rw [functional row _ _ first first', ih rest']
      | passed silent rest' => exact absurd first (silent a)
  | passed silent rest ih =>
      cases written' with
      | record first' rest' => exact absurd first' (silent _)
      | passed _ rest' => exact ih rest'

omit [CharacterRuntime] in
/-- Where what is written is computed, it is all there is. -/
theorem writtenBy_iff {f : κ → Option α} (reads : ∀ row a, f row = some a ↔ writes row a) :
    WrittenBy writes rows records ↔ records = rows.filterMap f := by
  have computed : WrittenBy writes rows (rows.filterMap f) := by
    induction rows with
    | nil => exact .nil
    | cons row rows ih =>
        cases first : f row with
        | some a =>
            rw [List.filterMap_cons_some first]
            exact .record ((reads row a).mp first) ih
        | none =>
            rw [List.filterMap_cons_none first]
            refine .passed ?_ ih
            intro a written
            cases first.symm.trans ((reads row a).mpr written)
  constructor
  · intro written
    refine written.unique ?_ computed
    intro row a b first second
    exact Option.some.inj (((reads row a).mpr first).symm.trans ((reads row b).mpr second))
  · rintro rfl
    exact computed

end

section

variable {α : Type} {writes : Json → α → Prop} {rows : List Json} {records : List α}

omit [CharacterRuntime] in
theorem writtenBy_of_outcomes {parse : Nat → Json → Except Failure (α ⊕ ParseRejection)}
    (reads : ∀ i row a, parse i row = .ok (.inl a) ↔ writes row a) {outcomes : List (α ⊕ ParseRejection)}
    (each : rows.mapIdx parse = outcomes.map .ok) :
    WrittenBy writes rows (outcomes.filterMap Sum.getLeft?) := by
  induction rows generalizing parse outcomes with
  | nil =>
      cases List.map_eq_nil_iff.mp each.symm
      exact .nil
  | cons row rows ih =>
      rw [List.mapIdx_cons] at each
      obtain ⟨outcome, rest, rfl, first, each⟩ := List.map_eq_cons_iff.mp each.symm
      have behind := ih (fun i => reads (i + 1)) each.symm
      cases outcome with
      | inl a => exact .record ((reads 0 row a).mp first.symm) behind
      | inr rejection =>
          refine .passed ?_ behind
          intro a written
          cases first.trans ((reads 0 row a).mpr written)

omit [CharacterRuntime] in
/-- A parser that reads what rows write returns what its rows write. -/
theorem parseRows_records_iff {parse : Json → Option Nat → Except Failure (α ⊕ ParseRejection)}
    {plain : Json → Prop} (reads : ∀ row i a, parse row i = .ok (.inl a) ↔ writes row a)
    (returns : ∀ row i, (∃ outcome, parse row i = .ok outcome) ↔ plain row) :
    (∃ result, parseRows parse rows = .ok result ∧ result.records = records) ↔
      (∀ row ∈ rows, plain row) ∧ WrittenBy writes rows records := by
  have functional (row : Json) (a b : α) (written : writes row a) (written' : writes row b) : a = b := by
    cases ((reads row none a).mpr written).symm.trans ((reads row none b).mpr written')
    rfl
  have parsed {result : ParseResult α} (h : parseRows parse rows = .ok result) :
      WrittenBy writes rows result.records := by
    obtain ⟨outcomes, each, rfl⟩ := parseRows_eq_ok_iff.mp h
    rw [buildParseResult_eq]
    exact writtenBy_of_outcomes (fun i row a => reads row (some i) a) each
  constructor
  · rintro ⟨result, h, rfl⟩
    refine ⟨?_, parsed h⟩
    intro row mem
    obtain ⟨i, found⟩ := List.mem_iff_getElem?.mp mem
    exact (returns row (some i)).mp (parseRows_returns_iff.mp ⟨result, h⟩ i row found)
  · rintro ⟨plains, written⟩
    obtain ⟨result, h⟩ : ∃ result, parseRows parse rows = .ok result := by
      rw [parseRows_returns_iff]
      exact fun i row found => (returns row (some i)).mpr (plains row (List.mem_of_getElem? found))
    exact ⟨result, h, (parsed h).unique functional written⟩

theorem parseListingRows_records_iff {context : LianjiaListingParseContext}
    {observations : List ListingObservation} :
    (∃ result, parseListingRows context rows = .ok result ∧ result.records = observations) ↔
      (∀ row ∈ rows, ListingParser.Returns row) ∧
        WrittenBy (WritesListing context) rows observations :=
  parseRows_records_iff (fun _ _ _ => parseListingRow_eq_inl_iff) (parseListingRow_returns_iff context)

theorem parseTransactionRows_records_iff {context : LianjiaParseContext} {records : List RawTransactionRecord} :
    (∃ result, parseTransactionRows context rows = .ok result ∧ result.records = records) ↔
      (∀ row ∈ rows, TransactionParser.Returns row) ∧
        WrittenBy (WritesTransaction context) rows records :=
  parseRows_records_iff (fun _ _ _ => parseTransactionRow_inl_iff) (parseTransactionRow_returns_iff context)

end

end

end Lianjia

open Lianjia

/-- **What is parsed.** A batch is parsed into these observations exactly when no row reaches a cell
that is nested too deep, or an id that no digest takes, and these are what its rows write, in their
order. So are transactions, whose ids are not hashed. -/
theorem rows_parsed_as_written [CharacterRuntime] (listing : LianjiaListingParseContext)
    (transaction : LianjiaParseContext) (rows : List Json) :
    (∀ observations, (∃ result, parseListingRows listing rows = .ok result ∧ result.records = observations) ↔
      (∀ row ∈ rows, ListingParser.Returns row) ∧
        WrittenBy (WritesListing listing) rows observations) ∧
    ∀ records, (∃ result, parseTransactionRows transaction rows = .ok result ∧ result.records = records) ↔
      (∀ row ∈ rows, TransactionParser.Returns row) ∧
        WrittenBy (WritesTransaction transaction) rows records := by
  constructor
  · intro observations
    exact parseListingRows_records_iff
  · intro records
    exact parseTransactionRows_records_iff

end CnPropertyAgent
