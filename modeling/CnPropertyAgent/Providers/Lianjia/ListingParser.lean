import CnPropertyAgent.Providers.Lianjia.Cells

/-!
The Lianjia current-listing parser: one extracted row becomes one observation.

A row proves one instant, so an observation is first and last seen when its snapshot
was taken.
-/

namespace CnPropertyAgent.Lianjia

open Python

def lianjiaListingParserVersion : Str := str "lianjia-listing-v1"

namespace ListingParser

def sourceIdField : Field := ⟨"房源编号", ["房源编号", "链家编号", "房源id", "source_listing_id"]⟩

def listPriceField : Field := ⟨"总价", ["总价", "挂牌价格（万）", "挂牌价格", "挂牌价", "售价", "报价"]⟩

def unitPriceField : Field := ⟨"单价", ["单价", "挂牌单价", "单价（元/平米）", "参考单价"]⟩

def buildingTypeField : Field := ⟨"建筑类型", ["建筑类型", "楼型"]⟩

def statusField : Field := ⟨"挂牌状态", ["挂牌状态", "房源状态", "状态", "status"]⟩

def snapshotAtField : Field := ⟨"快照时间", ["快照时间", "采集时间", "snapshot_at"]⟩

end ListingParser

/-- The community a batch was captured for, and when. -/
structure LianjiaListingParseContext extends BatchContext where
  communityId : Str
  snapshotAt : AwareDatetime
  validCommunity : checkNonempty (str "community_id") communityId = []

/-- What the cells of a listing row say. -/
structure ListingCells where
  snapshotAt : Option AwareDatetime
  listPriceCny : Option Double
  unitPriceCnySqm : Option Double
  areaSqm : Option Double
  builtYear : Option Int
  orientation : Option Str
  buildingType : Option Str
  layout : Option Str
  floorBucket : FloorBucket
  status : ListingStatus

variable [Runtime]

def buildListingId (source sourceListingId : Str) : Except Failure Str :=
  stableId "lst" [source, sourceListingId]

namespace ListingParser

def floorBucket (cells : Dict Str Json) : Except Failure FloorBucket := do
  return ((← cell cells floorField).map parseFloorBucket).getD .unknown

def status (cells : Dict Str Json) : Except Failure ListingStatus := do
  return ((← cell cells statusField).map parseListingStatus).getD .unknown

def readCells (cells : Dict Str Json) : Except Failure ListingCells := do
  let snapshotAt ← convert cells snapshotAtField parseAwareDatetime
  let listPriceCny ← convert cells listPriceField parseWanToCny
  let unitPriceCnySqm ← convert cells unitPriceField parseUnitPriceCnySqm
  let areaSqm ← convert cells areaField parseAreaSqm
  let builtYear ← convert cells builtYearField parseYear
  let orientation ← cell cells orientationField
  let buildingType ← cell cells buildingTypeField
  let layout ← layout cells
  let floorBucket ← floorBucket cells
  let status ← status cells
  return ⟨snapshotAt, listPriceCny, unitPriceCnySqm, areaSqm, builtYear, orientation, buildingType,
    layout, floorBucket, status⟩

/-- The observation that a row makes with its price. -/
def buildObservation (context : LianjiaListingParseContext) (ref : SourceRowRef)
    (sourceListingId listingId : Str) (cells : ListingCells) (listPriceCny : Double) :
    Except Failure ListingObservation := do
  let observedAt := cells.snapshotAt.getD context.snapshotAt
  let listing ← ListingFields.validate
    { listingId := listingId
      communityId := context.communityId
      source := lianjiaSource
      sourceListingId := sourceListingId
      areaSqm := cells.areaSqm
      layout := cells.layout
      floorBucket := cells.floorBucket
      orientation := cells.orientation
      builtYear := cells.builtYear
      buildingType := cells.buildingType
      firstSeenAt := observedAt
      lastSeenAt := observedAt
      status := cells.status }
  let snapshot ← ListingSnapshotFields.validate
    { listingId := listingId
      snapshotAt := observedAt
      listPriceCny := listPriceCny
      unitPriceCnySqm := cells.unitPriceCnySqm
      status := cells.status
      source := lianjiaSource
      sourceUrl := ref.sourceUrl
      rawPayloadRef := ref.rawPayloadRef
      parserVersion := lianjiaListingParserVersion }
  ListingObservation.validate listing snapshot

/-- The rest of a row with a source id. A row without an asking price is rejected. -/
def parseIdentified (context : LianjiaListingParseContext) (cells : Dict Str Json) (ref : SourceRowRef)
    (sourceListingId : Str) : Except Failure (ListingObservation ⊕ ParseRejection) :=
  catchField ref (readCells cells) fun read =>
    match read.listPriceCny with
    | none => reject ref .schemaInvalid (str listPriceField.name ++
        str " is required: a listing snapshot records an asking price") (some (str listPriceField.name))
    | some price => do
        let listingId ← buildListingId lianjiaSource sourceListingId
        catchValidation ref (buildObservation context ref sourceListingId listingId read price)

end ListingParser

open ListingParser

/-- One extracted listing row as an observation or a rejection. -/
def parseListingRow (context : LianjiaListingParseContext) (row : Json) (rowIndex : Option Nat) :
    Except Failure (ListingObservation ⊕ ParseRejection) :=
  parseRow sourceIdField context.toBatchContext (parseIdentified context) row rowIndex

def parseListingRows (context : LianjiaListingParseContext) (rows : List Json) :
    Except Failure (ParseResult ListingObservation) :=
  parseRows (parseListingRow context) rows

/-! ### What a listing row can raise -/

theorem ListingParser.readCells_raises (cells : Dict Str Json) :
    OnlyRaises IsReadError (readCells cells) := by
  refine (convert_raises fun _ _ _ => parseAwareDatetime_error).bind fun _ => ?_
  refine (convert_raises fun _ _ _ => parseWanToCny_error).bind fun _ => ?_
  refine (convert_raises fun _ _ _ => parseNumber_error).bind fun _ => ?_
  refine (convert_raises fun _ _ _ => parseNumber_error).bind fun _ => ?_
  refine (convert_raises fun _ _ _ => parseInt_error).bind fun _ => ?_
  refine cell_raises.bind fun _ => cell_raises.bind fun _ => layout_raises.bind fun _ => ?_
  refine (cell_raises.bind fun _ => onlyRaises_pure).bind fun _ => ?_
  exact (cell_raises.bind fun _ => onlyRaises_pure).bind fun _ => onlyRaises_pure

/-- The numbers of a row are those of its fields. -/
theorem ListingParser.readCells_ok {cells : Dict Str Json} {read : ListingCells}
    (h : readCells cells = .ok read) :
    convert cells listPriceField parseWanToCny = .ok read.listPriceCny ∧
      convert cells unitPriceField parseUnitPriceCnySqm = .ok read.unitPriceCnySqm ∧
      convert cells areaField parseAreaSqm = .ok read.areaSqm := by
  obtain ⟨snapshotAt, -, h⟩ := eq_ok_of_bind h
  obtain ⟨listPrice, price, h⟩ := eq_ok_of_bind h
  obtain ⟨unitPrice, unit, h⟩ := eq_ok_of_bind h
  obtain ⟨areaSqm, area, h⟩ := eq_ok_of_bind h
  obtain ⟨builtYear, -, h⟩ := eq_ok_of_bind h
  obtain ⟨orientation, -, h⟩ := eq_ok_of_bind h
  obtain ⟨buildingType, -, h⟩ := eq_ok_of_bind h
  obtain ⟨layout, -, h⟩ := eq_ok_of_bind h
  obtain ⟨floorBucket, -, h⟩ := eq_ok_of_bind h
  obtain ⟨status, -, h⟩ := eq_ok_of_bind h
  cases h
  exact ⟨price, unit, area⟩

omit [Runtime] in
theorem ListingParser.buildObservation_raises {context : LianjiaListingParseContext} {ref : SourceRowRef}
    {sourceListingId listingId : Str} {cells : ListingCells} {listPriceCny : Double} :
    OnlyRaises IsModelError (buildObservation context ref sourceListingId listingId cells listPriceCny) :=
  (ListingFields.validate_raises _).bind fun listing =>
    (ListingSnapshotFields.validate_raises _).bind fun snapshot =>
      ListingObservation.validate_raises listing snapshot

namespace ListingParser

/-- A digest is made of ids that can be encoded. -/
theorem buildListingId_ok {id : Str} (plain : id.Encodable) :
    ∃ listingId, buildListingId lianjiaSource id = .ok listingId ∧ listingId.Encodable ∧ listingId ≠ [] :=
  stableId_ok "lst" (by simp [lianjiaSource_valid.1, plain])

theorem encodable_of_buildListingId {id listingId : Str}
    (hashed : buildListingId lianjiaSource id = .ok listingId) : id.Encodable :=
  encodable_of_stableId hashed id (List.mem_cons_of_mem _ List.mem_cons_self)

/-- The fields of a listing row, in the order they are read. -/
def readings (cells : Dict Str Json) : List Reading :=
  [.converted cells snapshotAtField parseAwareDatetime, .converted cells listPriceField parseWanToCny,
    .converted cells unitPriceField parseUnitPriceCnySqm, .converted cells areaField parseAreaSqm,
    .converted cells builtYearField parseYear, .text cells orientationField, .text cells buildingTypeField,
    .layout cells, .text cells floorField, .text cells statusField]

theorem readCells_follows (cells : Dict Str Json) : Follows (readCells cells) (readings cells) := by
  refine (readsField_convert fun _ _ _ => parseAwareDatetime_error).bind fun _ => ?_
  refine (readsField_convert fun _ _ _ => parseWanToCny_error).bind fun _ => ?_
  refine (readsField_convert fun _ _ _ => parseNumber_error).bind fun _ => ?_
  refine (readsField_convert fun _ _ _ => parseNumber_error).bind fun _ => ?_
  refine (readsField_convert fun _ _ _ => parseInt_error).bind fun _ => ?_
  refine readsField_cell.bind fun _ => readsField_cell.bind fun _ => readsField_layout.bind fun _ => ?_
  exact (readsField_cell.map _).bind fun _ => (readsField_cell.map _).bind fun _ => follows_pure

/-- The row is read to the end and has a price, so its id is hashed. -/
def Hashed (cells : Dict Str Json) : Prop :=
  (∀ reading ∈ readings cells, reading.reads) ∧
    ∃ price, convert cells listPriceField parseWanToCny = .ok (some price)

/-- An identified row is parsed unless it reaches a cell that is nested too deep, or an id that no
digest takes. -/
theorem parseIdentified_returns_iff (context : LianjiaListingParseContext) (cells : Dict Str Json)
    (ref : SourceRowRef) (sourceListingId : Str) :
    (∃ outcome, parseIdentified context cells ref sourceListingId = .ok outcome) ↔
      ReadInOrder (readings cells) ∧ (Hashed cells → sourceListingId.Encodable) := by
  have follows := readCells_follows cells
  rw [parseIdentified, catchField_ok_iff (readCells_raises cells), follows.raises_iff, Hashed,
    ← follows.returns_iff]
  refine and_congr_right fun _ => ⟨?_, ?_⟩
  · rintro parses ⟨⟨read, known⟩, price, priced⟩
    obtain ⟨outcome, parsed⟩ := parses read known
    have own := (readCells_ok known).1
    rw [priced, Except.ok.injEq] at own
    simp only [← own] at parsed
    obtain ⟨listingId, hashed, -⟩ := eq_ok_of_bind parsed
    exact encodable_of_buildListingId hashed
  · intro plain read known
    cases priced : read.listPriceCny with
    | none => exact reject_ok (by simp) (by simp [str])
    | some price =>
        have text := plain ⟨⟨read, known⟩, price, priced ▸ (readCells_ok known).1⟩
        obtain ⟨listingId, built, -⟩ := buildListingId_ok text
        simp only [built, bind, Except.bind]
        exact catchValidation_ok buildObservation_raises

end ListingParser

/-- The parser returns on the row. -/
abbrev ListingParser.Returns (row : Json) : Prop :=
  RowReturns sourceIdField
    (fun cells id => ReadInOrder (readings cells) ∧ (Hashed cells → id.Encodable)) row

/-- **Listing rows.** A row is parsed exactly when it reaches no cell that is nested too deep and
no id that cannot be hashed. -/
theorem parseListingRow_returns_iff (context : LianjiaListingParseContext) (row : Json)
    (rowIndex : Option Nat) :
    (∃ outcome, parseListingRow context row rowIndex = .ok outcome) ↔ ListingParser.Returns row :=
  parseRow_returns_iff (parseIdentified_returns_iff context) row rowIndex

/-! ### What an observation says -/

omit [Runtime] in
/-- What the models keep of a row's cells. -/
theorem ListingParser.buildObservation_ok {context : LianjiaListingParseContext} {ref : SourceRowRef}
    {sourceListingId listingId : Str} {cells : ListingCells} {listPriceCny : Double}
    {observation : ListingObservation}
    (built : buildObservation context ref sourceListingId listingId cells listPriceCny =
      .ok observation) :
    let observedAt := cells.snapshotAt.getD context.snapshotAt
    observation.listing.toListingFields =
        { listingId := listingId
          communityId := context.communityId
          source := lianjiaSource
          sourceListingId := sourceListingId
          areaSqm := cells.areaSqm
          layout := cells.layout
          floorBucket := cells.floorBucket
          orientation := cells.orientation
          builtYear := cells.builtYear
          buildingType := cells.buildingType
          firstSeenAt := observedAt
          lastSeenAt := observedAt
          status := cells.status } ∧
      observation.snapshot.toListingSnapshotFields =
        { listingId := listingId
          snapshotAt := observedAt
          listPriceCny := listPriceCny
          unitPriceCnySqm := cells.unitPriceCnySqm
          status := cells.status
          source := lianjiaSource
          sourceUrl := ref.sourceUrl
          rawPayloadRef := ref.rawPayloadRef
          parserVersion := lianjiaListingParserVersion } := by
  unfold buildObservation at built
  obtain ⟨listing, hlisting, built⟩ := eq_ok_of_bind built
  obtain ⟨snapshot, hsnapshot, built⟩ := eq_ok_of_bind built
  obtain ⟨rfl, rfl⟩ := ListingObservation.eq_of_validate built
  exact ⟨ListingFields.eq_of_validate hlisting, ListingSnapshotFields.eq_of_validate hsnapshot⟩

/-- A parsed observation is built from the cells of its row. -/
theorem parseListingRow_inl {context : LianjiaListingParseContext} {row : Json} {rowIndex : Option Nat}
    {observation : ListingObservation}
    (parsed : parseListingRow context row rowIndex = .ok (.inl observation)) :
    ∃ entries ref sourceListingId cells price listingId, row = .object entries ∧
      buildRowRef sourceIdField context.toBatchContext (normalizeRowKeys entries) rowIndex = .ok ref ∧
      cell (normalizeRowKeys entries) sourceIdField = .ok (some sourceListingId) ∧
      readCells (normalizeRowKeys entries) = .ok cells ∧ cells.listPriceCny = some price ∧
      buildListingId lianjiaSource sourceListingId = .ok listingId ∧
      buildObservation context ref sourceListingId listingId cells price = .ok observation := by
  obtain ⟨entries, ref, id, rfl, built, identity, rest⟩ := parseRow_inl parsed
  obtain ⟨cells, read, rest⟩ := catchField_inl rest
  split at rest
  · exact absurd rest reject_ne_inl
  · rename_i price priced
    obtain ⟨listingId, hashed, rest⟩ := eq_ok_of_bind rest
    exact ⟨entries, ref, id, cells, price, listingId, rfl, built, identity, read, priced, hashed,
      catchValidation_inl rest⟩

/-- A rejected listing row points to its row reference. -/
theorem parseListingRow_inr {context : LianjiaListingParseContext} {entries : List (Str × Json)}
    {rowIndex : Option Nat} {r : ParseRejection}
    (parsed : parseListingRow context (.object entries) rowIndex = .ok (.inr r)) :
    buildRowRef sourceIdField context.toBatchContext (normalizeRowKeys entries) rowIndex = .ok r.row := by
  apply parseRow_inr ?_ parsed
  intro cells ref id rejected
  rcases catchField_inr rejected with same | ⟨read, -, rest⟩
  · exact same
  · split at rest
    · exact reject_inr rest
    · obtain ⟨listingId, -, rest⟩ := eq_ok_of_bind rest
      exact catchValidation_inr rest

/-! ### When a listing row is accepted -/

/-- What the models ask of the cells and the price. -/
structure ListingCells.Valid (cells : ListingCells) (listPriceCny : Double) : Prop where
  listPriceCny : Double.lt 0 listPriceCny = true
  unitPriceCnySqm : ∀ price ∈ cells.unitPriceCnySqm, Double.lt 0 price = true
  areaSqm : ∀ area ∈ cells.areaSqm, Double.lt 0 area = true
  builtYear : ∀ year ∈ cells.builtYear, 1800 ≤ year ∧ year ≤ 2200

omit [Runtime] in
/-- The models are built exactly of valid cells. -/
theorem ListingParser.buildObservation_ok_iff {context : LianjiaListingParseContext} {ref : SourceRowRef}
    {sourceListingId listingId : Str} {cells : ListingCells} {listPriceCny : Double}
    (id : listingId.Encodable ∧ listingId ≠ []) (sourceId : sourceListingId.Encodable) :
    (∃ observation, buildObservation context ref sourceListingId listingId cells listPriceCny =
      .ok observation) ↔ sourceListingId ≠ [] ∧ cells.Valid listPriceCny := by
  have subject := checkNonempty_eq_nil.mp context.validCommunity
  constructor
  · rintro ⟨observation, built⟩
    obtain ⟨listing, snapshot⟩ := buildObservation_ok built
    have listed := observation.listing.valid
    have priced := observation.snapshot.valid
    rw [listing, ListingFields.errors_eq_nil_iff] at listed
    rw [snapshot, ListingSnapshotFields.errors_eq_nil_iff] at priced
    obtain ⟨-, -, -, named, area, year, -⟩ := listed
    exact ⟨named.2, priced.2.1, priced.2.2.1, area, year⟩
  · rintro ⟨named, price, unit, area, year⟩
    have listed := ListingFields.errors_eq_nil_iff (l :=
      { listingId := listingId
        communityId := context.communityId
        source := lianjiaSource
        sourceListingId := sourceListingId
        areaSqm := cells.areaSqm
        layout := cells.layout
        floorBucket := cells.floorBucket
        orientation := cells.orientation
        builtYear := cells.builtYear
        buildingType := cells.buildingType
        firstSeenAt := cells.snapshotAt.getD context.snapshotAt
        lastSeenAt := cells.snapshotAt.getD context.snapshotAt
        status := cells.status }) |>.mpr
      ⟨id, subject, lianjiaSource_valid, ⟨sourceId, named⟩, area, year, AwareDatetime.lt_self _⟩
    have priced := ListingSnapshotFields.errors_eq_nil_iff (s :=
      { listingId := listingId
        snapshotAt := cells.snapshotAt.getD context.snapshotAt
        listPriceCny := listPriceCny
        unitPriceCnySqm := cells.unitPriceCnySqm
        status := cells.status
        source := lianjiaSource
        sourceUrl := ref.sourceUrl
        rawPayloadRef := ref.rawPayloadRef
        parserVersion := lianjiaListingParserVersion }) |>.mpr
      ⟨id, price, unit, lianjiaSource_valid, encodable_str _,
        (by decide : lianjiaListingParserVersion ≠ [])⟩
    simp only [buildObservation, ListingFields.validate, ListingSnapshotFields.validate,
      ListingObservation.validate, dif_pos listed, dif_pos priced, bind, Except.bind]
    exact ⟨_, dif_pos trivial⟩

/-- The row reads as these cells under its normalized keys, and the models take them. -/
structure Reads (row : Json) (cells : Dict Str Json) (read : ListingCells) (listPriceCny : Double) :
    Prop where
  entries : ∃ entries, row = .object entries ∧ cells = normalizeRowKeys entries
  provenance : Shallow cells sourceUrlField ∧ Shallow cells rawPayloadRefField
  identity : ∃ id, cell cells sourceIdField = .ok (some id) ∧ id.Encodable ∧ id ≠ []
  cellsRead : readCells cells = .ok read
  priced : read.listPriceCny = some listPriceCny
  valid : read.Valid listPriceCny

/-- **Accepted rows.** A row is accepted exactly when it reads as valid cells, whose numbers
the observation has. -/
theorem parseListingRow_inl_iff (context : LianjiaListingParseContext) (row : Json) (rowIndex : Option Nat)
    (P : Double → Option Double → Option Double → Prop) :
    (∃ observation, parseListingRow context row rowIndex = .ok (.inl observation) ∧
      P observation.snapshot.listPriceCny observation.snapshot.unitPriceCnySqm
        observation.listing.areaSqm) ↔
    ∃ cells read listPriceCny, Reads row cells read listPriceCny ∧
      P listPriceCny read.unitPriceCnySqm read.areaSqm := by
  constructor
  · rintro ⟨observation, parsed, holds⟩
    obtain ⟨entries, ref, id, read, price, listingId, rfl, href, identity, hread, priced, hashed, built⟩ :=
      parseListingRow_inl parsed
    have text := encodable_of_buildListingId hashed
    obtain ⟨_, hid, valid⟩ := buildListingId_ok text
    cases hashed.symm.trans hid
    obtain ⟨nonempty, checked⟩ := (buildObservation_ok_iff valid text).mp ⟨_, built⟩
    obtain ⟨shallowUrl, shallowPayload, -⟩ := buildRowRef_ok_iff.mp ⟨ref, href⟩
    obtain ⟨listing, snapshot⟩ := buildObservation_ok built
    rw [listing, snapshot] at holds
    exact ⟨_, read, price, ⟨⟨entries, rfl, rfl⟩, ⟨shallowUrl, shallowPayload⟩, ⟨id, identity, text, nonempty⟩,
      hread, priced, checked⟩, holds⟩
  · rintro ⟨_, read, price, ⟨⟨entries, rfl, rfl⟩, ⟨shallowUrl, shallowPayload⟩,
      ⟨id, identity, text, nonempty⟩, hread, priced, checked⟩, holds⟩
    obtain ⟨listingId, hashed, valid⟩ := buildListingId_ok text
    obtain ⟨ref, href⟩ : ∃ ref, buildRowRef sourceIdField context.toBatchContext (normalizeRowKeys entries)
        rowIndex = .ok ref := buildRowRef_ok_iff.mpr ⟨shallowUrl, shallowPayload, shallow_of_cell identity⟩
    obtain ⟨observation, built⟩ : ∃ observation,
        buildObservation context ref id listingId read price = .ok observation :=
      (buildObservation_ok_iff valid text).mpr ⟨nonempty, checked⟩
    refine ⟨observation, ?_, ?_⟩
    · simp only [parseListingRow, parseRow, href, bind, Except.bind, identity, catchField, parseIdentified,
        hread, priced, hashed, built, catchValidation]
    · obtain ⟨listing, snapshot⟩ := buildObservation_ok built
      rwa [listing, snapshot]

/-- **One row.** A parsed observation was first and last seen at its snapshot, with
the status of its snapshot. -/
theorem parseListingRow_oneRow {context : LianjiaListingParseContext} {row : Json}
    {rowIndex : Option Nat} {observation : ListingObservation}
    (parsed : parseListingRow context row rowIndex = .ok (.inl observation)) :
    observation.OneRow := by
  obtain ⟨_, _, _, _, _, _, -, -, -, -, -, -, built⟩ := parseListingRow_inl parsed
  obtain ⟨listing, snapshot⟩ := buildObservation_ok built
  rw [ListingObservation.OneRow, listing, snapshot]
  exact ⟨rfl, rfl, rfl⟩

/-- **Derived ids.** A parsed observation is a listing of the source under the id built of
its provider id. -/
theorem parseListingRow_identity {context : LianjiaListingParseContext} {row : Json}
    {rowIndex : Option Nat} {observation : ListingObservation}
    (parsed : parseListingRow context row rowIndex = .ok (.inl observation)) :
    observation.listing.source = lianjiaSource ∧
      buildListingId lianjiaSource observation.listing.sourceListingId =
        .ok observation.listing.listingId := by
  obtain ⟨_, _, _, _, _, _, -, -, -, -, -, hashed, built⟩ := parseListingRow_inl parsed
  obtain ⟨listing, -⟩ := buildObservation_ok built
  rw [listing]
  exact ⟨rfl, hashed⟩

end CnPropertyAgent.Lianjia
