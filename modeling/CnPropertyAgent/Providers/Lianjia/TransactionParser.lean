import CnPropertyAgent.Providers.Lianjia.Cells
import CnPropertyAgent.Providers.Parsing

/-!
The Lianjia transaction parser: one extracted row becomes one raw record.

A row is rejected only when a source value cannot be interpreted or its identity is
missing; whether the values are plausible is left to the quality gates.
-/

namespace CnPropertyAgent.Lianjia

open Python

def lianjiaTransactionParserVersion : Str := str "lianjia-transaction-v1"

namespace TransactionParser

def sourceIdField : Field := ⟨"链家编号", ["链家编号", "房源编号", "成交编号"]⟩

def dealDateField : Field := ⟨"成交日期", ["成交日期", "成交时间", "签约日期"]⟩

def initialListingPriceField : Field := ⟨"挂牌价格（万）", ["挂牌价格（万）", "挂牌价格", "挂牌价", "挂牌总价"]⟩

def dealPriceField : Field := ⟨"总价", ["总价", "成交价格（万）", "成交总价", "成交价"]⟩

def unitPriceField : Field := ⟨"单价", ["单价", "成交单价", "单价（元/平米）"]⟩

def daysOnMarketField : Field := ⟨"成交周期（天）", ["成交周期（天）", "成交周期", "成交用时"]⟩

end TransactionParser

/-- When a batch was collected. -/
structure LianjiaParseContext extends BatchContext where
  collectedAt : AwareDatetime

variable [Runtime]

namespace TransactionParser

def floorBucket (cells : Dict Str Json) : Except Failure (Option Str) := do
  return (← cell cells floorField).map fun text => (parseFloorBucket text).value

/-- What a row says, as the record that its validation receives. -/
def readFields (context : LianjiaParseContext) (cells : Dict Str Json) (ref : SourceRowRef)
    (sourceTransactionId : Str) : Except Failure RawTransactionFields := do
  let dealDate ← convert cells dealDateField parseDealDate
  let areaSqm ← convert cells areaField parseAreaSqm
  let layout ← layout cells
  let floorBucket ← floorBucket cells
  let orientation ← cell cells orientationField
  let builtYear ← convert cells builtYearField parseYear
  let initialListingPriceCny ← convert cells initialListingPriceField parseWanToCny
  let dealPriceCny ← convert cells dealPriceField parseWanToCny
  let unitPriceCnySqm ← convert cells unitPriceField parseUnitPriceCnySqm
  let daysOnMarket ← convert cells daysOnMarketField parseDays
  return {
    source := lianjiaSource
    sourceTransactionId := some sourceTransactionId
    sourceUrl := ref.sourceUrl
    dealDate := dealDate
    areaSqm := areaSqm
    layout := layout
    floorBucket := floorBucket
    orientation := orientation
    builtYear := builtYear
    initialListingPriceCny := initialListingPriceCny
    dealPriceCny := dealPriceCny
    unitPriceCnySqm := unitPriceCnySqm
    daysOnMarket := daysOnMarket
    rawPayloadRef := ref.rawPayloadRef
    collectedAt := context.collectedAt.instant
    parserVersion := lianjiaTransactionParserVersion }

/-- The rest of a row with a source id. -/
def parseIdentified (context : LianjiaParseContext) (cells : Dict Str Json) (ref : SourceRowRef)
    (sourceTransactionId : Str) : Except Failure (RawTransactionRecord ⊕ ParseRejection) :=
  catchField ref (readFields context cells ref sourceTransactionId) fun fields =>
    catchValidation ref fields.validate

end TransactionParser

open TransactionParser

/-- One extracted transaction row as a raw record or a rejection. -/
def parseTransactionRow (context : LianjiaParseContext) (row : Json) (rowIndex : Option Nat) :
    Except Failure (RawTransactionRecord ⊕ ParseRejection) :=
  parseRow sourceIdField context.toBatchContext (parseIdentified context) row rowIndex

def parseTransactionRows (context : LianjiaParseContext) (rows : List Json) :
    Except Failure (ParseResult RawTransactionRecord) :=
  parseRows (parseTransactionRow context) rows

omit [Runtime] in
def sampleContext : LianjiaParseContext where
  toBatchContext := .silent
  collectedAt := sampleCollectedAt

/-! ### What a transaction row can raise -/

theorem TransactionParser.readFields_raises (context : LianjiaParseContext) (cells : Dict Str Json)
    (ref : SourceRowRef) (sourceTransactionId : Str) :
    OnlyRaises IsReadError (readFields context cells ref sourceTransactionId) := by
  refine (convert_raises fun _ _ _ => parseDealDate_error).bind fun _ => ?_
  refine (convert_raises fun _ _ _ => parseNumber_error).bind fun _ => ?_
  refine layout_raises.bind fun _ => ?_
  refine (cell_raises.bind fun _ => onlyRaises_pure).bind fun _ => ?_
  refine cell_raises.bind fun _ => ?_
  refine (convert_raises fun _ _ _ => parseInt_error).bind fun _ => ?_
  refine (convert_raises fun _ _ _ => parseWanToCny_error).bind fun _ => ?_
  refine (convert_raises fun _ _ _ => parseWanToCny_error).bind fun _ => ?_
  refine (convert_raises fun _ _ _ => parseNumber_error).bind fun _ => ?_
  exact (convert_raises fun _ _ _ => parseInt_error).bind fun _ => onlyRaises_pure

namespace TransactionParser

/-- The fields of a transaction row, in the order they are read. -/
def readings (cells : Dict Str Json) : List Reading :=
  [.converted cells dealDateField parseDealDate, .converted cells areaField parseAreaSqm, .layout cells,
    .text cells floorField, .text cells orientationField, .converted cells builtYearField parseYear,
    .converted cells initialListingPriceField parseWanToCny, .converted cells dealPriceField parseWanToCny,
    .converted cells unitPriceField parseUnitPriceCnySqm, .converted cells daysOnMarketField parseDays]

theorem readFields_follows (context : LianjiaParseContext) (cells : Dict Str Json) (ref : SourceRowRef)
    (sourceTransactionId : Str) :
    Follows (readFields context cells ref sourceTransactionId) (readings cells) := by
  refine (readsField_convert fun _ _ _ => parseDealDate_error).bind fun _ => ?_
  refine (readsField_convert fun _ _ _ => parseNumber_error).bind fun _ => ?_
  refine readsField_layout.bind fun _ => (readsField_cell.map _).bind fun _ => readsField_cell.bind fun _ => ?_
  refine (readsField_convert fun _ _ _ => parseInt_error).bind fun _ => ?_
  refine (readsField_convert fun _ _ _ => parseWanToCny_error).bind fun _ => ?_
  refine (readsField_convert fun _ _ _ => parseWanToCny_error).bind fun _ => ?_
  refine (readsField_convert fun _ _ _ => parseNumber_error).bind fun _ => ?_
  exact (readsField_convert fun _ _ _ => parseInt_error).bind fun _ => follows_pure

/-- An identified row is parsed unless it reaches a cell that is nested too deep. -/
theorem parseIdentified_returns_iff (context : LianjiaParseContext) (cells : Dict Str Json)
    (ref : SourceRowRef) (sourceTransactionId : Str) :
    (∃ outcome, parseIdentified context cells ref sourceTransactionId = .ok outcome) ↔
      ReadInOrder (readings cells) := by
  rw [parseIdentified, catchField_ok_iff (readFields_raises context cells ref sourceTransactionId),
    (readFields_follows context cells ref sourceTransactionId).raises_iff, and_iff_left_iff_imp]
  intro _ fields _
  exact catchValidation_ok fields.validate_raises

end TransactionParser

/-- The parser returns on the row. -/
abbrev TransactionParser.Returns (row : Json) : Prop :=
  RowReturns sourceIdField (fun cells _ => ReadInOrder (readings cells)) row

/-- **Transaction rows.** A row is parsed exactly when it reaches no cell that is nested too deep. -/
theorem parseTransactionRow_returns_iff (context : LianjiaParseContext) (row : Json)
    (rowIndex : Option Nat) :
    (∃ outcome, parseTransactionRow context row rowIndex = .ok outcome) ↔ TransactionParser.Returns row :=
  parseRow_returns_iff (parseIdentified_returns_iff context) row rowIndex

/-! ### What a record says -/

/-- The identity and the provenance of a row pass to its fields. -/
theorem TransactionParser.readFields_ok {context : LianjiaParseContext} {cells : Dict Str Json}
    {ref : SourceRowRef} {sourceTransactionId : Str} {fields : RawTransactionFields}
    (h : readFields context cells ref sourceTransactionId = .ok fields) :
    fields.source = lianjiaSource ∧ fields.sourceTransactionId = some sourceTransactionId ∧
      fields.sourceUrl = ref.sourceUrl ∧ fields.rawPayloadRef = ref.rawPayloadRef := by
  obtain ⟨_, -, h⟩ := eq_ok_of_bind h
  obtain ⟨_, -, h⟩ := eq_ok_of_bind h
  obtain ⟨_, -, h⟩ := eq_ok_of_bind h
  obtain ⟨_, -, h⟩ := eq_ok_of_bind h
  obtain ⟨_, -, h⟩ := eq_ok_of_bind h
  obtain ⟨_, -, h⟩ := eq_ok_of_bind h
  obtain ⟨_, -, h⟩ := eq_ok_of_bind h
  obtain ⟨_, -, h⟩ := eq_ok_of_bind h
  obtain ⟨_, -, h⟩ := eq_ok_of_bind h
  obtain ⟨_, -, h⟩ := eq_ok_of_bind h
  cases h
  exact ⟨rfl, rfl, rfl, rfl⟩

/-- A parsed record is the stripped reading of its row. -/
theorem parseTransactionRow_inl {context : LianjiaParseContext} {row : Json} {rowIndex : Option Nat}
    {record : RawTransactionRecord}
    (parsed : parseTransactionRow context row rowIndex = .ok (.inl record)) :
    ∃ entries ref id fields, row = .object entries ∧
      buildRowRef sourceIdField context.toBatchContext (normalizeRowKeys entries) rowIndex = .ok ref ∧
      cell (normalizeRowKeys entries) sourceIdField = .ok (some id) ∧
      readFields context (normalizeRowKeys entries) ref id = .ok fields ∧
      record.toRawTransactionFields = fields.strip := by
  obtain ⟨entries, ref, id, rfl, built, identity, rest⟩ := parseRow_inl parsed
  obtain ⟨fields, read, rest⟩ := catchField_inl rest
  exact ⟨entries, ref, id, fields, rfl, built, identity, read,
    RawTransactionFields.eq_of_validate (catchValidation_inl rest)⟩

/-- A rejected transaction row points to its row reference. -/
theorem parseTransactionRow_inr {context : LianjiaParseContext} {entries : List (Str × Json)}
    {rowIndex : Option Nat} {r : ParseRejection}
    (parsed : parseTransactionRow context (.object entries) rowIndex = .ok (.inr r)) :
    buildRowRef sourceIdField context.toBatchContext (normalizeRowKeys entries) rowIndex = .ok r.row := by
  apply parseRow_inr ?_ parsed
  intro cells ref id rejected
  rcases catchField_inr rejected with same | ⟨fields, -, rest⟩
  · exact same
  · exact catchValidation_inr rest

end CnPropertyAgent.Lianjia
