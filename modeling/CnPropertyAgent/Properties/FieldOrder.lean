import CnPropertyAgent.Properties.Provenance

/-!
When the order of a row's fields shows in what it is parsed into.

Both parsers read a row through the values of their fields alone, and these are looked up
under the aliases in a fixed order. So a row may be rearranged as long as every alias keeps
its last value (`KeepsLast`); only two spellings of one key with different values tell the order.
-/

namespace CnPropertyAgent.Lianjia

open Python

/-- `_ALIASES` of the listing parser. -/
def ListingParser.fields : List Field :=
  [ListingParser.sourceIdField, listPriceField, unitPriceField, areaField, layoutField, titleField,
    orientationField, floorField, builtYearField, buildingTypeField, statusField, snapshotAtField,
    sourceUrlField, rawPayloadRefField]

/-- `_ALIASES` of the transaction parser. -/
def TransactionParser.fields : List Field :=
  [TransactionParser.sourceIdField, dealDateField, areaField, layoutField, titleField, orientationField,
    floorField, builtYearField, initialListingPriceField, dealPriceField, unitPriceField, daysOnMarketField,
    sourceUrlField, rawPayloadRefField]

section

variable [Runtime]

/-- The value of the last entry under a normalized key. -/
def lastValue (row : List (Str × Json)) (key : Str) : Option Json :=
  (row.filter fun entry => normalizeKey entry.1 = key).getLast?.map Prod.snd

/-- Every alias of the fields keeps its last value. -/
def KeepsLast (fields : List Field) (row row' : List (Str × Json)) : Prop :=
  ∀ field ∈ fields, ∀ key ∈ field.keys, lastValue row key = lastValue row' key

/-- No alias of the fields has two values in a row. -/
def SingleValued (fields : List Field) (row : List (Str × Json)) : Prop :=
  ∀ field ∈ fields, ∀ entry ∈ row, ∀ entry' ∈ row, normalizeKey entry.1 ∈ field.keys →
    normalizeKey entry.1 = normalizeKey entry'.1 → entry.2 = entry'.2

/-- The fields have the same values. -/
def Agree (fields : List Field) (cells cells' : Dict Str Json) : Prop :=
  ∀ field ∈ fields, rawValue cells field = rawValue cells' field

/-! ### Rearranged rows -/

section

variable {fields : List Field} {row row' : List (Str × Json)}

theorem KeepsLast.agree (keeps : KeepsLast fields row row') :
    Agree fields (normalizeRowKeys row) (normalizeRowKeys row') := by
  intro field mem
  have found : field.keys.map (Dict.get? (normalizeRowKeys row)) =
      field.keys.map (Dict.get? (normalizeRowKeys row')) := by
    apply List.map_congr_left
    intro key named
    rw [get?_normalizeRowKeys, get?_normalizeRowKeys]
    exact keeps field mem key named
  have first := congrArg (List.findSome? id) found
  rw [List.findSome?_map, List.findSome?_map, Function.id_comp, Function.id_comp] at first
  rw [rawValue, first, rawValue]

/-- A permutation keeps the only values. -/
theorem SingleValued.keepsLast (single : SingleValued fields row) (perm : row.Perm row') :
    KeepsLast fields row row' := by
  intro field mem key named
  unfold lastValue
  have same := perm.filter fun entry => normalizeKey entry.1 = key
  cases last : (row.filter fun entry => normalizeKey entry.1 = key).getLast? with
  | none =>
      rw [List.getLast?_eq_none_iff.mp last] at same
      rw [← same.nil_eq]
      rfl
  | some entry =>
      have kept := List.mem_filter.mp (List.mem_of_getLast? last)
      cases last' : (row'.filter fun entry => normalizeKey entry.1 = key).getLast? with
      | none =>
          rw [List.getLast?_eq_none_iff.mp last'] at same
          rw [same.eq_nil, List.getLast?_nil] at last
          cases last
      | some entry' =>
          have kept' := List.mem_filter.mp (same.mem_iff.mpr (List.mem_of_getLast? last'))
          have key_eq := of_decide_eq_true kept.2
          have key_eq' := of_decide_eq_true kept'.2
          exact congrArg some (single field mem entry kept.1 entry' kept'.1 (key_eq ▸ named)
            (key_eq.trans key_eq'.symm))

theorem agree_of_rearranged
    (rearranged : KeepsLast fields row row' ∨ row.Perm row' ∧ SingleValued fields row) :
    Agree fields (normalizeRowKeys row) (normalizeRowKeys row') := by
  rcases rearranged with keeps | ⟨perm, single⟩
  · exact keeps.agree
  · exact (single.keepsLast perm).agree

end

/-! ### What the parsers read -/

section

variable {fields : List Field} {cells cells' : Dict Str Json}

theorem Agree.cell_eq (agree : Agree fields cells cells') {field : Field} (mem : field ∈ fields) :
    cell cells field = cell cells' field := by
  rw [cell, agree field mem, cell]

theorem Agree.rawText_eq (agree : Agree fields cells cells') {field : Field} (mem : field ∈ fields) :
    rawText cells field = rawText cells' field := by
  rw [rawText, agree.cell_eq mem, rawText]

theorem Agree.convert_eq {α : Type} (agree : Agree fields cells cells') {field : Field} (mem : field ∈ fields)
    (converter : Str → Option Str → Except Failure α) :
    convert cells field converter = convert cells' field converter := by
  rw [convert, agree.cell_eq mem, convert]

theorem Agree.layout_eq (agree : Agree fields cells cells') (mem : layoutField ∈ fields)
    (mem' : titleField ∈ fields) : layout cells = layout cells' := by
  rw [layout, agree.cell_eq mem, agree.cell_eq mem', layout]

/-- A row is parsed through its fields and the rest of its cells. -/
theorem parseRow_congr {α : Type} {sourceId : Field} {context : BatchContext}
    {parse : Dict Str Json → SourceRowRef → Str → Except Failure (α ⊕ ParseRejection)}
    {row row' : List (Str × Json)}
    (agree : Agree fields (normalizeRowKeys row) (normalizeRowKeys row'))
    (mem : ∀ field ∈ [sourceId, sourceUrlField, rawPayloadRefField], field ∈ fields)
    (rest : ∀ ref id, parse (normalizeRowKeys row) ref id = parse (normalizeRowKeys row') ref id)
    (rowIndex : Option Nat) :
    parseRow sourceId context parse (.object row) rowIndex =
      parseRow sourceId context parse (.object row') rowIndex := by
  have id := mem sourceId (by simp)
  have url := mem sourceUrlField (by simp)
  have payload := mem rawPayloadRefField (by simp)
  have built : buildRowRef sourceId context (normalizeRowKeys row) rowIndex =
      buildRowRef sourceId context (normalizeRowKeys row') rowIndex := by
    rw [buildRowRef, agree.rawText_eq url, agree.rawText_eq payload, agree.rawText_eq id, buildRowRef]
  simp only [parseRow, built, agree.cell_eq id, rest]

theorem ListingParser.readCells_congr (agree : Agree ListingParser.fields cells cells') :
    readCells cells = readCells cells' := by
  unfold readCells ListingParser.floorBucket ListingParser.status
  rw [agree.layout_eq (by simp [ListingParser.fields]) (by simp [ListingParser.fields])]
  repeat rw [agree.convert_eq (by simp [ListingParser.fields])]
  repeat rw [agree.cell_eq (by simp [ListingParser.fields])]

theorem TransactionParser.readFields_congr (agree : Agree TransactionParser.fields cells cells')
    (context : LianjiaParseContext) (ref : SourceRowRef) (id : Str) :
    readFields context cells ref id = readFields context cells' ref id := by
  unfold readFields TransactionParser.floorBucket
  rw [agree.layout_eq (by simp [TransactionParser.fields]) (by simp [TransactionParser.fields])]
  repeat rw [agree.convert_eq (by simp [TransactionParser.fields])]
  repeat rw [agree.cell_eq (by simp [TransactionParser.fields])]

end

/-- **Field order.** Two rows in which every alias keeps its last value are parsed into the
same outcome; a row whose aliases have one value each may be permuted at will. -/
theorem field_order (listing : LianjiaListingParseContext) (transaction : LianjiaParseContext)
    (row row' : List (Str × Json)) (rowIndex : Option Nat) :
    ((KeepsLast ListingParser.fields row row' ∨ row.Perm row' ∧ SingleValued ListingParser.fields row) →
      parseListingRow listing (.object row) rowIndex = parseListingRow listing (.object row') rowIndex) ∧
    ((KeepsLast TransactionParser.fields row row' ∨
        row.Perm row' ∧ SingleValued TransactionParser.fields row) →
      parseTransactionRow transaction (.object row) rowIndex =
        parseTransactionRow transaction (.object row') rowIndex) := by
  constructor
  · intro rearranged
    have agree := agree_of_rearranged rearranged
    apply parseRow_congr agree (by simp [ListingParser.fields])
    intro ref id
    rw [ListingParser.parseIdentified, ListingParser.readCells_congr agree, ListingParser.parseIdentified]
  · intro rearranged
    have agree := agree_of_rearranged rearranged
    apply parseRow_congr agree (by simp [TransactionParser.fields])
    intro ref id
    rw [TransactionParser.parseIdentified, TransactionParser.readFields_congr agree,
      TransactionParser.parseIdentified]

end

/-! ### Rows with several spellings -/

/-- A row of texts. -/
def textRow (entries : List (Str × Str)) : List (Str × Json) := entries.map fun entry => (entry.1, .text entry.2)

theorem singleValued_textRow [Runtime] (fields : List Field) {entries : List (Str × Str)}
    (single : ∀ entry ∈ entries, ∀ entry' ∈ entries, normalizeKey entry.1 = normalizeKey entry'.1 →
      entry.2 = entry'.2) : SingleValued fields (textRow entries) := by
  rintro field - _ mem _ mem' - same
  obtain ⟨entry, given, rfl⟩ := List.mem_map.mp mem
  obtain ⟨entry', given', rfl⟩ := List.mem_map.mp mem'
  exact congrArg Json.text (single entry given entry' given' same)

/-- Two spellings of the status and two prices under different aliases. -/
def spelledRow : List (Str × Json) :=
  textRow [(str "房源编号", str "101"), (str "ＳＴＡＴＵＳ", str "在售"), (str " status", str "在售"),
    (str "总价", str "300万"), (str "售价", str "400万")]

/-- The row backwards. -/
theorem field_order_of_spellings : let _ := sampleRuntime
    parseListingRow sampleListingContext (.object spelledRow) none =
      parseListingRow sampleListingContext (.object spelledRow.reverse) none := by
  intro _
  exact (field_order sampleListingContext sampleContext _ _ none).1
    (Or.inr ⟨(List.reverse_perm _).symm, singleValued_textRow _ (by decide +kernel)⟩)

/-- Two spellings of the price with different values. -/
def conflictingRow (price price' : Str × Str) : List (Str × Json) :=
  textRow [(str "房源编号", str "101"), price, price']

/-- The price of an accepted listing row. -/
def acceptedPrice (outcome : Except Failure (ListingObservation ⊕ ParseRejection)) : Option Double :=
  outcome.toOption.bind fun parsed => parsed.getLeft?.map fun o => o.snapshot.listPriceCny

/-- The price of an accepted transaction row. -/
def acceptedDealPrice (outcome : Except Failure (RawTransactionRecord ⊕ ParseRejection)) : Option Double :=
  outcome.toOption.bind fun parsed => parsed.getLeft?.bind fun r => r.dealPriceCny

/-- The last of two spellings counts. -/
theorem field_order_of_conflict : let _ := sampleRuntime
    (¬ ∀ (context : LianjiaListingParseContext) (row row' : List (Str × Json)), row.Perm row' →
      parseListingRow context (.object row) none = parseListingRow context (.object row') none) ∧
    ¬ ∀ (context : LianjiaParseContext) (row row' : List (Str × Json)), row.Perm row' →
      parseTransactionRow context (.object row) none = parseTransactionRow context (.object row') none := by
  intro _
  have swapped : (conflictingRow (str "总价", str "300万") (str "总 价", str "400万")).Perm
      (conflictingRow (str "总 价", str "400万") (str "总价", str "300万")) :=
    .cons _ (.swap _ _ _)
  constructor
  · intro same
    exact absurd (congrArg acceptedPrice (same sampleListingContext _ _ swapped)) (by decide +kernel)
  · intro same
    exact absurd (congrArg acceptedDealPrice (same sampleContext _ _ swapped)) (by decide +kernel)

end CnPropertyAgent.Lianjia
