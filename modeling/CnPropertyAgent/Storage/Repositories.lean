import CnPropertyAgent.Relational.Query
import CnPropertyAgent.Relational.Statements
import CnPropertyAgent.Storage.Schema
import Mathlib.Data.Prod.Lex

/-!
The repositories: each statement as its conflict rule, each query as its
selection and order.

Every statement is a transaction of its own, so it writes its row or, refused,
writes nothing. A query validates the rows it selected and raises what the first
invalid one raises. The texts among the parameters are bound first, of a statement and
of a query.
-/

namespace CnPropertyAgent

open Python Relational

/-- A condition with a bound or a value to match, left out when there is none. -/
def whenGiven {α : Type} (filter : Option α) (p : α → Bool) : Bool := filter.all p

/-! ### Transactions -/

abbrev TransactionTable := Table TransactionRow.transactionId

namespace TransactionRepository

def onConflict : OnConflict TransactionRow.transactionId where
  merge old excluded := { old with
    communityId := excluded.communityId
    source := excluded.source
    sourceTransactionId := excluded.sourceTransactionId
    sourceUrl := excluded.sourceUrl
    dealDate := excluded.dealDate
    areaSqm := excluded.areaSqm
    layout := excluded.layout
    floorBucket := excluded.floorBucket
    orientation := excluded.orientation
    builtYear := excluded.builtYear
    initialListingPriceCny := excluded.initialListingPriceCny
    dealPriceCny := excluded.dealPriceCny
    unitPriceCnySqm := excluded.unitPriceCnySqm
    daysOnMarket := excluded.daysOnMarket
    rawPayloadRef := excluded.rawPayloadRef
    collectedAt := excluded.collectedAt
    parserVersion := excluded.parserVersion }
  key_merge same := same

/-- The `SET` list names every column outside the key. -/
theorem onConflict_overwrites : onConflict.Overwrites := by
  rintro ⟨⟩ ⟨⟩ same
  cases same
  rfl

def upsert (table : TransactionTable) (item : Transaction) : Except Failure TransactionTable := do
  let row := TransactionRow.ofModel item
  bindTexts row.texts
  if row.Fits then .ok (table.upsert onConflict row) else .error .conversion

theorem upsert_of_storable {table : TransactionTable} {item : Transaction}
    (storable : (TransactionRow.ofModel item).Storable) :
    upsert table item = .ok (table.upsert onConflict (TransactionRow.ofModel item)) := by
  simp only [upsert, bindTexts_ok storable.1, if_pos storable.2]
  rfl

theorem upsert_of_not_storable {table : TransactionTable} {item : Transaction}
    (refused : ¬ (TransactionRow.ofModel item).Storable) :
    upsert table item = .error (TransactionRow.ofModel item).refusal := by
  rw [upsert, TransactionRow.refusal]
  by_cases plain : PlainTexts (TransactionRow.ofModel item).texts
  · have unfit : ¬ (TransactionRow.ofModel item).Fits := fun fits => refused ⟨plain, fits⟩
    simp only [bindTexts_ok plain, if_pos plain, if_neg unfit]
    rfl
  · simp only [bindTexts_refused plain, if_neg plain]
    rfl

theorem upsert_eq_ok {table table' : TransactionTable} {item : Transaction}
    (h : upsert table item = .ok table') : (TransactionRow.ofModel item).Storable ∧
      table.upsert onConflict (TransactionRow.ofModel item) = table' := by
  by_cases storable : (TransactionRow.ofModel item).Storable
  · rw [upsert_of_storable storable] at h
    cases h
    exact ⟨storable, rfl⟩
  · rw [upsert_of_not_storable storable] at h
    cases h

/-- One pass of `upsert_many`. -/
def upsertCounted (table : TransactionTable) (count : Nat) (item : Transaction) :
    Outcome TransactionTable Failure Nat :=
  match upsert table item with
  | .ok table' => ⟨table', .ok (count + 1)⟩
  | .error e => ⟨table, .error e⟩

def upsertMany (table : TransactionTable) (transactions : List Transaction) :
    Outcome TransactionTable Failure Nat :=
  forEach upsertCounted table 0 transactions

/-- The rows of transactions, in order. -/
def rowsOf (transactions : List Transaction) : List TransactionRow :=
  transactions.map TransactionRow.ofModel

theorem keys_rowsOf (transactions : List Transaction) :
    (rowsOf transactions).map TransactionRow.transactionId = transactions.map (·.transactionId) := by
  rw [rowsOf, List.map_map]
  rfl

/-- All rows are written, or those ahead of the first that is refused. -/
theorem upsertMany_cases (table : TransactionTable) (transactions : List Transaction) :
    ((∀ item ∈ transactions, (TransactionRow.ofModel item).Storable) ∧
      upsertMany table transactions =
        ⟨table.upsertAll onConflict (rowsOf transactions), .ok transactions.length⟩) ∨
    ∃ done item rest, transactions = done ++ item :: rest ∧
      (∀ other ∈ done, (TransactionRow.ofModel other).Storable) ∧ ¬ (TransactionRow.ofModel item).Storable ∧
      upsertMany table transactions =
        ⟨table.upsertAll onConflict (rowsOf done), .error (TransactionRow.ofModel item).refusal⟩ := by
  have spec : (upsertMany table transactions).Satisfies
      (fun count table' => (∀ item ∈ transactions, (TransactionRow.ofModel item).Storable) ∧
        table' = table.upsertAll onConflict (rowsOf transactions) ∧ count = transactions.length)
      (fun e table' => ∃ done item rest, transactions = done ++ item :: rest ∧
        (∀ other ∈ done, (TransactionRow.ofModel other).Storable) ∧
        ¬ (TransactionRow.ofModel item).Storable ∧ table' = table.upsertAll onConflict (rowsOf done) ∧
        e = (TransactionRow.ofModel item).refusal) := by
    refine forEach_rule (I := fun done count table' =>
      (∀ item ∈ done, (TransactionRow.ofModel item).Storable) ∧
      table' = table.upsertAll onConflict (rowsOf done) ∧ count = done.length) ⟨by simp, rfl, rfl⟩ ?_
    rintro done item rest count table' split ⟨storable, rfl, rfl⟩
    unfold upsertCounted
    by_cases new : (TransactionRow.ofModel item).Storable
    · rw [upsert_of_storable new, Outcome.satisfies_ok]
      refine ⟨?_, ?_, by simp⟩
      · intro other mem
        rcases List.mem_append.mp mem with old | last
        · exact storable other old
        · rwa [List.mem_singleton.mp last]
      · rw [rowsOf, rowsOf, List.map_append, Table.upsertAll_append]
        rfl
    · rw [upsert_of_not_storable new, Outcome.satisfies_error]
      exact ⟨done, item, rest, split, storable, new, rfl, rfl⟩
  cases h : upsertMany table transactions with
  | mk table' result =>
      rw [h] at spec
      cases result with
      | ok count =>
          obtain ⟨storable, rfl, rfl⟩ := spec
          exact Or.inl ⟨storable, rfl⟩
      | error e =>
          obtain ⟨done, item, rest, split, storable, refused, rfl, rfl⟩ := spec
          exact Or.inr ⟨done, item, rest, split, storable, refused, rfl⟩

/-- `ORDER BY deal_date DESC, transaction_id`. -/
def listOrder (row : TransactionRow) : Dateᵒᵈ ×ₗ Str :=
  toLex (OrderDual.toDual row.dealDate, row.transactionId)

def listForCommunity (table : TransactionTable) (communityId : Str) (startDate endDate : Option Date) :
    Except Failure (List Transaction) := do
  bindTexts [communityId]
  (orderBy listOrder (table.rows.filter fun row => row.communityId = communityId &&
    whenGiven startDate (· ≤ row.dealDate) && whenGiven endDate (row.dealDate ≤ ·))).mapM
    TransactionRow.toModel

theorem plain_of_listForCommunity {table : TransactionTable} {communityId : Str} {startDate endDate : Option Date}
    {items : List Transaction} (read : listForCommunity table communityId startDate endDate = .ok items) :
    communityId.Encodable :=
  (plainTexts_cons.mp (plainTexts_of_ok read)).1

end TransactionRepository

/-! ### Listings and their snapshots -/

abbrev ListingTable := UniqueTable ListingRow.listingId ListingRow.sourceIdentity

abbrev SnapshotTable := Table SnapshotRow.key

structure ListingTables where
  listing : ListingTable
  listingSnapshot : SnapshotTable

namespace ListingTables

def empty : ListingTables := ⟨.empty _ _, .empty _⟩

end ListingTables

namespace ListingRepository

def onConflict : OnConflict ListingRow.listingId where
  merge old excluded := { old with
    communityId := excluded.communityId
    source := excluded.source
    sourceListingId := excluded.sourceListingId
    areaSqm := excluded.areaSqm
    layout := excluded.layout
    floorBucket := excluded.floorBucket
    orientation := excluded.orientation
    builtYear := excluded.builtYear
    buildingType := excluded.buildingType
    firstSeenAt := min old.firstSeenAt excluded.firstSeenAt
    lastSeenAt := max old.lastSeenAt excluded.lastSeenAt
    status := excluded.status }
  key_merge same := same

def upsertListing (tables : ListingTables) (item : Listing) : Except Failure ListingTables := do
  let row := ListingRow.ofModel item
  bindTexts row.texts
  if ¬ row.Fits then .error .conversion
  else match tables.listing.upsert? onConflict row with
    | some listing => .ok { tables with listing }
    | none => .error .constraint

theorem upsertListing_ok {tables tables' : ListingTables} {item : Listing}
    (h : upsertListing tables item = .ok tables') :
    tables'.listing.toTable = tables.listing.toTable.upsert onConflict (ListingRow.ofModel item) ∧
      tables'.listingSnapshot = tables.listingSnapshot := by
  by_cases plain : PlainTexts (ListingRow.ofModel item).texts
  · simp only [upsertListing, bindTexts_ok plain, ListingRow.fits_ofModel, not_true_eq_false, if_false, bind,
      Except.bind] at h
    cases written : tables.listing.upsert? onConflict (ListingRow.ofModel item) with
    | none => rw [written] at h; cases h
    | some listing =>
        rw [written] at h
        cases h
        exact ⟨UniqueTable.toTable_of_upsert? written, rfl⟩
  · simp only [upsertListing, bindTexts_refused plain] at h
    cases h

/-- Another listing holds the provider identity of the new row. -/
theorem violates_iff {listing : ListingTable} {row : ListingRow} :
    listing.Violates onConflict row ↔
      ∃ other ∈ listing.rows, other.listingId ≠ row.listingId ∧
        other.sourceIdentity = row.sourceIdentity := by
  have taken : ∀ old : Option ListingRow,
      (onConflict.absorb old row).sourceIdentity = row.sourceIdentity := by
    intro old
    cases old <;> rfl
  simp only [UniqueTable.Violates, taken]

/-- The only refusals there are: the `INTEGER` column holds every valid year. -/
theorem upsertListing_error_iff {tables : ListingTables} {item : Listing} {e : Failure} :
    upsertListing tables item = .error e ↔
      (e = .invalidInput ∧ ¬ PlainTexts (ListingRow.ofModel item).texts) ∨
      (e = .constraint ∧ PlainTexts (ListingRow.ofModel item).texts ∧
        tables.listing.Violates onConflict (ListingRow.ofModel item)) := by
  by_cases plain : PlainTexts (ListingRow.ofModel item).texts
  · simp only [upsertListing, bindTexts_ok plain, ListingRow.fits_ofModel, not_true_eq_false, if_false, bind,
      Except.bind]
    cases written : tables.listing.upsert? onConflict (ListingRow.ofModel item) with
    | none => simp [UniqueTable.upsert?_eq_none_iff.mp written, plain, eq_comm]
    | some listing =>
        have accepted : ¬ tables.listing.Violates onConflict (ListingRow.ofModel item) := by
          intro h
          rw [UniqueTable.upsert?_eq_none_iff.mpr h] at written
          cases written
        simp [accepted, plain]
  · simp only [upsertListing, bindTexts_refused plain, bind, Except.bind]
    simp [plain, eq_comm]

def snapshotOnConflict : OnConflict SnapshotRow.key where
  merge old excluded := { old with
    listPriceCny := excluded.listPriceCny
    unitPriceCnySqm := excluded.unitPriceCnySqm
    status := excluded.status
    source := excluded.source
    sourceUrl := excluded.sourceUrl
    rawPayloadRef := excluded.rawPayloadRef
    parserVersion := excluded.parserVersion }
  key_merge same := same

/-- The `SET` list names every column outside the key. -/
theorem snapshotOnConflict_overwrites : snapshotOnConflict.Overwrites := by
  rintro ⟨⟩ ⟨⟩ same
  cases same
  rfl

/-- The table has no `INTEGER` column and no second constraint. -/
def appendSnapshot (tables : ListingTables) (item : ListingSnapshot) : Except Failure ListingTables := do
  let row := SnapshotRow.ofModel item
  bindTexts row.texts
  return { tables with listingSnapshot := tables.listingSnapshot.upsert snapshotOnConflict row }

theorem appendSnapshot_ok_iff {tables tables' : ListingTables} {item : ListingSnapshot} :
    appendSnapshot tables item = .ok tables' ↔ PlainTexts (SnapshotRow.ofModel item).texts ∧
      { tables with
        listingSnapshot := tables.listingSnapshot.upsert snapshotOnConflict (SnapshotRow.ofModel item) } =
        tables' := by
  by_cases plain : PlainTexts (SnapshotRow.ofModel item).texts
  · simp [appendSnapshot, bindTexts_ok plain, plain, bind, Except.bind, pure, Except.pure]
  · simp [appendSnapshot, bindTexts_refused plain, plain, bind, Except.bind]

theorem appendSnapshot_error_iff {tables : ListingTables} {item : ListingSnapshot} {e : Failure} :
    appendSnapshot tables item = .error e ↔
      e = .invalidInput ∧ ¬ PlainTexts (SnapshotRow.ofModel item).texts := by
  by_cases plain : PlainTexts (SnapshotRow.ofModel item).texts
  · simp [appendSnapshot, bindTexts_ok plain, plain, bind, Except.bind, pure, Except.pure]
  · simp [appendSnapshot, bindTexts_refused plain, plain, bind, Except.bind, eq_comm]

/-- `ORDER BY last_seen_at DESC, listing_id`. -/
def listOrder (row : ListingRow) : Instantᵒᵈ ×ₗ Str :=
  toLex (OrderDual.toDual row.lastSeenAt, row.listingId)

def listForCommunity (tables : ListingTables) (communityId : Str) : Except Failure (List (Listing Instant)) := do
  bindTexts [communityId]
  (orderBy listOrder (tables.listing.rows.filter fun row => row.communityId = communityId)).mapM
    ListingRow.toModel

/-- `FROM listing_snapshot s JOIN listing l ON l.listing_id = s.listing_id WHERE l.community_id = ?`. -/
def snapshotsForCommunity (tables : ListingTables) (communityId : Str) : List SnapshotRow :=
  ((join tables.listingSnapshot.rows tables.listing.rows fun s l => l.listingId = s.listingId).filter
    fun pair => pair.2.communityId = communityId).map Prod.fst

/-- The join selects the snapshots whose listing is now stored under the community. -/
theorem snapshotsForCommunity_eq (tables : ListingTables) (communityId : Str) :
    snapshotsForCommunity tables communityId =
      tables.listingSnapshot.rows.filter fun s =>
        (tables.listing.get? s.listingId).any fun l => l.communityId = communityId :=
  map_fst_filter_join tables.listingSnapshot.rows tables.listing.toTable SnapshotRow.listingId
    fun l => l.communityId = communityId

/-- The mapping by its items. -/
def latestSnapshotsForCommunity (tables : ListingTables) (communityId : Str) :
    Except Failure (List (Str × ListingSnapshot Instant)) := do
  bindTexts [communityId]
  let snapshots ← (newest SnapshotRow.listingId SnapshotRow.snapshotAt
    (snapshotsForCommunity tables communityId)).mapM SnapshotRow.toModel
  return snapshots.map fun item => (item.listingId, item)

/-- `ORDER BY s.listing_id, s.snapshot_at`. -/
def historyOrder (row : SnapshotRow) : Str ×ₗ Instant := toLex (row.listingId, row.snapshotAt)

def historyForCommunity (tables : ListingTables) (communityId : Str) :
    Except Failure (List (ListingSnapshot Instant)) := do
  bindTexts [communityId]
  (orderBy historyOrder (snapshotsForCommunity tables communityId)).mapM SnapshotRow.toModel

def history (tables : ListingTables) (listingId : Str) : Except Failure (List (ListingSnapshot Instant)) := do
  bindTexts [listingId]
  (orderBy SnapshotRow.snapshotAt (tables.listingSnapshot.rows.filter fun row =>
    row.listingId = listingId)).mapM SnapshotRow.toModel

theorem plain_of_listForCommunity {tables : ListingTables} {communityId : Str} {items : List (Listing Instant)}
    (read : listForCommunity tables communityId = .ok items) : communityId.Encodable :=
  (plainTexts_cons.mp (plainTexts_of_ok read)).1

theorem plain_of_historyForCommunity {tables : ListingTables} {communityId : Str}
    {items : List (ListingSnapshot Instant)} (read : historyForCommunity tables communityId = .ok items) :
    communityId.Encodable :=
  (plainTexts_cons.mp (plainTexts_of_ok read)).1

theorem plain_of_history {tables : ListingTables} {listingId : Str} {items : List (ListingSnapshot Instant)}
    (read : history tables listingId = .ok items) : listingId.Encodable :=
  (plainTexts_cons.mp (plainTexts_of_ok read)).1

end ListingRepository

/-! ### Market observations -/

abbrev MarketObservationTable := Table MarketObservationRow.observationId

namespace MarketObservationRepository

def onConflict : OnConflict MarketObservationRow.observationId where
  merge old excluded := { old with
    cityCode := excluded.cityCode
    geographyType := excluded.geographyType
    geographyCode := excluded.geographyCode
    geographyName := excluded.geographyName
    periodStart := excluded.periodStart
    periodEnd := excluded.periodEnd
    metricName := excluded.metricName
    value := excluded.value
    unit := excluded.unit
    source := excluded.source
    sourceUrl := excluded.sourceUrl
    publicationDate := excluded.publicationDate
    collectedAt := excluded.collectedAt
    parserVersion := excluded.parserVersion
    rawPayloadRef := excluded.rawPayloadRef }
  key_merge same := same

/-- The `SET` list names every column outside the key. -/
theorem onConflict_overwrites : onConflict.Overwrites := by
  rintro ⟨⟩ ⟨⟩ same
  cases same
  rfl

/-- The table has no `INTEGER` column and no second constraint. -/
def upsert (table : MarketObservationTable) (item : MarketObservation) :
    Except Failure MarketObservationTable := do
  let row := MarketObservationRow.ofModel item
  bindTexts row.texts
  return table.upsert onConflict row

theorem upsert_of_plain {table : MarketObservationTable} {item : MarketObservation}
    (plain : PlainTexts (MarketObservationRow.ofModel item).texts) :
    upsert table item = .ok (table.upsert onConflict (MarketObservationRow.ofModel item)) := by
  simp only [upsert, bindTexts_ok plain]
  rfl

theorem upsert_of_not_plain {table : MarketObservationTable} {item : MarketObservation}
    (refused : ¬ PlainTexts (MarketObservationRow.ofModel item).texts) :
    upsert table item = .error .invalidInput := by
  simp only [upsert, bindTexts_refused refused]
  rfl

/-- `ORDER BY period_start, period_end, observation_id`. -/
def listOrder (row : MarketObservationRow) : Date ×ₗ Date ×ₗ Str :=
  toLex (row.periodStart, toLex (row.periodEnd, row.observationId))

def listForCity (table : MarketObservationTable) (cityCode : Str)
    (geographyType geographyCode metricName : Option Str) (startDate endDate : Option Date) :
    Except Failure (List MarketObservation) := do
  bindTexts (cityCode :: (geographyType.toList ++ geographyCode.toList ++ metricName.toList))
  (orderBy listOrder (table.rows.filter fun row => row.cityCode = cityCode &&
    whenGiven geographyType (row.geographyType = ·) &&
    whenGiven geographyCode (row.geographyCode = some ·) &&
    whenGiven metricName (row.metricName = ·) &&
    whenGiven startDate (· ≤ row.periodStart) && whenGiven endDate (row.periodEnd ≤ ·))).mapM
    MarketObservationRow.toModel

end MarketObservationRepository

/-- The tables behind the services. -/
structure Database where
  propertyTransaction : TransactionTable
  listings : ListingTables
  marketObservation : MarketObservationTable

def Database.empty : Database := ⟨.empty _, .empty, .empty _⟩

end CnPropertyAgent
