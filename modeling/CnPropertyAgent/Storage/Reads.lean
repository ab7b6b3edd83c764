import CnPropertyAgent.Relational.Codec
import CnPropertyAgent.Storage.Repositories

/-!
Stores whose rows read back, and what the queries return on them.

Rows are written from canonical models and keep the instants of their datetimes, so a
table reachable by repository calls holds encoded models. That is an invariant of every
statement, the merge of two listings included: its seen range is `least` to `greatest`,
which stays a range. The one exception is a listing whose seen range is in order by the
readings of one clock and not by the instants: what is stored of it does not read back.
-/

namespace CnPropertyAgent

open Python Relational

theorem TransactionRow.ofModel_injective : Function.Injective TransactionRow.ofModel :=
  injective_of_decode TransactionRow.toModel_ofModel

theorem ListingRow.ofModel_injective : Function.Injective (ListingRow.ofModel (T := Instant)) :=
  injective_of_decode ListingRow.toModel_ofModel

theorem SnapshotRow.ofModel_injective : Function.Injective (SnapshotRow.ofModel (T := Instant)) :=
  injective_of_decode SnapshotRow.toModel_ofModel

theorem MarketObservationRow.ofModel_injective : Function.Injective MarketObservationRow.ofModel :=
  injective_of_decode MarketObservationRow.toModel_ofModel

/-! ### Transactions -/

namespace TransactionRepository

variable {table : TransactionTable}

theorem exists_listForCommunity (readable : EncodedBy TransactionRow.ofModel table.rows) (communityId : Str) :
    ∃ items, listForCommunity table communityId none none = whenBound [communityId] items ∧
      items.map TransactionRow.ofModel = orderBy listOrder (table.rows.filter fun row =>
        row.communityId = communityId) := by
  have selected : EncodedBy TransactionRow.ofModel
      (orderBy listOrder (table.rows.filter fun row => row.communityId = communityId)) :=
    readable.of_subset fun row mem => (List.mem_filter.mp (mem_orderBy.mp mem)).1
  obtain ⟨items, read, rows⟩ := selected.mapM_decode TransactionRow.toModel_ofModel
  refine ⟨items, ?_, rows⟩
  simp only [listForCommunity, whenGiven, Option.all_none, Bool.and_true, read]
  rfl

theorem listForCommunity_ok (readable : EncodedBy TransactionRow.ofModel table.rows) {communityId : Str}
    (plain : communityId.Encodable) :
    ∃ items, listForCommunity table communityId none none = .ok items ∧
      items.map TransactionRow.ofModel = orderBy listOrder (table.rows.filter fun row =>
        row.communityId = communityId) := by
  obtain ⟨items, read, rows⟩ := exists_listForCommunity readable communityId
  exact ⟨items, read.trans (whenBound_eq_ok (plainTexts_singleton.mpr plain)), rows⟩

/-- The transactions of a community are the stored ones that carry it. -/
theorem mem_listForCommunity (readable : EncodedBy TransactionRow.ofModel table.rows) {communityId : Str}
    {items : List Transaction} (read : listForCommunity table communityId none none = .ok items)
    {item : Transaction} :
    item ∈ items ↔ TransactionRow.ofModel item ∈ table.rows ∧ item.communityId = communityId := by
  obtain ⟨items', read', rows⟩ := listForCommunity_ok readable (plain_of_listForCommunity read)
  cases read.symm.trans read'
  rw [mem_iff_of_map_eq TransactionRow.ofModel_injective rows, mem_orderBy, List.mem_filter,
    decide_eq_true_eq]
  rfl

theorem readable_upsert {table' : TransactionTable} {item : Transaction}
    (readable : EncodedBy TransactionRow.ofModel table.rows) (h : upsert table item = .ok table') :
    EncodedBy TransactionRow.ofModel table'.rows := by
  obtain ⟨-, rfl⟩ := upsert_eq_ok h
  exact readable.upsert_of_overwrites onConflict_overwrites item

end TransactionRepository

/-! ### Listings and snapshots -/

theorem ListingRow.ofModel_stored {T : Type} [Datetime T] (item : Listing T) (ordered : item.Ordered) :
    ListingRow.ofModel (item.stored ordered) = ListingRow.ofModel item := rfl

theorem SnapshotRow.ofModel_stored {T : Type} [Datetime T] (item : ListingSnapshot T) :
    SnapshotRow.ofModel item.stored = SnapshotRow.ofModel item := rfl

/-- What two rows of one listing merge into. -/
def Listing.merge (old new : Listing Instant) : Listing Instant where
  toListingFields := { new.toListingFields with
    listingId := old.listingId
    firstSeenAt := min old.firstSeenAt new.firstSeenAt
    lastSeenAt := max old.lastSeenAt new.lastSeenAt }
  valid := by
    have hold := ListingFields.errors_eq_nil_iff.mp old.valid
    have hnew := ListingFields.errors_eq_nil_iff.mp new.valid
    rw [ListingFields.errors_eq_nil_iff]
    refine ⟨hold.1, hnew.2.1, hnew.2.2.1, hnew.2.2.2.1, hnew.2.2.2.2.1, hnew.2.2.2.2.2.1, ?_⟩
    have seen : min old.firstSeenAt new.firstSeenAt ≤ max old.lastSeenAt new.lastSeenAt :=
      (min_le_right _ _).trans (new.ordered.trans (le_max_right _ _))
    exact decide_eq_false (not_lt.mpr seen)

theorem ListingRow.ofModel_merge (old new : Listing Instant) :
    ListingRow.ofModel (old.merge new) =
      ListingRepository.onConflict.merge (ListingRow.ofModel old) (ListingRow.ofModel new) := rfl

/-- Every row of both tables is a canonical model written out. -/
structure ListingTables.Readable (tables : ListingTables) : Prop where
  listing : EncodedBy (ListingRow.ofModel (T := Instant)) tables.listing.rows
  snapshot : EncodedBy (SnapshotRow.ofModel (T := Instant)) tables.listingSnapshot.rows

/-- The ids in stored rows can be bound again. -/
theorem ListingTables.Readable.plain_ids {tables : ListingTables} (readable : tables.Readable) {row : ListingRow}
    (stored : row ∈ tables.listing.rows) : row.listingId.Encodable ∧ row.communityId.Encodable := by
  obtain ⟨item, rfl⟩ := readable.listing row stored
  exact ⟨item.listingId_valid.1, item.communityId_valid.1⟩

namespace ListingRepository

variable {tables tables' : ListingTables}

theorem readable_empty : ListingTables.empty.Readable := ⟨encodedBy_nil, encodedBy_nil⟩

theorem readable_upsertListing {item : Listing} (readable : tables.Readable) (ordered : item.Ordered)
    (h : upsertListing tables item = .ok tables') : tables'.Readable := by
  obtain ⟨listing, snapshots⟩ := upsertListing_ok h
  refine ⟨?_, snapshots ▸ readable.snapshot⟩
  rw [listing, ← ListingRow.ofModel_stored item ordered]
  exact readable.listing.upsert fun old _ => ⟨old.merge (item.stored ordered), ListingRow.ofModel_merge old _⟩

/-- What is stored of a snapshot always reads back. -/
theorem encodedBy_appendSnapshot {item : ListingSnapshot}
    (encoded : EncodedBy (SnapshotRow.ofModel (T := Instant)) tables.listingSnapshot.rows)
    (h : appendSnapshot tables item = .ok tables') :
    EncodedBy (SnapshotRow.ofModel (T := Instant)) tables'.listingSnapshot.rows := by
  obtain ⟨-, rfl⟩ := appendSnapshot_ok_iff.mp h
  exact encoded.upsert_of_overwrites snapshotOnConflict_overwrites item.stored

theorem readable_appendSnapshot {item : ListingSnapshot} (readable : tables.Readable)
    (h : appendSnapshot tables item = .ok tables') : tables'.Readable := by
  refine ⟨?_, encodedBy_appendSnapshot readable.snapshot h⟩
  obtain ⟨-, rfl⟩ := appendSnapshot_ok_iff.mp h
  exact readable.listing

/-- What is listed is stored under the community. -/
theorem stored_of_listForCommunity {communityId : Str} {items : List (Listing Instant)}
    (read : listForCommunity tables communityId = .ok items) {item : Listing Instant} (mem : item ∈ items) :
    ∃ row ∈ tables.listing.rows, row.listingId = item.listingId ∧ row.communityId = communityId := by
  rw [listForCommunity, bindTexts_ok (plainTexts_singleton.mpr (plain_of_listForCommunity read))] at read
  obtain ⟨row, selected, decoded⟩ := (mem_of_mapM read).mp mem
  obtain ⟨stored, subject⟩ := List.mem_filter.mp (mem_orderBy.mp selected)
  exact ⟨row, stored, (ListingRow.ids_of_toModel decoded).1.symm, of_decide_eq_true subject⟩

/-- A community is listed where its rows read back. -/
theorem exists_listForCommunity_of_encoded {communityId : Str}
    (encoded : EncodedBy (ListingRow.ofModel (T := Instant))
      (tables.listing.rows.filter fun row => row.communityId = communityId)) :
    ∃ items, listForCommunity tables communityId = whenBound [communityId] items ∧
      items.map ListingRow.ofModel = orderBy listOrder (tables.listing.rows.filter fun row =>
        row.communityId = communityId) := by
  have selected : EncodedBy ListingRow.ofModel
      (orderBy listOrder (tables.listing.rows.filter fun row => row.communityId = communityId)) :=
    encoded.of_subset fun row mem => mem_orderBy.mp mem
  obtain ⟨items, read, rows⟩ := selected.mapM_decode ListingRow.toModel_ofModel
  exact ⟨items, by rw [listForCommunity, read]; rfl, rows⟩

theorem exists_listForCommunity (readable : tables.Readable) (communityId : Str) :
    ∃ items, listForCommunity tables communityId = whenBound [communityId] items ∧
      items.map ListingRow.ofModel = orderBy listOrder (tables.listing.rows.filter fun row =>
        row.communityId = communityId) :=
  exists_listForCommunity_of_encoded (readable.listing.of_subset fun _ mem => (List.mem_filter.mp mem).1)

theorem listForCommunity_ok (readable : tables.Readable) {communityId : Str} (plain : communityId.Encodable) :
    ∃ items, listForCommunity tables communityId = .ok items ∧
      items.map ListingRow.ofModel = orderBy listOrder (tables.listing.rows.filter fun row =>
        row.communityId = communityId) := by
  obtain ⟨items, read, rows⟩ := exists_listForCommunity readable communityId
  exact ⟨items, read.trans (whenBound_eq_ok (plainTexts_singleton.mpr plain)), rows⟩

section

variable {communityId : Str} {items : List (Listing Instant)}

/-- The rows behind the listings that a query returned. -/
theorem rows_of_listForCommunity (readable : tables.Readable)
    (read : listForCommunity tables communityId = .ok items) :
    items.map ListingRow.ofModel = orderBy listOrder
      (tables.listing.rows.filter fun row => row.communityId = communityId) := by
  obtain ⟨items', read', rows⟩ := listForCommunity_ok readable (plain_of_listForCommunity read)
  cases read.symm.trans read'
  exact rows

variable (rows : items.map ListingRow.ofModel = orderBy listOrder
  (tables.listing.rows.filter fun row => row.communityId = communityId))

include rows

theorem mem_of_rows_listForCommunity {item : Listing Instant} :
    item ∈ items ↔
      ListingRow.ofModel item ∈ tables.listing.rows ∧ item.communityId = communityId := by
  rw [mem_iff_of_map_eq ListingRow.ofModel_injective rows, mem_orderBy, List.mem_filter,
    decide_eq_true_eq]
  rfl

/-- The id of a listing is its primary key. -/
theorem nodup_of_rows_listForCommunity : (items.map (·.listingId)).Nodup := by
  refine nodup_map_of_map_eq (f := ListingRow.listingId) rows ?_
  exact ((perm_orderBy _ _).map _).nodup_iff.mpr
    (tables.listing.keys_nodup.sublist (List.filter_sublist.map _))

theorem pairwise_of_rows_listForCommunity :
    items.Pairwise fun a b => b.lastSeenAt < a.lastSeenAt ∨
      a.lastSeenAt = b.lastSeenAt ∧ a.listingId < b.listingId := by
  have told : ∀ a b : ListingRow, listOrder a = listOrder b → a.listingId = b.listingId :=
    fun a b same => congrArg (fun place => (ofLex place).2) same
  have sorted := pairwise_lt_orderBy (tables.listing.order_nodup
    (p := fun row => row.communityId = communityId) told)
  rw [← rows, List.pairwise_map] at sorted
  apply sorted.imp
  intro a b lt
  exact Prod.Lex.toLex_lt_toLex.mp lt

omit rows

variable (readable : tables.Readable) (read : listForCommunity tables communityId = .ok items)

include readable read

/-- The listings of a community are the stored ones that carry it. -/
theorem mem_listForCommunity {item : Listing Instant} :
    item ∈ items ↔
      ListingRow.ofModel item ∈ tables.listing.rows ∧ item.communityId = communityId :=
  mem_of_rows_listForCommunity (rows_of_listForCommunity readable read)

/-- No listing is listed twice. -/
theorem nodup_listForCommunity : (items.map (·.listingId)).Nodup :=
  nodup_of_rows_listForCommunity (rows_of_listForCommunity readable read)

end

/-- The listing with this id is stored under the community. -/
theorem any_get?_listing (tables : ListingTables) (listingId communityId : Str) :
    ((tables.listing.get? listingId).any fun l => l.communityId = communityId) =
      decide (∃ l ∈ tables.listing.rows, l.listingId = listingId ∧ l.communityId = communityId) := by
  rw [Bool.eq_iff_iff, decide_eq_true_eq]
  simp only [Option.any_eq_true, decide_eq_true_eq, Table.get?_eq_some_iff]
  constructor
  · rintro ⟨l, ⟨mem, same⟩, subject⟩
    exact ⟨l, mem, same, subject⟩
  · rintro ⟨l, mem, same, subject⟩
    exact ⟨l, ⟨mem, same⟩, subject⟩

theorem snapshotsForCommunity_eq_filter (tables : ListingTables) (communityId : Str) :
    snapshotsForCommunity tables communityId = tables.listingSnapshot.rows.filter fun s =>
      ∃ l ∈ tables.listing.rows, l.listingId = s.listingId ∧ l.communityId = communityId := by
  rw [snapshotsForCommunity_eq]
  exact List.filter_congr fun s _ => any_get?_listing tables s.listingId communityId

theorem mem_snapshotsForCommunity {communityId : Str} {row : SnapshotRow} :
    row ∈ snapshotsForCommunity tables communityId ↔ row ∈ tables.listingSnapshot.rows ∧
      ∃ l ∈ tables.listing.rows, l.listingId = row.listingId ∧ l.communityId = communityId := by
  rw [snapshotsForCommunity_eq_filter, List.mem_filter, decide_eq_true_eq]

theorem exists_historyForCommunity (readable : tables.Readable) (communityId : Str) :
    ∃ items, historyForCommunity tables communityId = whenBound [communityId] items ∧
      items.map SnapshotRow.ofModel =
        orderBy historyOrder (snapshotsForCommunity tables communityId) := by
  have selected : EncodedBy SnapshotRow.ofModel
      (orderBy historyOrder (snapshotsForCommunity tables communityId)) :=
    readable.snapshot.of_subset fun row mem =>
      (mem_snapshotsForCommunity.mp (mem_orderBy.mp mem)).1
  obtain ⟨items, read, rows⟩ := selected.mapM_decode SnapshotRow.toModel_ofModel
  exact ⟨items, by rw [historyForCommunity, read]; rfl, rows⟩

theorem historyForCommunity_ok (readable : tables.Readable) {communityId : Str}
    (plain : communityId.Encodable) :
    ∃ items, historyForCommunity tables communityId = .ok items ∧
      items.map SnapshotRow.ofModel =
        orderBy historyOrder (snapshotsForCommunity tables communityId) := by
  obtain ⟨items, read, rows⟩ := exists_historyForCommunity readable communityId
  exact ⟨items, read.trans (whenBound_eq_ok (plainTexts_singleton.mpr plain)), rows⟩

section

variable {communityId : Str} {items : List (ListingSnapshot Instant)}

/-- The rows behind the snapshots that a query returned. -/
theorem rows_of_historyForCommunity (readable : tables.Readable)
    (read : historyForCommunity tables communityId = .ok items) :
    items.map SnapshotRow.ofModel = orderBy historyOrder (snapshotsForCommunity tables communityId) := by
  obtain ⟨items', read', rows⟩ := historyForCommunity_ok readable (plain_of_historyForCommunity read)
  cases read.symm.trans read'
  exact rows

variable (rows : items.map SnapshotRow.ofModel =
  orderBy historyOrder (snapshotsForCommunity tables communityId))

include rows

theorem mem_of_rows_historyForCommunity {item : ListingSnapshot Instant} :
    item ∈ items ↔ SnapshotRow.ofModel item ∈ tables.listingSnapshot.rows ∧
      ∃ l ∈ tables.listing.rows, l.listingId = item.listingId ∧ l.communityId = communityId := by
  rw [mem_iff_of_map_eq SnapshotRow.ofModel_injective rows, mem_orderBy, mem_snapshotsForCommunity]
  rfl

theorem nodup_of_rows_historyForCommunity : items.Nodup := by
  refine List.Nodup.of_map SnapshotRow.ofModel (rows ▸ ?_)
  rw [(perm_orderBy _ _).nodup_iff, snapshotsForCommunity_eq]
  exact tables.listingSnapshot.rows_nodup.filter _

theorem length_of_rows_historyForCommunity :
    items.length = (tables.listingSnapshot.rows.filter fun s => ∃ l ∈ tables.listing.rows,
      l.listingId = s.listingId ∧ l.communityId = communityId).length := by
  rw [← List.length_map SnapshotRow.ofModel, rows, (perm_orderBy _ _).length_eq,
    snapshotsForCommunity_eq_filter]

omit rows

variable (readable : tables.Readable) (read : historyForCommunity tables communityId = .ok items)

include readable read

/-- The history of a community is the stored snapshots of the listings that carry it. -/
theorem mem_historyForCommunity {item : ListingSnapshot Instant} :
    item ∈ items ↔ SnapshotRow.ofModel item ∈ tables.listingSnapshot.rows ∧
      ∃ l ∈ tables.listing.rows, l.listingId = item.listingId ∧ l.communityId = communityId :=
  mem_of_rows_historyForCommunity (rows_of_historyForCommunity readable read)

theorem nodup_historyForCommunity : items.Nodup :=
  nodup_of_rows_historyForCommunity (rows_of_historyForCommunity readable read)

theorem length_historyForCommunity :
    items.length = (tables.listingSnapshot.rows.filter fun s => ∃ l ∈ tables.listing.rows,
      l.listingId = s.listingId ∧ l.communityId = communityId).length :=
  length_of_rows_historyForCommunity (rows_of_historyForCommunity readable read)

end

/-! The history of a listing is read from the snapshots alone. -/

theorem exists_history
    (encoded : EncodedBy (SnapshotRow.ofModel (T := Instant)) tables.listingSnapshot.rows) (listingId : Str) :
    ∃ items, history tables listingId = whenBound [listingId] items ∧
      items.map SnapshotRow.ofModel = orderBy SnapshotRow.snapshotAt
        (tables.listingSnapshot.rows.filter fun row => row.listingId = listingId) := by
  have selected : EncodedBy SnapshotRow.ofModel (orderBy SnapshotRow.snapshotAt
      (tables.listingSnapshot.rows.filter fun row => row.listingId = listingId)) :=
    encoded.of_subset fun row mem => (List.mem_filter.mp (mem_orderBy.mp mem)).1
  obtain ⟨items, read, rows⟩ := selected.mapM_decode SnapshotRow.toModel_ofModel
  exact ⟨items, by rw [history, read]; rfl, rows⟩

theorem history_ok (encoded : EncodedBy (SnapshotRow.ofModel (T := Instant)) tables.listingSnapshot.rows)
    {listingId : Str} (plain : listingId.Encodable) :
    ∃ items, history tables listingId = .ok items ∧
      items.map SnapshotRow.ofModel = orderBy SnapshotRow.snapshotAt
        (tables.listingSnapshot.rows.filter fun row => row.listingId = listingId) := by
  obtain ⟨items, read, rows⟩ := exists_history encoded listingId
  exact ⟨items, read.trans (whenBound_eq_ok (plainTexts_singleton.mpr plain)), rows⟩

section

variable {listingId : Str} {items : List (ListingSnapshot Instant)}

/-- The rows behind the history that a query returned. -/
theorem rows_of_history
    (encoded : EncodedBy (SnapshotRow.ofModel (T := Instant)) tables.listingSnapshot.rows)
    (read : history tables listingId = .ok items) :
    items.map SnapshotRow.ofModel = orderBy SnapshotRow.snapshotAt
      (tables.listingSnapshot.rows.filter fun row => row.listingId = listingId) := by
  obtain ⟨items', read', rows⟩ := history_ok encoded (plain_of_history read)
  cases read.symm.trans read'
  exact rows

variable (rows : items.map SnapshotRow.ofModel = orderBy SnapshotRow.snapshotAt
  (tables.listingSnapshot.rows.filter fun row => row.listingId = listingId))

include rows in
theorem mem_of_rows_history {item : ListingSnapshot Instant} :
    item ∈ items ↔
      SnapshotRow.ofModel item ∈ tables.listingSnapshot.rows ∧ item.listingId = listingId := by
  rw [mem_iff_of_map_eq SnapshotRow.ofModel_injective rows, mem_orderBy, List.mem_filter,
    decide_eq_true_eq]
  rfl

/-- The instant is the rest of the primary key. -/
theorem nodup_snapshotAt (tables : ListingTables) (listingId : Str) :
    ((tables.listingSnapshot.rows.filter fun row => row.listingId = listingId).map
      SnapshotRow.snapshotAt).Nodup := by
  refine List.Nodup.map_on ?_ (tables.listingSnapshot.rows_nodup.filter _)
  intro a ha b hb same
  simp only [List.mem_filter, decide_eq_true_eq] at ha hb
  exact List.inj_on_of_nodup_map tables.listingSnapshot.keys_nodup ha.1 hb.1
    (Prod.ext (ha.2.trans hb.2.symm) same)

include rows in
theorem pairwise_of_rows_history :
    items.Pairwise fun a b => a.snapshotAt < b.snapshotAt := by
  have sorted := pairwise_lt_orderBy (nodup_snapshotAt tables listingId)
  rw [← rows, List.pairwise_map] at sorted
  exact sorted

variable (encoded : EncodedBy (SnapshotRow.ofModel (T := Instant)) tables.listingSnapshot.rows)
  (read : history tables listingId = .ok items)

include encoded read

/-- The history of a listing is its stored snapshots. -/
theorem mem_history {item : ListingSnapshot Instant} :
    item ∈ items ↔
      SnapshotRow.ofModel item ∈ tables.listingSnapshot.rows ∧ item.listingId = listingId :=
  mem_of_rows_history (rows_of_history encoded read)

/-- A history is strictly increasing. -/
theorem pairwise_history : items.Pairwise fun a b => a.snapshotAt < b.snapshotAt :=
  pairwise_of_rows_history (rows_of_history encoded read)

end

/-- Of a stored listing, the community's snapshots are those of the listing. -/
theorem filter_snapshotsForCommunity {item : Listing Instant}
    (stored : ListingRow.ofModel item ∈ tables.listing.rows) :
    (snapshotsForCommunity tables item.communityId).filter (·.listingId = item.listingId) =
      tables.listingSnapshot.rows.filter (·.listingId = item.listingId) := by
  rw [snapshotsForCommunity_eq_filter, List.filter_filter]
  apply List.filter_congr
  intro s _
  rw [Bool.and_eq_left_iff_imp]
  intro same
  exact decide_eq_true ⟨_, stored, (of_decide_eq_true same).symm, rfl⟩

end ListingRepository

/-! ### Market observations -/

namespace MarketObservationRepository

theorem exists_listForCity {table : MarketObservationTable}
    (readable : EncodedBy MarketObservationRow.ofModel table.rows) (cityCode : Str) :
    ∃ items, listForCity table cityCode none none none none none = whenBound [cityCode] items ∧
      items.map MarketObservationRow.ofModel = orderBy listOrder (table.rows.filter fun row =>
        row.cityCode = cityCode) := by
  have selected : EncodedBy MarketObservationRow.ofModel
      (orderBy listOrder (table.rows.filter fun row => row.cityCode = cityCode)) :=
    readable.of_subset fun row mem => (List.mem_filter.mp (mem_orderBy.mp mem)).1
  obtain ⟨items, read, rows⟩ := selected.mapM_decode MarketObservationRow.toModel_ofModel
  refine ⟨items, ?_, rows⟩
  simp only [listForCity, whenGiven, Option.all_none, Bool.and_true, read]
  rfl

end MarketObservationRepository

/-! ### Stores that the repositories can write -/

/-- Every row reads back, and the `INTEGER` columns hold what they can hold. -/
structure Database.WellFormed (db : Database) : Prop where
  transactions : EncodedBy TransactionRow.ofModel db.propertyTransaction.rows
  integers : ∀ row ∈ db.propertyTransaction.rows, row.Fits
  listings : db.listings.Readable

/-- A repository call. -/
inductive Statement where
  | upsertTransaction (item : Transaction)
  | upsertListing (item : Listing)
  | appendSnapshot (item : ListingSnapshot)

namespace Statement

/-- A listing is seen first no later than last by its instants. -/
def Ordered : Statement → Prop
  | upsertListing item => item.Ordered
  | _ => True

instance : (s : Statement) → Decidable s.Ordered
  | upsertTransaction _ => .isTrue trivial
  | upsertListing item => inferInstanceAs (Decidable item.Ordered)
  | appendSnapshot _ => .isTrue trivial

def execute (db : Database) : Statement → Except Failure Database
  | upsertTransaction item =>
      (TransactionRepository.upsert db.propertyTransaction item).map fun table =>
        { db with propertyTransaction := table }
  | upsertListing item =>
      (ListingRepository.upsertListing db.listings item).map fun listings => { db with listings }
  | appendSnapshot item =>
      (ListingRepository.appendSnapshot db.listings item).map fun listings => { db with listings }

/-- A refused statement writes nothing. -/
def apply (db : Database) (s : Statement) : Database :=
  match execute db s with
  | .ok db' => db'
  | .error _ => db

end Statement

theorem Database.wellFormed_empty : Database.empty.WellFormed :=
  ⟨encodedBy_nil, by simp [Database.empty], ListingRepository.readable_empty⟩

theorem TransactionRepository.fits_upsert {table table' : TransactionTable} {item : Transaction}
    (fits : ∀ row ∈ table.rows, row.Fits) (h : TransactionRepository.upsert table item = .ok table') :
    ∀ row ∈ table'.rows, row.Fits := by
  obtain ⟨storable, rfl⟩ := upsert_eq_ok h
  intro row mem
  rcases (Table.mem_upsert_of_overwrites onConflict_overwrites).mp mem with rfl | ⟨stored, -⟩
  · exact storable.2
  · exact fits row stored

theorem Database.wellFormed_apply {db : Database} (wf : db.WellFormed) {s : Statement} (ordered : s.Ordered) :
    (s.apply db).WellFormed := by
  unfold Statement.apply
  cases h : s.execute db with
  | error e => exact wf
  | ok db' =>
      cases s with
      | upsertTransaction item =>
          simp only [Statement.execute] at h
          cases written : TransactionRepository.upsert db.propertyTransaction item with
          | error e => rw [written] at h; cases h
          | ok table =>
              rw [written] at h
              cases h
              exact ⟨TransactionRepository.readable_upsert wf.transactions written,
                TransactionRepository.fits_upsert wf.integers written, wf.listings⟩
      | upsertListing item =>
          simp only [Statement.execute] at h
          cases written : ListingRepository.upsertListing db.listings item with
          | error e => rw [written] at h; cases h
          | ok tables =>
              rw [written] at h
              cases h
              exact ⟨wf.transactions, wf.integers,
                ListingRepository.readable_upsertListing wf.listings ordered written⟩
      | appendSnapshot item =>
          simp only [Statement.execute] at h
          cases written : ListingRepository.appendSnapshot db.listings item with
          | error e => rw [written] at h; cases h
          | ok tables =>
              rw [written] at h
              cases h
              exact ⟨wf.transactions, wf.integers,
                ListingRepository.readable_appendSnapshot wf.listings written⟩

/-- Every store that repository calls lead to is well formed. -/
theorem Database.wellFormed_run {statements : List Statement} (ordered : ∀ s ∈ statements, s.Ordered)
    {db : Database} (wf : db.WellFormed) : (statements.foldl (fun db s => s.apply db) db).WellFormed := by
  induction statements generalizing db with
  | nil => exact wf
  | cons s rest ih =>
      rw [List.forall_mem_cons] at ordered
      exact ih ordered.2 (wellFormed_apply wf ordered.1)

end CnPropertyAgent
