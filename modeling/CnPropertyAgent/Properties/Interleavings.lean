import CnPropertyAgent.Properties.ListingViews
import CnPropertyAgent.Properties.Redelivery
import CnPropertyAgent.Properties.TransactionOwnership
import CnPropertyAgent.Relational.Parts
import CnPropertyAgent.Services.MarketObservationQuery

/-!
Ingestion calls of several subjects, interleaved.

A deployment ingests the transactions and the listings of many communities and the market
observations of many cities, each series of calls at its own pace, with calls that raise,
that die and that are made again. Where no two series write under one identifier, each
subject reads what its own calls leave by themselves (`subjects_apart`), and once each series
has been delivered, however they are interleaved, no query tells the store from the one that
making every call once would have left (`interleavings_indistinguishable`).
-/

namespace CnPropertyAgent

open Python Relational

section

variable [Runtime]

/-! ### What the queries return -/

namespace ListingRepository

omit [Runtime]

variable {tables tables' : ListingTables} {communityId : Str}

/-- The listings of a community are the same rows, and so are the snapshots of each of them. -/
structure SameFor (communityId : Str) (tables tables' : ListingTables) : Prop where
  listing : ∀ row : ListingRow, row.communityId = communityId →
    (row ∈ tables.listing.rows ↔ row ∈ tables'.listing.rows)
  snapshot : ∀ l ∈ tables.listing.rows, l.communityId = communityId →
    ∀ row : SnapshotRow, l.listingId = row.listingId →
      (row ∈ tables.listingSnapshot.rows ↔ row ∈ tables'.listingSnapshot.rows)

theorem SameFor.listForCommunity (same : SameFor communityId tables tables') :
    listForCommunity tables communityId = listForCommunity tables' communityId := by
  have byId : ∀ a b : ListingRow, listOrder a = listOrder b → a.listingId = b.listingId :=
    fun a b eq => congrArg (fun place => (ofLex place).2) eq
  apply congrArg fun rows => bindTexts [communityId] >>= fun _ => List.mapM ListingRow.toModel rows
  apply Table.orderBy_filter_congr byId
  intro row
  rw [decide_eq_true_eq]
  exact and_congr_left fun subject => same.listing row subject

theorem SameFor.historyForCommunity (same : SameFor communityId tables tables') :
    historyForCommunity tables communityId = historyForCommunity tables' communityId := by
  have byKey : ∀ a b : SnapshotRow, historyOrder a = historyOrder b → a.key = b.key :=
    fun a b eq => congrArg ofLex eq
  apply congrArg fun rows => bindTexts [communityId] >>= fun _ => List.mapM SnapshotRow.toModel rows
  rw [snapshotsForCommunity_eq_filter, snapshotsForCommunity_eq_filter]
  apply Table.orderBy_filter_congr byKey
  intro row
  simp only [decide_eq_true_eq]
  constructor
  · rintro ⟨mem, l, stored, id, subject⟩
    exact ⟨(same.snapshot l stored subject row id).mp mem, l, (same.listing l subject).mp stored, id, subject⟩
  · rintro ⟨mem, l, stored', id, subject⟩
    have stored := (same.listing l subject).mpr stored'
    exact ⟨(same.snapshot l stored subject row id).mpr mem, l, stored, id, subject⟩

theorem SameFor.history (same : SameFor communityId tables tables') {l : ListingRow}
    (stored : l ∈ tables.listing.rows) (subject : l.communityId = communityId) :
    history tables l.listingId = history tables' l.listingId := by
  apply congrArg fun rows => bindTexts [l.listingId] >>= fun _ => List.mapM SnapshotRow.toModel rows
  apply orderBy_congr (nodup_snapshotAt tables _) (nodup_snapshotAt tables' _)
  intro row
  rw [List.mem_filter, List.mem_filter, decide_eq_true_eq]
  exact and_congr_left fun id => same.snapshot l stored subject row id.symm

/-- The listings and their histories determine the current listings. -/
theorem SameFor.currentListings (same : SameFor communityId tables tables') (readable : tables.Readable)
    (readable' : tables'.Readable) :
    ListingQueryService.getCurrentListings tables communityId =
      ListingQueryService.getCurrentListings tables' communityId := by
  by_cases plain : communityId.Encodable
  swap
  · rw [getCurrentListings_refused plain, getCurrentListings_refused plain]
  obtain ⟨listings, listed, -⟩ := listForCommunity_ok readable plain
  have listed' := same.listForCommunity.symm.trans listed
  obtain ⟨current, shown, paired, latest⟩ := getCurrentListings_ok readable listed
  obtain ⟨current', shown', paired', latest'⟩ := getCurrentListings_ok readable' listed'
  rw [shown, shown', Except.ok.injEq]
  let newest (l : Listing Instant) : Option (ListingSnapshot Instant) :=
    (ListingRepository.history tables l.listingId).toOption.bind List.getLast?
  have pairs : ∀ cs : List CurrentListing,
      (∀ c ∈ cs, ∃ own, ListingRepository.history tables c.listing.listingId = .ok own ∧
        c.latestSnapshot = own.getLast?) →
      cs.map (fun c => (c.listing, c.latestSnapshot)) = (cs.map (·.listing)).map fun l => (l, newest l) := by
    intro cs last
    rw [List.map_map]
    apply List.map_congr_left
    intro c mem
    obtain ⟨own, read, eq⟩ := last c mem
    simp only [Function.comp_apply, newest, read, eq]
    rfl
  have alike : ∀ c ∈ current', ∃ own, ListingRepository.history tables c.listing.listingId = .ok own ∧
      c.latestSnapshot = own.getLast? := by
    intro c mem
    have listing : c.listing ∈ listings := paired' ▸ List.mem_map_of_mem mem
    obtain ⟨stored, subject⟩ := (mem_listForCommunity readable listed).mp listing
    have histories : ListingRepository.history tables c.listing.listingId =
        ListingRepository.history tables' c.listing.listingId := same.history stored subject
    rw [histories]
    exact latest' c mem
  have told : Function.Injective fun c : CurrentListing => (c.listing, c.latestSnapshot) := by
    rintro ⟨l, s, _⟩ ⟨l', s', _⟩ eq
    cases eq
    rfl
  apply List.map_injective_iff.mpr told
  rw [pairs current latest, pairs current' alike, paired, paired']

end ListingRepository

/-- Every query about the community returns the same on both stores. -/
structure Database.AgreeOn (db db' : Database) (communityId : Str) : Prop where
  evidence : CommunityEvidenceService.getMarketEvidence db communityId =
    CommunityEvidenceService.getMarketEvidence db' communityId
  transactions : ∀ query : TransactionQuery, query.communityId = communityId →
    TransactionQueryService.getTransactions db.propertyTransaction query =
      TransactionQueryService.getTransactions db'.propertyTransaction query
  transactionMetrics : ∀ query : TransactionQuery, query.communityId = communityId →
    TransactionQueryService.getTransactionMetrics db.propertyTransaction query =
      TransactionQueryService.getTransactionMetrics db'.propertyTransaction query
  listings : ListingQueryService.getListings db.listings communityId =
    ListingQueryService.getListings db'.listings communityId
  currentListings : ListingQueryService.getCurrentListings db.listings communityId =
    ListingQueryService.getCurrentListings db'.listings communityId
  communityHistory : ListingQueryService.getCommunityListingHistory db.listings communityId =
    ListingQueryService.getCommunityListingHistory db'.listings communityId

/-- Every query returns the same on both stores. -/
structure Database.Indistinguishable (db db' : Database) : Prop where
  communities : ∀ communityId, db.AgreeOn db' communityId
  history : ∀ listingId, ListingQueryService.getListingHistory db.listings listingId =
    ListingQueryService.getListingHistory db'.listings listingId
  observations : ∀ query, MarketObservationQueryService.getMarketObservations db.marketObservation query =
    MarketObservationQueryService.getMarketObservations db'.marketObservation query

omit [Runtime] in
theorem MarketObservationQueryService.getMarketObservations_congr {table table' : MarketObservationTable}
    {query : MarketObservationQuery} (same : ∀ row : MarketObservationRow, row.cityCode = query.cityCode →
      (row ∈ table.rows ↔ row ∈ table'.rows)) :
    getMarketObservations table query = getMarketObservations table' query := by
  have byId : ∀ a b, MarketObservationRepository.listOrder a = MarketObservationRepository.listOrder b →
      a.observationId = b.observationId := fun a b eq => congrArg (fun place => (ofLex (ofLex place).2).2) eq
  apply congrArg fun rows => bindTexts (query.cityCode :: query.filters) >>= fun _ =>
    List.mapM MarketObservationRow.toModel rows
  apply Table.orderBy_filter_congr byId
  intro row
  simp only [Bool.and_eq_true, decide_eq_true_eq]
  exact and_congr_left fun selected => same row selected.1.1.1.1.1

/-- The queries about a community see its rows, and not the order they are stored in. -/
theorem Database.agreeOn_of_same {db db' : Database} {communityId : Str}
    (transactions : ∀ row : TransactionRow, row.communityId = communityId →
      (row ∈ db.propertyTransaction.rows ↔ row ∈ db'.propertyTransaction.rows))
    (listings : ListingRepository.SameFor communityId db.listings db'.listings)
    (readable : db.listings.Readable) (readable' : db'.listings.Readable) :
    db.AgreeOn db' communityId where
  evidence := by
    unfold CommunityEvidenceService.getMarketEvidence
    cases validated : TransactionQueryFields.validate ⟨communityId, none, none⟩ with
    | error e => rfl
    | ok query =>
        have subject : query.communityId = communityId := by
          unfold TransactionQueryFields.validate at validated
          split at validated
          · cases validated
            rfl
          · cases validated
        have deals := TransactionQueryService.getTransactions_congr
          fun row own => transactions row (own.trans subject)
        unfold TransactionQueryService.getTransactionMetrics ListingQueryService.getListings
          ListingQueryService.getCommunityListingHistory
        simp only [bind, Except.bind, subject, deals, listings.listForCommunity, listings.historyForCommunity]
  transactions query subject :=
    TransactionQueryService.getTransactions_congr fun row own => transactions row (own.trans subject)
  transactionMetrics query subject := by
    rw [TransactionQueryService.getTransactionMetrics, TransactionQueryService.getTransactionMetrics,
      TransactionQueryService.getTransactions_congr fun row own => transactions row (own.trans subject)]
  listings := listings.listForCommunity
  currentListings := listings.currentListings readable readable'
  communityHistory := listings.historyForCommunity

/-! ### The deployment -/

/-- One call of one of the services. -/
inductive IngestCall where
  | transactions (c : TransactionIngestCall)
  | listings (c : LianjiaIngestCall)
  | observations (c : MarketIngestCall)

/-- What is ingested, and about whom. -/
inductive Series where
  | transactions (communityId : Str)
  | listings (communityId : Str)
  | observations (cityCode : Str)
deriving DecidableEq

/-- An identifier that a row is stored under. -/
inductive RowId where
  | transaction (transactionId : Str)
  | listing (listingId : Str)
  | observation (observationId : Str)
deriving DecidableEq

namespace IngestCall

/-- The series that a call continues. -/
def series : IngestCall → Series
  | .transactions c => .transactions c.request.community.communityId
  | .listings c => .listings c.community.communityId
  | .observations c => .observations c.request.cityCode

/-- What a call leaves, whether it returns or raises. -/
def after (db : Database) : IngestCall → Database
  | .transactions c =>
      { db with propertyTransaction := TransactionIngestionService.after db.propertyTransaction c }
  | .listings c => { db with listings := (c.outcome db.listings).state }
  | .observations c =>
      { db with marketObservation := MarketObservationIngestionService.after db.marketObservation c }

/-- What a call leaves that dies after so many statements. -/
def interrupted (statements : Nat) (db : Database) : IngestCall → Database
  | .transactions c =>
      { db with propertyTransaction :=
          TransactionIngestionService.interrupted statements db.propertyTransaction c }
  | .listings c => { db with listings := c.interrupted statements db.listings }
  | .observations c =>
      { db with marketObservation :=
          MarketObservationIngestionService.interrupted statements db.marketObservation c }

def service : Service Database IngestCall := fun db made =>
  match made with
  | .whole call => after db call
  | .cut statements call => interrupted statements db call

/-- What a sequence of calls leaves of the empty store. -/
def afterAll (calls : List IngestCall) : Database := calls.foldl after .empty

/-- The identifiers that a call writes under. -/
def ids : IngestCall → List RowId
  | .transactions c => (TransactionIngestionService.writtenBy c).map fun t => .transaction t.transactionId
  | .listings c => (LianjiaIngestCall.taken (.whole c)).map fun s =>
      .listing (s.elim (·.listingId) (·.listingId))
  | .observations c =>
      (MarketObservationIngestionService.writtenBy c).map fun o => .observation o.observationId

/-- No two series write under one identifier. -/
def Apart (calls : List IngestCall) : Prop :=
  ∀ call ∈ calls, ∀ call' ∈ calls, ∀ id ∈ call.ids, id ∈ call'.ids → call.series = call'.series

/-! ### What each table is written -/

def transactionRows (m : Made IngestCall) : List TransactionRow :=
  match m.call with
  | .transactions c => TransactionIngestionService.entries (m.as c)
  | _ => []

def listingRows (m : Made IngestCall) : List ListingRow :=
  match m.call with
  | .listings c => (LianjiaIngestCall.entries (m.as c)).filterMap Sum.getLeft?
  | _ => []

def snapshotRows (m : Made IngestCall) : List SnapshotRow :=
  match m.call with
  | .listings c => (LianjiaIngestCall.entries (m.as c)).filterMap Sum.getRight?
  | _ => []

def observationRows (m : Made IngestCall) : List MarketObservationRow :=
  match m.call with
  | .observations c => MarketObservationIngestionService.entries (m.as c)
  | _ => []

end IngestCall

open IngestCall

/-- The store holds what has been written. -/
structure Database.Holds (db : Database) (made : List (Made IngestCall)) : Prop where
  transactions : db.propertyTransaction = Table.written TransactionRepository.onConflict transactionRows made
  listings : db.listings.listing.toTable = Table.written ListingRepository.onConflict listingRows made
  snapshots : db.listings.listingSnapshot =
    Table.written ListingRepository.snapshotOnConflict snapshotRows made
  observations : db.marketObservation =
    Table.written MarketObservationRepository.onConflict observationRows made
  identified : db.listings.Identified

theorem Database.holds_empty : Database.empty.Holds [] :=
  ⟨rfl, rfl, rfl, rfl, LianjiaIngestCall.identified_afterAll []⟩

/-- A call writes its rows, in whatever way it is made. -/
theorem Database.Holds.make {db : Database} {made : List (Made IngestCall)} (holds : db.Holds made)
    (m : Made IngestCall) : (IngestCall.service db m).Holds (made ++ [m]) := by
  cases called : m.call with
  | transactions c =>
      have made_ : IngestCall.service db m = { db with
          propertyTransaction := TransactionIngestionService.service db.propertyTransaction (m.as c) } := by
        cases m <;> cases called <;> rfl
      have wrote := (TransactionIngestionService.logs.make db.propertyTransaction (m.as c) trivial).2
      rw [made_]
      refine ⟨?_, ?_, ?_, ?_, holds.identified⟩ <;>
        simp only [Table.written_append_singleton, transactionRows, listingRows, snapshotRows, observationRows,
          called, Table.upsertAll_nil]
      · exact wrote.trans (congrArg (Table.upsertAll _ · _) holds.transactions)
      · exact holds.listings
      · exact holds.snapshots
      · exact holds.observations
  | listings c =>
      have made_ : IngestCall.service db m = { db with
          listings := LianjiaIngestCall.service db.listings (m.as c) } := by
        cases m <;> cases called <;> rfl
      obtain ⟨kept, wrote⟩ := LianjiaIngestCall.logs.make db.listings (m.as c) holds.identified
      obtain ⟨listing, snapshots⟩ := Prod.mk.inj wrote
      rw [made_]
      refine ⟨?_, ?_, ?_, ?_, kept⟩ <;>
        simp only [Table.written_append_singleton, transactionRows, listingRows, snapshotRows, observationRows,
          called, Table.upsertAll_nil]
      · exact holds.transactions
      · exact listing.trans (congrArg (Table.upsertAll _ · _) holds.listings)
      · exact snapshots.trans (congrArg (Table.upsertAll _ · _) holds.snapshots)
      · exact holds.observations
  | observations c =>
      have made_ : IngestCall.service db m = { db with
          marketObservation := MarketObservationIngestionService.service db.marketObservation (m.as c) } := by
        cases m <;> cases called <;> rfl
      have wrote := (MarketObservationIngestionService.logs.make db.marketObservation (m.as c) trivial).2
      rw [made_]
      refine ⟨?_, ?_, ?_, ?_, holds.identified⟩ <;>
        simp only [Table.written_append_singleton, transactionRows, listingRows, snapshotRows, observationRows,
          called, Table.upsertAll_nil]
      · exact holds.transactions
      · exact holds.listings
      · exact holds.snapshots
      · exact wrote.trans (congrArg (Table.upsertAll _ · _) holds.observations)

theorem IngestCall.holds_makeAll (made : List (Made IngestCall)) :
    (IngestCall.service.makeAll made .empty).Holds made := by
  induction made using List.reverseRecOn with
  | nil => exact Database.holds_empty
  | append_singleton made m ih =>
      rw [Service.makeAll, List.foldl_append]
      exact ih.make m

/-! ### Who writes what -/

omit [Runtime] in
theorem MarketObservationIngestionService.cityCode_of_writtenBy {c : MarketIngestCall} {o : MarketObservation}
    (mem : o ∈ writtenBy c) : o.cityCode = c.request.cityCode := by
  unfold writtenBy at mem
  split at mem
  · cases mem
  · split_ifs at mem with own
    · exact own o (mem_of_taken mem)
    · cases mem

theorem LianjiaIngestCall.communityId_of_batch {c : LianjiaIngestCall} {o : ListingObservation}
    (mem : o ∈ c.batch) : o.listing.communityId = c.community.communityId := by
  unfold batch at mem
  split at mem
  · cases mem
  · split_ifs at mem with own
    · exact own o mem
    · cases mem

theorem LianjiaIngestCall.communityId_of_taken {c : LianjiaIngestCall} {item : Listing}
    (mem : .inl item ∈ taken (.whole c)) : item.communityId = c.community.communityId := by
  obtain ⟨o, ho, statement⟩ := List.mem_flatMap.mp ((List.takeWhile_sublist _).subset mem)
  rcases List.mem_pair.mp statement with same | other
  · cases same
    exact communityId_of_batch ho
  · cases other

theorem LianjiaIngestCall.ordered_of_taken {c : LianjiaIngestCall} {item : Listing}
    (mem : .inl item ∈ taken (.whole c)) : item.Ordered := by
  obtain ⟨o, ho, statement⟩ := List.mem_flatMap.mp ((List.takeWhile_sublist _).subset mem)
  rcases List.mem_pair.mp statement with same | other
  · cases same
    exact (parsed_batch c o ho).ordered
  · cases other

theorem TransactionIngestionService.communityId_of_writtenBy {c : TransactionIngestCall} {t : Transaction}
    (mem : t ∈ writtenBy c) : t.communityId = c.request.community.communityId := by
  unfold writtenBy at mem
  split at mem
  · cases mem
  · split at mem
    · cases mem
    · rename_i each
      exact communityId_of_accepted each ((List.takeWhile_sublist _).subset mem)

theorem initial_transactionRows (k : Nat) (call : IngestCall) :
    transactionRows (.cut k call) <+: transactionRows (.whole call) := by
  cases call with
  | transactions c => exact TransactionIngestionService.logs.initial k c
  | listings c => exact List.prefix_rfl
  | observations c => exact List.prefix_rfl

theorem exists_of_transactionRows {m : Made IngestCall} {u : TransactionRow} (mem : u ∈ transactionRows m) :
    ∃ c, m.call = .transactions c ∧
      ∃ t ∈ TransactionIngestionService.writtenBy c, TransactionRow.ofModel t = u := by
  have whole := Log.subset_whole initial_transactionRows m u mem
  cases called : m.call with
  | transactions c =>
      rw [called] at whole
      exact ⟨c, rfl, List.mem_map.mp whole⟩
  | listings c => rw [called] at whole; cases whole
  | observations c => rw [called] at whole; cases whole

theorem initial_listingRows (k : Nat) (call : IngestCall) :
    listingRows (.cut k call) <+: listingRows (.whole call) := by
  cases call with
  | transactions c => exact List.prefix_rfl
  | listings c => exact (LianjiaIngestCall.logs.initial k c).filterMap _
  | observations c => exact List.prefix_rfl

theorem exists_of_listingRows {m : Made IngestCall} {u : ListingRow} (mem : u ∈ listingRows m) :
    ∃ c, m.call = .listings c ∧
      ∃ item, .inl item ∈ LianjiaIngestCall.taken (.whole c) ∧ ListingRow.ofModel item = u := by
  have whole := Log.subset_whole initial_listingRows m u mem
  cases called : m.call with
  | transactions c => rw [called] at whole; cases whole
  | listings c =>
      have rows : listingRows (.whole (.listings c)) =
          ((LianjiaIngestCall.taken (.whole c)).filterMap Sum.getLeft?).map ListingRow.ofModel :=
        (ListingIngestionService.filterMap_rowOf _).1
      rw [called, rows] at whole
      obtain ⟨item, selected, rfl⟩ := List.mem_map.mp whole
      obtain ⟨s, taken, left⟩ := List.mem_filterMap.mp selected
      rw [Sum.getLeft?_eq_some_iff.mp left] at taken
      exact ⟨c, rfl, item, taken, rfl⟩
  | observations c => rw [called] at whole; cases whole

theorem initial_snapshotRows (k : Nat) (call : IngestCall) :
    snapshotRows (.cut k call) <+: snapshotRows (.whole call) := by
  cases call with
  | transactions c => exact List.prefix_rfl
  | listings c => exact (LianjiaIngestCall.logs.initial k c).filterMap _
  | observations c => exact List.prefix_rfl

theorem exists_of_snapshotRows {m : Made IngestCall} {u : SnapshotRow} (mem : u ∈ snapshotRows m) :
    ∃ c, m.call = .listings c ∧
      ∃ item, .inr item ∈ LianjiaIngestCall.taken (.whole c) ∧ SnapshotRow.ofModel item = u := by
  have whole := Log.subset_whole initial_snapshotRows m u mem
  cases called : m.call with
  | transactions c => rw [called] at whole; cases whole
  | listings c =>
      have rows : snapshotRows (.whole (.listings c)) =
          ((LianjiaIngestCall.taken (.whole c)).filterMap Sum.getRight?).map SnapshotRow.ofModel :=
        (ListingIngestionService.filterMap_rowOf _).2
      rw [called, rows] at whole
      obtain ⟨item, selected, rfl⟩ := List.mem_map.mp whole
      obtain ⟨s, taken, right⟩ := List.mem_filterMap.mp selected
      rw [Sum.getRight?_eq_some_iff.mp right] at taken
      exact ⟨c, rfl, item, taken, rfl⟩
  | observations c => rw [called] at whole; cases whole

theorem initial_observationRows (k : Nat) (call : IngestCall) :
    observationRows (.cut k call) <+: observationRows (.whole call) := by
  cases call with
  | transactions c => exact List.prefix_rfl
  | listings c => exact List.prefix_rfl
  | observations c => exact MarketObservationIngestionService.logs.initial k c

theorem exists_of_observationRows {m : Made IngestCall} {u : MarketObservationRow}
    (mem : u ∈ observationRows m) :
    ∃ c, m.call = .observations c ∧
      ∃ o ∈ MarketObservationIngestionService.writtenBy c, MarketObservationRow.ofModel o = u := by
  have whole := Log.subset_whole initial_observationRows m u mem
  cases called : m.call with
  | transactions c => rw [called] at whole; cases whole
  | listings c => rw [called] at whole; cases whole
  | observations c =>
      rw [called] at whole
      exact ⟨c, rfl, List.mem_map.mp whole⟩

/-- The rows of a table that calls write: a call cut short writes the first of them, and its
identifiers include those of the rows. -/
structure Emits {ρ κ : Type} (key : ρ → κ) (rowsOf : Made IngestCall → List ρ) (idOf : ρ → RowId) : Prop where
  initial : ∀ k call, rowsOf (.cut k call) <+: rowsOf (.whole call)
  named : ∀ m, ∀ u ∈ rowsOf m, idOf u ∈ m.call.ids
  told : ∀ u v, key u = key v → idOf u = idOf v

theorem emits_transactions :
    Emits TransactionRow.transactionId transactionRows fun row => .transaction row.transactionId where
  initial := initial_transactionRows
  named m u mem := by
    obtain ⟨c, called, t, ht, rfl⟩ := exists_of_transactionRows mem
    exact called ▸ List.mem_map.mpr ⟨t, ht, rfl⟩
  told _ _ same := congrArg RowId.transaction same

theorem emits_listings : Emits ListingRow.listingId listingRows fun row => .listing row.listingId where
  initial := initial_listingRows
  named m u mem := by
    obtain ⟨c, called, item, taken, rfl⟩ := exists_of_listingRows mem
    exact called ▸ List.mem_map.mpr ⟨.inl item, taken, rfl⟩
  told _ _ same := congrArg RowId.listing same

theorem emits_snapshots : Emits SnapshotRow.key snapshotRows fun row => .listing row.listingId where
  initial := initial_snapshotRows
  named m u mem := by
    obtain ⟨c, called, item, taken, rfl⟩ := exists_of_snapshotRows mem
    exact called ▸ List.mem_map.mpr ⟨.inr item, taken, rfl⟩
  told _ _ same := congrArg RowId.listing (Prod.mk.inj same).1

theorem emits_observations :
    Emits MarketObservationRow.observationId observationRows fun row => .observation row.observationId where
  initial := initial_observationRows
  named m u mem := by
    obtain ⟨c, called, o, ho, rfl⟩ := exists_of_observationRows mem
    exact called ▸ List.mem_map.mpr ⟨o, ho, rfl⟩
  told _ _ same := congrArg RowId.observation same

theorem series_of_transactionRows {m : Made IngestCall} {u : TransactionRow} (mem : u ∈ transactionRows m) :
    m.call.series = .transactions u.communityId := by
  obtain ⟨c, called, t, ht, rfl⟩ := exists_of_transactionRows mem
  rw [called]
  exact congrArg Series.transactions (TransactionIngestionService.communityId_of_writtenBy ht).symm

theorem series_of_listingRows {m : Made IngestCall} {u : ListingRow} (mem : u ∈ listingRows m) :
    m.call.series = .listings u.communityId := by
  obtain ⟨c, called, item, taken, rfl⟩ := exists_of_listingRows mem
  rw [called]
  exact congrArg Series.listings (LianjiaIngestCall.communityId_of_taken taken).symm

theorem series_of_observationRows {m : Made IngestCall} {u : MarketObservationRow}
    (mem : u ∈ observationRows m) : m.call.series = .observations u.cityCode := by
  obtain ⟨c, called, o, ho, rfl⟩ := exists_of_observationRows mem
  rw [called]
  exact congrArg Series.observations (MarketObservationIngestionService.cityCode_of_writtenBy ho).symm

/-- The listings that are stored read back. -/
theorem Database.Holds.readable {db : Database} {made : List (Made IngestCall)} (holds : db.Holds made) :
    db.listings.Readable := by
  constructor
  · rw [holds.listings]
    apply EncodedBy.upsertAll encodedBy_nil
    · intro row mem
      obtain ⟨m, -, hu⟩ := List.mem_flatMap.mp mem
      obtain ⟨c, -, item, taken, rfl⟩ := exists_of_listingRows hu
      exact ⟨item.stored (LianjiaIngestCall.ordered_of_taken taken), rfl⟩
    · exact fun a b _ => ⟨b.merge a, ListingRow.ofModel_merge b a⟩
  · rw [holds.snapshots]
    apply EncodedBy.upsertAll encodedBy_nil
    · intro row mem
      obtain ⟨m, -, hu⟩ := List.mem_flatMap.mp mem
      obtain ⟨-, -, item, -, rfl⟩ := exists_of_snapshotRows hu
      exact ⟨item.stored, rfl⟩
    · exact fun a b same => ⟨a, (ListingRepository.snapshotOnConflict_overwrites _ _ same).symm⟩

namespace Emits

variable {ρ κ : Type} [DecidableEq κ] {key : ρ → κ} {rowsOf : Made IngestCall → List ρ} {idOf : ρ → RowId}
  {made : List (Made IngestCall)} {calls : List IngestCall}

omit [DecidableEq κ] in
/-- Calls that write one identifier continue one series. -/
theorem series_eq (emits : Emits key rowsOf idOf) (apart : Apart (made.map Made.call)) {a b : Made IngestCall}
    (ha : a ∈ made) (hb : b ∈ made) {u : ρ} (hu : u ∈ rowsOf a) (named : idOf u ∈ b.call.ids) :
    a.call.series = b.call.series :=
  apart _ (List.mem_map_of_mem ha) _ (List.mem_map_of_mem hb) _ (emits.named a u hu) named

omit [DecidableEq κ] in
theorem apart (emits : Emits key rowsOf idOf) (apart : Apart (made.map Made.call)) (part : Series → Bool) :
    ∀ a ∈ made, ∀ b ∈ made, ∀ u ∈ rowsOf a, ∀ v ∈ rowsOf b, key u = key v →
      part a.call.series = part b.call.series := by
  intro a ha b hb u hu v hv same
  rw [emits.series_eq apart ha hb hu (emits.told u v same ▸ emits.named b v hv)]

/-- Series that have been delivered have left the rows that making every call once leaves. -/
theorem sameRows (emits : Emits key rowsOf idOf) {c : OnConflict key} (band : Table.Band c) (apart : Apart calls)
    (delivered : ∀ s, Delivered (made.filter (·.call.series = s)) (calls.filter (·.series = s))) :
    Table.SameRows (Table.written c rowsOf made) (Table.written c rowsOf (calls.map .whole)) := by
  have whole : Table.written c rowsOf (calls.map .whole) =
      Table.written c (fun call => rowsOf (.whole call)) calls := by
    rw [Table.written, Table.written, List.flatMap_map]
  rw [whole]
  apply Table.sameRows_of_parts series Made.call
  · intro m mem
    have ofSeries := (delivered m.call.series).call_mem m (List.mem_filter.mpr ⟨mem, decide_eq_true rfl⟩)
    exact ⟨List.mem_of_mem_filter ofSeries, Log.subset_whole emits.initial m⟩
  · intro a ha b hb u hu v hv same
    exact apart a ha b hb (idOf u) (emits.named (.whole a) u hu)
      (emits.told u v same ▸ emits.named (.whole b) v hv)
  · intro s
    exact (Table.log band).write_of_delivered emits.initial (delivered s) (.empty key)

end Emits

/-! ### Subjects -/

/-- The call ingests something about the community. -/
def ofCommunity (communityId : Str) (m : Made IngestCall) : Bool :=
  m.call.series = .transactions communityId || m.call.series = .listings communityId

/-- The call ingests something about the city. -/
def ofCity (cityCode : Str) (m : Made IngestCall) : Bool := m.call.series = .observations cityCode

section Subject

variable {made : List (Made IngestCall)} {communityId : Str}

theorem mem_transaction_ofCommunity (apart : Apart (made.map Made.call)) {row : TransactionRow} :
    row ∈ (IngestCall.service.makeAll (made.filter (ofCommunity communityId)) .empty).propertyTransaction.rows ↔
      row ∈ (IngestCall.service.makeAll made .empty).propertyTransaction.rows ∧
        row.communityId = communityId := by
  rw [(holds_makeAll _).transactions, (holds_makeAll made).transactions,
    ← decide_eq_true_iff (p := _ = communityId)]
  refine Table.mem_written_filter (fun row => decide (row.communityId = communityId)) ?_ ?_
    (emits_transactions.apart apart fun s => s = .transactions communityId || s = .listings communityId)
  · exact fun old new _ => rfl
  · intro m _ u hu
    simp [series_of_transactionRows hu]

theorem mem_listing_ofCommunity (apart : Apart (made.map Made.call)) {row : ListingRow} :
    row ∈ (IngestCall.service.makeAll (made.filter (ofCommunity communityId)) .empty).listings.listing.rows ↔
      row ∈ (IngestCall.service.makeAll made .empty).listings.listing.rows ∧
        row.communityId = communityId := by
  rw [(holds_makeAll _).listings, (holds_makeAll made).listings, ← decide_eq_true_iff (p := _ = communityId)]
  refine Table.mem_written_filter (fun row => decide (row.communityId = communityId)) ?_ ?_
    (emits_listings.apart apart fun s => s = .transactions communityId || s = .listings communityId)
  · exact fun old new _ => rfl
  · intro m _ u hu
    simp [series_of_listingRows hu]

/-- Whoever writes a snapshot of a listing writes the listing. -/
theorem mem_listingSnapshot_ofCommunity (apart : Apart (made.map Made.call)) {l : ListingRow}
    (stored : l ∈ (IngestCall.service.makeAll made .empty).listings.listing.rows)
    (subject : l.communityId = communityId) {row : SnapshotRow} (same : l.listingId = row.listingId) :
    row ∈ (IngestCall.service.makeAll (made.filter (ofCommunity communityId))
        .empty).listings.listingSnapshot.rows ↔
      row ∈ (IngestCall.service.makeAll made .empty).listings.listingSnapshot.rows := by
  have own := (mem_listing_ofCommunity apart).mpr ⟨stored, subject⟩
  rw [(holds_makeAll _).listings] at own
  obtain ⟨a, ha, u, hu, written⟩ := Table.exists_emitted own
  obtain ⟨ha, selected⟩ := List.mem_filter.mp ha
  have only : ∀ m ∈ made, ∀ s ∈ snapshotRows m, s.key = row.key → ofCommunity communityId m = true := by
    intro m hm s hs atKey
    have ids : RowId.listing u.listingId = RowId.listing s.listingId := by
      rw [(Prod.mk.inj atKey).1, written, same]
    have series := emits_snapshots.series_eq apart hm ha hs (ids ▸ emits_listings.named a u hu)
    rw [ofCommunity, series]
    exact selected
  have found := Table.get?_written_filter (c := ListingRepository.snapshotOnConflict) only
  rw [(holds_makeAll _).snapshots, (holds_makeAll made).snapshots]
  constructor
  · intro mem
    exact Table.mem_of_get? (found.symm.trans (Table.get?_key mem))
  · intro mem
    exact Table.mem_of_get? (found.trans (Table.get?_key mem))

theorem mem_observation_ofCity (apart : Apart (made.map Made.call)) {cityCode : Str}
    {row : MarketObservationRow} :
    row ∈ (IngestCall.service.makeAll (made.filter (ofCity cityCode)) .empty).marketObservation.rows ↔
      row ∈ (IngestCall.service.makeAll made .empty).marketObservation.rows ∧ row.cityCode = cityCode := by
  rw [(holds_makeAll _).observations, (holds_makeAll made).observations, ← decide_eq_true_iff (p := _ = cityCode)]
  refine Table.mem_written_filter (fun row => decide (row.cityCode = cityCode)) ?_ ?_
    (emits_observations.apart apart fun s => s = .observations cityCode)
  · exact fun old new _ => rfl
  · intro m _ u hu
    simp [series_of_observationRows hu]

end Subject

/-- **Subjects apart.** Whatever has been made of the calls, what is read of a community or of a city is
what the calls about it leave by themselves. -/
theorem subjects_apart {made : List (Made IngestCall)} (apart : Apart (made.map Made.call)) :
    (∀ communityId, (IngestCall.service.makeAll made .empty).AgreeOn
      (IngestCall.service.makeAll (made.filter (ofCommunity communityId)) .empty) communityId) ∧
    ∀ query : MarketObservationQuery,
      MarketObservationQueryService.getMarketObservations
          (IngestCall.service.makeAll made .empty).marketObservation query =
        MarketObservationQueryService.getMarketObservations (IngestCall.service.makeAll
          (made.filter (ofCity query.cityCode)) .empty).marketObservation query := by
  constructor
  · intro communityId
    refine Database.agreeOn_of_same ?_ ⟨?_, ?_⟩ (holds_makeAll _).readable (holds_makeAll _).readable
    · intro row subject
      rw [mem_transaction_ofCommunity apart]
      exact (and_iff_left subject).symm
    · intro row subject
      rw [mem_listing_ofCommunity apart]
      exact (and_iff_left subject).symm
    · intro l stored subject row same
      exact (mem_listingSnapshot_ofCommunity apart stored subject same).symm
  · intro query
    apply MarketObservationQueryService.getMarketObservations_congr
    intro row city
    rw [mem_observation_ofCity apart]
    exact (and_iff_left city).symm

/-! ### Interleavings -/

/-- **Interleavings.** Once each series has been delivered, whichever way they are interleaved, no
query tells the store from the one that making every call once leaves. -/
theorem interleavings_indistinguishable {made : List (Made IngestCall)} {calls : List IngestCall}
    (apart : Apart calls)
    (delivered : ∀ s, Delivered (made.filter (·.call.series = s)) (calls.filter (·.series = s))) :
    (IngestCall.service.makeAll made .empty).Indistinguishable (IngestCall.afterAll calls) := by
  have all := holds_makeAll made
  have once : (IngestCall.afterAll calls).Holds (calls.map .whole) := by
    have made_ := holds_makeAll (calls.map .whole)
    rw [Service.makeAll, List.foldl_map] at made_
    exact made_
  have transactions := emits_transactions.sameRows
    (Table.band_of_overwrites TransactionRepository.onConflict_overwrites) apart delivered
  have listings := emits_listings.sameRows ListingRepository.onConflict_band apart delivered
  have snapshots := emits_snapshots.sameRows
    (Table.band_of_overwrites ListingRepository.snapshotOnConflict_overwrites) apart delivered
  have observations := emits_observations.sameRows
    (Table.band_of_overwrites MarketObservationRepository.onConflict_overwrites) apart delivered
  rw [← all.transactions, ← once.transactions] at transactions
  rw [← all.listings, ← once.listings] at listings
  rw [← all.snapshots, ← once.snapshots] at snapshots
  rw [← all.observations, ← once.observations] at observations
  refine ⟨?_, ?_, ?_⟩
  · intro communityId
    exact Database.agreeOn_of_same (fun row _ => transactions row)
      ⟨fun row _ => listings row, fun _ _ _ row _ => snapshots row⟩ all.readable once.readable
  · intro listingId
    apply congrArg fun rows => bindTexts [listingId] >>= fun _ => List.mapM SnapshotRow.toModel rows
    apply orderBy_congr (ListingRepository.nodup_snapshotAt _ _) (ListingRepository.nodup_snapshotAt _ _)
    intro row
    rw [List.mem_filter, List.mem_filter]
    exact and_congr_left fun _ => snapshots row
  · intro query
    exact MarketObservationQueryService.getMarketObservations_congr fun row _ => observations row

end

/-! ### Two communities and a city -/

section Samples

variable [Runtime]

/-- A deal of community B. -/
def soldInB : RawTransactionRecord :=
  ⟨sampleRecordFields (str "201") 12, by decide +kernel, by decide +kernel⟩

def dealCallB : TransactionIngestCall :=
  ⟨str "Fake", sampleTolerance, ⟨⟨communityB, none, none⟩, rfl⟩, .ok (FetchResult.fromParsed [soldInB])⟩

/-- Calls about community A, community B and their city. -/
def inTurn : List IngestCall := [.transactions dealCall, .transactions dealCallB, .observations indexCall]

/-- The call about A dies and is made later on, and the one about B is made twice. -/
def asMade : List (Made IngestCall) :=
  [.cut 1 (.transactions dealCall), .whole (.observations indexCall), .whole (.transactions dealCallB),
    .whole (.transactions dealCall), .whole (.transactions dealCallB)]

theorem delivered_asMade (s : Series) :
    Delivered (asMade.filter (·.call.series = s)) (inTurn.filter (·.series = s)) := by
  by_cases ofA : s = .transactions (str "cm-a")
  · subst ofA
    exact .call _ .none (.more .none (.stops [] _ [] 1))
  · by_cases ofB : s = .transactions (str "cm-b")
    · subst ofB
      exact .again [] [IngestCall.transactions dealCallB] (.call _ .none .none) .none
    · by_cases ofCity : s = .observations (str "310000")
      · subst ofCity
        exact .call _ .none .none
      · have a : IngestCall.series (.transactions dealCall) ≠ s := fun same => ofA same.symm
        have b : IngestCall.series (.transactions dealCallB) ≠ s := fun same => ofB same.symm
        have c : IngestCall.series (.observations indexCall) ≠ s := fun same => ofCity same.symm
        simp only [asMade, inTurn, List.filter_cons, Made.call_cut, Made.call_whole, a, b, c, decide_false,
          List.filter_nil, Bool.false_eq_true, if_false]
        exact .none

end Samples

theorem apart_inTurn : @IngestCall.Apart sampleRuntime (@inTurn sampleRuntime) := by
  unfold IngestCall.Apart
  decide +kernel

theorem apart_asMade : @IngestCall.Apart sampleRuntime ((@asMade sampleRuntime).map Made.call) := by
  unfold IngestCall.Apart
  decide +kernel

theorem interleavings_indistinguishable_as_made : let _ := sampleRuntime
    (IngestCall.service.makeAll asMade .empty).Indistinguishable (IngestCall.afterAll inTurn) := by
  intro _
  exact interleavings_indistinguishable apart_inTurn delivered_asMade

theorem subjects_apart_as_made : let _ := sampleRuntime
    (IngestCall.service.makeAll asMade .empty).AgreeOn
      (IngestCall.service.makeAll (asMade.filter (ofCommunity (str "cm-a"))) .empty)
      (str "cm-a") := by
  intro _
  exact (subjects_apart apart_asMade).1 (str "cm-a")

end CnPropertyAgent
