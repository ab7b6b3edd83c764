import CnPropertyAgent.Properties.StoredEvidence

/-!
The read paths over stored listings.

The listings of a community, the newest snapshot of each, the history of one listing and
the history of the community are four queries. On every store whose listings read back they
agree on which listings there are and on which snapshot is the newest of each, and so do the
metrics.
-/

namespace CnPropertyAgent

open Python Relational ListingMetrics

namespace ListingRepository

variable {tables : ListingTables} {communityId : Str} {listings : List (Listing Instant)}

/-- The histories of several listings, read one after another. -/
theorem histories_ok (readable : tables.Readable) (listings : List (Listing Instant)) :
    ∃ histories, listings.mapM (fun l => history tables l.listingId) = .ok histories ∧
      histories.flatten.map SnapshotRow.ofModel = listings.flatMap fun l =>
        orderBy SnapshotRow.snapshotAt
          (tables.listingSnapshot.rows.filter fun row => row.listingId = l.listingId) := by
  induction listings with
  | nil => exact ⟨[], rfl, rfl⟩
  | cons l listings ih =>
      obtain ⟨own, read, rows⟩ := history_ok readable.snapshot l.listingId_valid.1
      obtain ⟨histories, reads, later⟩ := ih
      refine ⟨own :: histories, mapM_cons_eq_ok.mpr ⟨own, histories, rfl, read, reads⟩, ?_⟩
      rw [List.flatten_cons, List.map_append, rows, later, List.flatMap_cons]

/-- **The history of a community** is the histories of its listings, one after another. -/
theorem historyForCommunity_eq_flatten (readable : tables.Readable)
    (listed : listForCommunity tables communityId = .ok listings) {snapshots : List (ListingSnapshot Instant)}
    (read : historyForCommunity tables communityId = .ok snapshots) :
    ∃ histories, (orderBy (·.listingId) listings).mapM (fun l => history tables l.listingId) =
      .ok histories ∧ snapshots = histories.flatten := by
  obtain ⟨histories, reads, rows⟩ := histories_ok readable (orderBy (·.listingId) listings)
  refine ⟨histories, reads, List.map_injective_iff.mpr SnapshotRow.ofModel_injective ?_⟩
  have stored := rows_of_historyForCommunity readable read
  have ids : ((orderBy (·.listingId) listings).map (·.listingId)).Pairwise (· < ·) := by
    rw [List.pairwise_map]
    exact pairwise_lt_orderBy (nodup_listForCommunity readable listed)
  have keys : ((snapshotsForCommunity tables communityId).map SnapshotRow.key).Nodup := by
    rw [snapshotsForCommunity_eq]
    exact tables.listingSnapshot.keys_nodup.sublist (List.filter_sublist.map _)
  have covers : ∀ row ∈ snapshotsForCommunity tables communityId,
      row.listingId ∈ (orderBy (·.listingId) listings).map (·.listingId) := by
    intro row mem
    obtain ⟨-, owner, hrow, same, subject⟩ := mem_snapshotsForCommunity.mp mem
    obtain ⟨l, rfl⟩ := readable.listing owner hrow
    have inListings := (mem_listForCommunity readable listed).mpr ⟨hrow, subject⟩
    exact List.mem_map.mpr ⟨l, mem_orderBy.mpr inListings, same⟩
  have groups : orderBy historyOrder (snapshotsForCommunity tables communityId) =
      ((orderBy (·.listingId) listings).map (·.listingId)).flatMap fun id =>
        orderBy SnapshotRow.snapshotAt
          ((snapshotsForCommunity tables communityId).filter (·.listingId = id)) :=
    orderBy_toLex keys ids covers
  rw [stored, rows, groups]
  rw [List.flatMap_map]
  apply List.flatMap_congr
  intro l mem
  obtain ⟨hrow, rfl⟩ := (mem_listForCommunity readable listed).mp (mem_orderBy.mp mem)
  exact congrArg _ (filter_snapshotsForCommunity hrow)

/-- The mapping of newest snapshots holds, for a listing of the community, the last of its
history. -/
theorem latestSnapshotsForCommunity_ok (readable : tables.Readable) {communityId : Str}
    (plain : communityId.Encodable) :
    ∃ latest, latestSnapshotsForCommunity tables communityId = .ok latest ∧
      ∀ l : Listing Instant, ListingRow.ofModel l ∈ tables.listing.rows → l.communityId = communityId →
        ∀ own, history tables l.listingId = .ok own →
          (Dict.ofItems latest).get? l.listingId = own.getLast? := by
  have encoded : EncodedBy SnapshotRow.ofModel (newest SnapshotRow.listingId SnapshotRow.snapshotAt
      (snapshotsForCommunity tables communityId)) :=
    readable.snapshot.of_subset fun row mem =>
      (mem_snapshotsForCommunity.mp (List.mem_of_mem_filter mem)).1
  obtain ⟨snapshots, read, rows⟩ := encoded.mapM_decode SnapshotRow.toModel_ofModel
  refine ⟨snapshots.map fun item => (item.listingId, item), ?_, ?_⟩
  · rw [latestSnapshotsForCommunity, bindTexts_ok (plainTexts_singleton.mpr plain), read]
    rfl
  rintro l hrow rfl own history_l
  have ownRows := rows_of_history readable.snapshot history_l
  have inGroup : ((newest SnapshotRow.listingId SnapshotRow.snapshotAt
      (snapshotsForCommunity tables l.communityId)).filter (·.listingId = l.listingId)).getLast? =
      (orderBy SnapshotRow.snapshotAt (tables.listingSnapshot.rows.filter fun row =>
        row.listingId = l.listingId)).getLast? := by
    have same := filter_snapshotsForCommunity hrow
    have nodup := nodup_snapshotAt tables l.listingId
    rw [← same] at nodup
    rw [filter_newest nodup, same]
    cases (orderBy SnapshotRow.snapshotAt _).getLast? <;> rfl
  have value : (snapshots.filter (·.listingId = l.listingId)).getLast?.map SnapshotRow.ofModel =
      own.getLast?.map SnapshotRow.ofModel :=
    calc (snapshots.filter (·.listingId = l.listingId)).getLast?.map SnapshotRow.ofModel
        = ((snapshots.map SnapshotRow.ofModel).filter (·.listingId = l.listingId)).getLast? := by
          rw [List.filter_map, List.getLast?_map]
          rfl
      _ = (own.map SnapshotRow.ofModel).getLast? := by rw [rows, ownRows, inGroup]
      _ = own.getLast?.map SnapshotRow.ofModel := List.getLast?_map
  apply Option.map_injective SnapshotRow.ofModel_injective
  rw [Dict.get?_ofItems, List.filter_map, List.getLast?_map, Option.map_map, Option.map_map]
  exact value

/-- **The current listings** are the listings of the community, each with the last of its
history. -/
theorem getCurrentListings_ok (readable : tables.Readable)
    (listed : listForCommunity tables communityId = .ok listings) :
    ∃ current, ListingQueryService.getCurrentListings tables communityId = .ok current ∧
      current.map (·.listing) = listings ∧
      ∀ c ∈ current, ∃ own, history tables c.listing.listingId = .ok own ∧
        c.latestSnapshot = own.getLast? := by
  obtain ⟨latest, read, newest⟩ := latestSnapshotsForCommunity_ok readable (plain_of_listForCommunity listed)
  have found : ∀ l ∈ listings, ∃ own, history tables l.listingId = .ok own ∧
      (Dict.ofItems latest).get? l.listingId = own.getLast? := by
    intro l mem
    obtain ⟨stored, subject⟩ := (mem_listForCommunity readable listed).mp mem
    obtain ⟨own, history_l, -⟩ := history_ok readable.snapshot l.listingId_valid.1
    exact ⟨own, history_l, newest l stored subject own history_l⟩
  have built : ∀ l ∈ listings, ∃ c,
      CurrentListing.validate l ((Dict.ofItems latest).get? l.listingId) = .ok c := by
    intro l mem
    obtain ⟨own, history_l, last⟩ := found l mem
    rw [last]
    refine ⟨_, dif_pos ?_⟩
    intro s hs
    exact ((mem_history readable.snapshot history_l).mp (List.mem_of_getLast? hs)).2
  obtain ⟨current, pairs⟩ := mapM_total _ listings built
  refine ⟨current, ?_, ?_, ?_⟩
  · simp only [ListingQueryService.getCurrentListings, read, listed, bind, Except.bind]
    exact pairs
  · rw [map_of_mapM (k := id) pairs fun l _ c validated => (CurrentListing.eq_of_validate validated).1,
      List.map_id]
  · intro c mem
    obtain ⟨l, hl, validated⟩ := (mem_of_mapM pairs).mp mem
    obtain ⟨rfl, snapshot⟩ := CurrentListing.eq_of_validate validated
    obtain ⟨own, history_l, last⟩ := found _ hl
    exact ⟨own, history_l, snapshot.trans last⟩

end ListingRepository

/-! ### The metrics -/

/-- The newest snapshots of the current listings are the latest ones of the history. -/
theorem mem_latestSnapshots {tables : ListingTables} (readable : tables.Readable) {communityId : Str}
    {listings : List (Listing Instant)} {snapshots : List (ListingSnapshot Instant)} {current : List CurrentListing}
    (listed : ListingRepository.listForCommunity tables communityId = .ok listings)
    (read : ListingRepository.historyForCommunity tables communityId = .ok snapshots)
    (paired : current.map (·.listing) = listings)
    (latest : ∀ c ∈ current, ∃ own, ListingRepository.history tables c.listing.listingId = .ok own ∧
      c.latestSnapshot = own.getLast?) {s : ListingSnapshot Instant} :
    s ∈ current.filterMap (·.latestSnapshot) ↔ IsLatest snapshots s := by
  have inHistory : ∀ c ∈ current, ∀ own,
      ListingRepository.history tables c.listing.listingId = .ok own →
        ∀ s, s ∈ own ↔ s ∈ snapshots ∧ s.listingId = c.listing.listingId := by
    intro c mem own history_c s
    have listing : c.listing ∈ listings := paired ▸ List.mem_map_of_mem mem
    obtain ⟨stored, subject⟩ := (ListingRepository.mem_listForCommunity readable listed).mp listing
    rw [ListingRepository.mem_history readable.snapshot history_c,
      ListingRepository.mem_historyForCommunity readable read]
    constructor
    · rintro ⟨row, same⟩
      exact ⟨⟨row, _, stored, same.symm, subject⟩, same⟩
    · rintro ⟨⟨row, -⟩, same⟩
      exact ⟨row, same⟩
  rw [List.mem_filterMap]
  constructor
  · rintro ⟨c, mem, last⟩
    obtain ⟨own, history_c, newest⟩ := latest c mem
    obtain ⟨inOwn, greatest⟩ := (getLast?_eq_some_iff_of_pairwise
      (ListingRepository.pairwise_history readable.snapshot history_c)).mp (newest ▸ last)
    obtain ⟨inSnapshots, same⟩ := (inHistory c mem own history_c s).mp inOwn
    refine ⟨inSnapshots, ?_⟩
    intro other hother id
    exact greatest other ((inHistory c mem own history_c other).mpr ⟨hother, id.trans same⟩)
  · rintro ⟨inSnapshots, greatest⟩
    obtain ⟨-, row, stored, same, subject⟩ :=
      (ListingRepository.mem_historyForCommunity readable read).mp inSnapshots
    obtain ⟨l, rfl⟩ := readable.listing row stored
    have listing := (ListingRepository.mem_listForCommunity readable listed).mpr ⟨stored, subject⟩
    rw [← paired] at listing
    obtain ⟨c, mem, rfl⟩ := List.mem_map.mp listing
    obtain ⟨own, history_c, newest⟩ := latest c mem
    refine ⟨c, mem, newest.trans ((getLast?_eq_some_iff_of_pairwise
      (ListingRepository.pairwise_history readable.snapshot history_c)).mpr ⟨?_, ?_⟩)⟩
    · exact (inHistory c mem own history_c s).mpr ⟨inSnapshots, same.symm⟩
    · intro other hother
      obtain ⟨hother, id⟩ := (inHistory c mem own history_c other).mp hother
      exact greatest other hother (id.trans same)

/-- The newest snapshots are of some of the current listings, in their order. -/
theorem sublist_latestIds (current : List CurrentListing) :
    ((current.filterMap (·.latestSnapshot)).map (·.listingId)).Sublist
      (current.map (·.listing.listingId)) := by
  induction current with
  | nil => exact List.Sublist.refl _
  | cons c current ih =>
      cases newest : c.latestSnapshot with
      | none =>
          rw [List.filterMap_cons_none newest]
          exact ih.cons _
      | some s =>
          rw [List.filterMap_cons_some newest, List.map_cons, List.map_cons, c.identity s newest]
          exact ih.cons_cons _

section

variable [Runtime] {tables : ListingTables} {communityId : Str} {listings : List (Listing Instant)}
  {snapshots : List (ListingSnapshot Instant)} {current : List CurrentListing}

/-- The metrics describe the inventory that the current listings show. -/
theorem describes_current (readable : tables.Readable)
    (listed : ListingRepository.listForCommunity tables communityId = .ok listings)
    (read : ListingRepository.historyForCommunity tables communityId = .ok snapshots)
    (paired : current.map (·.listing) = listings)
    (latest : ∀ c ∈ current, ∃ own, ListingRepository.history tables c.listing.listingId = .ok own ∧
      c.latestSnapshot = own.getLast?) {minimum : Int} {metrics : CommunityListingMetrics Instant}
    (computed : computeCommunityListingMetrics listings snapshots communityId minimum = .ok metrics) :
    Describes metrics minimum (current.filterMap (·.latestSnapshot)) := by
  obtain ⟨enough, notBlank⟩ := arguments_of_compute computed
  obtain ⟨identities, histories, -, grouped, summarized⟩ :=
    compute_of_accepted (accepted_of_readable readable notBlank listed read) enough
  obtain ⟨ends, found, once, member⟩ := grouped.exists_latest
  apply (describes_of_summarize (summarized ▸ computed) found).congr
  have ids : ((current.filterMap (·.latestSnapshot)).map (·.listingId)).Nodup := by
    have distinct := ListingRepository.nodup_listForCommunity readable listed
    rw [← paired, List.map_map] at distinct
    exact distinct.sublist (sublist_latestIds current)
  apply (List.perm_ext_iff_of_nodup once.of_map ids.of_map).mpr
  intro s
  rw [member, mem_latestSnapshots readable listed read paired latest]

end

/-! ### The read paths together -/

open ListingQueryService

/-- What the four reads of a community say about one another. -/
structure ReadsAgree [Runtime] (tables : ListingTables) (communityId : Str) (listings : List (Listing Instant))
    (snapshots : List (ListingSnapshot Instant)) (current : List CurrentListing) : Prop where
  /-- The listings are those stored under the community, each once. -/
  stored : ∀ row, (row ∈ tables.listing.rows ∧ row.communityId = communityId) ↔
    ∃ l ∈ listings, ListingRow.ofModel l = row
  once : (listings.map (·.listingId)).Nodup
  /-- The history is that of the listings, one after another in the order of their ids. -/
  concatenated : ∃ histories, (orderBy (·.listingId) listings).mapM
    (fun l => getListingHistory tables l.listingId) = .ok histories ∧ snapshots = histories.flatten
  /-- The current listings are the listings, each with the last snapshot of its history. -/
  paired : current.map (·.listing) = listings
  latest : ∀ c ∈ current, ∃ own, getListingHistory tables c.listing.listingId = .ok own ∧
    c.latestSnapshot = own.getLast?
  /-- The metrics are computed for every id that is not blank, and from the latest snapshots. -/
  computed : communityId.Encodable → communityId.strip ≠ [] → ∀ minimum, 1 ≤ minimum →
    ∃ metrics, computeCommunityListingMetrics listings snapshots communityId minimum = .ok metrics
  described : ∀ minimum metrics,
    computeCommunityListingMetrics listings snapshots communityId minimum = .ok metrics →
      Describes metrics minimum (current.filterMap (·.latestSnapshot))

theorem ListingRepository.exists_readsAgree [Runtime] {tables : ListingTables} (readable : tables.Readable)
    {communityId : Str} (plain : communityId.Encodable) :
    ∃ listings snapshots current, getListings tables communityId = .ok listings ∧
      getCommunityListingHistory tables communityId = .ok snapshots ∧
      getCurrentListings tables communityId = .ok current ∧
      ReadsAgree tables communityId listings snapshots current := by
  obtain ⟨listings, listed, rows⟩ := ListingRepository.listForCommunity_ok readable plain
  obtain ⟨snapshots, read, -⟩ := ListingRepository.historyForCommunity_ok readable plain
  obtain ⟨current, shown, paired, latest⟩ := ListingRepository.getCurrentListings_ok readable listed
  refine ⟨listings, snapshots, current, listed, read, shown, ?_, ?_, ?_, paired, latest, ?_, ?_⟩
  · intro row
    constructor
    · rintro ⟨mem, subject⟩
      obtain ⟨l, rfl⟩ := readable.listing row mem
      exact ⟨l, (ListingRepository.mem_listForCommunity readable listed).mpr ⟨mem, subject⟩, rfl⟩
    · rintro ⟨l, mem, rfl⟩
      exact (ListingRepository.mem_listForCommunity readable listed).mp mem
  · exact ListingRepository.nodup_listForCommunity readable listed
  · exact ListingRepository.historyForCommunity_eq_flatten readable listed read
  · intro text notBlank minimum enough
    obtain ⟨listings', snapshots', metrics, listed', read', computed, -⟩ :=
      listingMetrics_ok readable text notBlank enough
    cases listed.symm.trans listed'
    cases read.symm.trans read'
    exact ⟨metrics, computed⟩
  · intro minimum metrics computed
    exact describes_current readable listed read paired latest computed

/-- A community id that cannot be bound is refused by every read. -/
theorem getCurrentListings_refused {tables : ListingTables} {communityId : Str}
    (surrogate : ¬ communityId.Encodable) : getCurrentListings tables communityId = .error .invalidInput := by
  rw [getCurrentListings, ListingRepository.latestSnapshotsForCommunity,
    bindTexts_refused (mt plainTexts_singleton.mp surrogate)]
  rfl

/-- What is stored of a listing seen first after it was seen last is not listed. -/
theorem backward_range_is_unread :
    ¬ ∀ (statements : List Statement) (communityId : Str), communityId.Encodable →
      ∃ listings, getListings (statements.foldl (fun db s => s.apply db) Database.empty).listings communityId =
        .ok listings := by
  intro lists
  obtain ⟨listings, listed⟩ := lists [.upsertListing seenBackwards] (str "cm-a") (encodable_str _)
  have returned := congrArg Except.isOk listed
  change _ = true at returned
  exact absurd returned (by decide +kernel)

/-- **The reads agree.** After any sequence of repository calls whose listings are seen first no
later than last by their instants, the four reads of a community return, and agree; an id that
cannot be bound is refused by all of them. -/
theorem listing_reads_agree [Runtime] (statements : List Statement) (ordered : ∀ s ∈ statements, s.Ordered)
    (communityId : Str) :
    let tables := (statements.foldl (fun db s => s.apply db) Database.empty).listings
    (communityId.Encodable → ∃ listings snapshots current, getListings tables communityId = .ok listings ∧
      getCommunityListingHistory tables communityId = .ok snapshots ∧
      getCurrentListings tables communityId = .ok current ∧
      ReadsAgree tables communityId listings snapshots current) ∧
    (¬ communityId.Encodable → getListings tables communityId = .error .invalidInput ∧
      getCommunityListingHistory tables communityId = .error .invalidInput ∧
      getCurrentListings tables communityId = .error .invalidInput) := by
  intro tables
  have readable : tables.Readable :=
    (Database.wellFormed_run ordered Database.wellFormed_empty).listings
  refine ⟨fun plain => ?_, fun surrogate => ?_⟩
  · exact ListingRepository.exists_readsAgree readable plain
  · have refused := bindTexts_refused (mt plainTexts_singleton.mp surrogate)
    refine ⟨?_, ?_, getCurrentListings_refused surrogate⟩
    · rw [getListings, ListingRepository.listForCommunity, refused]
      rfl
    · rw [getCommunityListingHistory, ListingRepository.historyForCommunity, refused]
      rfl

/-- A snapshot appended before its listing. -/
theorem listing_reads_agree_of_orphan : let _ := sampleRuntime
    let tables := ([Statement.appendSnapshot seenSold.snapshot, .upsertListing seenActive.listing].foldl
      (fun db s => s.apply db) Database.empty).listings
    ∃ listings snapshots current, getListings tables (str "cm-a") = .ok listings ∧
      getCommunityListingHistory tables (str "cm-a") = .ok snapshots ∧
      getCurrentListings tables (str "cm-a") = .ok current ∧
      ReadsAgree tables (str "cm-a") listings snapshots current := by
  intro _
  exact (listing_reads_agree [.appendSnapshot seenSold.snapshot, .upsertListing seenActive.listing]
    (by decide +kernel) (str "cm-a")).1 (encodable_str _)

end CnPropertyAgent
