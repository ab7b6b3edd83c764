import CnPropertyAgent.Analytics.MetricInstants
import CnPropertyAgent.Properties.AskingPriceHistory
import CnPropertyAgent.Services.CommunityEvidence
import CnPropertyAgent.Utils

/-!
The market evidence of a community, read from storage.

What the repositories can write of listings that are first seen no later than last,
as instants, never trips a guard of the analytics: the join hands over no snapshot of an
unknown listing, and the keys no repeated listing and no two snapshots of one instant. A
clock that is turned back can put the two ends the other way round, and then the row does
not read back. What runs of ingestion write yields the metrics of the observations they
delivered, where those compare as their instants do.
-/

namespace CnPropertyAgent

open Python Relational ListingMetrics

section

variable {db : Database} {communityId : Str}

/-- What the two listing queries return is evidence the metrics accept. -/
theorem accepted_of_readable {tables : ListingTables} (readable : tables.Readable)
    (notBlank : communityId.strip ≠ []) {listings : List (Listing Instant)}
    {history : List (ListingSnapshot Instant)}
    (listed : ListingRepository.listForCommunity tables communityId = .ok listings)
    (read : ListingRepository.historyForCommunity tables communityId = .ok history) :
    Accepted communityId listings history := by
  have members : ∀ l, l ∈ listings ↔ ListingRow.ofModel l ∈ tables.listing.rows ∧
      l.communityId = communityId := by
    intro l
    exact ListingRepository.mem_listForCommunity readable listed
  have stored : ∀ s, s ∈ history ↔ SnapshotRow.ofModel s ∈ tables.listingSnapshot.rows ∧
      ∃ l ∈ tables.listing.rows, l.listingId = s.listingId ∧ l.communityId = communityId := by
    intro s
    exact ListingRepository.mem_historyForCommunity readable read
  refine ⟨notBlank, ?_, ?_, ?_, ?_⟩
  · intro l mem
    exact ((members l).mp mem).2
  · exact ListingRepository.nodup_listForCommunity readable listed
  · intro s mem
    obtain ⟨-, row, hrow, id, subject⟩ := (stored s).mp mem
    obtain ⟨l, rfl⟩ := readable.listing row hrow
    exact List.mem_map.mpr ⟨l, (members l).mpr ⟨hrow, subject⟩, id⟩
  · intro a ha b hb same
    have rows := List.inj_on_of_nodup_map tables.listingSnapshot.keys_nodup ((stored a).mp ha).1
      ((stored b).mp hb).1 same
    exact SnapshotRow.ofModel_injective rows

/-- The transactions of a community of a well-formed store have metrics. -/
theorem transactionMetrics_ok [Runtime] (wf : db.WellFormed) (text : communityId.Encodable)
    (notBlank : communityId.strip ≠ []) :
    ∃ transactions metrics,
      TransactionRepository.listForCommunity db.propertyTransaction communityId none none =
        .ok transactions ∧
      TransactionMetrics.computeCommunityTransactionMetrics transactions communityId
        minimumSampleCount = .ok metrics ∧ metrics.communityId = communityId := by
  obtain ⟨transactions, read, -⟩ :=
    TransactionRepository.listForCommunity_ok wf.transactions text
  have stored : ∀ item ∈ transactions, TransactionRow.ofModel item ∈ db.propertyTransaction.rows ∧
      item.communityId = communityId := by
    intro item mem
    exact (TransactionRepository.mem_listForCommunity wf.transactions read).mp mem
  have days : ∀ item ∈ transactions, ∀ n ∈ item.daysOnMarket, ∃ x, Double.ofInt n = .ok x := by
    intro item mem n hn
    have fits := TransactionRow.fits_ofModel_iff.mp (wf.integers _ (stored item mem).1) n hn
    unfold FitsInteger at fits
    exact ⟨_, Double.ofInt_ok (by omega)⟩
  obtain ⟨metrics, computed, subject⟩ := TransactionMetrics.compute_ok text notBlank
    one_le_minimumSampleCount (fun item mem => (stored item mem).2) days
  exact ⟨transactions, metrics, read, computed, subject⟩

/-- So have its listings, with the ids and the snapshots that the queries return. -/
theorem listingMetrics_ok [Runtime] {tables : ListingTables} (readable : tables.Readable)
    (text : communityId.Encodable) (notBlank : communityId.strip ≠ []) {minimum : Int}
    (enough : 1 ≤ minimum) :
    ∃ listings history metrics,
      ListingRepository.listForCommunity tables communityId = .ok listings ∧
      ListingRepository.historyForCommunity tables communityId = .ok history ∧
      computeCommunityListingMetrics listings history communityId minimum = .ok metrics ∧
      metrics.communityId = communityId ∧
      metrics.listingIds = orderBy id (listings.map (·.listingId)) ∧
      metrics.snapshotCount = history.length := by
  have nonempty : communityId ≠ [] := by
    rintro rfl
    exact notBlank rfl
  obtain ⟨listings, listed, -⟩ := ListingRepository.listForCommunity_ok readable text
  obtain ⟨history, read, -⟩ := ListingRepository.historyForCommunity_ok readable text
  have accepted := accepted_of_readable readable notBlank listed read
  obtain ⟨identities, histories, keys, grouped, computed⟩ :=
    compute_of_accepted accepted enough
  obtain ⟨metrics, summarized, subject, ids, count⟩ := summarize_ok ⟨text, nonempty⟩ enough grouped
    fun s mem => (keys _).mpr (accepted.known s mem)
  refine ⟨listings, history, metrics, listed, read, computed.trans summarized, subject, ?_, ?_⟩
  · rw [ids]
    exact orderBy_congr (by simpa using identities.keys_nodup) (by simpa using accepted.distinct) keys
  · rw [count, grouped.snapshotCount (ListingRepository.nodup_historyForCommunity readable read)]

/-- Evidence exists for every community of a well-formed store, and its listing
half is the metrics of what the two listing queries return. -/
theorem getMarketEvidence_ok [Runtime] (wf : db.WellFormed) (text : communityId.Encodable)
    (notBlank : communityId.strip ≠ []) :
    ∃ listings history evidence,
      ListingRepository.listForCommunity db.listings communityId = .ok listings ∧
      ListingRepository.historyForCommunity db.listings communityId = .ok history ∧
      CommunityEvidenceService.getMarketEvidence db communityId = .ok evidence ∧
      computeCommunityListingMetrics listings history communityId minimumSampleCount =
        .ok evidence.listingMetrics ∧
      evidence.listingMetrics.listingIds = orderBy id (listings.map (·.listingId)) ∧
      evidence.listingMetrics.snapshotCount = history.length := by
  have nonempty : communityId ≠ [] := by
    rintro rfl
    exact notBlank rfl
  obtain ⟨transactions, tm, hread, htm, subject⟩ := transactionMetrics_ok wf text notBlank
  obtain ⟨listings, history, lm, hlistings, hhistory, hlm, lsubject, ids, count⟩ :=
    listingMetrics_ok wf.listings text notBlank one_le_minimumSampleCount
  have query : TransactionQueryFields.errors ⟨communityId, none, none⟩ = [] := by
    simp [TransactionQueryFields.errors, checkNotBlank, windowErrors, text, nonempty, notBlank]
  have valid : CommunityMarketEvidenceFields.errors ⟨communityId, tm, lm⟩ = [] := by
    simp [CommunityMarketEvidenceFields.errors, subject, lsubject, text, nonempty]
  refine ⟨listings, history, ⟨_, valid⟩, hlistings, hhistory, ?_, hlm, ids, count⟩
  simp only [CommunityEvidenceService.getMarketEvidence, TransactionQueryFields.validate,
    dif_pos query, TransactionQueryService.getTransactionMetrics,
    TransactionQueryService.getTransactions, ListingQueryService.getListings,
    ListingQueryService.getCommunityListingHistory, hread, htm, hlistings, hhistory, hlm, bind,
    Except.bind]
  exact dif_pos valid

/-! ### Stores that repository calls lead to -/

/-- A listing seen first after it was seen last, by its instants, is stored and not read back. -/
theorem backward_range_is_stored :
    let _ := sampleRuntime
    ¬ ∀ (statements : List Statement) (communityId : Str), communityId.strip ≠ [] →
      ∃ evidence, CommunityEvidenceService.getMarketEvidence
        (statements.foldl (fun db s => s.apply db) Database.empty) communityId = .ok evidence := by
  intro _ answers
  obtain ⟨evidence, ok⟩ := answers [.upsertListing seenBackwards] (str "cm-a") (by decide)
  have answered := congrArg Except.isOk ok
  change _ = true at answered
  exact absurd answered (by decide +kernel)

/-- **The guards are out of reach.** After any sequence of repository calls, in any
order, whose listings are seen first no later than last by their instants, every listing
row reads back as a listing, and the evidence of every community id, which is plain text,
exists; it covers the listings whose current row has that community and every snapshot
stored for them. -/
theorem getMarketEvidence_after_calls [Runtime] (statements : List Statement)
    (ordered : ∀ s ∈ statements, s.Ordered) {communityId : Str}
    (text : communityId.Encodable) (notBlank : communityId.strip ≠ []) :
    let db := statements.foldl (fun db s => s.apply db) Database.empty
    (∀ row ∈ db.listings.listing.rows, ∃ l, row.toModel = .ok l ∧ ListingRow.ofModel l = row ∧
      l.firstSeenAt ≤ l.lastSeenAt) ∧
    ∃ evidence, CommunityEvidenceService.getMarketEvidence db communityId = .ok evidence ∧
      evidence.listingMetrics.listingIds.Nodup ∧
      (∀ id, id ∈ evidence.listingMetrics.listingIds ↔
        ∃ row ∈ db.listings.listing.rows, row.listingId = id ∧ row.communityId = communityId) ∧
      evidence.listingMetrics.snapshotCount =
        (db.listings.listingSnapshot.rows.filter fun s => ∃ row ∈ db.listings.listing.rows,
          row.listingId = s.listingId ∧ row.communityId = communityId).length := by
  intro db
  have wf : db.WellFormed := Database.wellFormed_run ordered Database.wellFormed_empty
  constructor
  · intro row mem
    obtain ⟨l, rfl⟩ := wf.listings.listing row mem
    exact ⟨l, ListingRow.toModel_ofModel l, rfl, l.ordered⟩
  obtain ⟨listings, history, evidence, listed, read, ok, -, ids, count⟩ :=
    getMarketEvidence_ok wf text notBlank
  refine ⟨evidence, ok, ?_, ?_, ?_⟩
  · rw [ids, (perm_orderBy _ _).nodup_iff]
    exact ListingRepository.nodup_listForCommunity wf.listings listed
  · intro id
    rw [ids, mem_orderBy, List.mem_map]
    constructor
    · rintro ⟨l, mem, rfl⟩
      obtain ⟨stored, subject⟩ := (ListingRepository.mem_listForCommunity wf.listings listed).mp mem
      exact ⟨_, stored, rfl, subject⟩
    · rintro ⟨row, stored, rfl, subject⟩
      obtain ⟨l, rfl⟩ := wf.listings.listing row stored
      exact ⟨l, (ListingRepository.mem_listForCommunity wf.listings listed).mpr ⟨stored, subject⟩,
        rfl⟩
  · rw [count, ListingRepository.length_historyForCommunity wf.listings read]

/-- A snapshot appended before its listing, and a listing that moves to another community. -/
theorem getMarketEvidence_after_calls_moved :
    let _ := sampleRuntime
    ∃ evidence, CommunityEvidenceService.getMarketEvidence
        ([Statement.appendSnapshot seenSold.snapshot, .upsertListing seenActive.listing,
          .upsertListing claimedByB.listing].foldl (fun db s => s.apply db) Database.empty)
        (str "cm-b") = .ok evidence ∧
      str "lst-1" ∈ evidence.listingMetrics.listingIds := by
  let _ := sampleRuntime
  obtain ⟨-, evidence, ok, -, ids, -⟩ := getMarketEvidence_after_calls
    [Statement.appendSnapshot seenSold.snapshot, .upsertListing seenActive.listing,
      .upsertListing claimedByB.listing] (by decide +kernel) (show (str "cm-b").Encodable by decide) (by decide)
  exact ⟨evidence, ok, (ids _).mpr (by decide +kernel)⟩

/-! ### Runs of ingestion -/

section

open ListingIngestionService

/-- The observations delivered for a community. -/
def deliveredFor (calls : List ListingIngestCall) (communityId : Str) : List ListingObservation :=
  delivered (calls.filter fun call => call.community.communityId = communityId)

variable {calls : List ListingIngestCall} {tables : ListingTables} {communityId : Str}

theorem mem_deliveredFor (run : SuccessfulRun calls tables) {o : ListingObservation} :
    o ∈ deliveredFor calls communityId ↔
      o ∈ delivered calls ∧ o.listing.communityId = communityId := by
  simp only [deliveredFor, delivered, List.mem_flatMap, List.mem_filter, decide_eq_true_eq]
  constructor
  · rintro ⟨call, ⟨made, subject⟩, mem⟩
    exact ⟨⟨call, made, mem⟩, (run.own_community call made o mem).trans subject⟩
  · rintro ⟨⟨call, made, mem⟩, subject⟩
    exact ⟨call, ⟨made, (run.own_community call made o mem).symm.trans subject⟩, mem⟩

/-- No listing id was delivered for two communities. -/
def DisjointListings (calls : List ListingIngestCall) : Prop :=
  ∀ c c', c ≠ c' → ∀ o ∈ deliveredFor calls c, ∀ o' ∈ deliveredFor calls c',
    o.listing.listingId ≠ o'.listing.listingId

/-- Where the ids are disjoint, an id tells the community. -/
theorem communityId_eq_of_disjoint (run : SuccessfulRun calls tables) (disjoint : DisjointListings calls)
    {o o' : ListingObservation} (mem : o ∈ delivered calls) (mem' : o' ∈ delivered calls)
    (same : o.listing.listingId = o'.listing.listingId) :
    o.listing.communityId = o'.listing.communityId := by
  by_contra differ
  exact disjoint _ _ differ o ((mem_deliveredFor run).mpr ⟨mem, rfl⟩) o'
    ((mem_deliveredFor run).mpr ⟨mem', rfl⟩) same

theorem disjointListings_of_one (run : SuccessfulRun calls tables)
    (one : ∀ o ∈ delivered calls, o.listing.communityId = communityId) : DisjointListings calls := by
  intro c c' differ o ho o' ho'
  obtain ⟨mem, of⟩ := (mem_deliveredFor run).mp ho
  obtain ⟨mem', of'⟩ := (mem_deliveredFor run).mp ho'
  exact absurd (of.symm.trans ((one o mem).trans ((one o' mem').symm.trans of'))) differ

/-- The listings stored under a community are the ones delivered for it. -/
theorem exists_listing_iff (run : SuccessfulRun calls tables) (disjoint : DisjointListings calls)
    {listingId : Str} :
    (∃ row ∈ tables.listing.rows, row.listingId = listingId ∧ row.communityId = communityId) ↔
      ∃ o ∈ deliveredFor calls communityId, o.listing.listingId = listingId := by
  have column := run.map_get?_listing (f := ListingRow.communityId) (fun _ _ => rfl) listingId
  constructor
  · rintro ⟨row, stored, rfl, subject⟩
    rw [Table.get?_key stored, Option.map_some] at column
    obtain ⟨last, found, community⟩ := Option.map_eq_some_iff.mp column.symm
    obtain ⟨mem, id⟩ := mem_of_lastOf found
    exact ⟨last, (mem_deliveredFor run).mpr ⟨mem, community.trans subject⟩, id⟩
  · rintro ⟨o, mem, rfl⟩
    obtain ⟨mem, subject⟩ := (mem_deliveredFor run).mp mem
    obtain ⟨last, found⟩ := exists_lastOf mem
    obtain ⟨lastMem, id⟩ := mem_of_lastOf found
    rw [found, Option.map_some] at column
    obtain ⟨row, stored, community⟩ := Option.map_eq_some_iff.mp column
    obtain ⟨rowMem, key⟩ := Table.get?_eq_some_iff.mp stored
    exact ⟨row, rowMem, key, community.trans
      ((communityId_eq_of_disjoint run disjoint lastMem mem id).trans subject)⟩

/-- Where no two observations of one instant disagree, every delivered snapshot is stored. -/
theorem mem_listingSnapshot_iff (run : SuccessfulRun calls tables)
    (agreeing : Agreeing ((delivered calls).map (·.snapshot.stored))) {s : ListingSnapshot Instant} :
    SnapshotRow.ofModel s ∈ tables.listingSnapshot.rows ↔ s ∈ (delivered calls).map (·.snapshot.stored) := by
  rw [run.mem_listingSnapshot, Option.map_eq_some_iff, List.mem_map]
  constructor
  · rintro ⟨o, found, rfl⟩
    exact ⟨o, (List.mem_filter.mp (List.mem_of_getLast? found)).1, rfl⟩
  · rintro ⟨o, mem, rfl⟩
    have observed : o ∈ (delivered calls).filter fun other =>
        other.listing.listingId = o.snapshot.listingId ∧
          other.snapshot.snapshotAt.instant = o.snapshot.snapshotAt.instant :=
      List.mem_filter.mpr ⟨mem, by simp [o.identity]⟩
    have found := List.getLast?_eq_some_getLast (List.ne_nil_of_mem observed)
    obtain ⟨lastMem, same⟩ := List.mem_filter.mp (List.mem_of_getLast? found)
    simp only [decide_eq_true_eq] at same
    refine ⟨_, found, agreeing _ (List.mem_map_of_mem lastMem) _ (List.mem_map_of_mem mem) ?_⟩
    exact Prod.ext ((ListingObservation.identity _).symm.trans same.1) same.2

/-- The listings read for a community are the ones delivered for it. -/
theorem mem_listed_iff (run : SuccessfulRun calls tables) (readable : tables.Readable)
    (disjoint : DisjointListings calls) {listings : List (Listing Instant)}
    (listed : ListingRepository.listForCommunity tables communityId = .ok listings) {listingId : Str} :
    listingId ∈ listings.map (·.listingId) ↔
      ∃ o ∈ deliveredFor calls communityId, o.listing.listingId = listingId := by
  rw [← exists_listing_iff run disjoint, List.mem_map]
  constructor
  · rintro ⟨l, mem, rfl⟩
    obtain ⟨row, subject⟩ := (ListingRepository.mem_listForCommunity readable listed).mp mem
    exact ⟨_, row, rfl, subject⟩
  · rintro ⟨row, mem, rfl, subject⟩
    obtain ⟨l, rfl⟩ := readable.listing row mem
    exact ⟨l, (ListingRepository.mem_listForCommunity readable listed).mpr ⟨mem, subject⟩, rfl⟩

/-- The history read for a community is the snapshots delivered for it. -/
theorem mem_history_iff (run : SuccessfulRun calls tables) (readable : tables.Readable)
    (disjoint : DisjointListings calls) (agreeing : Agreeing ((delivered calls).map (·.snapshot.stored)))
    {history : List (ListingSnapshot Instant)}
    (read : ListingRepository.historyForCommunity tables communityId = .ok history)
    {s : ListingSnapshot Instant} :
    s ∈ history ↔ ∃ o ∈ deliveredFor calls communityId, o.snapshot.stored = s := by
  rw [ListingRepository.mem_historyForCommunity readable read,
    mem_listingSnapshot_iff run agreeing, exists_listing_iff run disjoint, List.mem_map]
  constructor
  · rintro ⟨⟨o, mem, rfl⟩, o', mem', id⟩
    obtain ⟨mem', subject⟩ := (mem_deliveredFor run).mp mem'
    have community := communityId_eq_of_disjoint run disjoint mem mem' (o.identity.trans id.symm)
    exact ⟨o, (mem_deliveredFor run).mpr ⟨mem, community.trans subject⟩, rfl⟩
  · rintro ⟨o, mem, rfl⟩
    exact ⟨⟨o, ((mem_deliveredFor run).mp mem).1, rfl⟩, o, mem, o.identity⟩

/-- Each listing that was observed, once, and every snapshot. -/
structure EvidenceOf (observations : List ListingObservation) (listings : List Listing)
    (snapshots : List ListingSnapshot) : Prop where
  observed : ∀ l ∈ listings, ∃ o ∈ observations, o.listing = l
  once : (listings.map (·.listingId)).Nodup
  every : ∀ o ∈ observations, o.listing.listingId ∈ listings.map (·.listingId)
  snapshots : ∀ s, s ∈ snapshots ↔ ∃ o ∈ observations, o.snapshot = s

namespace EvidenceOf

variable {listings : List Listing} {snapshots : List ListingSnapshot}

theorem mem_iff {observations : List ListingObservation}
    (h : EvidenceOf observations listings snapshots) {listingId : Str} :
    listingId ∈ listings.map (·.listingId) ↔ ∃ o ∈ observations, o.listing.listingId = listingId := by
  constructor
  · intro mem
    obtain ⟨l, hl, rfl⟩ := List.mem_map.mp mem
    obtain ⟨o, ho, rfl⟩ := h.observed l hl
    exact ⟨o, ho, rfl⟩
  · rintro ⟨o, ho, rfl⟩
    exact h.every o ho

theorem mem_stored {observations : List ListingObservation} (h : EvidenceOf observations listings snapshots)
    {s : ListingSnapshot Instant} :
    s ∈ snapshots.map (·.stored) ↔ ∃ o ∈ observations, o.snapshot.stored = s := by
  rw [List.mem_map]
  constructor
  · rintro ⟨x, mem, rfl⟩
    obtain ⟨o, ho, rfl⟩ := (h.snapshots x).mp mem
    exact ⟨o, ho, rfl⟩
  · rintro ⟨o, ho, rfl⟩
    exact ⟨o.snapshot, (h.snapshots _).mpr ⟨o, ho, rfl⟩, rfl⟩

/-- What was delivered for a community is evidence the metrics accept. -/
theorem accepted (h : EvidenceOf (deliveredFor calls communityId) listings snapshots)
    (run : SuccessfulRun calls tables) (agreeing : Agreeing ((delivered calls).map (·.snapshot.stored)))
    (notBlank : communityId.strip ≠ []) : Accepted communityId listings (snapshots.map (·.stored)) := by
  refine ⟨notBlank, ?_, h.once, ?_, ?_⟩
  · intro l hl
    obtain ⟨o, ho, rfl⟩ := h.observed l hl
    exact ((mem_deliveredFor run).mp ho).2
  · intro s hs
    obtain ⟨o, ho, rfl⟩ := h.mem_stored.mp hs
    exact o.identity ▸ h.every o ho
  · intro a ha b hb same
    obtain ⟨o, ho, rfl⟩ := h.mem_stored.mp ha
    obtain ⟨o', ho', rfl⟩ := h.mem_stored.mp hb
    exact agreeing _ (List.mem_map_of_mem ((mem_deliveredFor run).mp ho).1) _
      (List.mem_map_of_mem ((mem_deliveredFor run).mp ho').1) same

end EvidenceOf

/-- One call with both observations of the repeated hour. -/
def callAcrossTheHour : ListingIngestCall :=
  ⟨str "Fake", communityA, FetchResult.fromParsed [seenHalfPast, seenHalfPastAgain]⟩

theorem mem_delivered_acrossTheHour {o : ListingObservation} :
    o ∈ delivered ([] ++ [callAcrossTheHour]) ↔ o = seenHalfPast ∨ o = seenHalfPastAgain := by
  simp [delivered, callAcrossTheHour, FetchResult.fromParsed]

theorem subject_acrossTheHour {o : ListingObservation} (mem : o ∈ delivered ([] ++ [callAcrossTheHour])) :
    o.listing.communityId = str "cm-a" := by
  rcases mem_delivered_acrossTheHour.mp mem with rfl | rfl <;> rfl

theorem agreeing_acrossTheHour :
    Agreeing ((delivered ([] ++ [callAcrossTheHour])).map (·.snapshot.stored)) := by
  intro a ha b hb key
  obtain ⟨o, ho, rfl⟩ := List.mem_map.mp ha
  obtain ⟨o', ho', rfl⟩ := List.mem_map.mp hb
  rcases mem_delivered_acrossTheHour.mp ho with rfl | rfl <;>
    rcases mem_delivered_acrossTheHour.mp ho' with rfl | rfl
  · rfl
  · exact absurd key (by decide +kernel)
  · exact absurd key (by decide +kernel)
  · rfl

theorem evidenceOf_acrossTheHour [Runtime] {tables : ListingTables}
    (run : SuccessfulRun ([] ++ [callAcrossTheHour]) tables) :
    EvidenceOf (deliveredFor ([] ++ [callAcrossTheHour]) (str "cm-a")) [seenHalfPast.listing]
      [seenHalfPast.snapshot, seenHalfPastAgain.snapshot] := by
  have own : ∀ o, o ∈ deliveredFor ([] ++ [callAcrossTheHour]) (str "cm-a") ↔
      o = seenHalfPast ∨ o = seenHalfPastAgain := by
    intro o
    rw [mem_deliveredFor run, ← mem_delivered_acrossTheHour]
    exact and_iff_left_of_imp subject_acrossTheHour
  refine ⟨?_, List.nodup_singleton _, ?_, ?_⟩
  · intro l hl
    exact ⟨seenHalfPast, (own _).mpr (Or.inl rfl), (List.mem_singleton.mp hl).symm⟩
  · intro o ho
    rcases (own o).mp ho with rfl | rfl <;> exact List.mem_singleton_self _
  · intro s
    simp only [own, exists_eq_or_imp, exists_eq_left, List.mem_cons, List.not_mem_nil, or_false]
    rw [eq_comm (a := s), eq_comm (a := s)]

/-- Two observations an hour apart that a clock shows at one reading are two rows, and one entry in
memory. -/
theorem repeated_reading_is_two_rows :
    let _ := sampleRuntime
    ¬ ∀ (calls : List ListingIngestCall) (tables : ListingTables) (communityId : Str) (listings : List Listing)
      (snapshots : List ListingSnapshot), SuccessfulRun calls tables → DisjointListings calls →
      Agreeing ((delivered calls).map (·.snapshot.stored)) → communityId.strip ≠ [] →
      EvidenceOf (deliveredFor calls communityId) listings snapshots →
      ∃ evidence metrics, CommunityEvidenceService.getMarketEvidence ⟨.empty _, tables, .empty _⟩ communityId =
          .ok evidence ∧
        computeCommunityListingMetrics listings snapshots communityId minimumSampleCount = .ok metrics ∧
        metrics.stored = evidence.listingMetrics := by
  intro _ agree
  have run := SuccessfulRun.empty.extend callAcrossTheHour (by decide +kernel)
  have disjoint := disjointListings_of_one run fun o => subject_acrossTheHour
  obtain ⟨evidence, metrics, ok, computed, same⟩ :=
    agree _ _ _ _ _ run disjoint agreeing_acrossTheHour (by decide) (evidenceOf_acrossTheHour run)
  have rows := congrArg (fun x => x.toOption.map (·.listingMetrics.snapshotCount)) ok
  have entries := congrArg (fun x => x.toOption.map (·.snapshotCount)) computed
  change _ = some evidence.listingMetrics.snapshotCount at rows
  change _ = some metrics.stored.snapshotCount at entries
  rw [← same, ← entries] at rows
  exact absurd rows (by decide +kernel)

/-- **Stored and in-memory evidence agree.** After a run whose communities share no
listing id, whose listings are seen first no later than last by their instants and whose
observations of one instant never disagree, the evidence read back is the metrics of what
was delivered: each listing once, in any of its deliveries and in any order, and all
snapshots, in any order and with any repeats, where these are compared by their instants. -/
theorem getMarketEvidence_eq_of_delivered [Runtime] (db : Database)
    (transactions : EncodedBy TransactionRow.ofModel db.propertyTransaction.rows)
    (integers : ∀ row ∈ db.propertyTransaction.rows, row.Fits)
    (run : SuccessfulRun calls db.listings) (ordered : ∀ o ∈ delivered calls, o.listing.Ordered)
    (disjoint : DisjointListings calls) (agreeing : Agreeing ((delivered calls).map (·.snapshot.stored)))
    (text : communityId.Encodable) (notBlank : communityId.strip ≠ [])
    {listings : List Listing} {snapshots : List ListingSnapshot}
    (evidenceOf : EvidenceOf (deliveredFor calls communityId) listings snapshots)
    (comparable : ComparableAt snapshots) :
    ∃ evidence metrics, CommunityEvidenceService.getMarketEvidence db communityId = .ok evidence ∧
      computeCommunityListingMetrics listings snapshots communityId minimumSampleCount = .ok metrics ∧
      metrics.stored = evidence.listingMetrics := by
  have wf : db.WellFormed := ⟨transactions, integers, run.readable ordered⟩
  obtain ⟨stored, history, evidence, listed, read, ok, computed, -, -⟩ :=
    getMarketEvidence_ok wf text notBlank
  suffices instants : computeCommunityListingMetrics listings (snapshots.map (·.stored)) communityId
      minimumSampleCount = .ok evidence.listingMetrics by
    obtain ⟨metrics, inMemory, same⟩ := exists_compute_of_instants comparable instants
    exact ⟨evidence, metrics, ok, inMemory, same⟩
  obtain ⟨identities, histories, keys, grouped, direct⟩ := compute_of_accepted
    (evidenceOf.accepted run agreeing notBlank) one_le_minimumSampleCount
  obtain ⟨identities', histories', keys', grouped', fromStore⟩ :=
    compute_of_accepted (accepted_of_readable wf.listings notBlank listed read)
      one_le_minimumSampleCount
  have sameIds : ∀ id, id ∈ identities.keys ↔ id ∈ identities'.keys := by
    intro id
    rw [keys, keys', mem_listed_iff run wf.listings disjoint listed, evidenceOf.mem_iff]
  have sameHistories : histories = histories' := by
    apply grouped.unique grouped'
    intro s
    rw [mem_history_iff run wf.listings disjoint agreeing read, evidenceOf.mem_stored]
  rw [direct, ← computed, fromStore, sameHistories]
  exact summarize_congr sameIds

/-- One listing seen twice in one batch, newest first. -/
theorem getMarketEvidence_eq_of_delivered_twice :
    let _ := sampleRuntime
    ∃ tables evidence metrics, CommunityEvidenceService.getMarketEvidence ⟨.empty _, tables, .empty _⟩
        (str "cm-a") = .ok evidence ∧
      computeCommunityListingMetrics [seenActive.listing] [seenActive.snapshot, seenSold.snapshot]
        (str "cm-a") minimumSampleCount = .ok metrics ∧ metrics.stored = evidence.listingMetrics := by
  let _ := sampleRuntime
  have run := SuccessfulRun.empty.extend
    ⟨str "Fake", communityA, FetchResult.fromParsed [seenSold, seenActive]⟩ (by decide +kernel)
  have log : ∀ o, o ∈ delivered ([] ++ [⟨str "Fake", communityA, FetchResult.fromParsed [seenSold, seenActive]⟩]) ↔
      o = seenSold ∨ o = seenActive := by
    intro o
    simp [delivered, FetchResult.fromParsed]
  have subject : ∀ o, o = seenSold ∨ o = seenActive → o.listing.communityId = str "cm-a" := by
    rintro o (rfl | rfl) <;> rfl
  have own : ∀ o, o ∈ deliveredFor
      ([] ++ [⟨str "Fake", communityA, FetchResult.fromParsed [seenSold, seenActive]⟩]) (str "cm-a") ↔
      o = seenSold ∨ o = seenActive := by
    intro o
    rw [mem_deliveredFor run, log]
    exact and_iff_left_of_imp (subject o)
  refine ⟨_, getMarketEvidence_eq_of_delivered ⟨.empty _, _, .empty _⟩ encodedBy_nil (by simp) run ?_ ?_ ?_
    (by decide) (by decide) ⟨?_, ?_, ?_, ?_⟩ (by decide +kernel)⟩
  · intro o mem
    rcases (log o).mp mem with rfl | rfl <;> decide +kernel
  · exact disjointListings_of_one run fun o mem => subject o ((log o).mp mem)
  · intro a ha b hb same
    obtain ⟨o, ho, rfl⟩ := List.mem_map.mp ha
    obtain ⟨o', ho', rfl⟩ := List.mem_map.mp hb
    rcases (log o).mp ho with rfl | rfl <;> rcases (log o').mp ho' with rfl | rfl
    · rfl
    · exact absurd same (by decide +kernel)
    · exact absurd same (by decide +kernel)
    · rfl
  · intro l hl
    rw [List.mem_singleton.mp hl]
    exact ⟨seenActive, (own _).mpr (Or.inr rfl), rfl⟩
  · exact List.nodup_singleton _
  · intro o ho
    rcases (own o).mp ho with rfl | rfl <;> exact List.mem_singleton_self _
  · intro s
    simp only [own, exists_eq_or_imp, exists_eq_left, List.mem_cons, List.not_mem_nil, or_false]
    rw [or_comm, eq_comm (a := s), eq_comm (a := s)]

end

end

end CnPropertyAgent
