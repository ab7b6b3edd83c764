import CnPropertyAgent.Properties.AskingPriceHistory

/-!
The seen range of a stored listing against its stored history.

The range folds the instants of every statement with `least` and `greatest`, the
history keeps one row for each instant. Where an observation proves one instant, both
are about the same set of instants, so the range is the first and the last of them.
-/

namespace CnPropertyAgent

open Python Relational

/-- The observation proves the instant of its snapshot and no other. -/
def ListingObservation.ProvesOneInstant (o : ListingObservation) : Prop :=
  o.listing.firstSeenAt.instant = o.snapshot.snapshotAt.instant ∧
    o.listing.lastSeenAt.instant = o.snapshot.snapshotAt.instant

theorem ListingObservation.ProvesOneInstant.ordered {o : ListingObservation} (single : o.ProvesOneInstant) :
    o.listing.Ordered := (single.1.trans single.2.symm).le

namespace ListingIngestionService

/-- The newest snapshot stored for a listing. -/
def NewestStored (tables : ListingTables) (listingId : Str) (newest : ListingSnapshot Instant) : Prop :=
  ∃ snapshots, ListingRepository.history tables listingId = .ok snapshots ∧
    snapshots.getLast? = some newest

/-- The instants of a history, as a set. -/
def instantsOf (snapshots : List (ListingSnapshot Instant)) : Set Instant :=
  {t | t ∈ snapshots.map (·.snapshotAt)}

theorem mem_instantsOf {snapshots : List (ListingSnapshot Instant)} {t : Instant} :
    t ∈ instantsOf snapshots ↔ t ∈ snapshots.map (·.snapshotAt) := Iff.rfl

namespace SuccessfulRun

variable {calls : List ListingIngestCall} {tables : ListingTables}

/-- A column of a listing that equals the instant of its observation takes, over the
delivered observations of the listing, the instants of its history. -/
theorem instantsOf_eq (run : SuccessfulRun calls tables) {f : ListingRow → Instant}
    (instant : ∀ o ∈ delivered calls, f (ListingRow.ofModel o.listing) = o.snapshot.snapshotAt.instant)
    {listingId : Str} {snapshots : List (ListingSnapshot Instant)}
    (read : ListingRepository.history tables listingId = .ok snapshots) :
    instantsOf snapshots =
      {t | ∃ new ∈ listingRows (delivered calls), new.listingId = listingId ∧ f new = t} := by
  obtain ⟨snapshots', read', -, instants, -⟩ :=
    run.exists_history_of_plain (ListingRepository.plain_of_history read)
  cases read.symm.trans read'
  ext t
  rw [mem_instantsOf, instants]
  constructor
  · rintro ⟨o, mem, same, rfl⟩
    exact ⟨_, List.mem_map_of_mem mem, same, instant o mem⟩
  · rintro ⟨new, mem, same, rfl⟩
    obtain ⟨o, ho, rfl⟩ := List.mem_map.mp mem
    exact ⟨o, ho, same, (instant o ho).symm⟩

/-- The stored range reaches from the first to the last instant of the history. -/
theorem seen_range (run : SuccessfulRun calls tables)
    (single : ∀ o ∈ delivered calls, o.ProvesOneInstant) {row : ListingRow}
    (stored : row ∈ tables.listing.rows) {snapshots : List (ListingSnapshot Instant)}
    (read : ListingRepository.history tables row.listingId = .ok snapshots) :
    IsLeast (instantsOf snapshots) row.firstSeenAt ∧
      IsGreatest (instantsOf snapshots) row.lastSeenAt := by
  have found : ((Table.empty ListingRow.listingId).upsertAll ListingRepository.onConflict
      (listingRows (delivered calls))).get? row.listingId = some row :=
    run.tables_eq.1 ▸ Table.get?_key stored
  constructor
  · rw [run.instantsOf_eq (f := (·.firstSeenAt)) (fun o mem => (single o mem).1) read]
    exact Table.isLeast_get?_upsertAll (fun _ _ _ => rfl) found
  · rw [run.instantsOf_eq (f := (·.lastSeenAt)) (fun o mem => (single o mem).2) read]
    -- the greatest is the least of the reversed order
    exact Table.isLeast_get?_upsertAll (f := fun r => OrderDual.toDual r.lastSeenAt)
      (fun _ _ _ => rfl) found

theorem newestStored_unique {listingId : Str} {newest newest' : ListingSnapshot Instant}
    (h : NewestStored tables listingId newest) (h' : NewestStored tables listingId newest') :
    newest = newest' := by
  obtain ⟨snapshots, read, last⟩ := h
  obtain ⟨snapshots', read', last'⟩ := h'
  cases read.symm.trans read'
  exact Option.some.inj (last.symm.trans last')

/-- Every stored listing has a newest snapshot, at the instant it was last seen. -/
theorem exists_newestStored (run : SuccessfulRun calls tables)
    (single : ∀ o ∈ delivered calls, o.ProvesOneInstant) {row : ListingRow}
    (stored : row ∈ tables.listing.rows) :
    ∃ newest, NewestStored tables row.listingId newest ∧ newest.snapshotAt = row.lastSeenAt := by
  have readable := run.readable fun o mem => (single o mem).ordered
  obtain ⟨snapshots, read, sorted, -, -⟩ := run.exists_history_of_plain (readable.plain_ids stored).1
  obtain ⟨-, ⟨seen, greatest⟩⟩ := run.seen_range single stored read
  obtain ⟨s, mem, instant⟩ := List.mem_map.mp seen
  have last := List.getLast?_eq_some_getLast (List.ne_nil_of_mem mem)
  refine ⟨_, ⟨snapshots, read, last⟩, le_antisymm ?_ ?_⟩
  · exact greatest (mem_instantsOf.mpr (List.mem_map_of_mem (List.getLast_mem _)))
  · rw [← instant]
    exact le_getLast?_of_pairwise sorted last mem

end SuccessfulRun

/-- **The seen range is the history's.** After any run of observations that prove one
instant each, every stored listing has a history, whose first and last instants are its
seen range; so a community's listings are listed by the instants of their newest
snapshots, newest first, and by their ids where these are equal. -/
theorem seen_range_is_history {calls : List ListingIngestCall} {tables : ListingTables}
    (run : SuccessfulRun calls tables)
    (single : ∀ o ∈ delivered calls, o.ProvesOneInstant) :
    (∀ row ∈ tables.listing.rows, ∃ snapshots,
      ListingRepository.history tables row.listingId = .ok snapshots ∧ snapshots ≠ [] ∧
      IsLeast (instantsOf snapshots) row.firstSeenAt ∧
      IsGreatest (instantsOf snapshots) row.lastSeenAt) ∧
    ∀ communityId, ∃ listings,
      ListingRepository.listForCommunity tables communityId = whenBound [communityId] listings ∧
      (∀ l ∈ listings, ∃ newest, NewestStored tables l.listingId newest) ∧
      listings.Pairwise fun a b => ∀ newest newest', NewestStored tables a.listingId newest →
        NewestStored tables b.listingId newest' →
        newest'.snapshotAt < newest.snapshotAt ∨
          newest.snapshotAt = newest'.snapshotAt ∧ a.listingId < b.listingId := by
  have readable := run.readable fun o mem => (single o mem).ordered
  constructor
  · intro row stored
    obtain ⟨snapshots, read, -, -, -⟩ := run.exists_history_of_plain (readable.plain_ids stored).1
    obtain ⟨first, last⟩ := run.seen_range single stored read
    refine ⟨snapshots, read, ?_, first, last⟩
    obtain ⟨s, mem, -⟩ := List.mem_map.mp first.1
    exact List.ne_nil_of_mem mem
  · intro communityId
    obtain ⟨listings, read, rows⟩ := ListingRepository.exists_listForCommunity readable communityId
    have stored : ∀ l ∈ listings, ListingRow.ofModel l ∈ tables.listing.rows := by
      intro l mem
      exact ((ListingRepository.mem_of_rows_listForCommunity rows).mp mem).1
    refine ⟨listings, read, ?_, ?_⟩
    · intro l mem
      obtain ⟨newest, h, -⟩ := run.exists_newestStored single (stored l mem)
      exact ⟨newest, h⟩
    · have sorted := ListingRepository.pairwise_of_rows_listForCommunity rows
      apply sorted.imp_of_mem
      intro a b ha hb order newest newest' hnewest hnewest'
      obtain ⟨n, hn, atA⟩ := run.exists_newestStored single (stored a ha)
      obtain ⟨n', hn', atB⟩ := run.exists_newestStored single (stored b hb)
      rw [SuccessfulRun.newestStored_unique hnewest hn, SuccessfulRun.newestStored_unique hnewest' hn',
        atA, atB]
      exact order

/-- One listing seen twice, the later observation delivered first. -/
theorem seen_range_is_history_out_of_order :
    ∃ tables row snapshots, row ∈ tables.listing.rows ∧
      ListingRepository.history tables row.listingId = .ok snapshots ∧
      IsLeast (instantsOf snapshots) row.firstSeenAt ∧
      IsGreatest (instantsOf snapshots) row.lastSeenAt := by
  have run := SuccessfulRun.empty.extend
    ⟨str "Fake", communityA, FetchResult.fromParsed [seenSold, seenActive]⟩ (by decide +kernel)
  have present : ((ingest (str "Fake") .empty communityA
      (.ok (FetchResult.fromParsed [seenSold, seenActive]))).state.listing.get? (str "lst-1")).isSome := by
    decide +kernel
  obtain ⟨row, found⟩ := Option.isSome_iff_exists.mp present
  have log : ∀ o ∈ delivered [⟨str "Fake", communityA, FetchResult.fromParsed [seenSold, seenActive]⟩],
      o = seenSold ∨ o = seenActive := by
    intro o mem
    simpa [delivered, FetchResult.fromParsed] using mem
  obtain ⟨ranges, -⟩ := seen_range_is_history run (by
    intro o mem
    rcases log o mem with rfl | rfl <;> exact ⟨rfl, rfl⟩)
  obtain ⟨snapshots, read, -, first, last⟩ := ranges row (Table.mem_of_get? found)
  exact ⟨_, row, snapshots, Table.mem_of_get? found, read, first, last⟩

end ListingIngestionService

end CnPropertyAgent
