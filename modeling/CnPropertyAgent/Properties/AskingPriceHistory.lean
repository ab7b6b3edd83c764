import CnPropertyAgent.Services.ListingRuns

/-!
The asking-price history of a listing is the log of its observations, with one
row for each instant and the last word at each instant.
-/

namespace CnPropertyAgent

open Python Relational

namespace ListingIngestionService

/-- The last observation of a listing at an instant. -/
def lastDelivered (log : List ListingObservation) (listingId : Str) (instant : Instant) :
    Option ListingObservation :=
  (log.filter fun o => o.listing.listingId = listingId ∧ o.snapshot.snapshotAt.instant = instant).getLast?

theorem filter_key_snapshotRows (log : List ListingObservation) (listingId : Str)
    (instant : Instant) :
    (snapshotRows log).filter (fun row => row.key = (listingId, instant)) =
      (log.filter fun o => o.listing.listingId = listingId ∧ o.snapshot.snapshotAt.instant = instant).map
        fun o => SnapshotRow.ofModel o.snapshot := by
  rw [snapshotRows, List.filter_map]
  congr 1
  apply List.filter_congr
  intro o _
  apply decide_eq_decide.mpr
  rw [o.identity]
  exact Prod.ext_iff

/-- A log leaves, under each key, the snapshot that comes last in it. -/
theorem mem_upsertAll_snapshotRows {log : List ListingObservation} {s : ListingSnapshot Instant} :
    SnapshotRow.ofModel s ∈ ((Table.empty SnapshotRow.key).upsertAll ListingRepository.snapshotOnConflict
        (snapshotRows log)).rows ↔
      (lastDelivered log s.listingId s.snapshotAt).map (·.snapshot.stored) = some s := by
  have stored (table : Table SnapshotRow.key) :
      SnapshotRow.ofModel s ∈ table.rows ↔
        table.get? (s.listingId, s.snapshotAt) = some (SnapshotRow.ofModel s) :=
    ⟨Table.get?_key, Table.mem_of_get?⟩
  rw [stored, Table.get?_upsertAll_of_overwrites ListingRepository.snapshotOnConflict_overwrites,
    Table.get?_empty, Option.or_none, filter_key_snapshotRows, List.getLast?_map, lastDelivered]
  cases List.getLast? _ with
  | none => simp
  | some o =>
      rw [Option.map_some, Option.map_some, Option.some_inj, Option.some_inj, ← SnapshotRow.ofModel_stored]
      exact SnapshotRow.ofModel_injective.eq_iff

namespace SuccessfulRun

variable {calls : List ListingIngestCall} {tables : ListingTables}

/-- A stored snapshot is the last one delivered under its key, and conversely. -/
theorem mem_listingSnapshot (run : SuccessfulRun calls tables) {s : ListingSnapshot Instant} :
    SnapshotRow.ofModel s ∈ tables.listingSnapshot.rows ↔
      (lastDelivered (delivered calls) s.listingId s.snapshotAt).map (·.snapshot.stored) = some s := by
  rw [run.tables_eq.2]
  exact mem_upsertAll_snapshotRows

/-- An instant is stored exactly when it was observed. -/
theorem exists_listingSnapshot (run : SuccessfulRun calls tables) {listingId : Str}
    {instant : Instant} :
    (∃ row ∈ tables.listingSnapshot.rows, row.key = (listingId, instant)) ↔
      ∃ o ∈ delivered calls, o.listing.listingId = listingId ∧ o.snapshot.snapshotAt.instant = instant := by
  have stored : (∃ row ∈ tables.listingSnapshot.rows, row.key = (listingId, instant)) ↔
      (tables.listingSnapshot.get? (listingId, instant)).isSome := by
    simp [Option.isSome_iff_exists, Table.get?_eq_some_iff]
  rw [stored, run.get?_snapshot, List.getLast?_isSome, filter_key_snapshotRows, ne_eq,
    List.map_eq_nil_iff, List.filter_eq_nil_iff]
  simp

theorem exists_history (run : SuccessfulRun calls tables) (listingId : Str) :
    ∃ snapshots, ListingRepository.history tables listingId = whenBound [listingId] snapshots ∧
      (snapshots.Pairwise fun a b => a.snapshotAt < b.snapshotAt) ∧
      (∀ instant, instant ∈ snapshots.map (·.snapshotAt) ↔
        ∃ o ∈ delivered calls, o.listing.listingId = listingId ∧ o.snapshot.snapshotAt.instant = instant) ∧
      ∀ s ∈ snapshots, s.listingId = listingId ∧
        (lastDelivered (delivered calls) listingId s.snapshotAt).map (·.snapshot.stored) = some s := by
  obtain ⟨snapshots, read, rows⟩ := ListingRepository.exists_history run.encodedBy_snapshots listingId
  have members : ∀ s, s ∈ snapshots ↔ SnapshotRow.ofModel s ∈ tables.listingSnapshot.rows ∧
      s.listingId = listingId := fun s => ListingRepository.mem_of_rows_history rows
  refine ⟨snapshots, read, ListingRepository.pairwise_of_rows_history rows, ?_, ?_⟩
  · intro instant
    rw [← run.exists_listingSnapshot, List.mem_map]
    constructor
    · rintro ⟨s, mem, rfl⟩
      obtain ⟨stored, rfl⟩ := (members s).mp mem
      exact ⟨_, stored, rfl⟩
    · rintro ⟨row, stored, same⟩
      obtain ⟨s, rfl⟩ := run.encodedBy_snapshots row stored
      exact ⟨s, (members s).mpr ⟨stored, congrArg Prod.fst same⟩, congrArg Prod.snd same⟩
  · intro s mem
    obtain ⟨stored, rfl⟩ := (members s).mp mem
    exact ⟨rfl, run.mem_listingSnapshot.mp stored⟩

theorem exists_history_of_plain (run : SuccessfulRun calls tables) {listingId : Str}
    (plain : listingId.Encodable) :
    ∃ snapshots, ListingRepository.history tables listingId = .ok snapshots ∧
      (snapshots.Pairwise fun a b => a.snapshotAt < b.snapshotAt) ∧
      (∀ instant, instant ∈ snapshots.map (·.snapshotAt) ↔
        ∃ o ∈ delivered calls, o.listing.listingId = listingId ∧ o.snapshot.snapshotAt.instant = instant) ∧
      ∀ s ∈ snapshots, s.listingId = listingId ∧
        (lastDelivered (delivered calls) listingId s.snapshotAt).map (·.snapshot.stored) = some s := by
  obtain ⟨snapshots, read, facts⟩ := run.exists_history listingId
  exact ⟨snapshots, read.trans (whenBound_eq_ok (plainTexts_singleton.mpr plain)), facts⟩

end SuccessfulRun

/-- **The history is the delivered one.** After any run, the history of a listing
is strictly increasing, has a row for each instant at which the listing was
observed and no other, and each row is the last delivered observation at its
instant. -/
theorem history_exact {calls : List ListingIngestCall} {tables : ListingTables}
    (run : SuccessfulRun calls tables) (listingId : Str) :
    ∃ snapshots, ListingRepository.history tables listingId = whenBound [listingId] snapshots ∧
      (snapshots.Pairwise fun a b => a.snapshotAt < b.snapshotAt) ∧
      (∀ instant, instant ∈ snapshots.map (·.snapshotAt) ↔
        ∃ o ∈ delivered calls, o.listing.listingId = listingId ∧ o.snapshot.snapshotAt.instant = instant) ∧
      ∀ s ∈ snapshots, s.listingId = listingId ∧
        (lastDelivered (delivered calls) listingId s.snapshotAt).map (·.snapshot.stored) = some s :=
  run.exists_history listingId

/-- Two observations of one listing, the later one delivered first. -/
theorem history_exact_out_of_order :
    ∃ tables snapshots,
      SuccessfulRun [⟨str "Fake", communityA, FetchResult.fromParsed [seenSold, seenActive]⟩] tables ∧
      ListingRepository.history tables (str "lst-1") = .ok snapshots ∧
      snapshots.Pairwise (fun a b => a.snapshotAt < b.snapshotAt) ∧
      firstDay.instant ∈ snapshots.map (·.snapshotAt) := by
  have run := SuccessfulRun.empty.extend
    ⟨str "Fake", communityA, FetchResult.fromParsed [seenSold, seenActive]⟩ (by decide +kernel)
  obtain ⟨snapshots, read, sorted, instants, -⟩ := history_exact run (str "lst-1")
  exact ⟨_, snapshots, run, read.trans (whenBound_eq_ok (by decide +kernel)), sorted,
    (instants _).mpr ⟨seenActive, by decide +kernel, by decide +kernel, by decide +kernel⟩⟩

end ListingIngestionService

end CnPropertyAgent
