import CnPropertyAgent.Services.ListingIngestion
import CnPropertyAgent.Storage.Reads

/-!
Runs of listing ingestion.

A run is a sequence of calls that all returned. Everything it leaves behind is a
function of the log of observations it delivered, in order: the two tables are
the replay of that log on the empty ones (`SuccessfulRun.tables_eq`).
-/

namespace CnPropertyAgent

open Python Relational

/-! ### Sample batches -/

section Samples

/-- Noon of a day in the year 2024, with the days counted from its first. -/
def sampleNoon (day : Fin 366) : AwareDatetime where
  wall := (738885 + day) * dayMicros + 43200000000
  fold := false
  tzinfo := .utc
  wall_nonneg := by unfold dayMicros; omega
  wall_lt := by unfold maxOrdinal dayMicros; omega

/-- The same instant on a clock eight hours ahead. -/
def sampleNoonEast (day : Fin 366) : AwareDatetime where
  wall := (738885 + day) * dayMicros + 72000000000
  fold := false
  tzinfo := ⟨2, ⟨28800000000, 28800000000, by decide, by decide⟩, []⟩
  wall_nonneg := by unfold dayMicros; omega
  wall_lt := by unfold maxOrdinal dayMicros; omega

def firstDay : AwareDatetime := sampleNoon 0

def firstDayEast : AwareDatetime := sampleNoonEast 0

def secondDay : AwareDatetime := sampleNoon 1

def thirdDay : AwareDatetime := sampleNoon 2

/-- A clock turned back from two to one in the night of 15 September 1991, as Shanghai's was. -/
def sampleZone : TzInfo where
  number := 1
  start := ⟨32400000000, 32400000000, by decide, by decide⟩
  changes := [
    (727089 * dayMicros + 3600000000, ⟨32400000000, 28800000000, by decide, by decide⟩),
    (727089 * dayMicros + 7200000000, ⟨28800000000, 28800000000, by decide, by decide⟩)]

/-- A minute of the hour that this clock showed twice. -/
def repeatedHour (minute : Fin 60) (fold : Bool) : AwareDatetime where
  wall := 727089 * dayMicros + 3600000000 + minute * 60000000
  fold := fold
  tzinfo := sampleZone
  wall_nonneg := by unfold dayMicros; omega
  wall_lt := by unfold maxOrdinal dayMicros; omega

/-- The second half past one on the clock of UTC. -/
def halfPastUtc : AwareDatetime where
  wall := 727089 * dayMicros - 23400000000
  fold := false
  tzinfo := .utc
  wall_nonneg := by unfold dayMicros; omega
  wall_lt := by unfold maxOrdinal dayMicros; omega

def sampleListingFields (listingId communityId sourceListingId : Str) (instant : AwareDatetime)
    (status : ListingStatus) : ListingFields where
  listingId := listingId
  communityId := communityId
  source := str "lianjia"
  sourceListingId := sourceListingId
  areaSqm := some 89
  layout := none
  floorBucket := .unknown
  orientation := none
  builtYear := none
  buildingType := none
  firstSeenAt := instant
  lastSeenAt := instant
  status := status

def sampleSnapshotFields (listingId : Str) (instant : AwareDatetime) (status : ListingStatus) (price : Nat) :
    ListingSnapshotFields where
  listingId := listingId
  snapshotAt := instant
  listPriceCny := .finite price
  unitPriceCnySqm := none
  status := status
  source := str "lianjia"
  sourceUrl := none
  rawPayloadRef := none
  parserVersion := str "v1"

def sampleObservation (listingId communityId sourceListingId : Str) (instant : AwareDatetime)
    (status : ListingStatus) (price : Nat)
    (listing : (sampleListingFields listingId communityId sourceListingId instant status).errors = [])
    (snapshot : (sampleSnapshotFields listingId instant status price).errors = []) :
    ListingObservation :=
  ⟨⟨_, listing⟩, ⟨_, snapshot⟩, rfl⟩

/-- A listing of community A as it was seen on one day. -/
def seenActive : ListingObservation :=
  sampleObservation (str "lst-1") (str "cm-a") (str "101") firstDay .active 3000000
    (by decide +kernel) (by decide +kernel)

/-- The same listing, sold the day after. -/
def seenSold : ListingObservation :=
  sampleObservation (str "lst-1") (str "cm-a") (str "101") secondDay .sold 2900000
    (by decide +kernel) (by decide +kernel)

/-- The same listing as community B would report it. -/
def claimedByB : ListingObservation :=
  sampleObservation (str "lst-1") (str "cm-b") (str "101") secondDay .active 2950000
    (by decide +kernel) (by decide +kernel)

/-- A listing of B that nobody has reported before. -/
def newForB : ListingObservation :=
  sampleObservation (str "lst-9") (str "cm-b") (str "109") secondDay .active 2950000
    (by decide +kernel) (by decide +kernel)

/-- A listing of A at the first half past one, and at the second. -/
def seenHalfPast : ListingObservation :=
  sampleObservation (str "lst-1") (str "cm-a") (str "101") (repeatedHour 30 false) .active 3000000
    (by decide +kernel) (by decide +kernel)

def seenHalfPastAgain : ListingObservation :=
  sampleObservation (str "lst-1") (str "cm-a") (str "101") (repeatedHour 30 true) .active 3000000
    (by decide +kernel) (by decide +kernel)

/-- By the readings of its clock the listing was seen first before it was seen last. -/
def seenBackwards : Listing :=
  ⟨{ sampleListingFields (str "lst-1") (str "cm-a") (str "101") (repeatedHour 30 true) .active with
    lastSeenAt := repeatedHour 45 false }, by decide +kernel⟩

end Samples

/-- One call, for a community, with what the provider answered. -/
structure ListingIngestCall where
  provider : Str
  community : Community
  fetched : ListingFetchResult

namespace ListingIngestionService

/-- Calls that all returned, from the empty database. -/
inductive SuccessfulRun : List ListingIngestCall → ListingTables → Prop
  | empty : SuccessfulRun [] .empty
  | call {calls : List ListingIngestCall} {tables tables' : ListingTables} {c : ListingIngestCall}
      {result : ListingIngestionResult} (earlier : SuccessfulRun calls tables)
      (returned : ingest c.provider tables c.community (.ok c.fetched) = ⟨tables', .ok result⟩) :
      SuccessfulRun (calls ++ [c]) tables'

/-- A run continued by a call that returns. -/
theorem SuccessfulRun.extend {calls : List ListingIngestCall} {tables : ListingTables}
    (earlier : SuccessfulRun calls tables) (c : ListingIngestCall)
    (returns : (ingest c.provider tables c.community (.ok c.fetched)).result.isOk = true) :
    SuccessfulRun (calls ++ [c]) (ingest c.provider tables c.community (.ok c.fetched)).state := by
  cases h : ingest c.provider tables c.community (.ok c.fetched) with
  | mk tables' result =>
      rw [h] at returns
      cases result with
      | error e => cases returns
      | ok r => exact .call earlier h

/-- The log of a run. -/
def delivered (calls : List ListingIngestCall) : List ListingObservation :=
  calls.flatMap fun c => c.fetched.parsed

theorem delivered_append_singleton (calls : List ListingIngestCall) (c : ListingIngestCall) :
    delivered (calls ++ [c]) = delivered calls ++ c.fetched.parsed := by
  simp [delivered]

/-- A call that returned wrote its whole batch, all of it about its community. -/
theorem ingest_returned {provider : Str} {tables tables' : ListingTables} {community : Community}
    {fetched : ListingFetchResult} {result : ListingIngestionResult}
    (returned : ingest provider tables community (.ok fetched) = ⟨tables', .ok result⟩) :
    runAll writeObservation tables fetched.parsed = .ok tables' ∧
      result = resultOf community fetched ∧
      ∀ o ∈ fetched.parsed, o.listing.communityId = community.communityId := by
  rcases ingest_cases provider tables community (.ok fetched) with
    ⟨message, eq, -⟩ | ⟨fetched', eq, rest⟩
  · cases eq
  · cases eq
    rcases rest with ⟨e, -, -, stopped⟩ | ⟨own, ⟨t, ran, finished⟩ | ⟨_, _, _, _, _, _, _, _, stopped⟩⟩
    · rw [stopped] at returned; cases returned
    · rw [finished] at returned
      cases returned
      exact ⟨ran, rfl, own⟩
    · rw [stopped] at returned; cases returned

theorem readable_execute {tables tables' : ListingTables} {s : Listing ⊕ ListingSnapshot}
    (readable : tables.Readable) (ordered : ∀ item, s = .inl item → item.Ordered)
    (h : execute tables s = .ok tables') : tables'.Readable := by
  cases s with
  | inl item => exact ListingRepository.readable_upsertListing readable (ordered item rfl) h
  | inr item => exact ListingRepository.readable_appendSnapshot readable h

theorem readable_of_execute {tables tables' : ListingTables} {written : List (Listing ⊕ ListingSnapshot)}
    (readable : tables.Readable) (ordered : ∀ item, .inl item ∈ written → item.Ordered)
    (ran : runAll execute tables written = .ok tables') : tables'.Readable := by
  refine runAll_invariant (P := ListingTables.Readable) ?_ readable ran
  intro s mem tables tables' before step
  exact readable_execute before (fun item listing => ordered item (listing ▸ mem)) step

/-- The snapshots read back whatever listings are written. -/
theorem encodedBy_of_execute {tables tables' : ListingTables} {written : List (Listing ⊕ ListingSnapshot)}
    (encoded : EncodedBy (SnapshotRow.ofModel (T := Instant)) tables.listingSnapshot.rows)
    (ran : runAll execute tables written = .ok tables') :
    EncodedBy (SnapshotRow.ofModel (T := Instant)) tables'.listingSnapshot.rows := by
  refine runAll_invariant (P := fun tables : ListingTables =>
    EncodedBy (SnapshotRow.ofModel (T := Instant)) tables.listingSnapshot.rows) ?_ encoded ran
  intro s _ tables tables' before step
  cases s with
  | inl item => exact (ListingRepository.upsertListing_ok step).2 ▸ before
  | inr item => exact ListingRepository.encodedBy_appendSnapshot before step

theorem readable_runAll {tables tables' : ListingTables} {observations : List ListingObservation}
    (readable : tables.Readable) (ordered : ∀ o ∈ observations, o.listing.Ordered)
    (ran : runAll writeObservation tables observations = .ok tables') : tables'.Readable := by
  rw [runAll_writeObservation] at ran
  refine readable_of_execute readable ?_ ran
  intro item mem
  obtain ⟨o, delivered, written⟩ := List.mem_flatMap.mp mem
  simp only [statements, List.mem_cons, List.not_mem_nil, or_false, Sum.inl.injEq, reduceCtorEq] at written
  exact written ▸ ordered o delivered

/-- The observation of a listing that came last. -/
def lastOf (log : List ListingObservation) (listingId : Str) : Option ListingObservation :=
  (log.filter fun o => o.listing.listingId = listingId).getLast?

theorem mem_of_lastOf {log : List ListingObservation} {listingId : Str} {o : ListingObservation}
    (h : lastOf log listingId = some o) : o ∈ log ∧ o.listing.listingId = listingId := by
  simpa using List.mem_filter.mp (List.mem_of_getLast? h)

theorem exists_lastOf {log : List ListingObservation} {o : ListingObservation} (mem : o ∈ log) :
    ∃ last, lastOf log o.listing.listingId = some last :=
  ⟨_, List.getLast?_eq_some_getLast
    (List.ne_nil_of_mem (List.mem_filter.mpr ⟨mem, decide_eq_true rfl⟩))⟩

namespace SuccessfulRun

variable {calls : List ListingIngestCall} {tables : ListingTables}

/-- **The log determines the tables.** -/
theorem runAll_eq (run : SuccessfulRun calls tables) :
    runAll writeObservation .empty (delivered calls) = .ok tables := by
  induction run with
  | empty => rfl
  | call earlier returned ih =>
      rw [delivered_append_singleton, runAll_append, ih]
      exact (ingest_returned returned).1

theorem tables_eq (run : SuccessfulRun calls tables) :
    tables.listing.toTable = (Table.empty ListingRow.listingId).upsertAll
        ListingRepository.onConflict (listingRows (delivered calls)) ∧
      tables.listingSnapshot = (Table.empty SnapshotRow.key).upsertAll
        ListingRepository.snapshotOnConflict (snapshotRows (delivered calls)) :=
  tables_of_runAll run.runAll_eq

theorem readable (run : SuccessfulRun calls tables) (ordered : ∀ o ∈ delivered calls, o.listing.Ordered) :
    tables.Readable :=
  readable_runAll ListingRepository.readable_empty ordered run.runAll_eq

theorem encodedBy_snapshots (run : SuccessfulRun calls tables) :
    EncodedBy (SnapshotRow.ofModel (T := Instant)) tables.listingSnapshot.rows :=
  encodedBy_of_execute encodedBy_nil (runAll_writeObservation .empty (delivered calls) ▸ run.runAll_eq)

/-- Each observation was delivered to the community it names. -/
theorem own_community (run : SuccessfulRun calls tables) :
    ∀ c ∈ calls, ∀ o ∈ c.fetched.parsed, o.listing.communityId = c.community.communityId := by
  induction run with
  | empty => intro c mem; cases mem
  | call earlier returned ih =>
      intro c mem
      rcases List.mem_append.mp mem with before | last
      · exact ih c before
      · rw [List.mem_singleton] at last
        subst last
        exact (ingest_returned returned).2.2

/-- A column that the statements overwrite is that of the observation that came last. -/
theorem map_get?_listing {α : Type} {f : ListingRow → α} (run : SuccessfulRun calls tables)
    (taken : ∀ old new, f (ListingRepository.onConflict.merge old new) = f new) (listingId : Str) :
    (tables.listing.get? listingId).map f =
      (lastOf (delivered calls) listingId).map fun o => f (ListingRow.ofModel o.listing) := by
  rw [run.tables_eq.1, Table.map_get?_upsertAll (fun old new _ => taken old new), Table.get?_empty,
    Option.map_none, Option.or_none, listingRows, List.filter_map, List.getLast?_map, Option.map_map]
  rfl

/-- The snapshot rows by key: the last one delivered. -/
theorem get?_snapshot (run : SuccessfulRun calls tables) (key : Str × Instant) :
    tables.listingSnapshot.get? key =
      ((snapshotRows (delivered calls)).filter (·.key = key)).getLast? := by
  rw [run.tables_eq.2, Table.get?_upsertAll_of_overwrites
    ListingRepository.snapshotOnConflict_overwrites, Table.get?_empty, Option.or_none]

end SuccessfulRun

end ListingIngestionService

end CnPropertyAgent
