import CnPropertyAgent.Properties.LianjiaIdentity
import CnPropertyAgent.Properties.Replay
import CnPropertyAgent.Properties.TransactionSeries
import CnPropertyAgent.Relational.Delivery

/-!
Ingestion at least once.

No call opens a database transaction: a process that dies inside one leaves the statements
it has executed. Making the call again mends that, and so does going back any number of
calls and making all of them again from there, whatever died on the way. The statements of a
call do not depend on what is stored, so each store is a log of them (`Logs`).
-/

namespace CnPropertyAgent

open Python Relational ListingIngestionService

/-! ### Transactions -/

namespace TransactionIngestionService

section

variable [Runtime]

/-- A call that dies after so many statements. -/
def interrupted (statements : Nat) (table : TransactionTable) (c : TransactionIngestCall) : TransactionTable :=
  (TransactionRepository.upsertMany table ((gatedValues c).take statements)).state

def service : Service TransactionTable TransactionIngestCall := fun table made =>
  match made with
  | .whole c => after table c
  | .cut statements c => interrupted statements table c

/-- The rows that a call writes, as it is made. -/
def entries : Made TransactionIngestCall → List TransactionRow
  | .whole c => TransactionRepository.rowsOf (writtenBy c)
  | .cut statements c => TransactionRepository.rowsOf
      (((gatedValues c).take statements).takeWhile fun t => (TransactionRow.ofModel t).Storable)

theorem logs : Logs service (fun _ => True) id
    (Table.log (Table.band_of_overwrites TransactionRepository.onConflict_overwrites)) entries where
  injective := Function.injective_id
  make table m _ := by
    refine ⟨trivial, ?_⟩
    cases m with
    | whole c => exact after_eq_written table c
    | cut statements c => exact state_upsertMany table _
  initial statements c := by
    rw [entries, entries, ← List.take_takeWhile, takeWhile_gatedValues]
    exact (List.take_prefix _ _).map _

end

end TransactionIngestionService

/-! ### Market observations -/

namespace MarketObservationIngestionService

/-- The batch of a call, unless the guard refuses it. -/
def guardedBatch (c : MarketIngestCall) : List MarketObservation :=
  match c.fetch with
  | .error _ => []
  | .ok fetched =>
      if ∀ o ∈ fetched.observations, o.cityCode = c.request.cityCode then fetched.observations else []

/-- A call that dies after so many statements. -/
def interrupted (statements : Nat) (table : MarketObservationTable) (c : MarketIngestCall) :
    MarketObservationTable :=
  (forEach persistObservation table ⟨0, []⟩ ((guardedBatch c).take statements)).state

def service : Service MarketObservationTable MarketIngestCall := fun table made =>
  match made with
  | .whole c => after table c
  | .cut statements c => interrupted statements table c

/-- The rows that a call writes, as it is made. -/
def entries : Made MarketIngestCall → List MarketObservationRow
  | .whole c => (writtenBy c).map MarketObservationRow.ofModel
  | .cut statements c => (taken ((guardedBatch c).take statements)).map MarketObservationRow.ofModel

theorem taken_guardedBatch (c : MarketIngestCall) : taken (guardedBatch c) = writtenBy c := by
  unfold guardedBatch writtenBy
  cases c.fetch with
  | error message => rfl
  | ok fetched => exact apply_ite taken _ _ _

theorem logs : Logs service (fun _ => True) id
    (Table.log (Table.band_of_overwrites MarketObservationRepository.onConflict_overwrites)) entries where
  injective := Function.injective_id
  make table m _ := by
    refine ⟨trivial, ?_⟩
    cases m with
    | whole c => exact after_eq table c
    | cut statements c => exact congrArg Outcome.state (persistAll_eq table _)
  initial statements c := by
    rw [entries, entries, ← taken_guardedBatch, taken, taken, ← List.take_takeWhile]
    exact (List.take_prefix _ _).map _

end MarketObservationIngestionService

/-! ### Listings -/

namespace ListingIngestionService

/-- What a statement writes. -/
def rowOf : Listing ⊕ ListingSnapshot → ListingRow ⊕ SnapshotRow :=
  Sum.map ListingRow.ofModel SnapshotRow.ofModel

/-- The rows of the two tables. -/
def rows (tables : ListingTables) : Table ListingRow.listingId × Table SnapshotRow.key :=
  (tables.listing.toTable, tables.listingSnapshot)

theorem rows_injective : Function.Injective rows := by
  rintro ⟨listing, snapshots⟩ ⟨listing', snapshots'⟩ same
  obtain ⟨identity, history⟩ := Prod.mk.inj same
  exact congrArg₂ ListingTables.mk (UniqueTable.ext identity) history

/-- The log of both tables. -/
def log : Log (Table ListingRow.listingId × Table SnapshotRow.key) (ListingRow ⊕ SnapshotRow) :=
  (Table.log ListingRepository.onConflict_band).both
    (Table.log (Table.band_of_overwrites ListingRepository.snapshotOnConflict_overwrites))

/-- The rows of each table, in order. -/
theorem filterMap_rowOf (written : List (Listing ⊕ ListingSnapshot)) :
    (written.map rowOf).filterMap Sum.getLeft? = (written.filterMap Sum.getLeft?).map ListingRow.ofModel ∧
      (written.map rowOf).filterMap Sum.getRight? =
        (written.filterMap Sum.getRight?).map SnapshotRow.ofModel := by
  induction written with
  | nil => exact ⟨rfl, rfl⟩
  | cons s rest ih =>
      cases s with
      | inl item => exact ⟨congrArg (ListingRow.ofModel item :: ·) ih.1, ih.2⟩
      | inr item => exact ⟨ih.1, congrArg (SnapshotRow.ofModel item :: ·) ih.2⟩

/-- Statements that run are entries of the log. -/
theorem rows_of_execute {tables tables' : ListingTables} {written : List (Listing ⊕ ListingSnapshot)}
    (ran : runAll execute tables written = .ok tables') :
    rows tables' = log.write (rows tables) (written.map rowOf) := by
  obtain ⟨listing, snapshots⟩ := tables_of_execute ran
  obtain ⟨left, right⟩ := filterMap_rowOf written
  exact Prod.ext (listing.trans (congrArg _ left.symm)) (snapshots.trans (congrArg _ right.symm))

end ListingIngestionService

namespace LianjiaIngestCall

variable [Runtime]

/-- A call that dies after so many statements. -/
def interrupted (count : Nat) (tables : ListingTables) (c : LianjiaIngestCall) : ListingTables :=
  (runUntil execute tables ((c.batch.flatMap statements).take count)).state

def service : Service ListingTables LianjiaIngestCall := fun tables made =>
  match made with
  | .whole c => (c.outcome tables).state
  | .cut count c => c.interrupted count tables

/-- The statements of a call that storage takes, as it is made. -/
def taken : Made LianjiaIngestCall → List (Listing ⊕ ListingSnapshot)
  | .whole c => bindable (c.batch.flatMap statements)
  | .cut count c => bindable ((c.batch.flatMap statements).take count)

/-- What they write. -/
def entries (m : Made LianjiaIngestCall) : List (ListingRow ⊕ SnapshotRow) := (taken m).map rowOf

/-- However it is made, a call runs the statements that storage takes. -/
theorem runAll_taken {tables : ListingTables} (inv : tables.Identified) (m : Made LianjiaIngestCall) :
    runAll execute tables (taken m) = .ok (service tables m) ∧ (service tables m).Identified := by
  cases m with
  | whole c =>
      obtain ⟨ran, kept, -⟩ := outcome_spec inv c
      exact ⟨ran, kept⟩
  | cut count c =>
      have own : ∀ s ∈ (c.batch.flatMap statements).take count, Identifies s := fun s mem =>
        ListingObservation.FromRows.identifies c.parsed_batch s (List.mem_of_mem_take mem)
      obtain ⟨tables', ran, kept, ended⟩ := inv.runUntil_execute own
      have left : service tables (.cut count c) = tables' := congrArg Outcome.state ended
      rw [left]
      exact ⟨ran, kept⟩

theorem logs : Logs service ListingTables.Identified rows log entries where
  injective := rows_injective
  make tables m inv := by
    obtain ⟨ran, kept⟩ := runAll_taken inv m
    exact ⟨kept, rows_of_execute ran⟩
  initial count c := by
    rw [entries, entries, taken, taken, bindable, bindable, ← List.take_takeWhile]
    exact (List.take_prefix _ _).map _

end LianjiaIngestCall

/-! ### All three stores -/

/-- **At least once.** Of transactions, market observations and parsed listings: when each call has
been made at least once in its turn, cut short and repeated and rewound at will, the store is
what making every call once leaves. -/
theorem ingestion_at_least_once [Runtime] :
    (∀ made calls, Delivered made calls →
      TransactionIngestionService.service.makeAll made (.empty _) = TransactionIngestionService.afterAll calls) ∧
    (∀ made calls, Delivered made calls → MarketObservationIngestionService.service.makeAll made (.empty _) =
      MarketObservationIngestionService.afterAll calls) ∧
    ∀ made calls, Delivered made calls →
      LianjiaIngestCall.service.makeAll made .empty = LianjiaIngestCall.afterAll calls := by
  refine ⟨?_, ?_, ?_⟩
  · intro made calls delivered
    exact (TransactionIngestionService.logs.delivered_eq trivial delivered).trans List.foldl_map
  · intro made calls delivered
    exact (MarketObservationIngestionService.logs.delivered_eq trivial delivered).trans List.foldl_map
  · intro made calls delivered
    have start : ListingTables.empty.Identified := LianjiaIngestCall.identified_afterAll []
    exact (LianjiaIngestCall.logs.delivered_eq start delivered).trans List.foldl_map

/-- A call that returns a deal. -/
def dealCall : TransactionIngestCall :=
  ⟨str "Fake", sampleTolerance, ⟨⟨communityA, none, none⟩, rfl⟩, .ok (FetchResult.fromParsed [soldInAMonth])⟩

/-- A call that returns an index and its correction. -/
def indexCall : MarketIngestCall :=
  ⟨str "Fake", sampleMarketRequest, .ok ⟨[indexPublished, indexCorrected]⟩⟩

/-- The call dies after its first statement, is made, and is made again. -/
def thrice {α : Type} (c : α) : List (Made α) := [.cut 1 c, .whole c, .whole c]

theorem delivered_thrice {α : Type} (c : α) : Delivered (thrice c) [c] :=
  .again [] [c] (.call c .none (.more .none (.stops [] c [] 1))) .none

theorem at_least_once_thrice : let _ := sampleRuntime
    TransactionIngestionService.service.makeAll (thrice dealCall) (.empty _) =
        TransactionIngestionService.afterAll [dealCall] ∧
      MarketObservationIngestionService.service.makeAll (thrice indexCall) (.empty _) =
        MarketObservationIngestionService.afterAll [indexCall] := by
  intro _
  obtain ⟨transactions, observations, -⟩ := ingestion_at_least_once
  exact ⟨transactions _ _ (delivered_thrice dealCall), observations _ _ (delivered_thrice indexCall)⟩

end CnPropertyAgent
