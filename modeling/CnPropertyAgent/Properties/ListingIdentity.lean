import CnPropertyAgent.Properties.AskingPriceHistory

/-!
What a stored listing says after a run, against what the market last showed.

The upsert folds the seen range with `least` and `greatest` but takes the status
and the description from the statement that comes last. So the row of a listing
describes the observation delivered last, which is the newest one only if the two
agree.
-/

namespace CnPropertyAgent

open Python Relational

/-- The columns of a listing that an observation describes. -/
structure Description where
  status : Str
  areaSqm : Option Double
  layout : Option Str
  floorBucket : Str
  orientation : Option Str
  builtYear : Option Int
  buildingType : Option Str
deriving DecidableEq

def ListingRow.description (row : ListingRow) : Description :=
  ⟨row.status, row.areaSqm, row.layout, row.floorBucket, row.orientation, row.builtYear,
    row.buildingType⟩

namespace ListingObservation

def description (o : ListingObservation) : Description := (ListingRow.ofModel o.listing).description

/-- No observation of the same listing in the log is newer. -/
def NewestIn (log : List ListingObservation) (o : ListingObservation) : Prop :=
  o ∈ log ∧ ∀ other ∈ log, other.listing.listingId = o.listing.listingId →
    other.snapshot.snapshotAt.instant ≤ o.snapshot.snapshotAt.instant

end ListingObservation

namespace ListingIngestionService

/-- Two observations of one listing at one instant are the same. -/
def Uncontradicted (log : List ListingObservation) : Prop :=
  ∀ a ∈ log, ∀ b ∈ log, a.listing.listingId = b.listing.listingId →
    a.snapshot.snapshotAt.instant = b.snapshot.snapshotAt.instant → a = b

variable {calls : List ListingIngestCall} {tables : ListingTables}

/-- The row of a listing describes the observation that came last. -/
theorem SuccessfulRun.description_eq (run : SuccessfulRun calls tables) (listingId : Str) :
    (tables.listing.get? listingId).map (·.description) =
      (lastOf (delivered calls) listingId).map (·.description) :=
  run.map_get?_listing (fun _ _ => rfl) listingId

/-- Every stored listing carries the status and description of its newest
observation, and the status of its newest stored snapshot. -/
def CarriesNewest (calls : List ListingIngestCall) (tables : ListingTables) : Prop :=
  (∀ o : ListingObservation, o.NewestIn (delivered calls) →
    (tables.listing.get? o.listing.listingId).map (·.description) = some o.description) ∧
  ∀ row ∈ tables.listing.rows, ∀ snapshots,
    ListingRepository.history tables row.listingId = .ok snapshots →
      ∀ newest ∈ snapshots.getLast?, newest.status.value = row.status

/-- For every listing, the observation delivered last agrees with the newest one. -/
def LastAgreesWithNewest (log : List ListingObservation) : Prop :=
  ∀ o : ListingObservation, o.NewestIn log →
    ∀ last ∈ lastOf log o.listing.listingId, last.description = o.description

/-- An older snapshot replayed after a newer one takes the status back. -/
theorem replay_takes_status_back :
    ¬ ∀ (calls : List ListingIngestCall) (tables : ListingTables), SuccessfulRun calls tables →
      (∀ o ∈ delivered calls, o.SingleInstant) → Uncontradicted (delivered calls) →
        CarriesNewest calls tables := by
  intro order_independent
  have run := (SuccessfulRun.empty.extend ⟨str "Fake", communityA, FetchResult.fromParsed [seenSold]⟩
    (by decide +kernel)).extend ⟨str "Fake", communityA, FetchResult.fromParsed [seenActive]⟩
    (by decide +kernel)
  have log : ∀ o ∈ delivered [⟨str "Fake", communityA, FetchResult.fromParsed [seenSold]⟩,
      ⟨str "Fake", communityA, FetchResult.fromParsed [seenActive]⟩], o = seenSold ∨ o = seenActive := by
    intro o mem
    simpa [delivered, FetchResult.fromParsed] using mem
  refine absurd ((order_independent _ _ run ?_ ?_).1 seenSold ⟨?_, ?_⟩) (by decide +kernel)
  · intro o mem
    rcases log o mem with rfl | rfl <;> exact ⟨rfl, rfl, rfl⟩
  · intro a ha b hb _ same
    rcases log a ha with rfl | rfl <;> rcases log b hb with rfl | rfl
    · rfl
    · exact absurd same (by decide +kernel)
    · exact absurd same (by decide +kernel)
    · rfl
  · exact List.mem_cons_self
  · intro other mem _
    rcases log other mem with rfl | rfl <;> decide +kernel

/-- **When the stored identity is the newest one.** After a run over observations
as the parser emits them, the listings carry their newest observations exactly
when, for each, the one delivered last says the same. -/
theorem carriesNewest_iff (run : SuccessfulRun calls tables)
    (single : ∀ o ∈ delivered calls, o.SingleInstant) :
    CarriesNewest calls tables ↔ LastAgreesWithNewest (delivered calls) := by
  constructor
  · rintro ⟨newest, -⟩ o ho last found
    have stored := newest o ho
    rw [run.description_eq, found] at stored
    exact Option.some.inj stored
  · intro agrees
    have carries : ∀ o : ListingObservation, o.NewestIn (delivered calls) →
        (tables.listing.get? o.listing.listingId).map (·.description) = some o.description := by
      intro o ho
      have observed : o ∈ (delivered calls).filter
          fun other => other.listing.listingId = o.listing.listingId :=
        List.mem_filter.mpr ⟨ho.1, by simp⟩
      have found := List.getLast?_eq_some_getLast (List.ne_nil_of_mem observed)
      rw [run.description_eq, lastOf, found, Option.map_some, agrees o ho _ found]
    have readable := run.readable fun o mem => (single o mem).ordered
    refine ⟨carries, ?_⟩
    intro row mem snapshots read newest last
    obtain ⟨snapshots', read', sorted, instants, exact_⟩ :=
      run.exists_history_of_plain (readable.plain_ids mem).1
    cases read.symm.trans read'
    have stored := List.mem_of_getLast? last
    obtain ⟨same, delivered_last⟩ := exact_ newest stored
    obtain ⟨o, found, rfl⟩ := Option.map_eq_some_iff.mp delivered_last
    have member := List.mem_filter.mp (List.mem_of_getLast? found)
    simp only [decide_eq_true_eq] at member
    obtain ⟨ho, listing, -⟩ := member
    -- the last stored instant is the greatest, and every observed instant is stored
    have greatest : o.NewestIn (delivered calls) := by
      refine ⟨ho, ?_⟩
      intro other hother sameListing
      obtain ⟨s, hs, instant⟩ := List.mem_map.mp ((instants other.snapshot.snapshotAt.instant).mpr
        ⟨other, hother, sameListing.trans listing, rfl⟩)
      rw [← instant]
      exact le_getLast?_of_pairwise sorted last hs
    have description := carries o greatest
    rw [listing, Table.get?_key mem, Option.map_some, Option.some_inj] at description
    have status := congrArg Description.status description
    change row.status = o.listing.status.value at status
    rw [status, (single o ho).2.2]
    rfl

/-- Snapshots ingested in the order of their instants: the row follows the newest. -/
theorem carriesNewest_in_order :
    ∃ tables, CarriesNewest [⟨str "Fake", communityA, FetchResult.fromParsed [seenActive]⟩,
      ⟨str "Fake", communityA, FetchResult.fromParsed [seenSold]⟩] tables := by
  have run := (SuccessfulRun.empty.extend ⟨str "Fake", communityA, FetchResult.fromParsed [seenActive]⟩
    (by decide +kernel)).extend ⟨str "Fake", communityA, FetchResult.fromParsed [seenSold]⟩ (by decide +kernel)
  have log : ∀ o ∈ delivered [⟨str "Fake", communityA, FetchResult.fromParsed [seenActive]⟩,
      ⟨str "Fake", communityA, FetchResult.fromParsed [seenSold]⟩], o = seenActive ∨ o = seenSold := by
    intro o mem
    simpa [delivered, FetchResult.fromParsed] using mem
  refine ⟨_, (carriesNewest_iff run ?_).mpr ?_⟩
  · intro o mem
    rcases log o mem with rfl | rfl <;> exact ⟨rfl, rfl, rfl⟩
  · intro o newest last found
    obtain ⟨mem, greatest⟩ := newest
    rcases log o mem with rfl | rfl
    · exact absurd (greatest seenSold (List.mem_cons_of_mem _ List.mem_cons_self) rfl)
        (by decide +kernel)
    · have last_seen : lastOf (delivered [⟨str "Fake", communityA, FetchResult.fromParsed [seenActive]⟩,
          ⟨str "Fake", communityA, FetchResult.fromParsed [seenSold]⟩]) seenSold.listing.listingId =
            some seenSold := by decide +kernel
      rw [← Option.some.inj (last_seen.symm.trans found)]

end ListingIngestionService

end CnPropertyAgent
