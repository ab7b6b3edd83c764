import CnPropertyAgent.Services.ListingRuns
import CnPropertyAgent.Services.MarketRuns
import CnPropertyAgent.Services.TransactionRuns

/-!
Ingesting the same fetch result again.

A call that returned writes rows that its batch alone determines. The conflict rules
of all tables are associative and idempotent on the rows of one key, so the same run
of statements changes nothing the second time, whatever the batch repeats and however
it contradicts itself. Only the second uniqueness constraint of the listing table
could object, and it does not where a listing has one provider identity in the batch.
-/

namespace CnPropertyAgent

open Python Relational

/-! ### Transactions -/

namespace TransactionIngestionService

variable [Runtime] {provider : Str} {tolerance : UnitPriceTolerance} {table : TransactionTable}
  {request : TransactionIngestionRequest} {fetched : TransactionFetchResult}
  {result : TransactionIngestionResult}

/-- A call that returns writes the same rows to any table and returns the same result. -/
theorem ingest_anywhere
    (returned : (ingest provider tolerance table request (.ok fetched)).result = .ok result) :
    ∃ written : List Transaction, ∀ table' : TransactionTable,
      ingest provider tolerance table' request (.ok fetched) =
        ⟨table'.upsertAll TransactionRepository.onConflict (TransactionRepository.rowsOf written),
          .ok result⟩ := by
  rcases ingest_cases provider tolerance table request fetched with
    ⟨-, e, raised⟩ | ⟨evaluable, outcomes, each, ⟨fits, finished⟩ | ⟨_, _, _, -, -, -, stopped⟩⟩
  · rw [raised] at returned
    cases returned
  · rw [finished] at returned
    cases returned
    refine ⟨acceptedTransactions outcomes, ?_⟩
    intro table'
    rcases ingest_cases provider tolerance table' request fetched with
      ⟨⟨record, mem, raises⟩, -⟩ | ⟨-, outcomes', each', ⟨-, finished'⟩ |
        ⟨done, t, rest, split, -, refused, -⟩⟩
    · exact absurd raises (evaluable record mem)
    · cases each.symm.trans each'
      exact finished'
    · cases each.symm.trans each'
      exact absurd (fits t (split ▸ List.mem_append_right done List.mem_cons_self)) refused
  · rw [stopped] at returned
    cases returned

theorem replay {table' : TransactionTable}
    (returned : ingest provider tolerance table request (.ok fetched) = ⟨table', .ok result⟩) :
    ingest provider tolerance table' request (.ok fetched) = ⟨table', .ok result⟩ := by
  obtain ⟨written, anywhere⟩ := ingest_anywhere (congrArg Outcome.result returned)
  have wrote : table.upsertAll TransactionRepository.onConflict
      (TransactionRepository.rowsOf written) = table' :=
    congrArg Outcome.state ((anywhere table).symm.trans returned)
  rw [anywhere table', ← wrote]
  exact congrArg (Outcome.mk · _) (Table.upsertAll_upsertAll
    (Table.band_of_overwrites TransactionRepository.onConflict_overwrites) table _)

end TransactionIngestionService

/-! ### Listings -/

namespace ListingRepository

/-- The seen range folds with `least` and `greatest`, the other columns are overwritten. -/
theorem onConflict_band : Table.Band onConflict where
  assoc x y z _ _ := by
    simp only [onConflict, min_assoc, max_assoc]
  idem x := by
    simp only [onConflict, min_self, max_self]

end ListingRepository

namespace ListingIngestionService

/-- Each listing id comes with one provider identity throughout the batch. -/
def OneIdentity (observations : List ListingObservation) : Prop :=
  ∀ o ∈ observations, ∀ o' ∈ observations, o.listing.listingId = o'.listing.listingId →
    o.listing.source = o'.listing.source ∧ o.listing.sourceListingId = o'.listing.sourceListingId

instance (observations : List ListingObservation) : Decidable (OneIdentity observations) :=
  inferInstanceAs (Decidable (∀ o ∈ observations, ∀ o' ∈ observations,
    o.listing.listingId = o'.listing.listingId → _))

section

variable {tables tables' : ListingTables} {observations : List ListingObservation}

theorem sourceIdentity_eq (one : OneIdentity observations) {o : ListingObservation}
    (mem : o ∈ observations) {row : ListingRow}
    (written : row ∈ (listingRows observations).filter (·.listingId = o.listing.listingId)) :
    row.sourceIdentity = (ListingRow.ofModel o.listing).sourceIdentity := by
  obtain ⟨inRows, same⟩ := List.mem_filter.mp written
  obtain ⟨o', mem', rfl⟩ := List.mem_map.mp inRows
  obtain ⟨source, id⟩ := one o' mem' o mem (of_decide_eq_true same)
  exact Prod.ext source id

/-- After the batch, each of its listings is stored under the identity it came with. -/
theorem stored_sourceIdentity (ran : runAll writeObservation tables observations = .ok tables')
    (one : OneIdentity observations) {o : ListingObservation} (mem : o ∈ observations) :
    (tables'.listing.get? o.listing.listingId).map ListingRow.sourceIdentity =
      some (ListingRow.ofModel o.listing).sourceIdentity := by
  have written : ListingRow.ofModel o.listing ∈
      (listingRows observations).filter (·.listingId = o.listing.listingId) :=
    List.mem_filter.mpr ⟨List.mem_map_of_mem mem, decide_eq_true rfl⟩
  rw [map_sourceIdentity_after ran, identityAfter,
    List.getLast?_eq_some_getLast (List.ne_nil_of_mem written), Option.map_some, Option.some_or,
    sourceIdentity_eq one mem (List.getLast_mem _)]

/-- Writing a part of the batch again leaves every identity as the batch left it. -/
theorem identityAfter_again (ran : runAll writeObservation tables observations = .ok tables')
    (one : OneIdentity observations) {done : List ListingObservation}
    (part : ∀ o ∈ done, o ∈ observations) (listingId : Str) :
    identityAfter tables' done listingId =
      (tables'.listing.get? listingId).map ListingRow.sourceIdentity := by
  rw [identityAfter]
  cases last : ((listingRows done).filter (·.listingId = listingId)).getLast? with
  | none => rfl
  | some row =>
      obtain ⟨inRows, same⟩ := List.mem_filter.mp (List.mem_of_getLast? last)
      obtain ⟨o, mem, rfl⟩ := List.mem_map.mp inRows
      rw [← of_decide_eq_true same]
      exact (stored_sourceIdentity ran one (part o mem)).symm

/-- Storage takes the batch again: the identities it asks for are already its own. -/
theorem collisionFree_again (ran : runAll writeObservation tables observations = .ok tables')
    (one : OneIdentity observations) : CollisionFree tables' observations := by
  rintro done o rest split ⟨otherId, differ, taken⟩
  have mem : o ∈ observations := split ▸ List.mem_append_right done List.mem_cons_self
  have part : ∀ x ∈ done, x ∈ observations := fun x hx => split ▸ List.mem_append_left _ hx
  rw [identityAfter_again ran one part] at taken
  obtain ⟨other, hother, sameOther⟩ := Option.map_eq_some_iff.mp taken
  obtain ⟨own, hown, sameOwn⟩ := Option.map_eq_some_iff.mp (stored_sourceIdentity ran one mem)
  -- both rows carry the identity of `o`, so they are one row
  have same := List.inj_on_of_nodup_map tables'.listing.alts_nodup (Table.mem_of_get? hother)
    (Table.mem_of_get? hown) (sameOther.trans sameOwn.symm)
  rw [same] at hother
  exact differ ((Table.key_of_get? hother).symm.trans (Table.key_of_get? hown))

theorem runAll_again (ran : runAll writeObservation tables observations = .ok tables')
    (one : OneIdentity observations) : runAll writeObservation tables' observations = .ok tables' := by
  have plain := (accepted_iff.mpr ⟨tables', ran⟩).2
  obtain ⟨tables'', again⟩ := accepted_iff.mp ⟨collisionFree_again ran one, plain⟩
  obtain ⟨listing, snapshots⟩ := tables_of_runAll ran
  obtain ⟨listing', snapshots'⟩ := tables_of_runAll again
  rw [listing, Table.upsertAll_upsertAll ListingRepository.onConflict_band, ← listing] at listing'
  rw [snapshots, Table.upsertAll_upsertAll
    (Table.band_of_overwrites ListingRepository.snapshotOnConflict_overwrites), ← snapshots] at snapshots'
  rw [again]
  cases tables''; cases tables'
  exact congrArg Except.ok (congrArg₂ ListingTables.mk (UniqueTable.ext listing') snapshots')

end

theorem replay {provider : Str} {tables tables' : ListingTables} {community : Community}
    {fetched : ListingFetchResult} {result : ListingIngestionResult} (one : OneIdentity fetched.parsed)
    (returned : ingest provider tables community (.ok fetched) = ⟨tables', .ok result⟩) :
    ingest provider tables' community (.ok fetched) = ⟨tables', .ok result⟩ := by
  obtain ⟨ran, rfl, own⟩ := ingest_returned returned
  have again := runAll_again ran one
  rcases ingest_cases provider tables' community (.ok fetched) with
    ⟨message, eq, -⟩ | ⟨fetched', eq, ⟨_, -, ⟨o, mem, foreign⟩, -⟩ | ⟨-, ⟨t, ran', finished⟩ |
      ⟨done, s, rest, t, e, split, ran', refused, -⟩⟩⟩
  · cases eq
  · cases eq
    exact absurd (own o mem) foreign
  · cases eq
    cases again.symm.trans ran'
    exact finished
  · cases eq
    rw [runAll_writeObservation, split, runAll_append_refused ran' refused] at again
    cases again

end ListingIngestionService

/-! ### Market observations -/

namespace MarketObservationIngestionService

theorem replay {provider : Str} {table table' : MarketObservationTable}
    {request : MarketObservationIngestionRequest} {fetched : MarketObservationFetchResult}
    {result : MarketObservationIngestionResult}
    (returned : ingest provider table request (.ok fetched) = ⟨table', .ok result⟩) :
    ingest provider table' request (.ok fetched) = ⟨table', .ok result⟩ := by
  rcases ingest_cases provider table request (.ok fetched) with
    ⟨message, eq, -⟩ | ⟨fetched', eq, ⟨e, -, stopped⟩ | ⟨own, finished⟩⟩
  · cases eq
  · cases eq
    rw [stopped] at returned
    cases returned
  · cases eq
    by_cases bound : ∀ o ∈ fetched.observations, Bindable o
    swap
    · rw [finished, if_neg bound] at returned
      cases returned
    rw [finished, if_pos bound] at returned
    cases returned
    rcases ingest_cases provider (written table (taken fetched.observations)) request (.ok fetched) with
      ⟨message, eq, -⟩ | ⟨fetched', eq, ⟨e, ⟨o, mem, foreign⟩, -⟩ | ⟨-, again⟩⟩
    · cases eq
    · cases eq
      exact absurd (own o mem) foreign
    · cases eq
      rw [again, if_pos bound]
      exact congrArg (Outcome.mk · _) (Table.upsertAll_upsertAll
        (Table.band_of_overwrites MarketObservationRepository.onConflict_overwrites) table _)

end MarketObservationIngestionService

/-! ### All three -/

/-- **An immediate replay changes nothing.** Where a call of one of the three services
returned, the same call on the tables it left returns an equal result and leaves them
as they are; of a listing batch it is asked that each listing id comes with one
provider identity. -/
theorem replay_idempotent [Runtime] :
    (∀ provider tolerance (table table' : TransactionTable) request fetched result,
      TransactionIngestionService.ingest provider tolerance table request (.ok fetched) =
        ⟨table', .ok result⟩ →
      TransactionIngestionService.ingest provider tolerance table' request (.ok fetched) =
        ⟨table', .ok result⟩) ∧
    (∀ provider tables tables' community fetched result,
      ListingIngestionService.OneIdentity fetched.parsed →
      ListingIngestionService.ingest provider tables community (.ok fetched) = ⟨tables', .ok result⟩ →
      ListingIngestionService.ingest provider tables' community (.ok fetched) =
        ⟨tables', .ok result⟩) ∧
    ∀ provider (table table' : MarketObservationTable) request fetched result,
      MarketObservationIngestionService.ingest provider table request (.ok fetched) =
        ⟨table', .ok result⟩ →
      MarketObservationIngestionService.ingest provider table' request (.ok fetched) =
        ⟨table', .ok result⟩ := by
  refine ⟨?_, ?_, ?_⟩
  · intro provider tolerance table table' request fetched result returned
    exact TransactionIngestionService.replay returned
  · intro provider tables tables' community fetched result one returned
    exact ListingIngestionService.replay one returned
  · intro provider table table' request fetched result returned
    exact MarketObservationIngestionService.replay returned

/-- A deal, a listing reported twice with the later report first, and an index with its
correction: each batch ingested into the empty tables and then once more. -/
theorem replay_idempotent_samples :
    (∃ table result, @TransactionIngestionService.ingest sampleRuntime (str "Fake") sampleTolerance
      table ⟨⟨communityA, none, none⟩, rfl⟩ (.ok (FetchResult.fromParsed [soldInAMonth])) =
        ⟨table, .ok result⟩) ∧
    (∃ tables result, ListingIngestionService.ingest (str "Fake") tables communityA
      (.ok (FetchResult.fromParsed [seenSold, seenActive])) = ⟨tables, .ok result⟩) ∧
    ∃ table result, MarketObservationIngestionService.ingest (str "Fake") table sampleMarketRequest
      (.ok ⟨[indexPublished, indexCorrected]⟩) = ⟨table, .ok result⟩ := by
  obtain ⟨transactions, listings, observations⟩ := @replay_idempotent sampleRuntime
  refine ⟨?_, ?_, ?_⟩
  · obtain ⟨table, result, returned⟩ := Outcome.exists_of_isOk (show
      (@TransactionIngestionService.ingest sampleRuntime (str "Fake") sampleTolerance (.empty _)
        ⟨⟨communityA, none, none⟩, rfl⟩
        (.ok (FetchResult.fromParsed [soldInAMonth]))).result.isOk = true by decide +kernel)
    exact ⟨table, result, transactions _ _ _ table _ _ result returned⟩
  · obtain ⟨tables, result, returned⟩ := Outcome.exists_of_isOk (show
      (ListingIngestionService.ingest (str "Fake") .empty communityA
        (.ok (FetchResult.fromParsed [seenSold, seenActive]))).result.isOk = true by decide +kernel)
    have one : ListingIngestionService.OneIdentity [seenSold, seenActive] := by decide +kernel
    exact ⟨tables, result, listings _ _ tables _ _ result one returned⟩
  · obtain ⟨table, result, returned⟩ := Outcome.exists_of_isOk (show
      (MarketObservationIngestionService.ingest (str "Fake") (.empty _) sampleMarketRequest
        (.ok ⟨[indexPublished, indexCorrected]⟩)).result.isOk = true by decide +kernel)
    exact ⟨table, result, observations _ _ table _ _ result returned⟩

end CnPropertyAgent
