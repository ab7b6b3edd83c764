import CnPropertyAgent.Services.ListingRuns
import CnPropertyAgent.Services.MarketObservationIngestion

/-!
What ingestion for one subject does to the evidence of the others.

The guard looks at the subject a batch declares and the upserts at the identifier
of a row, so the two meet only where the identifiers of a batch are not stored
under another subject. Where one is, its row changes hands.
-/

namespace CnPropertyAgent

open Python Relational

/-! ### Listings -/

/-- What the listing repository reads about a community. -/
def ListingTables.evidence (tables : ListingTables) (communityId : Str) :
    Except Failure (List (Listing Instant)) × Except Failure (List (Str × ListingSnapshot Instant)) ×
      Except Failure (List (ListingSnapshot Instant)) :=
  (ListingRepository.listForCommunity tables communityId,
    ListingRepository.latestSnapshotsForCommunity tables communityId,
    ListingRepository.historyForCommunity tables communityId)

namespace ListingIngestionService

section Frame

/-- What listings and snapshots leave, each snapshot of one of the listings. -/
structure Wrote (tables : ListingTables) (identities : List Listing) (history : List ListingSnapshot)
    (tables' : ListingTables) : Prop where
  listing : tables'.listing.toTable =
    tables.listing.toTable.upsertAll ListingRepository.onConflict (identities.map ListingRow.ofModel)
  snapshot : tables'.listingSnapshot =
    tables.listingSnapshot.upsertAll ListingRepository.snapshotOnConflict (history.map SnapshotRow.ofModel)
  identified : ∀ s ∈ history, ∃ l ∈ identities, l.listingId = s.listingId

variable {tables tables' : ListingTables} {identities : List Listing} {history : List ListingSnapshot}
  {community other : Str}

/-- The stored row of every written listing is already under the community. -/
def StoredUnder (tables : ListingTables) (community : Str) (identities : List Listing) : Prop :=
  ∀ l ∈ identities, ∀ row, tables.listing.get? l.listingId = some row → row.communityId = community

/-- The community of a written listing is that of its last version. -/
theorem communityId_after (wrote : Wrote tables identities history tables')
    (own : ∀ l ∈ identities, l.communityId = community) {l : Listing} (mem : l ∈ identities) :
    (tables'.listing.get? l.listingId).map (·.communityId) = some community := by
  have alike : ∀ row ∈ identities.map ListingRow.ofModel, row.communityId = community :=
    List.forall_mem_map.mpr own
  have written : ListingRow.ofModel l ∈ identities.map ListingRow.ofModel := List.mem_map_of_mem mem
  rw [wrote.listing]
  exact Table.map_get?_upsertAll_of_mem (fun _ _ _ => rfl) _ alike written

/-- Whether a listing is stored under the other community does not change. -/
theorem storedUnder_other (wrote : Wrote tables identities history tables')
    (own : ∀ l ∈ identities, l.communityId = community)
    (stored : StoredUnder tables community identities) (differ : other ≠ community)
    (listingId : Str) :
    (tables'.listing.get? listingId).any (fun l => l.communityId = other) =
      (tables.listing.get? listingId).any fun l => l.communityId = other := by
  by_cases written : ∃ l ∈ identities, l.listingId = listingId
  · obtain ⟨l, mem, rfl⟩ := written
    have after := communityId_after wrote own mem
    cases found' : tables'.listing.get? l.listingId with
    | none => rw [found'] at after; cases after
    | some row' =>
        rw [found', Option.map_some, Option.some_inj] at after
        cases found : tables.listing.get? l.listingId with
        | none => simp [after, differ.symm]
        | some row => simp [after, stored l mem row found, differ.symm]
  · rw [wrote.listing, Table.get?_upsertAll_of_forall_ne]
    intro row mem same
    obtain ⟨l, hl, rfl⟩ := List.mem_map.mp mem
    exact written ⟨l, hl, same⟩

/-- The listing rows of the other community are as they were. -/
theorem listing_rows_other (wrote : Wrote tables identities history tables')
    (own : ∀ l ∈ identities, l.communityId = community)
    (stored : StoredUnder tables community identities) (differ : other ≠ community) :
    tables'.listing.rows.filter (fun row => row.communityId = other) =
      tables.listing.rows.filter fun row => row.communityId = other := by
  rw [wrote.listing]
  apply Table.filter_upsertAll_of_column (f := ListingRow.communityId) (a := community)
  · intro row selected
    rw [of_decide_eq_true selected]
    exact differ
  · intro _ _ _
    rfl
  · exact List.forall_mem_map.mpr own
  · exact List.forall_mem_map.mpr stored

/-- So are the snapshots joined to them: none of the written ones is of its listings. -/
theorem snapshotsForCommunity_other (wrote : Wrote tables identities history tables')
    (own : ∀ l ∈ identities, l.communityId = community)
    (stored : StoredUnder tables community identities) (differ : other ≠ community) :
    ListingRepository.snapshotsForCommunity tables' other =
      ListingRepository.snapshotsForCommunity tables other := by
  have unlisted : ∀ s ∈ history,
      (tables.listing.get? s.listingId).any (fun l => l.communityId = other) = false := by
    intro s hs
    obtain ⟨l, hl, same⟩ := wrote.identified s hs
    rw [← same, Option.any_eq_false]
    intro row found
    simp [stored l hl row found, differ.symm]
  simp only [ListingRepository.snapshotsForCommunity_eq, storedUnder_other wrote own stored differ]
  rw [wrote.snapshot]
  apply Table.filter_upsertAll
  · intro row mem old found
    obtain ⟨s, hs, rfl⟩ := List.mem_map.mp mem
    have same : (ListingRepository.snapshotOnConflict.absorb old (SnapshotRow.ofModel s)).listingId =
        s.listingId := by
      cases old with
      | none => rfl
      | some old => exact congrArg Prod.fst (found old rfl)
    rw [same]
    exact unlisted s hs
  · intro row mem old _ same
    obtain ⟨s, hs, rfl⟩ := List.mem_map.mp mem
    have sameId : old.listingId = s.listingId := congrArg Prod.fst same
    rw [sameId]
    exact unlisted s hs

/-- **Frame.** Listings of one community, none stored under another, leave what is read
about any other community as it was. -/
theorem evidence_of_wrote (wrote : Wrote tables identities history tables')
    (own : ∀ l ∈ identities, l.communityId = community)
    (stored : StoredUnder tables community identities) (differ : other ≠ community) :
    tables'.evidence other = tables.evidence other := by
  simp only [ListingTables.evidence, ListingRepository.listForCommunity,
    ListingRepository.latestSnapshotsForCommunity, ListingRepository.historyForCommunity,
    listing_rows_other wrote own stored differ, snapshotsForCommunity_other wrote own stored differ]

/-- The listings stored under the other communities read back. -/
def OthersReadBack (tables : ListingTables) (community : Str) : Prop :=
  EncodedBy (ListingRow.ofModel (T := Instant)) (tables.listing.rows.filter fun row => row.communityId ≠ community)

/-- A written listing that was stored under another community is gone from it. -/
theorem listForCommunity_moved (others : OthersReadBack tables community)
    (wrote : Wrote tables identities history tables') (own : ∀ l ∈ identities, l.communityId = community)
    {l : Listing} (mem : l ∈ identities) {row : ListingRow}
    (found : tables.listing.get? l.listingId = some row) (foreign : row.communityId ≠ community) :
    ListingRepository.listForCommunity tables' row.communityId ≠
      ListingRepository.listForCommunity tables row.communityId := by
  intro unchanged
  have stored := Table.mem_of_get? found
  obtain ⟨item, rfl⟩ := others row (List.mem_filter.mpr ⟨stored, decide_eq_true foreign⟩)
  have encoded : EncodedBy (ListingRow.ofModel (T := Instant))
      (tables.listing.rows.filter fun row => row.communityId = item.communityId) := by
    refine others.of_subset fun row selected => ?_
    rw [List.mem_filter, decide_eq_true_eq] at selected ⊢
    exact ⟨selected.1, selected.2 ▸ foreign⟩
  obtain ⟨items, read, rows⟩ := ListingRepository.exists_listForCommunity_of_encoded encoded
  have listed : item ∈ items := (ListingRepository.mem_of_rows_listForCommunity rows).mpr ⟨stored, rfl⟩
  rw [whenBound_eq_ok (plainTexts_singleton.mpr item.communityId_valid.1)] at read
  obtain ⟨row', stored', same, subject'⟩ :=
    ListingRepository.stored_of_listForCommunity (unchanged.trans read) listed
  have subject := communityId_after wrote own mem
  rw [← Table.key_of_get? found] at subject
  change (tables'.listing.get? item.listingId).map (·.communityId) = some community at subject
  rw [← same, Table.get?_key stored', Option.map_some, subject'] at subject
  exact foreign (Option.some.inj subject)

end Frame

/-! ### What a call writes -/

/-- Storage takes the batch up to the listing of the observation: none ahead of it collides or
has texts that cannot be bound, and neither does its listing. -/
def Reached (tables : ListingTables) (batch : List ListingObservation) (o : ListingObservation) : Prop :=
  ∃ done rest, batch = done ++ o :: rest ∧ CollisionFree tables (done ++ [o]) ∧
    (∀ x ∈ done, PlainObservation x) ∧ Bindable (.inl o.listing)

section

variable {tables tables' : ListingTables} {batch : List ListingObservation}
  {executed rest : List (Listing ⊕ ListingSnapshot)}

/-- The first statements of a batch, as listings and snapshots. -/
theorem wrote_of_execute (split : batch.flatMap statements = executed ++ rest)
    (ran : runAll execute tables executed = .ok tables') :
    Wrote tables (executed.filterMap Sum.getLeft?) (executed.filterMap Sum.getRight?) tables' where
  listing := (tables_of_execute ran).1
  snapshot := (tables_of_execute ran).2
  identified := by
    intro s mem
    obtain ⟨statement, executed_, right⟩ := List.mem_filterMap.mp mem
    obtain ⟨before, after, rfl⟩ := List.append_of_mem executed_
    rw [List.append_assoc, List.cons_append] at split
    obtain ⟨done, o, -, -, place⟩ := split_statements split
    rcases place with ⟨rfl, -⟩ | ⟨rfl, rfl⟩
    · cases right
    · cases right
      exact ⟨o.listing, List.mem_filterMap.mpr ⟨.inl o.listing, by simp, rfl⟩, o.identity⟩

/-- The listings among the executed statements are those of the observations reached. -/
theorem mem_executed_iff (split : batch.flatMap statements = executed ++ rest)
    (ran : runAll execute tables executed = .ok tables')
    (stopped : rest = [] ∨ ∃ s later e, rest = s :: later ∧ execute tables' s = .error e) {l : Listing} :
    l ∈ executed.filterMap Sum.getLeft? ↔ ∃ o, Reached tables batch o ∧ o.listing = l := by
  constructor
  · intro mem
    obtain ⟨statement, executed_, left⟩ := List.mem_filterMap.mp mem
    obtain ⟨before, after, rfl⟩ := List.append_of_mem executed_
    rw [List.append_assoc, List.cons_append] at split
    obtain ⟨done, o, later, rfl, place⟩ := split_statements split
    rcases place with ⟨rfl, rfl⟩ | ⟨rfl, -⟩
    · cases left
      rw [← List.singleton_append, ← List.append_assoc] at ran
      obtain ⟨t, ran, -⟩ := exists_of_runAll_append ran
      exact ⟨o, ⟨done, later, rfl, reached_iff.mpr ⟨t, ran⟩⟩, rfl⟩
    · cases left
  · rintro ⟨o, ⟨done, later, rfl, reached⟩, rfl⟩
    obtain ⟨t, ran'⟩ := reached_iff.mp reached
    have initial : done.flatMap statements ++ [.inl o.listing] <+: executed ++ rest := by
      rw [← split, List.flatMap_append, List.flatMap_cons]
      exact ⟨.inr o.snapshot :: later.flatMap statements, by simp [statements]⟩
    have within : done.flatMap statements ++ [.inl o.listing] <+: executed := by
      rcases stopped with rfl | ⟨s, tail, e, rfl, refused⟩
      · rwa [List.append_nil] at initial
      · rcases initial_or_holds initial with short | ⟨more, long⟩
        · exact short
        · rw [← long] at ran'
          obtain ⟨t', ran', -⟩ := exists_of_runAll_append ran'
          rw [runAll_append_singleton, ran] at ran'
          cases refused.symm.trans ran'
    exact List.mem_filterMap.mpr ⟨.inl o.listing, within.subset (by simp), rfl⟩

end

/-- The batch is about another community and refused, or every observation that storage
reaches is of a listing not stored under another community. -/
def KeepsApart (tables : ListingTables) (community : Community) (fetched : ListingFetchResult) : Prop :=
  (∃ o ∈ fetched.parsed, o.listing.communityId ≠ community.communityId) ∨
    ∀ o, Reached tables fetched.parsed o → ∀ row, tables.listing.get? o.listing.listingId = some row →
      row.communityId = community.communityId

/-- Every call writes the observations of its own community that storage reaches, or nothing. -/
theorem ingest_writes (provider : Str) (tables : ListingTables) (community : Community)
    (fetched : ListingFetchResult) :
    ((∃ o ∈ fetched.parsed, o.listing.communityId ≠ community.communityId) ∧
      (ingest provider tables community (.ok fetched)).state = tables) ∨
    ((∀ o ∈ fetched.parsed, o.listing.communityId = community.communityId) ∧
      ∃ identities history,
        Wrote tables identities history (ingest provider tables community (.ok fetched)).state ∧
        ∀ l, l ∈ identities ↔ ∃ o, Reached tables fetched.parsed o ∧ o.listing = l) := by
  have wrote {executed rest : List (Listing ⊕ ListingSnapshot)} {t : ListingTables}
      (split : fetched.parsed.flatMap statements = executed ++ rest)
      (ran : runAll execute tables executed = .ok t)
      (stopped : rest = [] ∨ ∃ s later e, rest = s :: later ∧ execute t s = .error e) :
      ∃ identities history, Wrote tables identities history t ∧
        ∀ l, l ∈ identities ↔ ∃ o, Reached tables fetched.parsed o ∧ o.listing = l :=
    ⟨_, _, wrote_of_execute split ran, fun _ => mem_executed_iff split ran stopped⟩
  rcases ingest_cases provider tables community (.ok fetched) with
    ⟨message, eq, -⟩ | ⟨fetched', eq, rest⟩
  · cases eq
  · cases eq
    rcases rest with ⟨_, -, foreign, stopped⟩ |
      ⟨own, ⟨t, ran, finished⟩ | ⟨executed, s, rest, t, e, split, ran, refused, stopped⟩⟩
    · exact Or.inl ⟨foreign, by rw [stopped]⟩
    · rw [runAll_writeObservation] at ran
      rw [finished]
      exact Or.inr ⟨own, wrote (List.append_nil _).symm ran (Or.inl rfl)⟩
    · rw [stopped]
      exact Or.inr ⟨own, wrote split ran (Or.inr ⟨s, rest, e, rfl, refused⟩)⟩

section

variable {provider : Str} {tables : ListingTables} {community : Community}
  {fetched : ListingFetchResult}

/-- Everything read about every other community stays as it was. -/
def LeavesOthers (provider : Str) (tables : ListingTables) (community : Community)
    (fetched : ListingFetchResult) : Prop :=
  ∀ other, other ≠ community.communityId →
    (ingest provider tables community (.ok fetched)).state.evidence other = tables.evidence other

theorem mem_of_reached {tables : ListingTables} {batch : List ListingObservation} {o : ListingObservation}
    (reached : Reached tables batch o) : o ∈ batch := by
  obtain ⟨done, rest, rfl, -⟩ := reached
  exact List.mem_append_right done List.mem_cons_self

theorem evidence_of_keepsApart (apart : KeepsApart tables community fetched) {other : Str}
    (differ : other ≠ community.communityId) :
    (ingest provider tables community (.ok fetched)).state.evidence other = tables.evidence other := by
  rcases ingest_writes provider tables community fetched with
    ⟨-, unchanged⟩ | ⟨own, identities, history, wrote, member⟩
  · rw [unchanged]
  · rcases apart with ⟨o, mem, foreign⟩ | stored
    · exact absurd (own o mem) foreign
    · refine evidence_of_wrote wrote ?_ ?_ differ
      · intro l mem
        obtain ⟨o, reached, rfl⟩ := (member l).mp mem
        exact own o (mem_of_reached reached)
      · intro l mem
        obtain ⟨o, reached, rfl⟩ := (member l).mp mem
        exact stored o reached

theorem keepsApart_of_evidence (others : OthersReadBack tables community.communityId)
    (unchanged : LeavesOthers provider tables community fetched) :
    KeepsApart tables community fetched := by
  rcases ingest_writes provider tables community fetched with
    ⟨foreign, -⟩ | ⟨own, identities, history, wrote, member⟩
  · exact Or.inl foreign
  · apply Or.inr
    intro o reached row found
    by_contra foreign
    have written : o.listing ∈ identities := (member _).mpr ⟨o, reached, rfl⟩
    have subjects : ∀ l ∈ identities, l.communityId = community.communityId := by
      intro l mem
      obtain ⟨x, reached, rfl⟩ := (member l).mp mem
      exact own x (mem_of_reached reached)
    exact listForCommunity_moved others wrote subjects written found foreign
      (congrArg Prod.fst (unchanged row.communityId foreign))

end

end ListingIngestionService

/-! ### Market observations -/

namespace MarketObservationIngestionService

section Frame

variable {table : MarketObservationTable} {observations : List MarketObservation} {city other : Str}

/-- The stored row of every observation is already under the city. -/
def StoredUnder (table : MarketObservationTable) (city : Str) (observations : List MarketObservation) :
    Prop :=
  ∀ o ∈ observations, ∀ row, table.get? o.observationId = some row → row.cityCode = city

/-- The city of a written observation is that of its last version. -/
theorem cityCode_after (table : MarketObservationTable) (own : ∀ o ∈ observations, o.cityCode = city)
    {o : MarketObservation} (mem : o ∈ observations) :
    ((written table observations).get? o.observationId).map (·.cityCode) = some city := by
  have alike : ∀ row ∈ observations.map MarketObservationRow.ofModel, row.cityCode = city :=
    List.forall_mem_map.mpr own
  have present : MarketObservationRow.ofModel o ∈ observations.map MarketObservationRow.ofModel :=
    List.mem_map_of_mem mem
  exact Table.map_get?_upsertAll_of_mem (fun _ _ _ => rfl) table alike present

/-- **Frame.** Under any filters, the series of another city is as it was. -/
theorem listForCity_written (own : ∀ o ∈ observations, o.cityCode = city)
    (stored : StoredUnder table city observations) (differ : other ≠ city)
    (geographyType geographyCode metricName : Option Str) (startDate endDate : Option Date) :
    MarketObservationRepository.listForCity (written table observations) other geographyType
        geographyCode metricName startDate endDate =
      MarketObservationRepository.listForCity table other geographyType geographyCode metricName
        startDate endDate := by
  unfold MarketObservationRepository.listForCity written
  rw [Table.filter_upsertAll_of_column (f := MarketObservationRow.cityCode) (a := city)]
  · intro row selected
    simp only [Bool.and_eq_true, decide_eq_true_eq] at selected
    rw [selected.1.1.1.1.1]
    exact differ
  · intro _ _ _
    rfl
  · exact List.forall_mem_map.mpr own
  · exact List.forall_mem_map.mpr stored

/-- A written observation that was stored under another city is gone from it. -/
theorem listForCity_moved (readable : EncodedBy MarketObservationRow.ofModel table.rows)
    (own : ∀ o ∈ observations, o.cityCode = city) {o : MarketObservation} (mem : o ∈ observations)
    {row : MarketObservationRow} (found : table.get? o.observationId = some row)
    (foreign : row.cityCode ≠ city) :
    MarketObservationRepository.listForCity (written table observations) row.cityCode
        none none none none none ≠
      MarketObservationRepository.listForCity table row.cityCode none none none none none := by
  intro unchanged
  have readable' : EncodedBy MarketObservationRow.ofModel (written table observations).rows :=
    readable.upsertAll_of_overwrites MarketObservationRepository.onConflict_overwrites observations
  obtain ⟨items, read, rows⟩ := MarketObservationRepository.exists_listForCity readable row.cityCode
  obtain ⟨items', read', rows'⟩ := MarketObservationRepository.exists_listForCity readable' row.cityCode
  have plain : PlainTexts [row.cityCode] := by
    obtain ⟨item, rfl⟩ := readable row (Table.mem_of_get? found)
    exact plainTexts_singleton.mpr item.cityCode_valid.1
  rw [whenBound_eq_ok plain] at read read'
  cases (unchanged.symm.trans read').symm.trans read
  have before : row ∈ items.map MarketObservationRow.ofModel := by
    rw [rows, mem_orderBy, List.mem_filter]
    exact ⟨Table.mem_of_get? found, by simp⟩
  rw [rows', mem_orderBy, List.mem_filter] at before
  have subject := cityCode_after table own mem
  rw [← Table.key_of_get? found, Table.get?_key before.1] at subject
  exact foreign (Option.some.inj subject)

end Frame

/-- The batch is about another city and refused, or no observation ahead of the first that cannot
be bound is stored under another city. -/
def KeepsApart (table : MarketObservationTable) (city : Str)
    (fetched : MarketObservationFetchResult) : Prop :=
  (∃ o ∈ fetched.observations, o.cityCode ≠ city) ∨ StoredUnder table city (taken fetched.observations)

section

variable {provider : Str} {table : MarketObservationTable}
  {request : MarketObservationIngestionRequest} {fetched : MarketObservationFetchResult}

/-- The series of every other city stays as it was, under any filters. -/
def LeavesOthers (provider : Str) (table : MarketObservationTable)
    (request : MarketObservationIngestionRequest) (fetched : MarketObservationFetchResult) : Prop :=
  ∀ other, other ≠ request.cityCode → ∀ geographyType geographyCode metricName startDate endDate,
    MarketObservationRepository.listForCity (ingest provider table request (.ok fetched)).state other
        geographyType geographyCode metricName startDate endDate =
      MarketObservationRepository.listForCity table other geographyType geographyCode metricName
        startDate endDate

theorem listForCity_of_keepsApart (apart : KeepsApart table request.cityCode fetched) {other : Str}
    (differ : other ≠ request.cityCode) (geographyType geographyCode metricName : Option Str)
    (startDate endDate : Option Date) :
    MarketObservationRepository.listForCity (ingest provider table request (.ok fetched)).state other
        geographyType geographyCode metricName startDate endDate =
      MarketObservationRepository.listForCity table other geographyType geographyCode metricName
        startDate endDate := by
  rcases ingest_cases provider table request (.ok fetched) with ⟨message, eq, -⟩ | ⟨fetched', eq, rest⟩
  · cases eq
  · cases eq
    rcases rest with ⟨e, -, stopped⟩ | ⟨own, finished⟩
    · rw [stopped]
    · rcases apart with ⟨o, mem, foreign⟩ | stored
      · exact absurd (own o mem) foreign
      · rw [finished]
        exact listForCity_written (fun o mem => own o (mem_of_taken mem)) stored differ _ _ _ _ _

theorem keepsApart_of_listForCity (readable : EncodedBy MarketObservationRow.ofModel table.rows)
    (unchanged : ∀ other, other ≠ request.cityCode →
      MarketObservationRepository.listForCity (ingest provider table request (.ok fetched)).state other
          none none none none none =
        MarketObservationRepository.listForCity table other none none none none none) :
    KeepsApart table request.cityCode fetched := by
  rcases ingest_cases provider table request (.ok fetched) with ⟨message, eq, -⟩ | ⟨fetched', eq, rest⟩
  · cases eq
  · cases eq
    rcases rest with ⟨e, foreign, -⟩ | ⟨own, finished⟩
    · exact Or.inl foreign
    · apply Or.inr
      intro o mem row found
      by_contra foreign
      apply listForCity_moved readable (fun o mem => own o (mem_of_taken mem)) mem found foreign
      have same := unchanged row.cityCode foreign
      rwa [finished] at same

end

end MarketObservationIngestionService

/-! ### Both -/

/-- A batch for B that repeats a listing id of A takes the listing away from A. -/
theorem listing_changes_hands :
    ¬ ∀ (provider : Str) (tables : ListingTables) (community : Community)
      (fetched : ListingFetchResult) (other : Str), other ≠ community.communityId →
      ListingRepository.listForCommunity
          (ListingIngestionService.ingest provider tables community (.ok fetched)).state other =
        ListingRepository.listForCommunity tables other := by
  intro isolated
  have unchanged := isolated (str "Fake")
    (ListingIngestionService.ingest (str "Fake") .empty communityA
      (.ok (FetchResult.fromParsed [seenActive]))).state
    communityB (FetchResult.fromParsed [claimedByB]) (str "cm-a") (by decide +kernel)
  exact absurd unchanged (by decide +kernel)

/-- **When ingestion keeps subjects apart.** A call leaves everything read about
every other subject as it was if the identifiers it writes are not stored under
another subject, and where what is stored of the others reads back only if. A failed
fetch changes nothing. -/
theorem ingest_isolates_iff (provider message : Str) (tables : ListingTables) (community : Community)
    (fetched : ListingFetchResult) (table : MarketObservationTable)
    (request : MarketObservationIngestionRequest) (published : MarketObservationFetchResult) :
    ((ListingIngestionService.KeepsApart tables community fetched →
        ListingIngestionService.LeavesOthers provider tables community fetched) ∧
      (ListingIngestionService.OthersReadBack tables community.communityId →
        ListingIngestionService.LeavesOthers provider tables community fetched →
        ListingIngestionService.KeepsApart tables community fetched) ∧
      (ListingIngestionService.ingest provider tables community (.error message)).state = tables) ∧
    (MarketObservationIngestionService.KeepsApart table request.cityCode published →
        MarketObservationIngestionService.LeavesOthers provider table request published) ∧
      (EncodedBy MarketObservationRow.ofModel table.rows →
        MarketObservationIngestionService.LeavesOthers provider table request published →
          MarketObservationIngestionService.KeepsApart table request.cityCode published) ∧
      (MarketObservationIngestionService.ingest provider table request (.error message)).state = table := by
  refine ⟨⟨?_, ?_, rfl⟩, ?_, ?_, rfl⟩
  · intro apart other differ
    exact ListingIngestionService.evidence_of_keepsApart apart differ
  · intro others unchanged
    exact ListingIngestionService.keepsApart_of_evidence others unchanged
  · intro apart other differ geographyType geographyCode metricName startDate endDate
    exact MarketObservationIngestionService.listForCity_of_keepsApart apart differ _ _ _ _ _
  · intro readable unchanged
    apply MarketObservationIngestionService.keepsApart_of_listForCity readable
    intro other differ
    exact unchanged other differ none none none none none

/-- A new listing of B leaves what is read about A as it was. -/
theorem new_listing_keeps_apart :
    (ListingIngestionService.ingest (str "Fake")
        (ListingIngestionService.ingest (str "Fake") .empty communityA
          (.ok (FetchResult.fromParsed [seenActive]))).state
        communityB (.ok (FetchResult.fromParsed [newForB]))).state.evidence (str "cm-a") =
      (ListingIngestionService.ingest (str "Fake") .empty communityA
        (.ok (FetchResult.fromParsed [seenActive]))).state.evidence (str "cm-a") := by
  apply (ingest_isolates_iff (str "Fake") [] _ communityB (FetchResult.fromParsed [newForB]) (.empty _)
    ⟨⟨str "310000", none, none, none⟩, by decide⟩ ⟨[]⟩).1.1 (Or.inr ?_) (str "cm-a") (by decide +kernel)
  intro o reached row found
  rw [List.mem_singleton.mp (ListingIngestionService.mem_of_reached reached)] at found
  exact absurd (show _ = none by decide +kernel) (Option.ne_none_iff_exists'.mpr ⟨row, found⟩)

end CnPropertyAgent
