import CnPropertyAgent.Providers.Parsing
import CnPropertyAgent.Python.Collections
import CnPropertyAgent.Storage.Repositories

/-!
Listing ingestion: one fetched snapshot, persisted as identity and history.

The fetch is what the provider answered, a batch or the text of its exception.
The whole batch is checked against the requested community before the first
write; then each observation upserts its listing and appends its snapshot.
-/

namespace CnPropertyAgent

open Python Relational

structure ListingIngestionResultFields where
  communityId : Str
  sourceRowCount : Nat
  parsedCount : Nat
  persistedObservationCount : Nat
  listingIds : List Str
  parseRejections : List ParseRejection
deriving DecidableEq

/-- The counts are naturals, as `ge=0` asks. -/
def ListingIngestionResultFields.errors (r : ListingIngestionResultFields) : List ErrorItem :=
  checkNonempty (str "community_id") r.communityId

/-- Explicit outcome of one snapshot ingestion. -/
structure ListingIngestionResult extends ListingIngestionResultFields where
  valid : toListingIngestionResultFields.errors = []
deriving DecidableEq

def ListingIngestionResultFields.validate (fields : ListingIngestionResultFields) :
    Except Failure ListingIngestionResult :=
  if h : fields.errors = [] then .ok ⟨fields, h⟩ else .error (.validation fields.errors)

namespace ListingIngestionService

/-- Rejects the whole batch unless every listing belongs to `community`. -/
def requireRequestedCommunity (provider : Str) (community : Community) :
    List ListingObservation → Except Failure Unit
  | [] => .ok ()
  | observation :: rest =>
      let observedId := observation.listing.communityId
      if observedId ≠ community.communityId then
        .error (.providerContract provider community.communityId (str "listing " ++
          observation.listing.listingId ++ str " belongs to community " ++ observedId))
      else requireRequestedCommunity provider community rest

/-- What the write loop counts. -/
structure Progress where
  persistedCount : Nat
  listingIds : List Str

/-- One pass of the write loop: identity first, then the snapshot. -/
def persistObservation (tables : ListingTables) (progress : Progress)
    (observation : ListingObservation) : Outcome ListingTables Failure Progress :=
  match ListingRepository.upsertListing tables observation.listing with
  | .error e => ⟨tables, .error e⟩
  | .ok tables' =>
      match ListingRepository.appendSnapshot tables' observation.snapshot with
      | .error e => ⟨tables', .error e⟩
      | .ok tables'' =>
          let id := observation.listing.listingId
          ⟨tables'', .ok
            { persistedCount := progress.persistedCount + 1
              listingIds := appendNew progress.listingIds id }⟩

def ingest (provider : Str) (tables : ListingTables) (community : Community)
    (fetch : Except Str ListingFetchResult) : Outcome ListingTables Failure ListingIngestionResult :=
  match fetch with
  | .error message => ⟨tables, .error (.providerFetch provider community.communityId message)⟩
  | .ok fetched =>
      match requireRequestedCommunity provider community fetched.parsed with
      | .error e => ⟨tables, .error e⟩
      | .ok () =>
          match forEach persistObservation tables ⟨0, []⟩ fetched.parsed with
          | ⟨tables', .error e⟩ => ⟨tables', .error e⟩
          | ⟨tables', .ok progress⟩ => ⟨tables', ListingIngestionResultFields.validate
              { communityId := community.communityId
                sourceRowCount := fetched.sourceRowCount
                parsedCount := fetched.parsedCount
                persistedObservationCount := progress.persistedCount
                listingIds := progress.listingIds
                parseRejections := fetched.parseRejections }⟩

/-! ### The guard -/

theorem requireRequestedCommunity_ok_iff {provider : Str} {community : Community}
    {observations : List ListingObservation} :
    requireRequestedCommunity provider community observations = .ok () ↔
      ∀ o ∈ observations, o.listing.communityId = community.communityId := by
  induction observations with
  | nil => simp [requireRequestedCommunity]
  | cons o rest ih =>
      by_cases foreign : o.listing.communityId = community.communityId
      · simp [requireRequestedCommunity, foreign, ih]
      · simp [requireRequestedCommunity, foreign]

/-! ### Statements -/

/-- The two statements of one observation, in their order. -/
def statements (observation : ListingObservation) : List (Listing ⊕ ListingSnapshot) :=
  [.inl observation.listing, .inr observation.snapshot]

def execute (tables : ListingTables) : Listing ⊕ ListingSnapshot → Except Failure ListingTables
  | .inl item => ListingRepository.upsertListing tables item
  | .inr item => ListingRepository.appendSnapshot tables item

def writeObservation (tables : ListingTables) (observation : ListingObservation) :
    Except Failure ListingTables :=
  runAll execute tables (statements observation)

theorem writeObservation_eq (tables : ListingTables) (o : ListingObservation) :
    writeObservation tables o = (ListingRepository.upsertListing tables o.listing).bind fun tables' =>
      ListingRepository.appendSnapshot tables' o.snapshot := by
  rw [writeObservation, statements, runAll_cons]
  simp only [runAll_singleton, execute]

theorem runAll_writeObservation (tables : ListingTables) (observations : List ListingObservation) :
    runAll writeObservation tables observations = runAll execute tables (observations.flatMap statements) :=
  runAll_flatMap execute statements tables observations

def listingRows (observations : List ListingObservation) : List ListingRow :=
  observations.map fun o => ListingRow.ofModel o.listing

def snapshotRows (observations : List ListingObservation) : List SnapshotRow :=
  observations.map fun o => SnapshotRow.ofModel o.snapshot

/-- The statements on each table. -/
theorem filterMap_statements (observations : List ListingObservation) :
    (observations.flatMap statements).filterMap Sum.getLeft? = observations.map (·.listing) ∧
      (observations.flatMap statements).filterMap Sum.getRight? = observations.map (·.snapshot) := by
  induction observations with
  | nil => exact ⟨rfl, rfl⟩
  | cons o rest ih => exact ⟨congrArg (o.listing :: ·) ih.1, congrArg (o.snapshot :: ·) ih.2⟩

section

variable {tables tables' : ListingTables}

/-- What a run of statements leaves in the two tables. -/
theorem tables_of_execute {written : List (Listing ⊕ ListingSnapshot)}
    (ran : runAll execute tables written = .ok tables') :
    tables'.listing.toTable = tables.listing.toTable.upsertAll ListingRepository.onConflict
        ((written.filterMap Sum.getLeft?).map ListingRow.ofModel) ∧
      tables'.listingSnapshot = tables.listingSnapshot.upsertAll ListingRepository.snapshotOnConflict
        ((written.filterMap Sum.getRight?).map SnapshotRow.ofModel) := by
  induction written generalizing tables with
  | nil => cases ran; exact ⟨rfl, rfl⟩
  | cons s rest ih =>
      rw [runAll_cons] at ran
      obtain ⟨between, first, later⟩ := eq_ok_of_bind ran
      obtain ⟨listing, snapshots⟩ := ih later
      cases s with
      | inl item =>
          obtain ⟨upserted, same⟩ := ListingRepository.upsertListing_ok first
          exact ⟨by rw [listing, upserted]; rfl, by rw [snapshots, same]; rfl⟩
      | inr item =>
          obtain ⟨-, rfl⟩ := ListingRepository.appendSnapshot_ok_iff.mp first
          exact ⟨listing, by rw [snapshots]; rfl⟩

/-- What a run of observations leaves in the two tables. -/
theorem tables_of_runAll {observations : List ListingObservation}
    (ran : runAll writeObservation tables observations = .ok tables') :
    tables'.listing.toTable =
        tables.listing.toTable.upsertAll ListingRepository.onConflict (listingRows observations) ∧
      tables'.listingSnapshot = tables.listingSnapshot.upsertAll
        ListingRepository.snapshotOnConflict (snapshotRows observations) := by
  rw [runAll_writeObservation] at ran
  have left := tables_of_execute ran
  rw [(filterMap_statements observations).1, (filterMap_statements observations).2, List.map_map,
    List.map_map] at left
  exact left

end

/-- A statement of a batch is the first of an observation, or the second with the first ahead of it. -/
theorem split_statements {observations : List ListingObservation}
    {done rest : List (Listing ⊕ ListingSnapshot)} {s : Listing ⊕ ListingSnapshot}
    (split : observations.flatMap statements = done ++ s :: rest) :
    ∃ before o after, observations = before ++ o :: after ∧
      ((s = .inl o.listing ∧ done = before.flatMap statements) ∨
        (s = .inr o.snapshot ∧ done = before.flatMap statements ++ [.inl o.listing])) := by
  induction observations generalizing done with
  | nil => simp at split
  | cons o observations ih =>
      have parts : .inl o.listing :: .inr o.snapshot :: observations.flatMap statements = done ++ s :: rest :=
        split
      match done, parts with
      | [], parts =>
          obtain ⟨first, -⟩ := List.cons.inj parts
          exact ⟨[], o, observations, rfl, Or.inl ⟨first.symm, rfl⟩⟩
      | [x], parts =>
          obtain ⟨rfl, later⟩ := List.cons.inj parts
          obtain ⟨second, -⟩ := List.cons.inj later
          exact ⟨[], o, observations, rfl, Or.inr ⟨second.symm, rfl⟩⟩
      | x :: y :: done, parts =>
          obtain ⟨rfl, second⟩ := List.cons.inj parts
          obtain ⟨rfl, later⟩ := List.cons.inj second
          obtain ⟨before, o', after, same, place⟩ := ih later
          refine ⟨o :: before, o', after, congrArg (o :: ·) same, ?_⟩
          rcases place with ⟨rfl, before_eq⟩ | ⟨rfl, before_eq⟩
          · exact Or.inl ⟨rfl, congrArg (_ :: _ :: ·) before_eq⟩
          · exact Or.inr ⟨rfl, congrArg (_ :: _ :: ·) before_eq⟩

/-! ### The write loop -/

/-- What the loop has counted after `done`. -/
def progressAfter (done : List ListingObservation) : Progress :=
  ⟨done.length, firstOccurrences (done.map fun o => o.listing.listingId)⟩

/-- The loop writes the whole batch, or stops at a first refused statement with
the ones ahead of it executed. -/
theorem persistAll_spec (tables : ListingTables) (observations : List ListingObservation) :
    (forEach persistObservation tables ⟨0, []⟩ observations).Satisfies
      (fun progress tables' => runAll writeObservation tables observations = .ok tables' ∧
        progress = progressAfter observations)
      (fun e tables' => ∃ done s rest, observations.flatMap statements = done ++ s :: rest ∧
        runAll execute tables done = .ok tables' ∧ execute tables' s = .error e) := by
  simp only [runAll_writeObservation]
  refine forEach_rule
    (I := fun done progress tables' => runAll execute tables (done.flatMap statements) = .ok tables' ∧
      progress = progressAfter done) ⟨rfl, rfl⟩ ?_
  rintro done o rest progress tables' split ⟨ran, rfl⟩
  have parts : observations.flatMap statements =
      done.flatMap statements ++ .inl o.listing :: .inr o.snapshot :: rest.flatMap statements := by
    rw [split, List.flatMap_append, List.flatMap_cons]
    rfl
  unfold persistObservation
  cases upserted : ListingRepository.upsertListing tables' o.listing with
  | error e => exact ⟨_, _, _, parts, ran, upserted⟩
  | ok t =>
      have ran' : runAll execute tables (done.flatMap statements ++ [.inl o.listing]) = .ok t := by
        rw [runAll_append_singleton, ran]
        exact upserted
      dsimp only
      cases appended : ListingRepository.appendSnapshot t o.snapshot with
      | error e =>
          rw [Outcome.satisfies_error]
          exact ⟨_, .inr o.snapshot, _, by rw [parts, List.append_cons], ran', appended⟩
      | ok t' =>
          rw [Outcome.satisfies_ok]
          refine ⟨?_, ?_⟩
          · have both : (done ++ [o]).flatMap statements =
                done.flatMap statements ++ [.inl o.listing] ++ [.inr o.snapshot] := by
              rw [List.flatMap_append, List.flatMap_singleton, List.append_assoc]
              rfl
            rw [both, runAll_append_singleton, ran']
            exact appended
          · simp [progressAfter, firstOccurrences_append_singleton]

/-! ### The call -/

/-- The result of a call that wrote the whole batch. -/
theorem result_valid (community : Community) (fetched : ListingFetchResult) :
    ListingIngestionResultFields.errors
      { communityId := community.communityId
        sourceRowCount := fetched.sourceRowCount
        parsedCount := fetched.parsedCount
        persistedObservationCount := fetched.parsed.length
        listingIds := firstOccurrences (fetched.parsed.map fun o => o.listing.listingId)
        parseRejections := fetched.parseRejections } = [] :=
  checkNonempty_eq_nil.mpr community.communityId_valid

/-- The result of a call that wrote the whole batch. -/
def resultOf (community : Community) (fetched : ListingFetchResult) : ListingIngestionResult :=
  ⟨_, result_valid community fetched⟩

/-- **What a call can do.** It refuses the batch before any write, or writes all
of it, or stops at the first statement storage refuses and keeps the ones ahead. -/
theorem ingest_cases (provider : Str) (tables : ListingTables) (community : Community)
    (fetch : Except Str ListingFetchResult) :
    (∃ message, fetch = .error message ∧ ingest provider tables community fetch =
        ⟨tables, .error (.providerFetch provider community.communityId message)⟩) ∨
    ∃ fetched, fetch = .ok fetched ∧
      ((∃ e, requireRequestedCommunity provider community fetched.parsed = .error e ∧
        (∃ o ∈ fetched.parsed, o.listing.communityId ≠ community.communityId) ∧
        ingest provider tables community fetch = ⟨tables, .error e⟩) ∨
      (∀ o ∈ fetched.parsed, o.listing.communityId = community.communityId) ∧
        ((∃ tables', runAll writeObservation tables fetched.parsed = .ok tables' ∧
          ingest provider tables community fetch = ⟨tables', .ok (resultOf community fetched)⟩) ∨
        ∃ done s rest tables' e, fetched.parsed.flatMap statements = done ++ s :: rest ∧
          runAll execute tables done = .ok tables' ∧ execute tables' s = .error e ∧
          ingest provider tables community fetch = ⟨tables', .error e⟩)) := by
  cases fetch with
  | error message => exact Or.inl ⟨message, rfl, rfl⟩
  | ok fetched =>
      refine Or.inr ⟨fetched, rfl, ?_⟩
      cases guard : requireRequestedCommunity provider community fetched.parsed with
      | error e =>
          have foreign := exists_not_of_refused requireRequestedCommunity_ok_iff guard
          exact Or.inl ⟨e, rfl, foreign, by simp [ingest, guard]⟩
      | ok _ =>
          refine Or.inr ⟨requireRequestedCommunity_ok_iff.mp guard, ?_⟩
          have loop := persistAll_spec tables fetched.parsed
          cases h : forEach persistObservation tables ⟨0, []⟩ fetched.parsed with
          | mk tables' result =>
              rw [h] at loop
              cases result with
              | ok progress =>
                  obtain ⟨ran, rfl⟩ := loop
                  refine Or.inl ⟨tables', ran, ?_⟩
                  simp only [ingest, guard, h, progressAfter]
                  exact congrArg _ (dif_pos (result_valid community fetched))
              | error e =>
                  obtain ⟨done, s, rest, split, ran, refused⟩ := loop
                  exact Or.inr ⟨done, s, rest, tables', e, split, ran, refused, by simp [ingest, guard, h]⟩

/-- Past the guard, a call runs the statements of its batch. -/
theorem ingest_of_own (provider : Str) (tables : ListingTables) {community : Community}
    {fetched : ListingFetchResult}
    (own : ∀ o ∈ fetched.parsed, o.listing.communityId = community.communityId) :
    ingest provider tables community (.ok fetched) =
      ⟨(runUntil execute tables (fetched.parsed.flatMap statements)).state,
        (runUntil execute tables (fetched.parsed.flatMap statements)).result.map fun _ =>
          resultOf community fetched⟩ := by
  rcases ingest_cases provider tables community (.ok fetched) with
    ⟨_, failed, -⟩ | ⟨_, ⟨⟩, ⟨e, -, ⟨o, mem, foreign⟩, -⟩ | ⟨-, rest⟩⟩
  · cases failed
  · exact absurd (own o mem) foreign
  · rcases rest with ⟨tables', ran, eq⟩ | ⟨done, s, rest, tables', e, split, ran, refused, eq⟩
    · rw [runAll_writeObservation] at ran
      rw [eq, runUntil_of_runAll ran]
      rfl
    · rw [eq, split, runUntil_of_refused ran refused]
      rfl

/-! ### Which statements storage takes -/

/-- The texts of the statement can be bound. -/
def Bindable : Listing ⊕ ListingSnapshot → Prop
  | .inl item => PlainTexts (ListingRow.ofModel item).texts
  | .inr item => PlainTexts (SnapshotRow.ofModel item).texts

instance : DecidablePred Bindable
  | .inl item => inferInstanceAs (Decidable (PlainTexts (ListingRow.ofModel item).texts))
  | .inr item => inferInstanceAs (Decidable (PlainTexts (SnapshotRow.ofModel item).texts))

/-- The statements ahead of the first that cannot be bound. -/
def bindable (written : List (Listing ⊕ ListingSnapshot)) : List (Listing ⊕ ListingSnapshot) :=
  written.takeWhile fun s => Bindable s

/-- The texts of both statements can be bound. -/
def PlainObservation (o : ListingObservation) : Prop := Bindable (.inl o.listing) ∧ Bindable (.inr o.snapshot)

instance (o : ListingObservation) : Decidable (PlainObservation o) := inferInstanceAs (Decidable (_ ∧ _))

theorem forall_bindable_iff {observations : List ListingObservation} :
    (∀ s ∈ observations.flatMap statements, Bindable s) ↔ ∀ o ∈ observations, PlainObservation o := by
  rw [List.forall_mem_flatMap]
  simp only [statements, List.forall_mem_cons, List.not_mem_nil, false_implies, implies_true, and_true,
    PlainObservation]

/-- The provider identity stored under a listing id once `done` is written. -/
def identityAfter (tables : ListingTables) (done : List ListingObservation) (listingId : Str) :
    Option (Str × Str) :=
  (((listingRows done).filter (·.listingId = listingId)).getLast?.map
    ListingRow.sourceIdentity).or ((tables.listing.get? listingId).map ListingRow.sourceIdentity)

/-- After `done`, another listing id holds the provider identity of `o`. -/
def Collides (tables : ListingTables) (done : List ListingObservation) (o : ListingObservation) : Prop :=
  ∃ listingId, listingId ≠ o.listing.listingId ∧
    identityAfter tables done listingId = some (o.listing.source, o.listing.sourceListingId)

/-- No observation of the list collides with what is stored or comes ahead of it. -/
def CollisionFree (tables : ListingTables) (observations : List ListingObservation) : Prop :=
  ∀ done o rest, observations = done ++ o :: rest → ¬ Collides tables done o

section Refusals

variable {tables tables' : ListingTables} {done observations : List ListingObservation} {o : ListingObservation}

theorem collisionFree_append_singleton :
    CollisionFree tables (observations ++ [o]) ↔
      CollisionFree tables observations ∧ ¬ Collides tables observations o := by
  constructor
  · intro free
    refine ⟨?_, free observations o [] rfl⟩
    rintro done x rest rfl
    exact free done x (rest ++ [o]) (by simp)
  · rintro ⟨free, last⟩ done x rest split
    rcases List.eq_nil_or_concat rest with rfl | ⟨rest, y, rfl⟩
    · obtain ⟨rfl, same⟩ := List.append_inj' split rfl
      cases same
      exact last
    · rw [List.concat_eq_append, ← List.cons_append, ← List.append_assoc] at split
      exact free done x rest (List.append_inj' split rfl).1

theorem map_sourceIdentity_after (ran : runAll writeObservation tables done = .ok tables')
    (listingId : Str) :
    (tables'.listing.get? listingId).map ListingRow.sourceIdentity =
      identityAfter tables done listingId := by
  rw [(tables_of_runAll ran).1, Table.map_get?_upsertAll (fun _ _ _ => rfl)]
  rfl

theorem violates_iff_collides (ran : runAll writeObservation tables done = .ok tables') :
    tables'.listing.Violates ListingRepository.onConflict (ListingRow.ofModel o.listing) ↔
      Collides tables done o := by
  rw [ListingRepository.violates_iff]
  simp only [Collides, ← map_sourceIdentity_after ran, Option.map_eq_some_iff,
    Table.get?_eq_some_iff]
  constructor
  · rintro ⟨other, mem, differ, same⟩
    exact ⟨other.listingId, differ, other, ⟨mem, rfl⟩, same⟩
  · rintro ⟨_, differ, other, ⟨mem, rfl⟩, same⟩
    exact ⟨other, mem, differ, same⟩

/-- Storage refuses the listings that it cannot bind, and those that collide. -/
theorem upsertListing_refused_iff (ran : runAll writeObservation tables done = .ok tables') {e : Failure} :
    ListingRepository.upsertListing tables' o.listing = .error e ↔
      (e = .invalidInput ∧ ¬ Bindable (.inl o.listing)) ∨
      (e = .constraint ∧ Bindable (.inl o.listing) ∧ Collides tables done o) := by
  rw [ListingRepository.upsertListing_error_iff, violates_iff_collides ran]
  rfl

theorem upsertListing_accepted_iff (ran : runAll writeObservation tables done = .ok tables') :
    (∃ t, ListingRepository.upsertListing tables' o.listing = .ok t) ↔
      Bindable (.inl o.listing) ∧ ¬ Collides tables done o := by
  cases upserted : ListingRepository.upsertListing tables' o.listing with
  | error e =>
      rcases (upsertListing_refused_iff ran).mp upserted with ⟨-, unbound⟩ | ⟨-, -, collides⟩
      · simp [unbound]
      · simp [collides]
  | ok t =>
      have bound : Bindable (.inl o.listing) := by
        by_contra unbound
        cases upserted.symm.trans ((upsertListing_refused_iff ran).mpr (Or.inl ⟨rfl, unbound⟩))
      have free : ¬ Collides tables done o := by
        intro collides
        cases upserted.symm.trans ((upsertListing_refused_iff ran).mpr (Or.inr ⟨rfl, bound, collides⟩))
      simp [bound, free]

/-- An observation is written if its texts can be bound and it does not collide. -/
theorem writeObservation_accepted_iff (ran : runAll writeObservation tables done = .ok tables') :
    (∃ t, writeObservation tables' o = .ok t) ↔ PlainObservation o ∧ ¬ Collides tables done o := by
  have first := upsertListing_accepted_iff (o := o) ran
  constructor
  · rintro ⟨t, written⟩
    rw [writeObservation_eq] at written
    obtain ⟨between, upserted, appended⟩ := eq_ok_of_bind written
    obtain ⟨bound, free⟩ := first.mp ⟨between, upserted⟩
    exact ⟨⟨bound, (ListingRepository.appendSnapshot_ok_iff.mp appended).1⟩, free⟩
  · rintro ⟨⟨bound, bound'⟩, free⟩
    obtain ⟨between, upserted⟩ := first.mpr ⟨bound, free⟩
    have appended := (@ListingRepository.appendSnapshot_ok_iff between _ o.snapshot).mpr ⟨bound', rfl⟩
    exact ⟨_, by rw [writeObservation_eq, upserted]; exact appended⟩

/-- Storage takes the whole batch. -/
theorem accepted_iff :
    (CollisionFree tables observations ∧ ∀ o ∈ observations, PlainObservation o) ↔
      ∃ tables', runAll writeObservation tables observations = .ok tables' := by
  induction observations using List.reverseRecOn with
  | nil =>
      constructor
      · intro _
        exact ⟨tables, rfl⟩
      · intro _
        exact ⟨fun done o rest split => by simp at split, fun o mem => nomatch mem⟩
  | append_singleton observations o ih =>
      rw [collisionFree_append_singleton, List.forall_mem_append, List.forall_mem_singleton]
      constructor
      · rintro ⟨⟨free, last⟩, plain, plain'⟩
        obtain ⟨t, ran⟩ := ih.mp ⟨free, plain⟩
        obtain ⟨t', written⟩ := (writeObservation_accepted_iff ran).mpr ⟨plain', last⟩
        exact ⟨t', by rw [runAll_append_singleton, ran]; exact written⟩
      · rintro ⟨t', ran'⟩
        obtain ⟨t, ran, written⟩ := exists_of_runAll_append ran'
        rw [runAll_singleton] at written
        obtain ⟨free, plain⟩ := ih.mpr ⟨t, ran⟩
        obtain ⟨plain', last⟩ := (writeObservation_accepted_iff ran).mp ⟨t', written⟩
        exact ⟨⟨free, last⟩, plain, plain'⟩

/-- Storage takes the batch up to the listing of an observation. -/
theorem reached_iff :
    (CollisionFree tables (done ++ [o]) ∧ (∀ x ∈ done, PlainObservation x) ∧ Bindable (.inl o.listing)) ↔
      ∃ tables', runAll execute tables (done.flatMap statements ++ [.inl o.listing]) = .ok tables' := by
  rw [collisionFree_append_singleton]
  constructor
  · rintro ⟨⟨free, last⟩, plain, bound⟩
    obtain ⟨t, ran⟩ := accepted_iff.mp ⟨free, plain⟩
    obtain ⟨t', upserted⟩ := (upsertListing_accepted_iff ran).mpr ⟨bound, last⟩
    rw [runAll_writeObservation] at ran
    exact ⟨t', by rw [runAll_append_singleton, ran]; exact upserted⟩
  · rintro ⟨t', ran'⟩
    obtain ⟨t, ran, upserted⟩ := exists_of_runAll_append ran'
    rw [runAll_singleton] at upserted
    rw [← runAll_writeObservation] at ran
    obtain ⟨free, plain⟩ := accepted_iff.mpr ⟨t, ran⟩
    obtain ⟨bound, last⟩ := (upsertListing_accepted_iff ran).mp ⟨t', upserted⟩
    exact ⟨⟨free, last⟩, plain, bound⟩

end Refusals

end ListingIngestionService

end CnPropertyAgent
