import CnPropertyAgent.Properties.RowIsolation
import CnPropertyAgent.Services.ListingIngestion

/-!
The identity of Lianjia listings in storage.

The listing table has two uniqueness constraints, and an upsert resolves conflicts on
one of them only. Neither is ever at stake for what the parser emits, since it derives
the listing id from the provider identity: rows with one provider identity are rows
with one listing id. No two provider identities need to have different digests for it.
-/

namespace CnPropertyAgent

open Python Relational Lianjia ListingIngestionService

section

variable [Runtime]

/-- The observation is one of a batch that `parse_listing_rows` returned. -/
def ListingObservation.FromRows (o : ListingObservation) : Prop :=
  ∃ context rows result, parseListingRows context rows = .ok result ∧ o ∈ result.records

/-- The listing id is the one derived from the provider identity. -/
def ListingRow.Identified (row : ListingRow) : Prop :=
  buildListingId row.source row.sourceListingId = .ok row.listingId

theorem ListingObservation.FromRows.identified {o : ListingObservation} (parsed : o.FromRows) :
    (ListingRow.ofModel o.listing).Identified := by
  obtain ⟨context, rows, result, returned, mem⟩ := parsed
  obtain ⟨i, row, -, alone⟩ := exists_row_of_records returned mem
  obtain ⟨source, built⟩ := parseListingRow_identity alone
  change buildListingId o.listing.source o.listing.sourceListingId = .ok o.listing.listingId
  rw [source]
  exact built

/-- A row shows one datetime, so its listing is seen first no later than last. -/
theorem ListingObservation.FromRows.ordered {o : ListingObservation} (parsed : o.FromRows) :
    o.listing.Ordered := by
  obtain ⟨context, rows, result, returned, mem⟩ := parsed
  obtain ⟨i, row, -, alone⟩ := exists_row_of_records returned mem
  exact (parseListingRow_oneRow alone).singleInstant.ordered

/-- Derived ids tell listings apart as far as their provider identities do. -/
theorem ListingRow.Identified.listingId_eq {row row' : ListingRow} (h : row.Identified)
    (h' : row'.Identified) (same : row.sourceIdentity = row'.sourceIdentity) :
    row.listingId = row'.listingId := by
  obtain ⟨source, id⟩ := Prod.mk.inj same
  rw [Identified, source, id] at h
  exact Except.ok.inj (h.symm.trans h')

/-- The invariant: every listing row has the id derived from its provider identity. -/
def ListingTables.Identified (tables : ListingTables) : Prop :=
  ∀ row ∈ tables.listing.rows, row.Identified

/-- The listing of the statement, if it is about one, has the derived id. -/
def Identifies (s : Listing ⊕ ListingSnapshot) : Prop :=
  match s with
  | .inl item => (ListingRow.ofModel item).Identified
  | .inr _ => True

theorem ListingObservation.FromRows.identifies {observations : List ListingObservation}
    (parsed : ∀ o ∈ observations, o.FromRows) : ∀ s ∈ observations.flatMap statements, Identifies s := by
  intro s mem
  obtain ⟨o, ho, mem⟩ := List.mem_flatMap.mp mem
  rcases List.mem_pair.mp mem with rfl | rfl
  · exact (parsed o ho).identified
  · trivial

namespace ListingTables.Identified

variable {tables : ListingTables}

/-- An identified row never takes the provider identity of another listing. -/
theorem not_violates (inv : tables.Identified) {row : ListingRow} (own : row.Identified) :
    ¬ tables.listing.Violates ListingRepository.onConflict row := by
  rw [ListingRepository.violates_iff]
  rintro ⟨other, mem, differ, same⟩
  exact differ ((inv other mem).listingId_eq own same)

/-- The upsert rewrites the provider identity of a row, to one with the same id. -/
theorem upsertListing (inv : tables.Identified) {item : Listing} (own : (ListingRow.ofModel item).Identified)
    {tables' : ListingTables} (written : ListingRepository.upsertListing tables item = .ok tables') :
    tables'.Identified := by
  intro row mem
  rw [(ListingRepository.upsertListing_ok written).1] at mem
  rcases Table.mem_upsert.mp mem with rfl | ⟨stored, -⟩
  · cases found : Table.get? tables.listing.toTable (ListingRow.ofModel item).listingId with
    | none => exact own
    | some old =>
        have key := Table.key_of_get? found
        change buildListingId item.source item.sourceListingId = .ok old.listingId
        rw [key]
        exact own
  · exact inv row stored

/-- A statement on an identified listing, or on any snapshot, is executed if it can be bound. -/
theorem execute_cases (inv : tables.Identified) {s : Listing ⊕ ListingSnapshot} (own : Identifies s) :
    (Bindable s ∧ ∃ tables', execute tables s = .ok tables' ∧ tables'.Identified) ∨
      (¬ Bindable s ∧ execute tables s = .error .invalidInput) := by
  cases s with
  | inl item =>
      by_cases bound : Bindable (.inl item)
      · cases written : ListingRepository.upsertListing tables item with
        | ok tables' => exact Or.inl ⟨bound, tables', written, inv.upsertListing own written⟩
        | error e =>
            rcases ListingRepository.upsertListing_error_iff.mp written with ⟨-, unbound⟩ | ⟨-, -, violates⟩
            · exact absurd bound unbound
            · exact absurd violates (inv.not_violates own)
      · exact Or.inr ⟨bound, ListingRepository.upsertListing_error_iff.mpr (Or.inl ⟨rfl, bound⟩)⟩
  | inr item =>
      by_cases bound : Bindable (.inr item)
      · exact Or.inl ⟨bound, _, ListingRepository.appendSnapshot_ok_iff.mpr ⟨bound, rfl⟩, inv⟩
      · exact Or.inr ⟨bound, ListingRepository.appendSnapshot_error_iff.mpr ⟨rfl, bound⟩⟩

theorem of_execute (inv : tables.Identified) {s : Listing ⊕ ListingSnapshot} (own : Identifies s)
    {tables' : ListingTables} (executed : execute tables s = .ok tables') : tables'.Identified := by
  rcases inv.execute_cases own with ⟨-, t, same, inv'⟩ | ⟨-, refused⟩
  · cases executed.symm.trans same
    exact inv'
  · cases executed.symm.trans refused

theorem runAll_bindable (inv : tables.Identified) {written : List (Listing ⊕ ListingSnapshot)}
    (own : ∀ s ∈ written, Identifies s) (bound : ∀ s ∈ written, Bindable s) :
    ∃ tables', runAll execute tables written = .ok tables' ∧ tables'.Identified := by
  induction written generalizing tables with
  | nil => exact ⟨tables, rfl, inv⟩
  | cons s rest ih =>
      rcases inv.execute_cases (own s List.mem_cons_self) with ⟨-, t, executed, inv'⟩ | ⟨unbound, -⟩
      · obtain ⟨tables', ran, inv''⟩ := ih inv' (fun x mem => own x (List.mem_cons_of_mem s mem))
          fun x mem => bound x (List.mem_cons_of_mem s mem)
        exact ⟨tables', by rw [runAll_cons, executed]; exact ran, inv''⟩
      · exact absurd (bound s List.mem_cons_self) unbound

/-- Identified statements run up to the first that cannot be bound. -/
theorem runUntil_execute (inv : tables.Identified) {written : List (Listing ⊕ ListingSnapshot)}
    (own : ∀ s ∈ written, Identifies s) :
    ∃ tables', runAll execute tables (bindable written) = .ok tables' ∧ tables'.Identified ∧
      runUntil execute tables written =
        ⟨tables', if ∀ s ∈ written, Bindable s then .ok () else .error .invalidInput⟩ := by
  by_cases bound : ∀ s ∈ written, Bindable s
  · obtain ⟨tables', ran, inv'⟩ := inv.runAll_bindable own bound
    have all : bindable written = written := by
      rw [bindable, List.takeWhile_eq_self_iff]
      simpa using bound
    exact ⟨tables', by rw [all, ran], inv', by rw [runUntil_of_runAll ran, if_pos bound]⟩
  · obtain ⟨done, s, rest, rfl, ahead, plain, unbound⟩ := exists_takeWhile_append bound
    obtain ⟨tables', ran, inv'⟩ := inv.runAll_bindable
      (fun x mem => own x (List.mem_append_left _ mem)) plain
    rcases inv'.execute_cases (own s (List.mem_append_right done List.mem_cons_self)) with
      ⟨stated, -⟩ | ⟨-, refused⟩
    · exact absurd stated unbound
    · exact ⟨tables', by rw [bindable, ahead, ran], inv', by rw [runUntil_of_refused ran refused, if_neg bound]⟩

end ListingTables.Identified

/-! ### Runs -/

/-- A call whose observations, where it fetches any, come from `parse_listing_rows`. -/
structure LianjiaIngestCall where
  provider : Str
  community : Community
  fetch : Except Str ListingFetchResult
  parsed : ∀ fetched, fetch = .ok fetched → ∀ o ∈ fetched.parsed, o.FromRows

namespace LianjiaIngestCall

def outcome (tables : ListingTables) (c : LianjiaIngestCall) :
    Outcome ListingTables Failure ListingIngestionResult :=
  ingest c.provider tables c.community c.fetch

/-- What a sequence of calls leaves of the empty tables. -/
def afterAll (calls : List LianjiaIngestCall) : ListingTables :=
  calls.foldl (fun tables c => (c.outcome tables).state) .empty

/-- The batch of a call, unless the guard refuses it. -/
def batch (c : LianjiaIngestCall) : List ListingObservation :=
  match c.fetch with
  | .error _ => []
  | .ok fetched =>
      if ∀ o ∈ fetched.parsed, o.listing.communityId = c.community.communityId then fetched.parsed else []

theorem batch_of_own {c : LianjiaIngestCall} {fetched : ListingFetchResult} (answered : c.fetch = .ok fetched)
    (own : ∀ o ∈ fetched.parsed, o.listing.communityId = c.community.communityId) : c.batch = fetched.parsed := by
  simp only [batch, answered, if_pos own]

theorem parsed_batch (c : LianjiaIngestCall) : ∀ o ∈ c.batch, o.FromRows := by
  unfold batch
  split
  · exact fun o mem => absurd mem List.not_mem_nil
  · rename_i fetched answered
    split_ifs
    · exact c.parsed fetched answered
    · exact fun o mem => absurd mem List.not_mem_nil

/-- What a call leaves: the statements of its batch ahead of the first that cannot be bound. -/
theorem outcome_spec {tables : ListingTables} (inv : tables.Identified) (c : LianjiaIngestCall) :
    runAll execute tables (bindable (c.batch.flatMap statements)) = .ok (c.outcome tables).state ∧
      (c.outcome tables).state.Identified ∧
      ∀ fetched, c.fetch = .ok fetched →
        (∀ o ∈ fetched.parsed, o.listing.communityId = c.community.communityId) →
        (c.outcome tables).result = if ∀ o ∈ fetched.parsed, PlainObservation o then
          .ok (resultOf c.community fetched) else .error .invalidInput := by
  unfold outcome batch
  rcases ingest_cases c.provider tables c.community c.fetch with
    ⟨message, failed, eq⟩ | ⟨fetched, answered, ⟨e, -, ⟨o, mem, foreign⟩, eq⟩ | ⟨own, -⟩⟩
  · rw [eq, failed]
    exact ⟨rfl, inv, fun _ same => nomatch same⟩
  · have refused : ¬ ∀ o ∈ fetched.parsed, o.listing.communityId = c.community.communityId :=
      fun own => foreign (own o mem)
    rw [eq, answered]
    simp only [if_neg refused]
    refine ⟨rfl, inv, ?_⟩
    rintro _ ⟨⟩ own
    exact absurd own refused
  · obtain ⟨tables', ran, inv', ended⟩ := inv.runUntil_execute
      (ListingObservation.FromRows.identifies (c.parsed fetched answered))
    rw [answered, ingest_of_own c.provider tables own, ended]
    simp only [if_pos own]
    refine ⟨ran, inv', ?_⟩
    rintro _ ⟨⟩ -
    simp only [forall_bindable_iff]
    split_ifs <;> rfl

theorem identified_afterAll (calls : List LianjiaIngestCall) : (afterAll calls).Identified := by
  induction calls using List.reverseRecOn with
  | nil =>
      intro row mem
      cases mem
  | append_singleton calls c ih =>
      rw [afterAll, List.foldl_append]
      exact (outcome_spec ih c).2.1

end LianjiaIngestCall

open LianjiaIngestCall

/-- **One row for a provider id, and none refused for it.** After any sequence of calls with
parsed observations, every listing row has the id derived from its provider identity, no
two rows have one provider identity, and no upsert that a following call reaches violates the
constraint on it. Storage takes its batch exactly if it can bind every text of it. -/
theorem lianjia_identity (calls : List LianjiaIngestCall) :
    (∀ row ∈ (afterAll calls).listing.rows,
      buildListingId row.source row.sourceListingId = .ok row.listingId) ∧
    (∀ row ∈ (afterAll calls).listing.rows, ∀ row' ∈ (afterAll calls).listing.rows,
      (row.source, row.sourceListingId) = (row'.source, row'.sourceListingId) → row = row') ∧
    ∀ (next : LianjiaIngestCall) fetched, next.fetch = .ok fetched →
      (∀ done item rest tables, fetched.parsed.flatMap statements = done ++ .inl item :: rest →
        runAll execute (afterAll calls) done = .ok tables →
          ¬ tables.listing.Violates ListingRepository.onConflict (ListingRow.ofModel item)) ∧
      ((∀ o ∈ fetched.parsed, o.listing.communityId = next.community.communityId) →
        (ingest next.provider (afterAll calls) next.community next.fetch).result =
          if ∀ o ∈ fetched.parsed, PlainObservation o then .ok (resultOf next.community fetched)
          else .error .invalidInput) := by
  have inv := identified_afterAll calls
  refine ⟨inv, ?_, ?_⟩
  · intro row mem row' mem' same
    -- by the derived ids, not by the constraint itself
    exact List.inj_on_of_nodup_map (afterAll calls).listing.keys_nodup mem mem'
      ((inv row mem).listingId_eq (inv row' mem') same)
  · intro next fetched answered
    refine ⟨?_, (outcome_spec inv next).2.2 fetched answered⟩
    intro done item rest tables split ran
    have own := ListingObservation.FromRows.identifies (next.parsed fetched answered)
    rw [split] at own
    have kept : tables.Identified := runAll_invariant (P := ListingTables.Identified)
      (fun s mem t t' inv executed => inv.of_execute (own s (List.mem_append_left _ mem)) executed) inv ran
    exact kept.not_violates (own (.inl item) (List.mem_append_right done List.mem_cons_self))

/-- A row whose layout is an unpaired surrogate, which no field check refuses. -/
def surrogateLayoutRow : Json := .object [(str "房源编号", .text (str "101")), (str "总价", .text (str "300万")),
  (str "房屋户型", .text [0xD800])]

end

/-- Storage refuses a batch that was parsed. -/
theorem parsed_batch_is_refused :
    ¬ ∀ (_ : Runtime) (calls : List LianjiaIngestCall) (next : LianjiaIngestCall) (fetched : ListingFetchResult),
      next.fetch = .ok fetched →
      (∀ o ∈ fetched.parsed, o.listing.communityId = next.community.communityId) →
      ∃ result, (ingest next.provider (LianjiaIngestCall.afterAll calls) next.community next.fetch).result =
        .ok result := by
  intro never
  let _ := sampleRuntime
  obtain ⟨result, parsed⟩ := exists_eq_ok
    (x := parseListingRows sampleListingContext [surrogateLayoutRow]) (by decide +kernel)
  let next : LianjiaIngestCall := ⟨str "Fake", communityA, .ok (.fromParsed result.records), by
    rintro _ ⟨⟩ o mem
    exact ⟨_, _, result, parsed, mem⟩⟩
  have raised : (parseListingRows sampleListingContext [surrogateLayoutRow]).map (fun result =>
      (result.records.all fun o => o.listing.communityId = communityA.communityId) &&
        !(ingest (str "Fake") .empty communityA (.ok (.fromParsed result.records))).result.isOk) = .ok true := by
    decide +kernel
  rw [parsed] at raised
  obtain ⟨own, refused⟩ := Bool.and_eq_true_iff.mp (Except.ok.inj raised)
  obtain ⟨_, returned⟩ := never _ [] next _ rfl fun o mem => of_decide_eq_true (List.all_eq_true.mp own o mem)
  change (ingest (str "Fake") .empty communityA (.ok (.fromParsed result.records))).result = _ at returned
  rw [returned] at refused
  cases refused

/-- A row that is parsed, and the identity it is stored under. -/
example : let _ := sampleRuntime
    (parseListingRows sampleListingContext
      [.object [(str "房源编号", .text (str "101")), (str "总价", .text (str "300万"))]]).map
        (fun result => result.records.map fun o => (o.listing.sourceListingId, o.listing.listingId)) =
      .ok [(str "101", str "lst-924fa63e7cd5545e5c311ade8ad6d9af")] := by
  decide +kernel

end CnPropertyAgent
