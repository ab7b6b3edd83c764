import CnPropertyAgent.Services.ListingRuns

/-!
What a raising listing ingestion leaves behind.

The guard is all-or-nothing: an observation of a foreign community keeps the
whole batch out. A refusal by storage is not: each statement commits on its own,
so the tables are those of the statements ahead of the refused one.
-/

namespace CnPropertyAgent

open Python Relational

namespace ListingIngestionService

variable {provider : Str} {tables : ListingTables} {community : Community}
  {fetched : ListingFetchResult}

/-- A call whose batch storage takes in full. -/
theorem ingest_of_runAll {tables' : ListingTables}
    (own : ∀ o ∈ fetched.parsed, o.listing.communityId = community.communityId)
    (ran : runAll writeObservation tables fetched.parsed = .ok tables') :
    ingest provider tables community (.ok fetched) = ⟨tables', .ok (resultOf community fetched)⟩ := by
  rcases ingest_cases provider tables community (.ok fetched) with
    ⟨message, eq, -⟩ | ⟨fetched', eq, rest⟩
  · cases eq
  · cases eq
    rcases rest with
      ⟨-, -, ⟨o, mem, foreign⟩, -⟩ | ⟨-, ⟨t, ran', finished⟩ | ⟨done, s, rest, t, e, split, ran', refused, -⟩⟩
    · exact absurd (own o mem) foreign
    · cases ran.symm.trans ran'
      exact finished
    · rw [runAll_writeObservation, split, runAll_append_refused ran' refused] at ran
      cases ran

/-- Two listing ids under one provider id. -/
def seenUnderOtherId : ListingObservation :=
  sampleObservation (str "lst-2") (str "cm-a") (str "101") firstDay .active 3100000
    (by decide +kernel) (by decide +kernel)

/-- A batch that storage refuses at its second observation leaves the first one behind. -/
theorem not_all_or_nothing :
    ¬ ∀ (provider : Str) (tables : ListingTables) (community : Community)
      (fetched : ListingFetchResult) (e : Failure),
      (ingest provider tables community (.ok fetched)).result = .error e →
        (ingest provider tables community (.ok fetched)).state = tables := by
  intro all_or_nothing
  have unchanged := all_or_nothing (str "Fake") .empty communityA
    (FetchResult.fromParsed [seenActive, seenUnderOtherId]) .constraint (by decide +kernel)
  have written : (ingest (str "Fake") .empty communityA
      (.ok (FetchResult.fromParsed [seenActive, seenUnderOtherId]))).state.listing.rows.length = 1 := by
    decide +kernel
  rw [unchanged] at written
  exact absurd written (by decide)

/-- Why storage refuses a listing. -/
inductive ListingRefusal (tables : ListingTables) (item : Listing) : Failure → Prop where
  /-- Another listing holds its provider identity. -/
  | taken (violates : tables.listing.Violates ListingRepository.onConflict (ListingRow.ofModel item)) :
      ListingRefusal tables item .constraint
  | unbound (refused : ¬ PlainTexts (ListingRow.ofModel item).texts) : ListingRefusal tables item .invalidInput

/-- **A raising call leaves nothing or a complete part.** With an observation of a foreign
community the tables are as before. Otherwise storage refused a statement of one
observation, and those ahead of it leave what a call with only them returns with, which are
the tables before the call when there are none. If it refused the listing, that is all that
is left; if it refused the snapshot, whose texts it cannot bind, the listing row is
written too. -/
theorem ingest_raises {e : Failure}
    (raises : (ingest provider tables community (.ok fetched)).result = .error e) :
    ((∃ o ∈ fetched.parsed, o.listing.communityId ≠ community.communityId) ∧
      (ingest provider tables community (.ok fetched)).state = tables) ∨
    ∃ done o rest ahead, fetched.parsed = done ++ o :: rest ∧
      (∀ part : ListingFetchResult, part.parsed = done →
        ingest provider tables community (.ok part) = ⟨ahead, .ok (resultOf community part)⟩) ∧
      (done = [] → ahead = tables) ∧
      ((ListingRefusal ahead o.listing e ∧
          (ingest provider tables community (.ok fetched)).state = ahead) ∨
        (e = .invalidInput ∧ ¬ PlainTexts (SnapshotRow.ofModel o.snapshot).texts ∧
          ListingRepository.upsertListing ahead o.listing =
            .ok (ingest provider tables community (.ok fetched)).state)) := by
  rcases ingest_cases provider tables community (.ok fetched) with
    ⟨message, eq, -⟩ | ⟨fetched', eq, rest⟩
  · cases eq
  · cases eq
    rcases rest with ⟨_, -, foreign, stopped⟩ |
      ⟨own, ⟨t, -, finished⟩ | ⟨executed, s, rest, t, e', split, ran, refused, stopped⟩⟩
    · exact Or.inl ⟨foreign, by rw [stopped]⟩
    · rw [finished] at raises
      cases raises
    · rw [stopped] at raises ⊢
      cases raises
      apply Or.inr
      obtain ⟨done, o, after, parts, place⟩ := split_statements split
      have ahead {t' : ListingTables} (ran : runAll execute tables (done.flatMap statements) = .ok t')
          (part : ListingFetchResult) (same : part.parsed = done) :
          ingest provider tables community (.ok part) = ⟨t', .ok (resultOf community part)⟩ := by
        rw [← runAll_writeObservation, ← same] at ran
        refine ingest_of_runAll (fun x mem => own x ?_) ran
        rw [parts]
        exact List.mem_append_left _ (same ▸ mem)
      have untouched {t' : ListingTables} (ran : runAll execute tables (done.flatMap statements) = .ok t')
          (none : done = []) : t' = tables := by
        subst none
        cases ran
        rfl
      rcases place with ⟨rfl, rfl⟩ | ⟨rfl, rfl⟩
      · refine ⟨done, o, after, t, parts, ahead ran, untouched ran, Or.inl ⟨?_, rfl⟩⟩
        rcases ListingRepository.upsertListing_error_iff.mp refused with ⟨rfl, unbound⟩ | ⟨rfl, -, violates⟩
        · exact .unbound unbound
        · exact .taken violates
      · obtain ⟨t', ran', upserted⟩ := exists_of_runAll_append ran
        rw [runAll_singleton] at upserted
        obtain ⟨rfl, unbound⟩ := ListingRepository.appendSnapshot_error_iff.mp refused
        exact ⟨done, o, after, t', parts, ahead ran', untouched ran', Or.inr ⟨rfl, unbound, upserted⟩⟩

/-- The refused second observation: the first alone is what is left. -/
theorem ingest_raises_second :
    ∃ state, (ingest (str "Fake") .empty communityA
        (.ok (FetchResult.fromParsed [seenActive, seenUnderOtherId]))).state = state ∧
      ∃ done, ingest (str "Fake") .empty communityA (.ok (FetchResult.fromParsed done)) =
        ⟨state, .ok (resultOf communityA (FetchResult.fromParsed done))⟩ := by
  refine ⟨_, rfl, ?_⟩
  rcases ingest_raises (show (ingest (str "Fake") .empty communityA
      (.ok (FetchResult.fromParsed [seenActive, seenUnderOtherId]))).result = .error .constraint by
        decide +kernel) with
    ⟨⟨o, mem, foreign⟩, -⟩ | ⟨done, o, -, ahead, -, returns, -, ⟨-, left⟩ | ⟨unbound, -, -⟩⟩
  · exact absurd (show ∀ o ∈ [seenActive, seenUnderOtherId],
      o.listing.communityId = communityA.communityId by decide +kernel) fun own => foreign (own o mem)
  · exact ⟨done, left ▸ returns (FetchResult.fromParsed done) rfl⟩
  · cases unbound

end ListingIngestionService

end CnPropertyAgent
