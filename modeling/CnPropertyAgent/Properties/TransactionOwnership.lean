import CnPropertyAgent.Services.TransactionRuns

/-!
Whether ingestion for one community takes transactions from another.

A transaction id is made of the source and its id alone, the community is stamped by
the caller, and the upsert overwrites `community_id`. So a call takes exactly the
stored transactions of other communities whose ids it writes.
-/

namespace CnPropertyAgent

open Python Relational

namespace TransactionIngestionService

section

variable [Runtime] {table : TransactionTable} {c : TransactionIngestCall}

theorem mapM_outcomeOf_ok {request : TransactionIngestionRequest} {tolerance : UnitPriceTolerance}
    {records : List RawTransactionRecord}
    (evaluable : ∀ record ∈ records, ¬ Raises record request.startDate request.endDate) :
    ∃ outcomes, records.mapM (outcomeOf request tolerance) = .ok outcomes := by
  apply mapM_total
  intro record mem
  rcases normalizeTransaction_cases record request.community request.startDate request.endDate tolerance
    with ⟨raises, -⟩ | ⟨-, ⟨rejection, rejected, -⟩ | ⟨n, accepted, -⟩⟩
  · exact absurd raises (evaluable record mem)
  · exact ⟨_, rejected⟩
  · exact ⟨_, accepted⟩

/-- What is read about every other community stays as it was. -/
def LeavesOthers (table : TransactionTable) (c : TransactionIngestCall) : Prop :=
  ∀ other, other ≠ c.request.community.communityId → ∀ startDate endDate,
    TransactionRepository.listForCommunity (after table c) other startDate endDate =
      TransactionRepository.listForCommunity table other startDate endDate

/-- No record that passes the gates, in a part of the batch that storage takes, has
the id of a transaction stored under another community. -/
def KeepsOwners (table : TransactionTable) (c : TransactionIngestCall) : Prop :=
  ∀ fetched, c.fetch = .ok fetched →
    (∀ record ∈ fetched.parsed, ¬ Raises record c.request.startDate c.request.endDate) →
    ∀ taken, taken <+: fetched.parsed → Storable c.request c.tolerance taken →
    ∀ record ∈ taken, ∀ id, AcceptedAs c.request c.tolerance record id →
    ∀ row, table.get? id = some row → row.communityId = c.request.community.communityId

/-- A written transaction carries the community of the request. -/
theorem communityId_of_accepted {request : TransactionIngestionRequest} {tolerance : UnitPriceTolerance}
    {records : List RawTransactionRecord} {outcomes : List NormalizationOutcome}
    (each : records.mapM (outcomeOf request tolerance) = .ok outcomes) {t : Transaction}
    (mem : t ∈ acceptedTransactions outcomes) : t.communityId = request.community.communityId := by
  obtain ⟨_, _, _, n, _, outcome, rfl, -⟩ := (mem_acceptedTransactions each).mp mem
  exact (normalizationOf_outcome outcome).subject

omit [Runtime] in
/-- Overwriting rows of one's own community moves no row of another. -/
theorem listForCommunity_written {community : Str} {written : List Transaction}
    (own : ∀ t ∈ written, t.communityId = community)
    (stored : ∀ t ∈ written, ∀ row, table.get? t.transactionId = some row → row.communityId = community)
    {other : Str} (differ : other ≠ community) (startDate endDate : Option Date) :
    TransactionRepository.listForCommunity (table.upsertAll TransactionRepository.onConflict
        (TransactionRepository.rowsOf written)) other startDate endDate =
      TransactionRepository.listForCommunity table other startDate endDate := by
  unfold TransactionRepository.listForCommunity
  rw [Table.filter_upsertAll_of_column (f := TransactionRow.communityId) (a := community)]
  · intro row selected
    simp only [Bool.and_eq_true, decide_eq_true_eq] at selected
    rw [selected.1.1]
    exact differ
  · intro _ _ _
    rfl
  · exact List.forall_mem_map.mpr own
  · exact List.forall_mem_map.mpr stored

omit [Runtime] in
/-- A written transaction that was stored under another community is gone from it. -/
theorem listForCommunity_moved (readable : EncodedBy TransactionRow.ofModel table.rows) {community : Str}
    {written : List Transaction} (nodup : (written.map (·.transactionId)).Nodup) {t : Transaction}
    (mem : t ∈ written) (own : t.communityId = community) {row : TransactionRow}
    (found : table.get? t.transactionId = some row) (foreign : row.communityId ≠ community) :
    TransactionRepository.listForCommunity (table.upsertAll TransactionRepository.onConflict
        (TransactionRepository.rowsOf written)) row.communityId none none ≠
      TransactionRepository.listForCommunity table row.communityId none none := by
  intro unchanged
  obtain ⟨item, rfl⟩ := readable row (Table.mem_of_get? found)
  obtain ⟨items, read, -⟩ := TransactionRepository.listForCommunity_ok readable
    (TransactionFields.errors_eq_nil_iff.mp item.valid).2.1.1
  have before : item ∈ items :=
    (TransactionRepository.mem_listForCommunity readable read).mpr ⟨Table.mem_of_get? found, rfl⟩
  have readable' := readable.upsertAll_of_overwrites TransactionRepository.onConflict_overwrites written
  have after := ((TransactionRepository.mem_listForCommunity readable'
    (unchanged.trans read)).mp before).1
  have kept := get?_written table nodup mem
  rw [← Table.key_of_get? found] at kept
  have same := (Table.get?_key after).symm.trans kept
  exact foreign ((congrArg TransactionRow.communityId (Option.some.inj same)).trans own)

/-- One call leaves the other communities alone exactly when it keeps owners. -/
theorem leavesOthers_iff (readable : EncodedBy TransactionRow.ofModel table.rows) :
    LeavesOthers table c ↔ KeepsOwners table c := by
  unfold LeavesOthers
  rcases after_cases table c with ⟨unchanged, raises⟩ | ⟨fetched, hfetch, evaluable, written, nodup, wrote, members⟩
  · rw [unchanged]
    constructor
    · intro _ fetched hfetch evaluable
      obtain ⟨record, mem, raise⟩ := raises fetched hfetch
      exact absurd raise (evaluable record mem)
    · intro _ _ _ _ _
      rfl
  · have own : ∀ t ∈ written, t.communityId = c.request.community.communityId := by
      intro t mem
      obtain ⟨taken, ds, -, each, -, accepted⟩ := (members t).mp mem
      exact communityId_of_accepted each accepted
    rw [wrote]
    constructor
    · intro leaves fetched' hfetch' _ taken initial storable record mem id accepted row found
      cases hfetch.symm.trans hfetch'
      obtain ⟨ds, each⟩ : ∃ ds, taken.mapM (outcomeOf c.request c.tolerance) = .ok ds :=
        mapM_outcomeOf_ok fun record mem => evaluable record (initial.subset mem)
      -- the id is written, by the first record that passes under it
      have known : id ∈ (acceptedTransactions ds).map (·.transactionId) := by
        rw [ids_acceptedTransactions, mem_firstOccurrences]
        exact (mem_passingIds each).mpr ⟨record, mem, accepted⟩
      obtain ⟨t, ht, rfl⟩ := List.mem_map.mp known
      have inWritten := (members t).mpr ⟨taken, ds, initial, each, storable, ht⟩
      by_contra foreign
      exact listForCommunity_moved readable nodup inWritten (own t inWritten) found foreign
        (leaves _ foreign none none)
    · intro keeps other differ startDate endDate
      apply listForCommunity_written own _ differ
      intro t mem row found
      obtain ⟨taken, ds, initial, each, storable, accepted⟩ := (members t).mp mem
      obtain ⟨done, record, rest, n, split, outcome, rfl, -⟩ := (mem_acceptedTransactions each).mp accepted
      exact keeps fetched hfetch evaluable taken initial storable record
        (split ▸ List.mem_append_right done List.mem_cons_self) _ ⟨n, outcome, rfl⟩ row found

theorem readable_after (readable : EncodedBy TransactionRow.ofModel table.rows) :
    EncodedBy TransactionRow.ofModel (after table c).rows := by
  rcases after_cases table c with ⟨unchanged, -⟩ | ⟨-, -, -, written, -, wrote, -⟩
  · rw [unchanged]
    exact readable
  · rw [wrote]
    exact readable.upsertAll_of_overwrites TransactionRepository.onConflict_overwrites written

theorem readable_afterAll (calls : List TransactionIngestCall) :
    EncodedBy TransactionRow.ofModel (afterAll calls).rows := by
  induction calls using List.reverseRecOn with
  | nil => exact encodedBy_nil
  | append_singleton calls c ih =>
      rw [afterAll, List.foldl_append]
      exact readable_after ih

end

/-- The call for community B replays the deal that A already has. -/
theorem replay_takes_transaction :
    ¬ ∀ (_ : Runtime) (earlier : List TransactionIngestCall) (c : TransactionIngestCall),
      LeavesOthers (afterAll earlier) c := by
  intro leaves
  have unchanged := leaves sampleRuntime
    [⟨str "Fake", sampleTolerance, ⟨⟨communityA, none, none⟩, rfl⟩, .ok (FetchResult.fromParsed [soldInAMonth])⟩]
    ⟨str "Fake", sampleTolerance, ⟨⟨communityB, none, none⟩, rfl⟩, .ok (FetchResult.fromParsed [soldInAMonth])⟩
    (str "cm-a") (by decide +kernel) none none
  exact absurd unchanged (by decide +kernel)

/-- **When transactions keep their owners.** In a run of calls, every call leaves what
is read about other communities as it was exactly when none writes a transaction
that the calls before it left under another community. -/
theorem leavesOthers_run_iff [Runtime] (calls : List TransactionIngestCall) :
    (∀ earlier c later, calls = earlier ++ c :: later → LeavesOthers (afterAll earlier) c) ↔
      ∀ earlier c later, calls = earlier ++ c :: later → KeepsOwners (afterAll earlier) c :=
  forall₄_congr fun earlier _ _ _ => leavesOthers_iff (readable_afterAll earlier)

end TransactionIngestionService

end CnPropertyAgent
