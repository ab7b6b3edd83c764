import CnPropertyAgent.Python.Collections
import CnPropertyAgent.Services.TransactionNormalization
import CnPropertyAgent.Storage.Repositories

/-!
Transaction ingestion: the gates decide about each record, duplicates inside the
batch are reported, and the accepted transactions are upserted one by one.

What the gating loop makes of a batch is told record by record: each one, given the
ones before it, is newly accepted, reported, or both silent and known
(`GatedBy`, `gateAll_from`). The accepted ids are the distinct ids of the passing
records in the order of their first occurrence.
-/

namespace CnPropertyAgent

open Python Relational

structure TransactionIngestionRequestFields where
  community : Community
  startDate : Option Date
  endDate : Option Date
deriving DecidableEq

def TransactionIngestionRequestFields.errors (r : TransactionIngestionRequestFields) :
    List ErrorItem :=
  windowErrors r.startDate r.endDate

structure TransactionIngestionRequest extends TransactionIngestionRequestFields where
  valid : toTransactionIngestionRequestFields.errors = []
deriving DecidableEq

structure TransactionIngestionResultFields where
  communityId : Str
  startDate : Option Date
  endDate : Option Date
  sourceRowCount : Nat
  parsedCount : Nat
  upsertedCount : Nat
  transactionIds : List Str
  parseRejections : List ParseRejection
  qualityRejections : List TransactionRejection
  warnings : List Str
deriving DecidableEq

/-- The counts are naturals, as `ge=0` asks. -/
def TransactionIngestionResultFields.errors (r : TransactionIngestionResultFields) : List ErrorItem :=
  checkNonempty (str "community_id") r.communityId

/-- Explicit outcome of one ingestion operation. -/
structure TransactionIngestionResult extends TransactionIngestionResultFields where
  valid : toTransactionIngestionResultFields.errors = []
deriving DecidableEq

namespace TransactionIngestionResult

def parseRejectionCount (r : TransactionIngestionResult) : Nat := r.parseRejections.length

def qualityRejectionCount (r : TransactionIngestionResult) : Nat := r.qualityRejections.length

end TransactionIngestionResult

def TransactionIngestionResultFields.validate (fields : TransactionIngestionResultFields) :
    Except Failure TransactionIngestionResult :=
  if h : fields.errors = [] then .ok ⟨fields, h⟩ else .error (.validation fields.errors)

namespace TransactionIngestionService

/-- What the gating loop has decided so far. -/
structure Gated where
  accepted : Dict Str Transaction
  rejections : List TransactionRejection
  warnings : List Str

def duplicateDetail (transactionId : Str) : Str :=
  str "transaction_id " ++ transactionId ++ str " already present in this batch"

/-- The report about a transaction whose id the batch already has. -/
def duplicateOf (transaction : Transaction) : TransactionRejection where
  source := transaction.source
  sourceTransactionId := transaction.sourceTransactionId
  sourceUrl := transaction.sourceUrl
  reason := .duplicateInBatch
  detail := duplicateDetail transaction.transactionId

def accept (state : Gated) (outcome : NormalizedTransaction) : Gated :=
  let transaction := outcome.transaction
  if transaction.transactionId ∈ state.accepted.keys then
    { state with rejections := state.rejections ++ [duplicateOf transaction] }
  else
    { state with
      accepted := state.accepted.set transaction.transactionId transaction
      warnings := state.warnings ++ outcome.warnings.map fun warning =>
        transaction.transactionId ++ str ": " ++ warning }

section

variable [Runtime]

/-- One pass of the gating loop. -/
def gateRecord (request : TransactionIngestionRequest) (tolerance : UnitPriceTolerance) (state : Gated)
    (record : RawTransactionRecord) : Except Failure Gated := do
  match ← normalizeTransaction record request.community request.startDate request.endDate
    tolerance.value with
  | .inr rejection => .ok { state with rejections := state.rejections ++ [rejection] }
  | .inl outcome => .ok (accept state outcome)

def ingest (provider : Str) (tolerance : UnitPriceTolerance) (table : TransactionTable)
    (request : TransactionIngestionRequest) (fetch : Except Str TransactionFetchResult) :
    Outcome TransactionTable Failure TransactionIngestionResult :=
  let community := request.community
  match fetch with
  | .error message => ⟨table, .error (.providerFetch provider community.communityId message)⟩
  | .ok fetched =>
      match runAll (gateRecord request tolerance) ⟨.empty, [], []⟩ fetched.parsed with
      | .error e => ⟨table, .error e⟩
      | .ok gated =>
          match TransactionRepository.upsertMany table gated.accepted.values with
          | ⟨table', .error e⟩ => ⟨table', .error e⟩
          | ⟨table', .ok upsertedCount⟩ => ⟨table', TransactionIngestionResultFields.validate
              { communityId := community.communityId
                startDate := request.startDate
                endDate := request.endDate
                sourceRowCount := fetched.sourceRowCount
                parsedCount := fetched.parsedCount
                upsertedCount := upsertedCount
                transactionIds := gated.accepted.keys
                parseRejections := fetched.parseRejections
                qualityRejections := gated.rejections
                warnings := gated.warnings }⟩

end

/-! ### Decisions record by record -/

/-- The accepted outcomes, duplicates included. -/
def passing (outcomes : List NormalizationOutcome) : List NormalizedTransaction :=
  outcomes.filterMap Sum.getLeft?

/-- The ids of the accepted outcomes. -/
def passingIds (outcomes : List NormalizationOutcome) : List Str :=
  (passing outcomes).map fun n => n.transaction.transactionId

/-- Accepted, given the outcomes before. -/
def newlyAccepted (earlier : List NormalizationOutcome) : NormalizationOutcome → List NormalizedTransaction
  | .inl n => if n.transaction.transactionId ∈ passingIds earlier then [] else [n]
  | .inr _ => []

/-- Reported, given the outcomes before. -/
def reported (earlier : List NormalizationOutcome) : NormalizationOutcome → List TransactionRejection
  | .inl n => if n.transaction.transactionId ∈ passingIds earlier then [duplicateOf n.transaction] else []
  | .inr rejection => [rejection]

/-- Warned about, given the outcomes before. -/
def warned (earlier : List NormalizationOutcome) : NormalizationOutcome → List Str
  | .inl n =>
      if n.transaction.transactionId ∈ passingIds earlier then []
      else n.warnings.map fun warning => n.transaction.transactionId ++ str ": " ++ warning
  | .inr _ => []

/-- What the loop has decided after the outcomes `outcomes`. -/
structure GatedBy (outcomes : List NormalizationOutcome) (state : Gated) : Prop where
  accepted : state.accepted.rows = (emitted newlyAccepted outcomes).map fun n =>
    (n.transaction.transactionId, n.transaction)
  rejections : state.rejections = emitted reported outcomes
  warnings : state.warnings = emitted warned outcomes

section

variable {outcomes : List NormalizationOutcome}

theorem passing_append_singleton (outcomes : List NormalizationOutcome) (o : NormalizationOutcome) :
    passing (outcomes ++ [o]) = passing outcomes ++ o.getLeft?.toList := by
  cases o <;> simp [passing]

theorem passingIds_append_singleton (outcomes : List NormalizationOutcome) (o : NormalizationOutcome) :
    passingIds (outcomes ++ [o]) = passingIds outcomes ++
      o.getLeft?.toList.map fun n => n.transaction.transactionId := by
  rw [passingIds, passing_append_singleton, List.map_append, passingIds]

/-- The accepted ids: the distinct ids of the passing records, by first occurrence. -/
theorem ids_newlyAccepted (outcomes : List NormalizationOutcome) :
    (emitted newlyAccepted outcomes).map (fun n => n.transaction.transactionId) =
      firstOccurrences (passingIds outcomes) := by
  induction outcomes using List.reverseRecOn with
  | nil => rfl
  | append_singleton outcomes o ih =>
      rw [emitted_append_singleton, List.map_append, ih, passingIds_append_singleton]
      cases o with
      | inr rejection => simp [newlyAccepted]
      | inl n =>
          simp only [newlyAccepted, Sum.getLeft?_inl, Option.toList_some, List.map_cons, List.map_nil,
            firstOccurrences_append_singleton, appendNew, mem_firstOccurrences]
          split <;> simp

/-- The accepted outcome with an id is the first passing one with it. -/
theorem find?_newlyAccepted (outcomes : List NormalizationOutcome) (id : Str) :
    (emitted newlyAccepted outcomes).find? (fun n => n.transaction.transactionId = id) =
      (passing outcomes).find? fun n => n.transaction.transactionId = id := by
  induction outcomes using List.reverseRecOn with
  | nil => rfl
  | append_singleton outcomes o ih =>
      rw [emitted_append_singleton, List.find?_append, ih, passing_append_singleton, List.find?_append]
      cases o with
      | inr rejection => rfl
      | inl n =>
          simp only [newlyAccepted, Sum.getLeft?_inl, Option.toList_some]
          split
          · rename_i known
            -- an id known already is found among the outcomes before
            obtain ⟨earlier, mem, same⟩ := List.mem_map.mp known
            by_cases hid : n.transaction.transactionId = id
            · have found : ((passing outcomes).find? fun n => n.transaction.transactionId = id).isSome :=
                List.find?_isSome.mpr ⟨earlier, mem, by simp [same, hid]⟩
              obtain ⟨first, hfirst⟩ := Option.isSome_iff_exists.mp found
              simp [hfirst]
            · simp [hid]
          · rfl

theorem mem_keys_of_gatedBy {state : Gated} (inv : GatedBy outcomes state) {id : Str} :
    id ∈ state.accepted.keys ↔ id ∈ passingIds outcomes := by
  rw [Dict.keys, inv.accepted, List.map_map, ← @mem_firstOccurrences _ _ (passingIds outcomes),
    ← ids_newlyAccepted]
  rfl

/-- An accepted outcome extends the decisions. -/
theorem gatedBy_accept {state : Gated} (inv : GatedBy outcomes state) (n : NormalizedTransaction) :
    GatedBy (outcomes ++ [.inl n]) (accept state n) := by
  unfold accept
  by_cases known : n.transaction.transactionId ∈ passingIds outcomes
  · rw [if_pos ((mem_keys_of_gatedBy inv).mpr known)]
    refine ⟨?_, ?_, ?_⟩
    · simp [emitted_append_singleton, newlyAccepted, known, inv.accepted]
    · simp [emitted_append_singleton, reported, known, inv.rejections]
    · simp [emitted_append_singleton, warned, known, inv.warnings]
  · have fresh : n.transaction.transactionId ∉ state.accepted.keys := by
      intro mem
      exact known ((mem_keys_of_gatedBy inv).mp mem)
    rw [if_neg fresh]
    refine ⟨?_, ?_, ?_⟩
    · simp [emitted_append_singleton, newlyAccepted, known, Dict.rows_set_of_not_mem fresh, inv.accepted]
    · simp [emitted_append_singleton, reported, known, inv.rejections]
    · simp [emitted_append_singleton, warned, known, inv.warnings]

theorem gatedBy_rejected {state : Gated} (inv : GatedBy outcomes state) (r : TransactionRejection) :
    GatedBy (outcomes ++ [.inr r]) { state with rejections := state.rejections ++ [r] } := by
  refine ⟨?_, ?_, ?_⟩
  · simp [emitted_append_singleton, newlyAccepted, inv.accepted]
  · simp [emitted_append_singleton, reported, inv.rejections]
  · simp [emitted_append_singleton, warned, inv.warnings]

/-! ### The gating loop -/

variable [Runtime] {request : TransactionIngestionRequest} {tolerance : UnitPriceTolerance}

/-- What the gates say about a record of this request. -/
def outcomeOf (request : TransactionIngestionRequest) (tolerance : UnitPriceTolerance)
    (record : RawTransactionRecord) : Except Failure NormalizationOutcome :=
  normalizeTransaction record request.community request.startDate request.endDate tolerance.value

/-- One record: it raises, or its outcome extends the decisions. -/
theorem gateRecord_cases (request : TransactionIngestionRequest) (tolerance : UnitPriceTolerance)
    {state : Gated} (inv : GatedBy outcomes state) (record : RawTransactionRecord) :
    (Raises record request.startDate request.endDate ∧
      ∃ e, gateRecord request tolerance state record = .error (.builtin e)) ∨
    (¬ Raises record request.startDate request.endDate ∧
      ∃ o state', outcomeOf request tolerance record = .ok o ∧
        gateRecord request tolerance state record = .ok state' ∧ GatedBy (outcomes ++ [o]) state') := by
  rcases normalizeTransaction_cases record request.community request.startDate request.endDate tolerance
    with ⟨raises, e, raised⟩ | ⟨passes, ⟨rejection, rejected, -⟩ | ⟨n, accepted, -⟩⟩
  · exact Or.inl ⟨raises, e, by rw [gateRecord, raised]; rfl⟩
  · exact Or.inr ⟨passes, _, _, rejected, by rw [gateRecord, rejected]; rfl, gatedBy_rejected inv rejection⟩
  · exact Or.inr ⟨passes, _, _, accepted, by rw [gateRecord, accepted]; rfl, gatedBy_accept inv n⟩

/-- The loop raises at the first record that does, or decides about the whole batch. -/
theorem gateAll_from (request : TransactionIngestionRequest) (tolerance : UnitPriceTolerance)
    (records : List RawTransactionRecord) {state : Gated} (inv : GatedBy outcomes state) :
    ((∃ record ∈ records, Raises record request.startDate request.endDate) ∧
      ∃ e, runAll (gateRecord request tolerance) state records = .error (.builtin e)) ∨
    ((∀ record ∈ records, ¬ Raises record request.startDate request.endDate) ∧
      ∃ outcomes' state', records.mapM (outcomeOf request tolerance) = .ok outcomes' ∧
        runAll (gateRecord request tolerance) state records = .ok state' ∧
        GatedBy (outcomes ++ outcomes') state') := by
  induction records generalizing outcomes state with
  | nil => exact Or.inr ⟨by simp, [], state, rfl, rfl, by simpa using inv⟩
  | cons record records ih =>
      rw [runAll_cons, List.mapM_cons]
      rcases gateRecord_cases request tolerance inv record with
        ⟨raises, e, raised⟩ | ⟨passes, o, state', outcome, step, inv'⟩
      · exact Or.inl ⟨⟨record, List.mem_cons_self, raises⟩, e, by rw [raised]; rfl⟩
      · rw [step, outcome]
        rcases ih inv' with ⟨⟨other, mem, raises⟩, e, raised⟩ | ⟨rest, outcomes', state'', each, ran, inv''⟩
        · exact Or.inl ⟨⟨other, List.mem_cons_of_mem record mem, raises⟩, e, raised⟩
        · refine Or.inr ⟨?_, o :: outcomes', state'', by rw [each]; rfl, ran, by simpa using inv''⟩
          intro other mem
          rcases List.mem_cons.mp mem with rfl | later
          · exact passes
          · exact rest other later

/-- What the call writes, in order. -/
def acceptedTransactions (outcomes : List NormalizationOutcome) : List Transaction :=
  (emitted newlyAccepted outcomes).map (·.transaction)

/-! ### Records and what was accepted of them -/

/-- The record passes the gates, under this id. -/
def AcceptedAs (request : TransactionIngestionRequest) (tolerance : UnitPriceTolerance)
    (record : RawTransactionRecord) (id : Str) : Prop :=
  ∃ n, outcomeOf request tolerance record = .ok (.inl n) ∧ n.transaction.transactionId = id

theorem normalizationOf_outcome {record : RawTransactionRecord} {n : NormalizedTransaction}
    (h : outcomeOf request tolerance record = .ok (.inl n)) :
    NormalizationOf record request.community n := by
  rcases normalizeTransaction_cases record request.community request.startDate request.endDate tolerance
    with ⟨-, e, raised⟩ | ⟨-, ⟨rejection, rejected, -⟩ | ⟨m, accepted, facts⟩⟩
  · cases h.symm.trans raised
  · cases h.symm.trans rejected
  · cases h.symm.trans accepted
    exact facts

theorem rejectionOf_outcome {record : RawTransactionRecord} {rejection : TransactionRejection}
    (h : outcomeOf request tolerance record = .ok (.inr rejection)) : RejectionOf record rejection := by
  rcases normalizeTransaction_cases record request.community request.startDate request.endDate tolerance
    with ⟨-, e, raised⟩ | ⟨-, ⟨r, rejected, facts⟩ | ⟨m, accepted, -⟩⟩
  · cases h.symm.trans raised
  · cases h.symm.trans rejected
    exact facts
  · cases h.symm.trans accepted

/-- The passing ids of a batch are the ids its records pass under. -/
theorem mem_passingIds {records : List RawTransactionRecord}
    (each : records.mapM (outcomeOf request tolerance) = .ok outcomes) {id : Str} :
    id ∈ passingIds outcomes ↔ ∃ record ∈ records, AcceptedAs request tolerance record id := by
  rw [passingIds, List.mem_map]
  constructor
  · rintro ⟨n, mem, rfl⟩
    obtain ⟨o, ho, left⟩ := List.mem_filterMap.mp mem
    obtain ⟨record, hr, outcome⟩ := (mem_of_mapM each).mp ho
    cases o with
    | inr rejection => cases left
    | inl m => cases left; exact ⟨record, hr, _, outcome, rfl⟩
  · rintro ⟨record, hr, n, outcome, rfl⟩
    exact ⟨n, List.mem_filterMap.mpr ⟨_, (mem_of_mapM each).mpr ⟨record, hr, outcome⟩, rfl⟩, rfl⟩

/-- What is accepted of a batch: of each id, the first record that passes under it. -/
theorem mem_acceptedTransactions {records : List RawTransactionRecord}
    (each : records.mapM (outcomeOf request tolerance) = .ok outcomes) {t : Transaction} :
    t ∈ acceptedTransactions outcomes ↔ ∃ done record rest n, records = done ++ record :: rest ∧
      outcomeOf request tolerance record = .ok (.inl n) ∧ n.transaction = t ∧
      ∀ earlier ∈ done, ¬ AcceptedAs request tolerance earlier t.transactionId := by
  rw [acceptedTransactions, List.mem_map]
  constructor
  · rintro ⟨n, mem, rfl⟩
    obtain ⟨ds, o, rs, rfl, emits⟩ := mem_emitted.mp mem
    obtain ⟨done, record, rest, rfl, before, outcome⟩ := mapM_eq_ok_append_cons each
    cases o with
    | inr rejection => cases emits
    | inl m =>
        unfold newlyAccepted at emits
        dsimp only at emits
        split at emits
        · cases emits
        · rename_i fresh
          cases List.mem_singleton.mp emits
          exact ⟨done, record, rest, _, rfl, outcome, rfl, fun earlier hearlier accepted =>
            fresh ((mem_passingIds before).mpr ⟨earlier, hearlier, accepted⟩)⟩
  · rintro ⟨done, record, rest, n, rfl, outcome, rfl, first⟩
    obtain ⟨ds, o, rs, rfl, before, outcome', -⟩ := mapM_append_cons_eq_ok each
    cases outcome.symm.trans outcome'
    refine ⟨n, mem_emitted.mpr ⟨ds, _, rs, rfl, ?_⟩, rfl⟩
    have fresh : n.transaction.transactionId ∉ passingIds ds := by
      intro known
      obtain ⟨earlier, hearlier, accepted⟩ := (mem_passingIds before).mp known
      exact first earlier hearlier accepted
    simp [newlyAccepted, fresh]

/-- What is accepted can be bound: the texts that the model does not look at are the record's. -/
theorem plainTexts_of_accepted {records : List RawTransactionRecord}
    (each : records.mapM (outcomeOf request tolerance) = .ok outcomes) {t : Transaction}
    (mem : t ∈ acceptedTransactions outcomes) : PlainTexts (TransactionRow.ofModel t).texts := by
  obtain ⟨_, record, _, n, -, outcome, rfl, -⟩ := (mem_acceptedTransactions each).mp mem
  have kept := normalizationOf_outcome outcome
  obtain ⟨-, id, url, layout, -, orientation, payload, -⟩ :=
    RawTransactionFields.errors_eq_nil_iff.mp record.valid
  rw [TransactionRow.plainTexts_ofModel_iff, kept.sourceTransactionId, kept.sourceUrl, kept.layout,
    kept.orientation, kept.rawPayloadRef]
  exact ⟨id, url, layout, orientation, payload⟩

/-! ### The whole call -/

omit [Runtime] in
theorem result_valid (request : TransactionIngestionRequest) (fetched : TransactionFetchResult)
    (outcomes : List NormalizationOutcome) :
    TransactionIngestionResultFields.errors
      { communityId := request.community.communityId
        startDate := request.startDate
        endDate := request.endDate
        sourceRowCount := fetched.sourceRowCount
        parsedCount := fetched.parsedCount
        upsertedCount := (acceptedTransactions outcomes).length
        transactionIds := (acceptedTransactions outcomes).map (·.transactionId)
        parseRejections := fetched.parseRejections
        qualityRejections := emitted reported outcomes
        warnings := emitted warned outcomes } = [] := by
  exact checkNonempty_eq_nil.mpr request.community.communityId_valid

/-- What the call returns when nothing raises. -/
def resultOf (request : TransactionIngestionRequest) (fetched : TransactionFetchResult)
    (outcomes : List NormalizationOutcome) : TransactionIngestionResult :=
  ⟨_, result_valid request fetched outcomes⟩

/-- **What a call does.** -/
theorem ingest_cases (provider : Str) (tolerance : UnitPriceTolerance) (table : TransactionTable)
    (request : TransactionIngestionRequest) (fetched : TransactionFetchResult) :
    let outcome := ingest provider tolerance table request (.ok fetched)
    ((∃ record ∈ fetched.parsed, Raises record request.startDate request.endDate) ∧
      ∃ e, outcome = ⟨table, .error (.builtin e)⟩) ∨
    ((∀ record ∈ fetched.parsed, ¬ Raises record request.startDate request.endDate) ∧
      ∃ outcomes, fetched.parsed.mapM (outcomeOf request tolerance) = .ok outcomes ∧
        (((∀ t ∈ acceptedTransactions outcomes, (TransactionRow.ofModel t).Fits) ∧
          outcome = ⟨table.upsertAll TransactionRepository.onConflict
            (TransactionRepository.rowsOf (acceptedTransactions outcomes)),
            .ok (resultOf request fetched outcomes)⟩) ∨
        ∃ done t rest, acceptedTransactions outcomes = done ++ t :: rest ∧
          (∀ other ∈ done, (TransactionRow.ofModel other).Fits) ∧ ¬ (TransactionRow.ofModel t).Fits ∧
          outcome = ⟨table.upsertAll TransactionRepository.onConflict
            (TransactionRepository.rowsOf done), .error .conversion⟩)) := by
  dsimp only
  have start : GatedBy [] ⟨.empty, [], []⟩ := ⟨rfl, rfl, rfl⟩
  rcases gateAll_from request tolerance fetched.parsed start with
    ⟨raises, e, raised⟩ | ⟨passes, outcomes, gated, each, ran, inv⟩
  · exact Or.inl ⟨raises, e, by rw [ingest, raised]⟩
  · rw [List.nil_append] at inv
    have values : gated.accepted.values = acceptedTransactions outcomes := by
      rw [Dict.values, inv.accepted, List.map_map]
      rfl
    have keys : gated.accepted.keys = (acceptedTransactions outcomes).map (·.transactionId) := by
      rw [Dict.keys, inv.accepted, List.map_map, acceptedTransactions, List.map_map]
      rfl
    refine Or.inr ⟨passes, outcomes, each, ?_⟩
    rw [ingest, ran]
    dsimp only
    rw [values]
    rcases TransactionRepository.upsertMany_cases table (acceptedTransactions outcomes) with
      ⟨storable, written⟩ | ⟨done, t, rest, split, storable, refused, written⟩
    · refine Or.inl ⟨fun t mem => (storable t mem).2, ?_⟩
      rw [written]
      dsimp only
      rw [keys, inv.rejections, inv.warnings, TransactionIngestionResultFields.validate,
        dif_pos (result_valid request fetched outcomes)]
      rfl
    · have plain := plainTexts_of_accepted each (split ▸ List.mem_append_right done List.mem_cons_self)
      refine Or.inr ⟨done, t, rest, split, fun other mem => (storable other mem).2,
        fun fits => refused ⟨plain, fits⟩, ?_⟩
      rw [written, TransactionRow.refusal, if_pos plain]

/-! ### Accounting -/

omit [Runtime] in
/-- Every outcome is either newly accepted or reported. -/
theorem length_accepted_add_reported (outcomes : List NormalizationOutcome) :
    (acceptedTransactions outcomes).length + (emitted reported outcomes).length = outcomes.length := by
  rw [acceptedTransactions, List.length_map]
  induction outcomes using List.reverseRecOn with
  | nil => rfl
  | append_singleton outcomes o ih =>
      have one : (newlyAccepted outcomes o).length + (reported outcomes o).length = 1 := by
        cases o with
        | inr rejection => rfl
        | inl n => unfold newlyAccepted reported; dsimp only; split <;> rfl
      simp only [emitted_append_singleton, List.length_append, List.length_singleton]
      omega

/-! ### Which batches are stored -/

omit [Runtime] in
theorem ids_acceptedTransactions (outcomes : List NormalizationOutcome) :
    (acceptedTransactions outcomes).map (·.transactionId) = firstOccurrences (passingIds outcomes) := by
  rw [acceptedTransactions, List.map_map]
  exact ids_newlyAccepted outcomes

omit [Runtime] in
theorem acceptedIds_nodup (outcomes : List NormalizationOutcome) :
    ((acceptedTransactions outcomes).map (·.transactionId)).Nodup :=
  ids_acceptedTransactions outcomes ▸ nodup_firstOccurrences _

omit [Runtime] in
/-- Transactions written under distinct ids are stored as they are. -/
theorem get?_written (table : TransactionTable) {written : List Transaction}
    (nodup : (written.map (·.transactionId)).Nodup) {t : Transaction} (mem : t ∈ written) :
    (table.upsertAll TransactionRepository.onConflict (TransactionRepository.rowsOf written)).get?
      t.transactionId = some (TransactionRow.ofModel t) :=
  Table.get?_upsertAll_of_mem TransactionRepository.onConflict_overwrites table
    (TransactionRepository.keys_rowsOf written ▸ nodup) (List.mem_map_of_mem mem)

omit [Runtime] in
/-- Of an accepted transaction, only the days on market can be refused. -/
theorem fits_iff_lt (t : Transaction) :
    (TransactionRow.ofModel t).Fits ↔ ∀ days ∈ t.daysOnMarket, days < 2 ^ 31 := by
  rw [TransactionRow.fits_ofModel_iff]
  apply forall₂_congr
  intro days mem
  have nonneg := t.daysOnMarket_nonneg days mem
  unfold FitsInteger
  omega

/-- Of each id, the first record that passes has days on market that a column holds. -/
def Storable (request : TransactionIngestionRequest) (tolerance : UnitPriceTolerance)
    (records : List RawTransactionRecord) : Prop :=
  ∀ done record rest id, records = done ++ record :: rest → AcceptedAs request tolerance record id →
    (∀ earlier ∈ done, ¬ AcceptedAs request tolerance earlier id) →
      ∀ days ∈ record.daysOnMarket, days < 2 ^ 31

theorem storable_iff {records : List RawTransactionRecord}
    (each : records.mapM (outcomeOf request tolerance) = .ok outcomes) :
    Storable request tolerance records ↔
      ∀ t ∈ acceptedTransactions outcomes, (TransactionRow.ofModel t).Fits := by
  constructor
  · intro storable t mem
    obtain ⟨done, record, rest, n, split, outcome, rfl, first⟩ := (mem_acceptedTransactions each).mp mem
    rw [fits_iff_lt, (normalizationOf_outcome outcome).daysOnMarket]
    exact storable done record rest _ split ⟨n, outcome, rfl⟩ first
  · rintro fits done record rest id split ⟨n, outcome, rfl⟩ first
    rw [← (normalizationOf_outcome outcome).daysOnMarket, ← fits_iff_lt]
    exact fits _ ((mem_acceptedTransactions each).mpr ⟨done, record, rest, n, split, outcome, rfl, first⟩)

end

end TransactionIngestionService

end CnPropertyAgent
