import CnPropertyAgent.Properties.MarketSeries
import CnPropertyAgent.Properties.QualityGates
import CnPropertyAgent.Properties.TransactionSeries
import CnPropertyAgent.Relational.Slices

/-!
Windows that are cut into slices.

A window can be read slice by slice: the transactions of the slices, the newest slice first,
are the transactions of the window, and so are the observations, less those that lie across
two slices. It can also be fetched slice by slice, and that leaves what one call for the whole
window leaves exactly when no deal is published again in a later slice, under the id of a
record that comes earlier in the batch.
-/

namespace CnPropertyAgent

open Python Relational Decision

/-- Bounds that are inclusive and independently optional. -/
structure Window where
  startDate : Option Date
  endDate : Option Date

namespace Window

/-- The date lies inside. -/
def Holds (w : Window) (d : Date) : Prop := (∀ first ∈ w.startDate, first ≤ d) ∧ ∀ last ∈ w.endDate, d ≤ last

instance (w : Window) (d : Date) : Decidable (w.Holds d) := inferInstanceAs (Decidable (_ ∧ _))

/-- The slices have the dates of the window between them. -/
def CoveredBy (w : Window) (slices : List Window) : Prop := ∀ d, w.Holds d ↔ ∃ s ∈ slices, s.Holds d

/-- No date lies inside both. -/
def Apart (w v : Window) : Prop := ∀ d, w.Holds d → ¬ v.Holds d

/-- All dates inside the one are before those inside the other. -/
def Before (w v : Window) : Prop := ∀ d d', w.Holds d → v.Holds d' → d < d'

end Window

/-! ### Fetching slice by slice -/

section

variable [Runtime]

/-- A record is accepted as one transaction, with the same warnings. -/
theorem AcceptedAs.unique {record : RawTransactionRecord} {community : Community} {n m : NormalizedTransaction}
    (hn : AcceptedAs record community n) (hm : AcceptedAs record community m) : n = m := by
  obtain ⟨id, identity, day, dated, area, hasArea, price, hasPrice, unitPrice, txId, used, built, fields, warned⟩ :=
    hn
  obtain ⟨_, identity', _, dated', _, hasArea', _, hasPrice', _, _, used', built', fields', warned'⟩ := hm
  cases identity.symm.trans identity'
  cases dated.symm.trans dated'
  cases hasArea.symm.trans hasArea'
  cases hasPrice.symm.trans hasPrice'
  cases used.symm.trans used'
  cases built.symm.trans built'
  obtain ⟨⟨⟨_, _⟩, _⟩, _⟩ := n
  obtain ⟨⟨⟨_, _⟩, _⟩, _⟩ := m
  cases fields.trans fields'.symm
  cases warned.trans warned'.symm
  rfl

theorem AcceptedAs.dated {record : RawTransactionRecord} {community : Community} {n : NormalizedTransaction}
    (h : AcceptedAs record community n) : n.transaction.dealDate ∈ record.dealDate := by
  obtain ⟨_, _, _, dated, _, _, _, _, _, _, _, _, fields, _⟩ := h
  rw [fields]
  exact dated

theorem passesGates_window {record : RawTransactionRecord} (w : Window) {tolerance : Double} {dealDate : Date}
    (dated : dealDate ∈ record.dealDate) :
    PassesGates record w.startDate w.endDate tolerance ↔
      PassesGates record none none tolerance ∧ w.Holds dealDate := by
  have split : AllHold (qualityGates record w.startDate w.endDate tolerance) ↔
      AllHold (qualityGates record none none tolerance) ∧ w.Holds dealDate := by
    simp only [qualityGates, allHold_cons, Option.mem_def.mp dated, Option.mem_def, Option.some.injEq, forall_eq',
      reduceCtorEq, false_imp_iff, implies_true, true_and, Window.Holds]
    tauto
  constructor
  · rintro ⟨datable, validated, all⟩
    exact ⟨⟨datable, validated, (split.mp all).1⟩, (split.mp all).2⟩
  · rintro ⟨⟨datable, validated, all⟩, inside⟩
    exact ⟨datable, validated, split.mpr ⟨all, inside⟩⟩

/-- The window plays no part but to refuse the dates outside. -/
theorem normalizeTransaction_window {record : RawTransactionRecord} {community : Community} (w : Window)
    {tolerance : Double} {n : NormalizedTransaction} :
    normalizeTransaction record community w.startDate w.endDate tolerance = .ok (.inl n) ↔
      normalizeTransaction record community none none tolerance = .ok (.inl n) ∧
        w.Holds n.transaction.dealDate := by
  constructor
  · intro accepted
    obtain ⟨passes, known⟩ := passesGates_of_accepted accepted
    obtain ⟨passes, inside⟩ := (passesGates_window w known.dated).mp passes
    obtain ⟨m, accepted', known'⟩ := passes.accepted community
    exact ⟨known.unique known' ▸ accepted', inside⟩
  · rintro ⟨accepted, inside⟩
    obtain ⟨passes, known⟩ := passesGates_of_accepted accepted
    obtain ⟨m, accepted', known'⟩ := ((passesGates_window w known.dated).mpr ⟨passes, inside⟩).accepted community
    exact known.unique known' ▸ accepted'

namespace TransactionIngestionService

/-! ### What passes -/

/-- What a record passes the gates as. -/
def passedAs (request : TransactionIngestionRequest) (tolerance : UnitPriceTolerance)
    (record : RawTransactionRecord) : Option Transaction :=
  match outcomeOf request tolerance record with
  | .ok (.inl n) => some n.transaction
  | _ => none

/-- What passes of a batch, repeated ids included. -/
def passed (request : TransactionIngestionRequest) (tolerance : UnitPriceTolerance)
    (records : List RawTransactionRecord) : List Transaction :=
  records.filterMap (passedAs request tolerance)

theorem passedAs_eq_some {request : TransactionIngestionRequest} {tolerance : UnitPriceTolerance}
    {record : RawTransactionRecord} {t : Transaction} :
    passedAs request tolerance record = some t ↔
      ∃ n, outcomeOf request tolerance record = .ok (.inl n) ∧ n.transaction = t := by
  unfold passedAs
  split
  · rename_i n accepted
    simp [accepted]
  · rename_i refused
    constructor
    · intro h
      cases h
    · rintro ⟨n, accepted, -⟩
      exact absurd accepted (refused n)

theorem passed_of_mapM {request : TransactionIngestionRequest} {tolerance : UnitPriceTolerance}
    {records : List RawTransactionRecord} {outcomes : List NormalizationOutcome}
    (each : records.mapM (outcomeOf request tolerance) = .ok outcomes) :
    passed request tolerance records = (passing outcomes).map (·.transaction) := by
  induction records generalizing outcomes with
  | nil =>
      cases each
      rfl
  | cons record records ih =>
      obtain ⟨o, rest, rfl, outcome, each⟩ := mapM_cons_eq_ok.mp each
      rw [passed, List.filterMap_cons, ← passed, ih each, passedAs, outcome]
      cases o <;> rfl

omit [Runtime] in
/-- Of each id, what a call accepts is the first that passes. -/
theorem find?_acceptedTransactions (outcomes : List NormalizationOutcome) (id : Str) :
    (acceptedTransactions outcomes).find? (·.transactionId = id) =
      ((passing outcomes).map (·.transaction)).find? (·.transactionId = id) := by
  rw [acceptedTransactions, List.find?_map, List.find?_map]
  exact congrArg _ (find?_newlyAccepted outcomes id)

end TransactionIngestionService

end

namespace TransactionIngestCall

open TransactionIngestionService

def window (c : TransactionIngestCall) : Window := ⟨c.request.startDate, c.request.endDate⟩

/-- The record has a date inside the window. -/
def Dated (w : Window) (record : RawTransactionRecord) : Prop := ∃ d ∈ record.dealDate, w.Holds d

instance (w : Window) (record : RawTransactionRecord) : Decidable (Dated w record) :=
  match h : record.dealDate with
  | none => .isFalse fun ⟨_, dated, _⟩ => nomatch h.symm.trans dated
  | some d => decidable_of_iff (w.Holds d)
      ⟨fun inside => ⟨d, h, inside⟩, fun ⟨_, dated, inside⟩ => Option.some.inj (dated.symm.trans h) ▸ inside⟩

/-- Of the window it is asked for, the provider answers with the records of the batch. -/
def AnswersFrom (records : List RawTransactionRecord) (c : TransactionIngestCall) : Prop :=
  ∃ fetched, c.fetch = .ok fetched ∧
    fetched.parsed.filter (Dated c.window ·) = records.filter (Dated c.window ·)

variable [Runtime]

/-- The call returns when it is made of some table. -/
def Returns (c : TransactionIngestCall) : Prop :=
  ∃ table result, (ingest c.provider c.tolerance table c.request c.fetch).result = .ok result

/-- The call asks for dates of the other's window only, for its community and with its tolerance. -/
structure SliceOf (c whole : TransactionIngestCall) : Prop where
  community : c.request.community = whole.request.community
  tolerance : c.tolerance = whole.tolerance
  inside : ∀ d, c.window.Holds d → whole.window.Holds d

/-- What passes in a slice is what passes in the window and is dated in the slice. -/
theorem SliceOf.passed {c whole : TransactionIngestCall} (slice : c.SliceOf whole)
    (records : List RawTransactionRecord) :
    passed c.request c.tolerance records =
      (passed whole.request whole.tolerance records).filter (c.window.Holds ·.dealDate) := by
  rw [TransactionIngestionService.passed, TransactionIngestionService.passed, List.filter_filterMap]
  congr 1
  funext record
  ext t
  rw [Option.filter_eq_some_iff, passedAs_eq_some, passedAs_eq_some]
  have each (n : NormalizedTransaction) : outcomeOf c.request c.tolerance record = .ok (.inl n) ↔
      outcomeOf whole.request whole.tolerance record = .ok (.inl n) ∧ c.window.Holds n.transaction.dealDate := by
    have ofWhole : outcomeOf whole.request whole.tolerance record = .ok (.inl n) ↔ _ :=
      normalizeTransaction_window whole.window
    rw [ofWhole, outcomeOf, slice.community, slice.tolerance]
    refine (normalizeTransaction_window c.window).trans ⟨?_, ?_⟩
    · rintro ⟨accepted, inside⟩
      exact ⟨⟨accepted, slice.inside _ inside⟩, inside⟩
    · rintro ⟨⟨accepted, -⟩, inside⟩
      exact ⟨accepted, inside⟩
  constructor
  · rintro ⟨n, accepted, rfl⟩
    obtain ⟨accepted, inside⟩ := (each n).mp accepted
    exact ⟨⟨n, accepted, rfl⟩, decide_eq_true inside⟩
  · rintro ⟨⟨n, accepted, rfl⟩, inside⟩
    exact ⟨n, (each n).mpr ⟨accepted, of_decide_eq_true inside⟩, rfl⟩

/-- Records dated outside the window do not pass. -/
theorem passed_filter_dated (c : TransactionIngestCall) (records : List RawTransactionRecord) :
    passed c.request c.tolerance (records.filter (Dated c.window ·)) = passed c.request c.tolerance records := by
  rw [TransactionIngestionService.passed, TransactionIngestionService.passed, List.filterMap_filter]
  congr 1
  funext record
  split_ifs with dated
  · rfl
  · symm
    rw [Option.eq_none_iff_forall_not_mem]
    intro t passes
    obtain ⟨n, accepted, -⟩ := passedAs_eq_some.mp passes
    have inside := ((normalizeTransaction_window c.window).mp accepted).2
    exact dated (decide_eq_true ⟨_, (passesGates_of_accepted accepted).2.dated, inside⟩)

/-- Under each id, a call that returns writes the first record of the batch that passes. -/
theorem filter_writtenBy {c : TransactionIngestCall} {records : List RawTransactionRecord}
    (answers : c.AnswersFrom records) (returns : c.Returns) (id : Str) :
    (writtenBy c).filter (·.transactionId = id) =
      ((passed c.request c.tolerance records).find? (·.transactionId = id)).toList := by
  obtain ⟨fetched, fetch, same⟩ := answers
  obtain ⟨table, result, returned⟩ := returns
  rw [fetch] at returned
  rcases ingest_cases c.provider c.tolerance table c.request fetched with
    ⟨-, e, raised⟩ | ⟨-, outcomes, each, ⟨fits, -⟩ | ⟨_, _, _, _, _, _, stopped⟩⟩
  · rw [raised] at returned
    cases returned
  · have written : writtenBy c = acceptedTransactions outcomes := by
      unfold writtenBy
      rw [fetch]
      dsimp only
      rw [each]
      exact List.takeWhile_eq_self_iff.mpr fun t mem => decide_eq_true (fits t mem)
    rw [written, filter_eq_toList_find? (acceptedIds_nodup outcomes), find?_acceptedTransactions,
      ← passed_of_mapM each, ← passed_filter_dated, same, passed_filter_dated]
  · rw [stopped] at returned
    cases returned

end TransactionIngestCall

/-! ### The same store -/

section

open TransactionIngestionService TransactionIngestCall

variable [Runtime]

/-- One call for a window, and calls for slices that it is cut into. The provider answers each from the
same batch, with whatever it likes outside the dates it is asked for, and every call returns. -/
structure Backfill (records : List RawTransactionRecord) (whole : TransactionIngestCall)
    (slices : List TransactionIngestCall) : Prop where
  sliced : ∀ c ∈ slices, c.SliceOf whole
  covered : whole.window.CoveredBy (slices.map window)
  apart : (slices.map window).Pairwise Window.Apart
  answers : ∀ c ∈ whole :: slices, c.AnswersFrom records
  returns : ∀ c ∈ whole :: slices, c.Returns

/-- No deal that passes is dated in a later slice than the first of the batch under its id. -/
def NeverRedated (records : List RawTransactionRecord) (whole : TransactionIngestCall)
    (slices : List TransactionIngestCall) : Prop :=
  ∀ t, (passed whole.request whole.tolerance records).find? (·.transactionId = t.transactionId) = some t →
    ∀ first c later, slices = first ++ c :: later → c.window.Holds t.dealDate →
      ∀ c' ∈ later, ∀ t' ∈ passed whole.request whole.tolerance records,
        t'.transactionId = t.transactionId → ¬ c'.window.Holds t'.dealDate

namespace Backfill

variable {records : List RawTransactionRecord} {whole : TransactionIngestCall}
  {slices : List TransactionIngestCall}

theorem lastVersion_whole (backfill : Backfill records whole slices) (before : List TransactionIngestCall)
    (id : Str) : lastVersion (writtenByAll (before ++ [whole])) id =
      ((passed whole.request whole.tolerance records).find? (·.transactionId = id)).or
        (lastVersion (writtenByAll before) id) := by
  rw [lastVersion, writtenByAll, List.flatMap_append, List.flatMap_singleton, List.filter_append,
    List.getLast?_append, filter_writtenBy (backfill.answers _ List.mem_cons_self)
      (backfill.returns _ List.mem_cons_self)]
  cases (passed whole.request whole.tolerance records).find? (·.transactionId = id) <;> rfl

theorem lastVersion_slices (backfill : Backfill records whole slices) (before : List TransactionIngestCall)
    (id : Str) : lastVersion (writtenByAll (before ++ slices)) id =
      (keptBySlice (·.transactionId) (fun c t => c.window.Holds t.dealDate)
        (passed whole.request whole.tolerance records) id slices).getLast?.or
          (lastVersion (writtenByAll before) id) := by
  have each : ∀ c ∈ slices, (writtenBy c).filter (·.transactionId = id) =
      (((passed whole.request whole.tolerance records).filter (c.window.Holds ·.dealDate)).find?
        (·.transactionId = id)).toList := by
    intro c mem
    rw [filter_writtenBy (backfill.answers c (List.mem_cons_of_mem whole mem))
      (backfill.returns c (List.mem_cons_of_mem whole mem)), (backfill.sliced c mem).passed]
  rw [lastVersion, writtenByAll, List.flatMap_append, List.filter_append, List.getLast?_append,
    List.filter_flatMap, List.flatMap_congr each, keptBySlice, List.filterMap_eq_flatMap_toList]
  rfl

/-- What passes is dated inside the window, and so in a slice. -/
theorem exists_slice (backfill : Backfill records whole slices) {t : Transaction}
    (mem : t ∈ passed whole.request whole.tolerance records) :
    ∃ c ∈ slices, decide (c.window.Holds t.dealDate) = true := by
  obtain ⟨record, -, passes⟩ := List.mem_filterMap.mp mem
  obtain ⟨n, accepted, rfl⟩ := passedAs_eq_some.mp passes
  have inside := ((normalizeTransaction_window whole.window).mp accepted).2
  obtain ⟨s, hs, holds⟩ := (backfill.covered _).mp inside
  obtain ⟨c, hc, rfl⟩ := List.mem_map.mp hs
  exact ⟨c, hc, decide_eq_true holds⟩

/-- About each id, the calls for the slices and the one for the window leave the same. -/
theorem lastVersion_eq_iff (backfill : Backfill records whole slices) (before : List TransactionIngestCall)
    (id : Str) :
    lastVersion (writtenByAll (before ++ slices)) id = lastVersion (writtenByAll (before ++ [whole])) id ↔
      (keptBySlice (·.transactionId) (fun c t => c.window.Holds t.dealDate)
        (passed whole.request whole.tolerance records) id slices).getLast? =
          (passed whole.request whole.tolerance records).find? (·.transactionId = id) := by
  rw [backfill.lastVersion_slices, backfill.lastVersion_whole]
  apply or_left_inj
  apply getLast?_slices_eq_none_iff
  exact fun t mem => backfill.exists_slice mem

theorem sameRows_iff (backfill : Backfill records whole slices) (before : List TransactionIngestCall) :
    Table.SameRows (afterAll (before ++ slices)) (afterAll (before ++ [whole])) ↔
      NeverRedated records whole slices := by
  have stored : Table.SameRows (afterAll (before ++ slices)) (afterAll (before ++ [whole])) ↔
      ∀ id, lastVersion (writtenByAll (before ++ slices)) id =
        lastVersion (writtenByAll (before ++ [whole])) id := by
    rw [Table.sameRows_iff_get?]
    apply forall_congr'
    intro id
    rw [get?_afterAll_written, get?_afterAll_written]
    exact (Option.map_injective TransactionRow.ofModel_injective).eq_iff
  have apart : slices.Pairwise fun c c' => ∀ t ∈ passed whole.request whole.tolerance records,
      decide (c.window.Holds t.dealDate) = true → decide (c'.window.Holds t.dealDate) = false := by
    apply (List.pairwise_map.mp backfill.apart).imp
    intro c c' apart t _ holds
    exact decide_eq_false (apart _ (of_decide_eq_true holds))
  rw [stored]
  simp only [backfill.lastVersion_eq_iff,
    getLast?_slices_eq_find?_iff (fun t mem => backfill.exists_slice mem) apart,
    decide_eq_true_eq, decide_eq_false_iff_not]
  constructor
  · exact fun settled t found => settled t.transactionId t found
  · intro never id t found
    have same := List.find?_some found
    rw [← of_decide_eq_true same] at found ⊢
    exact never t found

/-- A batch without repeated ids. -/
theorem neverRedated_of_nodup (backfill : Backfill records whole slices)
    (nodup : ((passed whole.request whole.tolerance records).map (·.transactionId)).Nodup) :
    NeverRedated records whole slices := by
  rintro t found first c later rfl holds c' hc' t' mem same holds'
  cases List.inj_on_of_nodup_map nodup mem (List.mem_of_find?_eq_some found) same
  have apart := backfill.apart
  rw [List.map_append, List.map_cons, List.pairwise_append, List.pairwise_cons] at apart
  exact apart.2.1.1 _ (List.mem_map_of_mem hc') _ holds holds'

end Backfill

/-- **Backfill.** The calls for the slices leave the rows that one call for the window leaves exactly when no
deal is dated in a later slice than the first of its id; and then no query tells them apart. -/
theorem backfilled_by_slices {records : List RawTransactionRecord} {whole : TransactionIngestCall}
    {slices : List TransactionIngestCall} (backfill : Backfill records whole slices)
    (before : List TransactionIngestCall) :
    (Table.SameRows (afterAll (before ++ slices)) (afterAll (before ++ [whole])) ↔
      NeverRedated records whole slices) ∧
    (NeverRedated records whole slices → ∀ query,
      TransactionQueryService.getTransactions (afterAll (before ++ slices)) query =
        TransactionQueryService.getTransactions (afterAll (before ++ [whole])) query) := by
  refine ⟨backfill.sameRows_iff before, ?_⟩
  intro never query
  have same := (backfill.sameRows_iff before).mpr never
  exact TransactionQueryService.getTransactions_congr fun row _ => same row

end

/-! ### A backfill -/

section

open TransactionIngestionService TransactionIngestCall

theorem one_le_dayBefore : 1 ≤ (738884 : Int) := by decide

theorem dayBefore_le_max : (738884 : Int) ≤ maxOrdinal := by decide

def dayBefore : Date := ⟨738884, one_le_dayBefore, dayBefore_le_max⟩

/-- A deal of the day before. -/
def soldTheDayBefore : RawTransactionRecord :=
  ⟨{ sampleRecordFields (str "103") 30 with dealDate := some dayBefore }, by decide +kernel, by decide +kernel⟩

/-- The batch of two days, asked for all dates, for those up to the first day and for those since. -/
def dealsOf (w : Window) (valid : windowErrors w.startDate w.endDate = []) : TransactionIngestCall :=
  ⟨str "Fake", sampleTolerance, ⟨⟨communityA, w.startDate, w.endDate⟩, valid⟩,
    .ok (FetchResult.fromParsed [soldTheDayBefore, soldInAMonth])⟩

def allDeals : TransactionIngestCall := dealsOf ⟨none, none⟩ rfl

def olderDeals : TransactionIngestCall := dealsOf ⟨none, some dayBefore⟩ rfl

def newerDeals : TransactionIngestCall := dealsOf ⟨some sampleDate, none⟩ rfl

theorem backfill_deals : let _ := sampleRuntime
    Backfill [soldTheDayBefore, soldInAMonth] allDeals [newerDeals, olderDeals] := by
  intro _
  have all (d : Date) : allDeals.window.Holds d := ⟨fun _ h => (nomatch h), fun _ h => nomatch h⟩
  have newer (d : Date) : newerDeals.window.Holds d ↔ 738885 ≤ d.ordinal :=
    ⟨fun holds => holds.1 sampleDate rfl, fun le => ⟨fun _ h => Option.some.inj h ▸ le, fun _ h => nomatch h⟩⟩
  have older (d : Date) : olderDeals.window.Holds d ↔ d.ordinal ≤ 738884 :=
    ⟨fun holds => holds.2 dayBefore rfl, fun le => ⟨fun _ h => (nomatch h), fun _ h => Option.some.inj h ▸ le⟩⟩
  have returns (c : TransactionIngestCall)
      (ok : (ingest c.provider c.tolerance (.empty _) c.request c.fetch).result.isOk = true) : c.Returns := by
    obtain ⟨table, result, returned⟩ := Outcome.exists_of_isOk ok
    exact ⟨_, result, by rw [returned]⟩
  refine ⟨?_, ?_, ?_, ?_, ?_⟩
  · simp only [List.forall_mem_cons]
    exact ⟨⟨rfl, rfl, fun d _ => all d⟩, ⟨rfl, rfl, fun d _ => all d⟩, fun _ h => nomatch h⟩
  · intro d
    simp only [List.map_cons, List.map_nil, List.mem_cons, List.not_mem_nil, or_false, exists_eq_or_imp,
      exists_eq_left, newer, older, all, true_iff]
    omega
  · simp only [List.map_cons, List.map_nil, List.pairwise_cons, List.forall_mem_singleton, List.not_mem_nil,
      false_imp_iff, implies_true, List.Pairwise.nil, and_true, Window.Apart, newer, older]
    omega
  · simp only [List.forall_mem_cons]
    exact ⟨⟨_, rfl, rfl⟩, ⟨_, rfl, rfl⟩, ⟨_, rfl, rfl⟩, fun _ h => nomatch h⟩
  · simp only [List.forall_mem_cons]
    exact ⟨returns _ (by decide +kernel), returns _ (by decide +kernel),
      returns _ (by decide +kernel), fun _ h => nomatch h⟩

/-- The newer day is fetched first. -/
theorem backfilled_by_slices_of_two_days : let _ := sampleRuntime
    ∀ query, TransactionQueryService.getTransactions (afterAll [newerDeals, olderDeals]) query =
      TransactionQueryService.getTransactions (afterAll [allDeals]) query := by
  intro _
  apply (backfilled_by_slices backfill_deals []).2
  apply backfill_deals.neverRedated_of_nodup
  decide +kernel

end

/-! ### Reading slice by slice -/

namespace TransactionQuery

def window (q : TransactionQuery) : Window := ⟨q.startDate, q.endDate⟩

/-- The slices ask about the same community, the newest dates first. -/
structure CutInto (q : TransactionQuery) (slices : List TransactionQuery) : Prop where
  community : ∀ s ∈ slices, s.communityId = q.communityId
  covered : q.window.CoveredBy (slices.map window)
  ordered : slices.Pairwise fun s s' => s'.window.Before s.window

end TransactionQuery

namespace MarketObservationQuery

def window (q : MarketObservationQuery) : Window := ⟨q.startDate, q.endDate⟩

/-- The slices ask for the same observations of other dates, the oldest first. -/
structure CutInto (q : MarketObservationQuery) (slices : List MarketObservationQuery) : Prop where
  filters : ∀ s ∈ slices, s.cityCode = q.cityCode ∧ s.geographyType = q.geographyType ∧
    s.geographyCode = q.geographyCode ∧ s.metricName = q.metricName
  covered : q.window.CoveredBy (slices.map window)
  ordered : slices.Pairwise fun s s' => s.window.Before s'.window

end MarketObservationQuery

/-- The place of a transaction in what is read. -/
def Transaction.place (t : Transaction) : Dateᵒᵈ ×ₗ Str := toLex (OrderDual.toDual t.dealDate, t.transactionId)

theorem Transaction.place_lt_place {a b : Transaction} : a.place < b.place ↔ a.Precedes b := by
  rw [place, place, Prod.Lex.toLex_lt_toLex]
  exact or_congr OrderDual.toDual_lt_toDual (and_congr_left' OrderDual.toDual.injective.eq_iff)

/-- The place of an observation in what is read. -/
def MarketObservation.place (o : MarketObservation) : Date ×ₗ Date ×ₗ Str :=
  toLex (o.periodStart, toLex (o.periodEnd, o.observationId))

theorem MarketObservation.place_lt_place {a b : MarketObservation} : a.place < b.place ↔ a.Precedes b := by
  rw [place, place, Prod.Lex.toLex_lt_toLex, Prod.Lex.toLex_lt_toLex]
  rfl

/-- The transactions of the slices, one slice after another, are those of the window. -/
theorem getTransactions_slices [Runtime] (calls : List TransactionIngestCall) {query : TransactionQuery}
    {slices : List TransactionQuery} (cut : query.CutInto slices) :
    ∃ parts, slices.mapM (TransactionQueryService.getTransactions
        (TransactionIngestionService.afterAll calls)) = .ok parts ∧
      TransactionQueryService.getTransactions (TransactionIngestionService.afterAll calls) query =
        .ok parts.flatten := by
  choose items read mem sorted using TransactionQueryService.getTransactions_ok
    (TransactionIngestionService.readable_afterAll_written calls)
  have placed (q : TransactionQuery) : (items q).Pairwise fun a b => a.place < b.place :=
    (sorted q).imp Transaction.place_lt_place.mpr
  refine ⟨slices.map items, mapM_eq_ok_iff.mpr ?_, ?_⟩
  · rw [List.map_map]
    exact List.map_congr_left fun s _ => read s
  · rw [read, ← List.flatMap_def]
    symm
    apply congrArg
    refine flatMap_eq_of_slices (placed query) (fun s _ => placed s) ?_ ?_
    · refine cut.ordered.imp fun {s s'} before a ha b hb => ?_
      rw [Transaction.place_lt_place]
      exact Or.inl (before _ _ ((mem s' b).mp hb).2.2 ((mem s a).mp ha).2.2)
    · intro t
      rw [mem]
      constructor
      · rintro ⟨stored, subject, inside⟩
        obtain ⟨w, hw, holds⟩ := (cut.covered _).mp inside
        obtain ⟨s, hs, rfl⟩ := List.mem_map.mp hw
        exact ⟨s, hs, (mem s t).mpr ⟨stored, subject.trans (cut.community s hs).symm, holds⟩⟩
      · rintro ⟨s, hs, ht⟩
        obtain ⟨stored, subject, holds⟩ := (mem s t).mp ht
        exact ⟨stored, subject.trans (cut.community s hs),
          (cut.covered _).mpr ⟨_, List.mem_map_of_mem hs, holds⟩⟩

theorem MarketObservation.periodStart_le_periodEnd (o : MarketObservation) : o.periodStart ≤ o.periodEnd := by
  have period := (thenModel_eq_nil.mp o.valid).2
  by_contra reversed
  rw [if_pos (not_le.mp reversed)] at period
  cases period

/-- A query selects the observations of its subject whose period lies inside. -/
theorem MarketObservationQuery.selects_iff {q : MarketObservationQuery} {o : MarketObservation} :
    q.Selects o ↔ (o.cityCode = q.cityCode ∧ (∀ type ∈ q.geographyType, o.geographyType = type) ∧
      (∀ code ∈ q.geographyCode, o.geographyCode = some code) ∧ ∀ name ∈ q.metricName, o.metricName = name) ∧
      q.window.Holds o.periodStart ∧ q.window.Holds o.periodEnd := by
  have period := o.periodStart_le_periodEnd
  constructor
  · rintro ⟨city, type, code, name, started, ended⟩
    exact ⟨⟨city, type, code, name⟩, ⟨started, fun last mem => period.trans (ended last mem)⟩,
      fun first mem => (started first mem).trans period, ended⟩
  · rintro ⟨⟨city, type, code, name⟩, ⟨started, -⟩, -, ended⟩
    exact ⟨city, type, code, name, started, ended⟩

/-- The observation lies across no border between the slices. -/
def WithinOne (slices : List MarketObservationQuery) (o : MarketObservation) : Prop :=
  ∃ s ∈ slices, s.window.Holds o.periodStart ∧ s.window.Holds o.periodEnd

instance (slices : List MarketObservationQuery) (o : MarketObservation) : Decidable (WithinOne slices o) :=
  inferInstanceAs (Decidable (∃ s ∈ slices, _))

/-- The slices have the filters of the query. -/
theorem MarketObservationQuery.CutInto.filters_eq {query s : MarketObservationQuery}
    {slices : List MarketObservationQuery} (cut : query.CutInto slices) (mem : s ∈ slices) :
    s.filters = query.filters := by
  obtain ⟨-, type, code, name⟩ := cut.filters s mem
  rw [MarketObservationQueryFields.filters, MarketObservationQueryFields.filters, type, code, name]

/-- A filter that cannot be bound is refused in every slice. -/
theorem getMarketObservations_refused (table : MarketObservationTable) {query : MarketObservationQuery}
    (surrogate : ¬ PlainTexts query.filters) :
    MarketObservationQueryService.getMarketObservations table query = .error .invalidInput := by
  have refused := query.bindTexts_eq.trans (bindTexts_refused surrogate)
  rw [MarketObservationQueryService.getMarketObservations, MarketObservationRepository.listForCity]
  change (bindTexts (query.cityCode :: query.filters) >>= _) = _
  rw [refused]
  rfl

/-- The observations of the slices are those of the window, less those across two slices. -/
theorem getMarketObservations_slices (calls : List MarketIngestCall) {query : MarketObservationQuery}
    {slices : List MarketObservationQuery} (cut : query.CutInto slices) (plain : PlainTexts query.filters) :
    ∃ parts items, slices.mapM (MarketObservationQueryService.getMarketObservations
        (MarketObservationIngestionService.afterAll calls)) = .ok parts ∧
      MarketObservationQueryService.getMarketObservations (MarketObservationIngestionService.afterAll calls) query =
        .ok items ∧ parts.flatten = items.filter (WithinOne slices ·) := by
  choose items read mem sorted using MarketObservationQueryService.getMarketObservations_ok
    (MarketObservationIngestionService.readable_afterAll calls)
  have placed (q : MarketObservationQuery) : (items q).Pairwise fun a b => a.place < b.place :=
    (sorted q).imp MarketObservation.place_lt_place.mpr
  refine ⟨slices.map items, items query, mapM_eq_ok_iff.mpr ?_, (read query).trans (whenBound_eq_ok plain), ?_⟩
  · rw [List.map_map]
    apply List.map_congr_left
    intro s mem
    exact (read s).trans (whenBound_eq_ok (cut.filters_eq mem ▸ plain))
  · rw [← List.flatMap_def]
    refine flatMap_eq_of_slices ((placed query).filter _) (fun s _ => placed s) ?_ ?_
    · refine cut.ordered.imp fun {s s'} before a ha b hb => ?_
      rw [MarketObservation.place_lt_place]
      have inS := (MarketObservationQuery.selects_iff.mp ((mem s a).mp ha).2).2
      have inS' := (MarketObservationQuery.selects_iff.mp ((mem s' b).mp hb).2).2
      exact Or.inl (before _ _ inS.1 inS'.1)
    · intro o
      rw [List.mem_filter, mem, MarketObservationQuery.selects_iff, decide_eq_true_eq]
      constructor
      · rintro ⟨⟨stored, subject, -⟩, s, hs, holds⟩
        refine ⟨s, hs, (mem s o).mpr ⟨stored, MarketObservationQuery.selects_iff.mpr ⟨?_, holds⟩⟩⟩
        obtain ⟨city, type, code, name⟩ := cut.filters s hs
        rw [city, type, code, name]
        exact subject
      · rintro ⟨s, hs, ho⟩
        obtain ⟨stored, selected⟩ := (mem s o).mp ho
        obtain ⟨subject, started, ended⟩ := MarketObservationQuery.selects_iff.mp selected
        obtain ⟨city, type, code, name⟩ := cut.filters s hs
        rw [city, type, code, name] at subject
        exact ⟨⟨stored, subject, (cut.covered _).mpr ⟨_, List.mem_map_of_mem hs, started⟩,
          (cut.covered _).mpr ⟨_, List.mem_map_of_mem hs, ended⟩⟩, s, hs, started, ended⟩

/-- **Reads.** After any calls, what is read of slices of a window, one slice after another, is what is read of
the window: all of its transactions, and of its observations those that lie across no border. Filters
that cannot be bound are refused in the window and in every slice. -/
theorem windows_read_by_slices [Runtime] (calls : List TransactionIngestCall)
    (marketCalls : List MarketIngestCall) :
    (∀ (query : TransactionQuery) (slices : List TransactionQuery), query.CutInto slices →
      ∃ parts, slices.mapM (TransactionQueryService.getTransactions
          (TransactionIngestionService.afterAll calls)) = .ok parts ∧
        TransactionQueryService.getTransactions (TransactionIngestionService.afterAll calls) query =
          .ok parts.flatten) ∧
    ∀ (query : MarketObservationQuery) (slices : List MarketObservationQuery), query.CutInto slices →
      (PlainTexts query.filters → ∃ parts items, slices.mapM (MarketObservationQueryService.getMarketObservations
          (MarketObservationIngestionService.afterAll marketCalls)) = .ok parts ∧
        MarketObservationQueryService.getMarketObservations
          (MarketObservationIngestionService.afterAll marketCalls) query = .ok items ∧
        parts.flatten = items.filter (WithinOne slices ·)) ∧
      (¬ PlainTexts query.filters → ∀ q ∈ query :: slices,
        MarketObservationQueryService.getMarketObservations
          (MarketObservationIngestionService.afterAll marketCalls) q = .error .invalidInput) := by
  refine ⟨fun _ _ cut => getTransactions_slices calls cut, fun query slices cut =>
    ⟨getMarketObservations_slices marketCalls cut, fun surrogate q mem => ?_⟩⟩
  apply getMarketObservations_refused
  rcases List.mem_cons.mp mem with rfl | slice
  · exact surrogate
  · rw [cut.filters_eq slice]
    exact surrogate

theorem notBlank_sampleCommunity :
    checkNotBlank "community_id" "community_id must not be blank" (str "cm-a") = [] := by decide +kernel

/-- What is asked about a community. -/
def dealsQuery (w : Window) (valid : windowErrors w.startDate w.endDate = []) : TransactionQuery :=
  ⟨⟨str "cm-a", w.startDate, w.endDate⟩, thenModel_eq_nil.mpr ⟨notBlank_sampleCommunity, valid⟩⟩

def newerQuery : TransactionQuery := dealsQuery ⟨some sampleDate, none⟩ rfl

def olderQuery : TransactionQuery := dealsQuery ⟨none, some dayBefore⟩ rfl

/-- An index of the month that starts where the sample index is already running. -/
def indexOfMonth : MarketObservation :=
  ⟨{ sampleMarketFields (str "obs-2") (str "310000") 103 with periodStart := sampleDate }, by decide +kernel⟩

def indexesCall : MarketIngestCall :=
  ⟨str "Fake", sampleMarketRequest, .ok ⟨[indexPublished, indexOfMonth]⟩⟩

theorem notBlank_sampleCity :
    checkNotBlank "city_code" "city_code must not be blank" (str "310000") = [] := by decide +kernel

theorem valid_indexQuery (w : Window) (valid : windowErrors w.startDate w.endDate = []) :
    MarketObservationQueryFields.errors ⟨str "310000", none, none, none, w.startDate, w.endDate⟩ = [] := by
  refine thenModel_eq_nil.mpr ⟨?_, valid⟩
  rw [notBlank_sampleCity]
  rfl

/-- What is asked about a city. -/
def indexQuery (w : Window) (valid : windowErrors w.startDate w.endDate = []) : MarketObservationQuery :=
  ⟨⟨str "310000", none, none, none, w.startDate, w.endDate⟩, valid_indexQuery w valid⟩

theorem windows_read_by_slices_of_two_days : let _ := sampleRuntime
    (∃ parts, [newerQuery, olderQuery].mapM (TransactionQueryService.getTransactions
        (TransactionIngestionService.afterAll [allDeals])) = .ok parts ∧
      TransactionQueryService.getTransactions (TransactionIngestionService.afterAll [allDeals])
        (dealsQuery ⟨none, none⟩ rfl) = .ok parts.flatten) ∧
    ∃ parts items, [indexQuery ⟨none, some dayBefore⟩ rfl, indexQuery ⟨some sampleDate, none⟩ rfl].mapM
        (MarketObservationQueryService.getMarketObservations
          (MarketObservationIngestionService.afterAll [indexesCall])) = .ok parts ∧
      MarketObservationQueryService.getMarketObservations
        (MarketObservationIngestionService.afterAll [indexesCall]) (indexQuery ⟨none, none⟩ rfl) = .ok items ∧
      parts.flatten = items.filter (WithinOne
        [indexQuery ⟨none, some dayBefore⟩ rfl, indexQuery ⟨some sampleDate, none⟩ rfl] ·) ∧
      items.length = 2 ∧ parts.flatten.length = 1 := by
  intro _
  obtain ⟨-, covered, -, -, -⟩ := backfill_deals
  have older_newer {d d' : Date} (older : Window.Holds ⟨none, some dayBefore⟩ d)
      (newer : Window.Holds ⟨some sampleDate, none⟩ d') : d < d' :=
    lt_of_le_of_lt (older.2 dayBefore rfl) (lt_of_lt_of_le (by decide) (newer.1 sampleDate rfl))
  obtain ⟨deals, indexes⟩ := windows_read_by_slices [allDeals] [indexesCall]
  constructor
  · apply deals
    refine ⟨?_, covered, ?_⟩
    · simp only [List.forall_mem_cons]
      exact ⟨rfl, rfl, fun _ h => nomatch h⟩
    · rw [List.pairwise_pair]
      intro d d' older newer
      exact older_newer older newer
  · have cut : (indexQuery ⟨none, none⟩ rfl).CutInto
        [indexQuery ⟨none, some dayBefore⟩ rfl, indexQuery ⟨some sampleDate, none⟩ rfl] := by
      refine ⟨?_, ?_, ?_⟩
      · simp only [List.forall_mem_cons]
        exact ⟨⟨rfl, rfl, rfl, rfl⟩, ⟨rfl, rfl, rfl, rfl⟩, fun _ h => nomatch h⟩
      · intro d
        refine (covered d).trans (exists_congr fun w => and_congr_left fun _ => ?_)
        exact List.Perm.mem_iff (List.Perm.swap _ _ _)
      · rw [List.pairwise_pair]
        intro d d' older newer
        exact older_newer older newer
    obtain ⟨parts, items, sliced, read, within⟩ := (indexes _ _ cut).1 (by decide)
    have lengths : (MarketObservationQueryService.getMarketObservations
        (MarketObservationIngestionService.afterAll [indexesCall]) (indexQuery ⟨none, none⟩ rfl)).map
          (fun items => (items.length, (items.filter (WithinOne [indexQuery ⟨none, some dayBefore⟩ rfl,
            indexQuery ⟨some sampleDate, none⟩ rfl] ·)).length)) = .ok (2, 1) := by decide +kernel
    rw [read] at lengths
    obtain ⟨all, some_⟩ := Prod.mk.inj (Except.ok.inj lengths)
    exact ⟨parts, items, sliced, read, within, all, within ▸ some_⟩

end CnPropertyAgent
