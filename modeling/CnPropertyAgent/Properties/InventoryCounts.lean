import CnPropertyAgent.Properties.EvidenceSets

/-!
The counts of the listing metrics partition the evidence.

Every counter is read off one of three lists: the histories, their latest snapshots,
and the price changes of the histories with more than one snapshot. Each of them is in
step with the supplied listings, so a counter is the number of listings of a kind.
-/

namespace CnPropertyAgent

open Python Relational

namespace ListingMetrics

/-! ### What the counters count -/

section

variable (snapshots : List (ListingSnapshot Instant))

/-- The snapshot is the earliest of its listing. -/
def IsEarliest (s : ListingSnapshot Instant) : Prop :=
  s ∈ snapshots ∧ ∀ other ∈ snapshots, other.listingId = s.listingId → s.snapshotAt ≤ other.snapshotAt

/-- The listing was seen at two instants or more. -/
def Observable (listingId : Str) : Prop :=
  ∃ a ∈ snapshots, ∃ b ∈ snapshots,
    a.listingId = listingId ∧ b.listingId = listingId ∧ a.snapshotAt ≠ b.snapshotAt

/-- How the last price of a listing compares with its first. -/
inductive Move where
  | cut | increase | unchanged

/-- The move from a first price to a last one. -/
def Move.Relates : Move → Double → Double → Prop
  | .cut, first, last => last.lt first = true
  | .increase, first, last => first.lt last = true
  | .unchanged, first, last => last = first

instance (move : Move) (first last : Double) : Decidable (move.Relates first last) := by
  cases move <;> exact inferInstanceAs (Decidable (_ = _))

/-- The asking price of the listing made the move, from its earliest snapshot to its latest. -/
def Moved (move : Move) (listingId : Str) : Prop :=
  ∃ first ∈ snapshots, ∃ last ∈ snapshots, first.listingId = listingId ∧ last.listingId = listingId ∧
    IsEarliest snapshots first ∧ IsLatest snapshots last ∧ first.snapshotAt < last.snapshotAt ∧
    move.Relates first.listPriceCny last.listPriceCny

instance : DecidablePred (IsEarliest snapshots) := fun _ => inferInstanceAs (Decidable (_ ∧ _))

instance : DecidablePred (IsLatest snapshots) := fun _ => inferInstanceAs (Decidable (_ ∧ _))

instance : DecidablePred (Observable snapshots) := fun _ =>
  inferInstanceAs (Decidable (∃ a ∈ snapshots, ∃ b ∈ snapshots, _))

instance (move : Move) : DecidablePred (Moved snapshots move) := fun _ =>
  inferInstanceAs (Decidable (∃ first ∈ snapshots, ∃ last ∈ snapshots, _))

end

/-- The number of listings of a kind. -/
def countOf {U : Type} [Datetime U] (listings : List (Listing U)) (kind : Str → Prop) [DecidablePred kind] : Nat :=
  (listings.filter fun l => kind l.listingId).length

/-- The counts partition the evidence. -/
structure Partitioned {T : Type} (minimum : Int) (metrics : CommunityListingMetrics T) : Prop where
  identities : metrics.listingCount = metrics.observedListingCount + metrics.identityOnlyListingCount
  ids : metrics.listingCount = metrics.listingIds.length
  statuses : ((metrics.currentStatusCounts.map (·.count)).sum : Nat) = metrics.observedListingCount
  active : metrics.activeListingCount = metrics.currentStatusCount .active
  inhabited : ∀ entry ∈ metrics.currentStatusCounts, entry.count ≠ 0
  moves : metrics.priceCutCount + metrics.priceIncreaseCount + metrics.unchangedPriceCount =
    metrics.repricingObservableCount
  seen : metrics.observedListingCount + metrics.repricingObservableCount ≤ metrics.snapshotCount
  share_none : metrics.priceCutShare = none ↔ metrics.repricingObservableCount = 0
  share : ∀ share ∈ metrics.priceCutShare, ∃ q : ℚ, share = .finite q ∧ 0 ≤ q ∧ q ≤ 1 ∧
    q = metrics.priceCutCount / metrics.repricingObservableCount
  prices : metrics.medianActiveListPriceCny.usableCount = metrics.activeListingCount
  unitPrices : metrics.medianActiveUnitPriceCnySqm.usableCount ≤ metrics.activeListingCount
  ratios : metrics.medianPriceChangeRatio.usableCount = metrics.repricingObservableCount
  medians : ∀ metric ∈ [metrics.medianActiveListPriceCny, metrics.medianActiveUnitPriceCnySqm,
    metrics.medianPriceChangeRatio], metric.value.isSome = true ↔ minimum ≤ metric.usableCount

/-- Each listing of two instants counts under the one move from its first price to its last. -/
structure Counted {T U : Type} [Datetime U] (listings : List (Listing U))
    (snapshots : List (ListingSnapshot Instant)) (metrics : CommunityListingMetrics T) : Prop where
  observable : metrics.repricingObservableCount = countOf listings (Observable snapshots)
  cuts : metrics.priceCutCount = countOf listings (Moved snapshots .cut)
  increases : metrics.priceIncreaseCount = countOf listings (Moved snapshots .increase)
  unchanged : metrics.unchangedPriceCount = countOf listings (Moved snapshots .unchanged)
  one_move : ∀ listingId, Observable snapshots listingId → ∃! move, Moved snapshots move listingId

/-! ### Status counts -/

theorem statusCounts_ne_zero {T : Type} {latest : List (ListingSnapshot T)} :
    ∀ entry ∈ statusCounts latest, entry.count ≠ 0 := by
  intro entry mem
  obtain ⟨status, -, counted⟩ := List.mem_filterMap.mp mem
  dsimp only at counted
  split_ifs at counted with nonzero
  cases counted
  exact nonzero

/-- Dropping the zeros leaves the sum. -/
theorem sum_filterMap_ne_zero {α β : Type} (f : α → Nat) (g : α → β) (count : β → Nat)
    (counts : ∀ x, count (g x) = f x) (xs : List α) :
    ((xs.filterMap fun x => if f x ≠ 0 then some (g x) else none).map count).sum = (xs.map f).sum := by
  induction xs with
  | nil => rfl
  | cons x xs ih =>
      rw [List.map_cons, List.sum_cons, ← ih, List.filterMap_cons]
      by_cases zero : f x = 0
      · rw [if_neg (not_not_intro zero), zero, Nat.zero_add]
      · rw [if_pos zero, List.map_cons, List.sum_cons, counts]

/-- Every snapshot is in exactly one status. -/
theorem sum_statusCounts {T : Type} (latest : List (ListingSnapshot T)) :
    ((statusCounts latest).map (·.count)).sum = latest.length := by
  have dropped := sum_filterMap_ne_zero (fun status => (latest.filter fun item => item.status = status).length)
    (fun status => ListingStatusCount.mk status (latest.filter fun item => item.status = status).length)
    (·.count) (fun _ => rfl) ListingStatus.all
  refine dropped.trans ?_
  clear dropped
  induction latest with
  | nil => rfl
  | cons s latest ih =>
      simp only [ListingStatus.all, List.map_cons, List.map_nil, List.sum_cons, List.sum_nil,
        List.filter_cons] at ih ⊢
      cases s.status <;> simp <;> omega

/-- The entry of a status is there exactly when it counts something. -/
theorem find?_filterMap_count (count : ListingStatus → Nat) (status : ListingStatus) :
    (ListingStatus.all.filterMap fun status =>
        if count status ≠ 0 then some (ListingStatusCount.mk status (count status)) else none).find?
      (fun item => item.status = status) =
    if count status ≠ 0 then some ⟨status, count status⟩ else none := by
  have kept : (fun status' => (if count status' ≠ 0 then some (ListingStatusCount.mk status' (count status'))
      else none).any fun item => item.status = status) =
      fun status' => count status ≠ 0 && status' = status := by
    funext status'
    by_cases same : status' = status
    · subst same
      split_ifs with nonzero <;> simp [nonzero]
    · split_ifs <;> simp [same]
  have here : ListingStatus.all.find? (fun status' => status' = status) = some status := by
    cases status <;> rfl
  rw [List.find?_filterMap, kept]
  by_cases zero : count status = 0
  · have nowhere : ListingStatus.all.find? (fun _ => false) = none := rfl
    simp only [zero, ne_eq, not_true_eq_false, decide_false, Bool.false_and, nowhere, Option.bind_none, if_false]
  · simp [zero, here]

/-- The count under a status is that of the latest snapshots in it. -/
theorem currentStatusCount_eq {T : Type} {metrics : CommunityListingMetrics T} {latest : List (ListingSnapshot T)}
    (counts : metrics.currentStatusCounts = statusCounts latest) (status : ListingStatus) :
    metrics.currentStatusCount status = (latest.filter fun item => item.status = status).length := by
  rw [CommunityListingMetrics.currentStatusCount, counts, statusCounts,
    find?_filterMap_count fun status => (latest.filter fun item => item.status = status).length]
  split_ifs with nonzero
  · rfl
  · exact (not_not.mp nonzero).symm

/-! ### Moves -/

section

variable {U : Type} [Datetime U] {listings : List (Listing U)} {snapshots : List (ListingSnapshot Instant)}
  {history : List (Str × List (ListingSnapshot Instant))}

/-- The listings of a kind are in step with the histories of that kind. -/
theorem HistoryOf.length_filter (h : HistoryOf snapshots history)
    (distinct : (listings.map (·.listingId)).Nodup)
    (known : ∀ s ∈ snapshots, s.listingId ∈ listings.map (·.listingId)) {kind : Str → Prop}
    [DecidablePred kind] {q : Str × List (ListingSnapshot Instant) → Bool}
    (counted : ∀ entry ∈ history, q entry = true ↔ kind entry.1)
    (observed : ∀ id, kind id → ∃ s ∈ snapshots, s.listingId = id) :
    (history.filter q).length = countOf listings kind := by
  have ids_nodup : (history.map Prod.fst).Nodup := by
    rw [List.Nodup, List.pairwise_map]
    exact h.ids_sorted.imp fun lt => ne_of_lt lt
  have perm : ((history.filter q).map Prod.fst).Perm
      ((listings.filter fun l => kind l.listingId).map (·.listingId)) := by
    apply (List.perm_ext_iff_of_nodup (ids_nodup.sublist (List.filter_sublist.map _))
      (distinct.sublist (List.filter_sublist.map _))).mpr
    intro id
    simp only [List.mem_map, List.mem_filter, decide_eq_true_eq]
    constructor
    · rintro ⟨entry, ⟨mem, hq⟩, rfl⟩
      have ofKind := (counted entry mem).mp hq
      obtain ⟨s, hs, id⟩ := observed entry.1 ofKind
      obtain ⟨l, hl, same⟩ := List.mem_map.mp (known s hs)
      refine ⟨l, ⟨hl, ?_⟩, same.trans id⟩
      rwa [same, id]
    · rintro ⟨l, ⟨hl, ofKind⟩, rfl⟩
      obtain ⟨s, hs, id⟩ := observed l.listingId ofKind
      obtain ⟨entry, mem, same⟩ := h.covers s hs
      refine ⟨entry, ⟨mem, (counted entry mem).mpr ?_⟩, same.trans id⟩
      rwa [same, id]
  simpa [countOf] using perm.length_eq

/-- The two ends of a history of more than one snapshot. -/
structure Ends (snapshots : List (ListingSnapshot Instant)) (entry : Str × List (ListingSnapshot Instant))
    (first last : ListingSnapshot Instant) : Prop where
  head : entry.2[0]? = some first
  tail : entry.2.getLast? = some last
  firstId : first.listingId = entry.1
  lastId : last.listingId = entry.1
  earliest : IsEarliest snapshots first
  latest : IsLatest snapshots last
  apart : first.snapshotAt < last.snapshotAt

/-- A history of more than one snapshot has two ends. -/
theorem HistoryOf.exists_ends (h : HistoryOf snapshots history) {entry : Str × List (ListingSnapshot Instant)}
    (mem : entry ∈ history) (several : 1 < entry.2.length) : ∃ first last, Ends snapshots entry first last := by
  have sorted := h.sorted entry mem
  have member := h.mem_iff entry mem
  obtain ⟨id, one⟩ := entry
  match one, several with
  | first :: second :: rest, _ =>
    have tail := List.getLast?_eq_some_getLast (List.cons_ne_nil second rest)
    generalize (second :: rest).getLast (List.cons_ne_nil second rest) = last at tail
    have whole : (first :: second :: rest).getLast? = some last := by rw [List.getLast?_cons_cons, tail]
    obtain ⟨inLast, greatest⟩ := (getLast?_eq_some_iff_of_pairwise sorted).mp whole
    obtain ⟨hfirst, firstId⟩ := (member first).mp List.mem_cons_self
    obtain ⟨hlast, lastId⟩ := (member last).mp inLast
    have least := (List.pairwise_cons.mp sorted).1
    refine ⟨first, last, rfl, whole, firstId, lastId, ⟨hfirst, ?_⟩, ⟨hlast, ?_⟩,
      least last (List.mem_of_getLast? tail)⟩
    · intro other hother same
      rcases List.mem_cons.mp ((member other).mpr ⟨hother, same.trans firstId⟩) with rfl | later
      · exact le_rfl
      · exact (least other later).le
    · intro other hother same
      exact greatest other ((member other).mpr ⟨hother, same.trans lastId⟩)

/-- A listing is observable when its history has more than one snapshot. -/
theorem HistoryOf.observable_iff (h : HistoryOf snapshots history) {entry : Str × List (ListingSnapshot Instant)}
    (mem : entry ∈ history) : 1 < entry.2.length ↔ Observable snapshots entry.1 := by
  constructor
  · intro several
    obtain ⟨first, last, ends⟩ := h.exists_ends mem several
    exact ⟨first, ends.earliest.1, last, ends.latest.1, ends.firstId, ends.lastId, ne_of_lt ends.apart⟩
  · rintro ⟨a, ha, b, hb, ida, idb, apart⟩
    have inA := (h.mem_iff entry mem a).mpr ⟨ha, ida⟩
    have inB := (h.mem_iff entry mem b).mpr ⟨hb, idb⟩
    by_contra single
    match one : entry.2, single with
    | [], _ =>
      rw [one] at inA
      cases inA
    | [s], _ =>
      rw [one, List.mem_singleton] at inA inB
      exact apart (by rw [inA, inB])
    | _ :: _ :: _, single => simp at single

/-- The move of a listing is that between the ends of its history. -/
theorem Ends.moved_iff {entry : Str × List (ListingSnapshot Instant)} {first last : ListingSnapshot Instant}
    (ends : Ends snapshots entry first last) (agreeing : Agreeing snapshots) {move : Move} :
    Moved snapshots move entry.1 ↔ move.Relates first.listPriceCny last.listPriceCny := by
  constructor
  · rintro ⟨a, ha, b, hb, ida, idb, earliest, latest, -, related⟩
    have sameFirst : a = first := by
      have instant := le_antisymm (earliest.2 first ends.earliest.1 (ends.firstId.trans ida.symm))
        (ends.earliest.2 a ha (ida.trans ends.firstId.symm))
      exact agreeing a ha first ends.earliest.1 (Prod.ext (ida.trans ends.firstId.symm) instant)
    have sameLast : b = last := by
      have instant := le_antisymm (ends.latest.2 b hb (idb.trans ends.lastId.symm))
        (latest.2 last ends.latest.1 (ends.lastId.trans idb.symm))
      exact agreeing b hb last ends.latest.1 (Prod.ext (idb.trans ends.lastId.symm) instant)
    rwa [sameFirst, sameLast] at related
  · intro related
    exact ⟨first, ends.earliest.1, last, ends.latest.1, ends.firstId, ends.lastId, ends.earliest,
      ends.latest, ends.apart, related⟩

end

/-! ### Counts -/

/-- Selecting among the results is selecting among the arguments. -/
theorem length_filter_of_mapM {α β ε : Type} {f : α → Except ε β} {xs : List α} {ys : List β}
    (found : xs.mapM f = .ok ys) {p : β → Bool} {q : α → Bool}
    (same : ∀ x ∈ xs, ∀ y, f x = .ok y → p y = q x) : (ys.filter p).length = (xs.filter q).length := by
  have selected := map_of_mapM found same
  rw [← List.countP_eq_length_filter, ← List.countP_eq_length_filter, ← Function.id_comp p,
    ← Function.id_comp q, ← List.countP_map, ← List.countP_map, selected]

/-- A history counts once, and once more when it has more than one snapshot. -/
theorem length_add_several_le {T : Type} {history : List (Str × List (ListingSnapshot T))}
    (nonempty : ∀ entry ∈ history, entry.2 ≠ []) :
    history.length + (history.filter fun entry => entry.2.length > 1).length ≤
      (history.map fun entry => entry.2.length).sum := by
  induction history with
  | nil => rfl
  | cons entry history ih =>
      have rest := ih fun e he => nonempty e (List.mem_cons_of_mem entry he)
      have some_ := List.length_pos_of_ne_nil (nonempty entry List.mem_cons_self)
      simp only [List.length_cons, List.map_cons, List.sum_cons, List.filter_cons]
      split
      · rename_i several
        rw [decide_eq_true_eq] at several
        rw [List.length_cons]
        omega
      · omega

section

variable [Runtime] {communityId : Str} {minimum : Int} {U T : Type} [Datetime U] [Datetime T]
  {listings : List (Listing U)} {snapshots : List (ListingSnapshot Instant)} {identities : Dict Str (Listing U)}
  {history : List (Str × List (ListingSnapshot Instant))}

/-- In exact arithmetic the ratio of a history is the relative move between its ends. -/
theorem priceChangeRatio_exact (exact : ∀ q, Runtime.round q = .finite q)
    (prices : ∀ s ∈ snapshots, s.listPriceCny.isFinite = true) {entry : Str × List (ListingSnapshot Instant)}
    {first last : ListingSnapshot Instant} (ends : Ends snapshots entry first last) :
    ∃ a b : ℚ, 0 < a ∧ first.listPriceCny = .finite a ∧ last.listPriceCny = .finite b ∧
      priceChangeRatio entry.2 = .ok (.finite ((b - a) / a)) := by
  obtain ⟨a, ha⟩ := Double.isFinite_iff.mp (prices first ends.earliest.1)
  obtain ⟨b, hb⟩ := Double.isFinite_iff.mp (prices last ends.latest.1)
  have positive : 0 < a := by
    have := first.listPriceCny_pos
    rw [ha] at this
    exact of_decide_eq_true this
  have nonzero : a ≠ 0 := ne_of_gt positive
  refine ⟨a, b, positive, ha, hb, ?_⟩
  have quotient : (Double.finite (b + -a)).div (.finite a) = .ok (.finite ((b - a) / a)) := by
    simp [Double.div, nonzero, exact, ← sub_eq_add_neg]
  simp only [priceChangeRatio, item, lastItem, ends.head, ends.tail, bind, Except.bind, ha, hb,
    Double.sub, Double.neg, Double.add, exact, quotient]
  rfl

omit [Runtime] in
/-- A ratio is below zero, above it as the last price is to the first. -/
theorem move_of_ratio {a b : ℚ} (positive : 0 < a) :
    (Double.lt (.finite ((b - a) / a)) 0 = true ↔ Move.cut.Relates (.finite a) (.finite b)) ∧
    (Double.lt 0 (.finite ((b - a) / a)) = true ↔ Move.increase.Relates (.finite a) (.finite b)) := by
  simp only [Move.Relates, Double.lt, decide_eq_true_eq, Nat.cast_zero]
  rw [div_lt_iff₀ positive, lt_div_iff₀ positive, zero_mul, sub_neg, sub_pos]
  exact ⟨Iff.rfl, Iff.rfl⟩

/-- The sign of the ratio of a history is the move between its ends. -/
theorem Ends.sign_iff (exact : ∀ q, Runtime.round q = .finite q)
    (prices : ∀ s ∈ snapshots, s.listPriceCny.isFinite = true) {entry : Str × List (ListingSnapshot Instant)}
    {first last : ListingSnapshot Instant} (ends : Ends snapshots entry first last) {ratio : Double}
    (computed : priceChangeRatio entry.2 = .ok ratio) :
    (ratio.lt 0 = true ↔ Move.cut.Relates first.listPriceCny last.listPriceCny) ∧
    (Double.lt 0 ratio = true ↔ Move.increase.Relates first.listPriceCny last.listPriceCny) := by
  obtain ⟨a, b, positive, ha, hb, found⟩ := priceChangeRatio_exact exact prices ends
  cases computed.symm.trans found
  rw [ha, hb]
  exact move_of_ratio positive

omit [Runtime] in
/-- Two prices are in exactly one of the three relations. -/
theorem existsUnique_relates (a b : ℚ) : ∃! move : Move, move.Relates (.finite a) (.finite b) := by
  rcases lt_trichotomy b a with lt | eq | gt
  · refine ⟨.cut, decide_eq_true lt, ?_⟩
    rintro (_ | _ | _) related
    · rfl
    · exact absurd (of_decide_eq_true related) lt.not_gt
    · exact absurd (Double.finite.inj related) lt.ne
  · refine ⟨.unchanged, congrArg Double.finite eq, ?_⟩
    rintro (_ | _ | _) related
    · exact absurd (of_decide_eq_true related) eq.not_lt
    · exact absurd (of_decide_eq_true related) eq.not_gt
    · rfl
  · refine ⟨.increase, decide_eq_true gt, ?_⟩
    rintro (_ | _ | _) related
    · exact absurd (of_decide_eq_true related) gt.not_gt
    · rfl
    · exact absurd (Double.finite.inj related) gt.ne'

omit [Runtime] in
theorem observable_of_moved {move : Move} {listingId : Str} (moved : Moved snapshots move listingId) :
    Observable snapshots listingId := by
  obtain ⟨a, ha, b, hb, ida, idb, -, -, lt, -⟩ := moved
  exact ⟨a, ha, b, hb, ida, idb, ne_of_lt lt⟩

omit [Runtime] in
/-- An observable listing made exactly one move. -/
theorem HistoryOf.existsUnique_moved (h : HistoryOf snapshots history) (agreeing : Agreeing snapshots)
    (prices : ∀ s ∈ snapshots, s.listPriceCny.isFinite = true) {listingId : Str}
    (observable : Observable snapshots listingId) : ∃! move, Moved snapshots move listingId := by
  obtain ⟨s, hs, _, _, id, _⟩ := id observable
  obtain ⟨entry, mem, same⟩ := h.covers s hs
  obtain rfl : entry.1 = listingId := same.trans id
  obtain ⟨first, last, ends⟩ := h.exists_ends mem ((h.observable_iff mem).mpr observable)
  obtain ⟨a, ha⟩ := Double.isFinite_iff.mp (prices first ends.earliest.1)
  obtain ⟨b, hb⟩ := Double.isFinite_iff.mp (prices last ends.latest.1)
  simp only [ends.moved_iff agreeing, ha, hb]
  exact existsUnique_relates a b

omit [Runtime] in
/-- The moves partition the observable listings. -/
theorem countOf_observable (one : ∀ id, Observable snapshots id → ∃! move, Moved snapshots move id)
    (listings : List (Listing U)) :
    countOf listings (Observable snapshots) = countOf listings (Moved snapshots .cut) +
      countOf listings (Moved snapshots .increase) + countOf listings (Moved snapshots .unchanged) := by
  unfold countOf
  induction listings with
  | nil => rfl
  | cons l listings ih =>
      by_cases observable : Observable snapshots l.listingId
      · obtain ⟨move, moved, only⟩ := one l.listingId observable
        have other : ∀ move', move' ≠ move → ¬ Moved snapshots move' l.listingId :=
          fun move' differ moved' => differ (only move' moved')
        cases move <;> simp [observable, moved, other, ih] <;> omega
      · have still : ∀ move, ¬ Moved snapshots move l.listingId :=
          fun move moved => observable (observable_of_moved moved)
        simp [observable, still, ih]

omit [Runtime] in
/-- The histories of more than one snapshot are in step with the observable listings. -/
theorem HistoryOf.length_several (h : HistoryOf snapshots history)
    (accepted : Accepted communityId listings snapshots) :
    (history.filter fun entry => entry.2.length > 1).length = countOf listings (Observable snapshots) := by
  apply h.length_filter accepted.distinct accepted.known
  · intro entry mem
    rw [decide_eq_true_eq]
    exact h.observable_iff mem
  · rintro id ⟨a, ha, -, -, ida, -⟩
    exact ⟨a, ha, ida⟩

/-- Selecting the changes of a sign is selecting the listings of a move. -/
theorem HistoryOf.length_changes (h : HistoryOf snapshots history)
    (accepted : Accepted communityId listings snapshots) {changes : List Double}
    (found : (history.filter fun entry => entry.2.length > 1).mapM
      (fun entry => priceChangeRatio entry.2) = .ok changes) {p : Double → Bool} {move : Move}
    (sign : ∀ entry ∈ history, ∀ first last, Ends snapshots entry first last → ∀ ratio,
      priceChangeRatio entry.2 = .ok ratio →
        (p ratio = true ↔ move.Relates first.listPriceCny last.listPriceCny)) :
    (changes.filter p).length = countOf listings (Moved snapshots move) := by
  have selected : ∀ entry ∈ history.filter fun entry => entry.2.length > 1, ∀ ratio,
      priceChangeRatio entry.2 = .ok ratio → p ratio = decide (Moved snapshots move entry.1) := by
    intro entry mem ratio computed
    obtain ⟨mem, several⟩ := List.mem_filter.mp mem
    obtain ⟨first, last, ends⟩ := h.exists_ends mem (of_decide_eq_true several)
    rw [Bool.eq_iff_iff, decide_eq_true_eq, ends.moved_iff accepted.agreeing]
    exact sign entry mem first last ends ratio computed
  rw [length_filter_of_mapM found selected, List.filter_filter]
  apply h.length_filter accepted.distinct accepted.known
  · intro entry mem
    rw [Bool.and_eq_true, decide_eq_true_eq, decide_eq_true_eq, and_iff_left_iff_imp]
    exact fun moved => (h.observable_iff mem).mpr (observable_of_moved moved)
  · rintro id ⟨a, ha, -, -, ida, -⟩
    exact ⟨a, ha, ida⟩

theorem medianMetric_spec {values : List Double} {metric : MedianMetric}
    (h : medianMetric values minimum = .ok metric) :
    metric.usableCount = values.length ∧ (metric.value.isSome = true ↔ minimum ≤ metric.usableCount) := by
  unfold medianMetric at h
  split_ifs at h with few
  · cases h
    simpa using few
  · cases middle : median values with
    | error e =>
        rw [middle] at h
        cases h
    | ok value =>
        rw [middle] at h
        cases h
        simpa using few

/-- How the counters are read off the histories, their latest snapshots and the price changes. -/
structure Tallied (metrics : CommunityListingMetrics T) (minimum : Int) (identities : Dict Str (Listing U))
    (history : List (Str × List (ListingSnapshot T))) (latest : List (ListingSnapshot T)) (changes : List Double) :
    Prop extends Describes metrics minimum latest where
  listingCount : metrics.listingCount = identities.keys.length
  listingIds : metrics.listingIds = orderBy id identities.keys
  snapshotCount : metrics.snapshotCount = ((history.map fun entry => entry.2.length).sum : Nat)
  observedListingCount : metrics.observedListingCount = history.length
  identityOnlyListingCount : metrics.identityOnlyListingCount = identities.keys.length - history.length
  repricingObservableCount : metrics.repricingObservableCount = changes.length
  priceCutCount : metrics.priceCutCount = (changes.filter fun ratio => ratio.lt 0).length
  priceIncreaseCount : metrics.priceIncreaseCount = (changes.filter fun ratio => Double.lt 0 ratio).length
  unchangedPriceCount : metrics.unchangedPriceCount = changes.length -
    (changes.filter fun ratio => ratio.lt 0).length - (changes.filter fun ratio => Double.lt 0 ratio).length
  priceCutShare : metrics.priceCutShare =
    if changes ≠ [] then
      some (Runtime.round (((changes.filter fun ratio => ratio.lt 0).length : ℚ) / changes.length))
    else none
  medianPriceChangeRatio : medianMetric changes minimum = .ok metrics.medianPriceChangeRatio

theorem tallied_of_summarize {history : List (Str × List (ListingSnapshot T))} {metrics : CommunityListingMetrics T}
    (summarized : summarize communityId minimum identities history = .ok metrics) :
    ∃ latest changes, history.mapM (fun entry => lastItem entry.2) = .ok latest ∧
      (history.filter fun entry => entry.2.length > 1).mapM (fun entry => priceChangeRatio entry.2) =
        .ok changes ∧
      Tallied metrics minimum identities history latest changes := by
  obtain ⟨latest, hlatest, rest⟩ := eq_ok_of_bind summarized
  obtain ⟨changes, hchanges, rest⟩ := eq_ok_of_bind rest
  obtain ⟨listPrice, -, rest⟩ := eq_ok_of_bind rest
  obtain ⟨unitPrice, -, rest⟩ := eq_ok_of_bind rest
  obtain ⟨ratios, hratios, validated⟩ := eq_ok_of_bind rest
  have fields := CommunityListingMetricsFields.eq_of_validate validated
  refine ⟨latest, changes, hlatest, hchanges, describes_of_summarize summarized hlatest, ?_, ?_, ?_, ?_, ?_,
    ?_, ?_, ?_, ?_, ?_, ?_⟩
  all_goals rw [fields]
  exact hratios

/-- The share of the cuts is none without changes, and otherwise a fraction of one. -/
theorem share_spec (exact : ∀ q, Runtime.round q = .finite q) (changes : List Double) {share : Option Double}
    (shared : share = if changes ≠ [] then
      some (Runtime.round (((changes.filter fun ratio => ratio.lt 0).length : ℚ) / changes.length)) else none) :
    (share = none ↔ changes.length = 0) ∧
      ∀ value ∈ share, ∃ q : ℚ, value = .finite q ∧ 0 ≤ q ∧ q ≤ 1 ∧
        q = ((changes.filter fun ratio => ratio.lt 0).length : ℚ) / changes.length := by
  rw [shared]
  split_ifs with some_
  · refine ⟨by simpa using some_, ?_⟩
    intro value mem
    cases mem
    have positive : (0 : ℚ) < changes.length := Nat.cast_pos.mpr (List.length_pos_of_ne_nil some_)
    have cuts : ((changes.filter fun ratio => ratio.lt 0).length : ℚ) ≤ changes.length :=
      Nat.cast_le.mpr (List.length_filter_le _ _)
    exact ⟨_, exact _, div_nonneg (Nat.cast_nonneg _) positive.le, (div_le_one₀ positive).mpr cuts, rfl⟩
  · exact ⟨by simpa using some_, fun _ mem => by cases mem⟩

/-- However the snapshots are compared, the counts add up. -/
theorem partitioned_of_compute (exact : ∀ q, Runtime.round q = .finite q) {snapshots : List (ListingSnapshot T)}
    {metrics : CommunityListingMetrics T}
    (computed : computeCommunityListingMetrics listings snapshots communityId minimum = .ok metrics) :
    Partitioned minimum metrics := by
  obtain ⟨identities, history, nonempty, summarized⟩ := exists_of_compute computed
  obtain ⟨latest, changes, hlatest, hchanges, tallied⟩ := tallied_of_summarize summarized
  have observed : latest.length = history.length := length_of_mapM hlatest
  have repriced : changes.length = (history.filter fun entry => entry.2.length > 1).length :=
    length_of_mapM hchanges
  have seen := length_add_several_le nonempty
  obtain ⟨share_none, share⟩ := share_spec exact changes tallied.priceCutShare
  have listPrice := medianMetric_spec tallied.medianActiveListPriceCny
  have unitPrice := medianMetric_spec tallied.medianActiveUnitPriceCnySqm
  have ratios := medianMetric_spec tallied.medianPriceChangeRatio
  refine ⟨?_, ?_, ?_, ?_, ?_, ?_, ?_, ?_, ?_, ?_, ?_, ?_, ?_⟩
  · rw [tallied.listingCount, tallied.observedListingCount, tallied.identityOnlyListingCount]
    omega
  · rw [tallied.listingCount, tallied.listingIds, (perm_orderBy id identities.keys).length_eq]
  · rw [tallied.currentStatusCounts, tallied.observedListingCount, sum_statusCounts, observed]
  · rw [tallied.activeListingCount, currentStatusCount_eq tallied.currentStatusCounts, activeOf]
  · rw [tallied.currentStatusCounts]
    exact statusCounts_ne_zero
  · rw [tallied.priceCutCount, tallied.priceIncreaseCount, tallied.unchangedPriceCount,
      tallied.repricingObservableCount]
    omega
  · rw [tallied.observedListingCount, tallied.repricingObservableCount, tallied.snapshotCount, repriced]
    exact_mod_cast seen
  · rw [share_none, tallied.repricingObservableCount, Int.natCast_eq_zero]
  · rw [tallied.priceCutCount, tallied.repricingObservableCount]
    simpa only [Int.cast_natCast] using share
  · rw [listPrice.1, tallied.activeListingCount, List.length_map]
  · rw [unitPrice.1, tallied.activeListingCount]
    exact_mod_cast List.length_filterMap_le _ _
  · rw [ratios.1, tallied.repricingObservableCount]
  · intro metric mem
    simp only [List.mem_cons, List.not_mem_nil, or_false] at mem
    rcases mem with rfl | rfl | rfl
    · exact listPrice.2
    · exact unitPrice.2
    · exact ratios.2

/-- Over instants each listing counts under its move. -/
theorem counted_of_compute (exact : ∀ q, Runtime.round q = .finite q)
    (prices : ∀ s ∈ snapshots, s.listPriceCny.isFinite = true) {metrics : CommunityListingMetrics Instant}
    (computed : computeCommunityListingMetrics listings snapshots communityId minimum = .ok metrics) :
    Counted listings snapshots metrics := by
  obtain ⟨enough, accepted⟩ := accepted_of_compute computed
  obtain ⟨identities, history, keys, h, summarized⟩ := compute_of_accepted accepted enough
  obtain ⟨latest, changes, -, hchanges, tallied⟩ := tallied_of_summarize (summarized.symm.trans computed)
  have one_move : ∀ id, Observable snapshots id → ∃! move, Moved snapshots move id :=
    fun _ => h.existsUnique_moved accepted.agreeing prices
  have observable : changes.length = countOf listings (Observable snapshots) :=
    (length_of_mapM hchanges).trans (h.length_several accepted)
  have cuts : (changes.filter fun ratio => ratio.lt 0).length = countOf listings (Moved snapshots .cut) := by
    apply h.length_changes accepted hchanges
    intro entry mem first last ends ratio computed
    exact (ends.sign_iff exact prices computed).1
  have increases : (changes.filter fun ratio => Double.lt 0 ratio).length =
      countOf listings (Moved snapshots .increase) := by
    apply h.length_changes accepted hchanges
    intro entry mem first last ends ratio computed
    exact (ends.sign_iff exact prices computed).2
  have parts := countOf_observable one_move listings
  refine ⟨?_, ?_, ?_, ?_, one_move⟩
  · rw [tallied.repricingObservableCount, observable]
  · rw [tallied.priceCutCount, cuts]
  · rw [tallied.priceIncreaseCount, increases]
  · rw [tallied.unchangedPriceCount, observable, cuts, increases]
    omega

omit [Runtime] in
/-- A price cut across the hour that a clock shows twice counts as an increase. -/
theorem repeated_hour_turns_cut : let _ := sampleRuntime
    ¬ ∀ (listings : List Listing) (snapshots : List ListingSnapshot) (communityId : Str) (minimum : Int)
      (metrics : CommunityListingMetrics), (∀ s ∈ snapshots, s.listPriceCny.isFinite = true) →
      computeCommunityListingMetrics listings snapshots communityId minimum = .ok metrics →
      Partitioned minimum metrics ∧ Counted listings (snapshots.map (·.stored)) metrics := by
  intro _ counts
  obtain ⟨metrics, computed⟩ := exists_eq_ok (x := computeCommunityListingMetrics [seenActive.listing]
    [repeatedSnapshot 45 false 3000000 rfl, repeatedSnapshot 30 true 2900000 rfl] (str "cm-a") 1)
    (by decide +kernel)
  obtain ⟨-, counted⟩ := counts _ _ _ _ metrics (by decide +kernel) computed
  have cuts := congrArg (fun x => x.toOption.map (·.priceCutCount)) computed
  change _ = some metrics.priceCutCount at cuts
  rw [counted.cuts] at cuts
  exact absurd cuts (by decide +kernel)

/-- **The counts partition the evidence.** In exact arithmetic over finite prices the counts of the
metrics add up; and over snapshots that are compared by their instants, every counter of the moves is
the number of supplied listings that made the move. -/
theorem counts_partition_evidence (exact : ∀ q, Runtime.round q = .finite q) (listings : List Listing)
    (snapshots : List ListingSnapshot) (communityId : Str) (minimum : Int)
    (metrics : CommunityListingMetrics) (prices : ∀ s ∈ snapshots, s.listPriceCny.isFinite = true)
    (computed : computeCommunityListingMetrics listings snapshots communityId minimum = .ok metrics) :
    Partitioned minimum metrics ∧
      (ComparableAt snapshots → Counted listings (snapshots.map (·.stored)) metrics) := by
  refine ⟨partitioned_of_compute exact computed, fun comparable => ?_⟩
  obtain ⟨observable, cuts, increases, unchanged, one_move⟩ :=
    counted_of_compute exact (List.forall_mem_map.mpr prices) (compute_instants_of_ok comparable computed)
  exact ⟨observable, cuts, increases, unchanged, one_move⟩

end

/-- A listing whose price was cut before it was sold. -/
theorem counts_partition_evidence_of_a_cut : let _ := sampleRuntime
    ∃ metrics, computeCommunityListingMetrics [seenActive.listing] [seenActive.snapshot, seenSold.snapshot]
        (str "cm-a") 1 = .ok metrics ∧ Partitioned 1 metrics ∧
      Counted [seenActive.listing] ([seenActive.snapshot, seenSold.snapshot].map (·.stored)) metrics := by
  intro _
  obtain ⟨metrics, computed⟩ := exists_eq_ok (x := computeCommunityListingMetrics [seenActive.listing]
    [seenActive.snapshot, seenSold.snapshot] (str "cm-a") 1) (by decide +kernel)
  obtain ⟨partitioned, counted⟩ :=
    counts_partition_evidence (fun _ => rfl) _ _ _ _ metrics (by decide +kernel) computed
  exact ⟨metrics, computed, partitioned, counted (by decide +kernel)⟩

end ListingMetrics

end CnPropertyAgent
