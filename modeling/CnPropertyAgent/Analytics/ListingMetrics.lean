import CnPropertyAgent.Analytics.Common
import CnPropertyAgent.Relational.Statements
import Mathlib.Data.List.Find

/-!
Inventory and repricing metrics over listings and their snapshots.

The evidence is indexed first, by dictionaries that notice what does not belong:
listings of other communities, repeated ids, snapshots of unknown listings, and
snapshots that contradict one another. The metrics are then read off the sorted
histories.
-/

namespace CnPropertyAgent

open Python Relational

structure ListingStatusCount where
  status : ListingStatus
  count : Nat
deriving DecidableEq

structure CommunityListingMetricsFields (T : Type := AwareDatetime) where
  communityId : Str
  minimumSampleCount : Int
  listingCount : Int
  snapshotCount : Int
  observedListingCount : Int
  identityOnlyListingCount : Int
  latestSnapshotAt : Option T
  currentStatusCounts : List ListingStatusCount
  activeListingCount : Int
  medianActiveListPriceCny : MedianMetric
  medianActiveUnitPriceCnySqm : MedianMetric
  repricingObservableCount : Int
  priceCutCount : Int
  priceIncreaseCount : Int
  unchangedPriceCount : Int
  priceCutShare : Option Double
  medianPriceChangeRatio : MedianMetric
  listingIds : List Str
  latestSnapshotSources : List Str
deriving DecidableEq

def CommunityListingMetricsFields.errors {T : Type} (m : CommunityListingMetricsFields T) : List ErrorItem :=
  checkNonempty (str "community_id") m.communityId ++
  checkAtLeast (str "minimum_sample_count") 1 m.minimumSampleCount ++
  checkAtLeast (str "listing_count") 0 m.listingCount ++
  checkAtLeast (str "snapshot_count") 0 m.snapshotCount ++
  checkAtLeast (str "observed_listing_count") 0 m.observedListingCount ++
  checkAtLeast (str "identity_only_listing_count") 0 m.identityOnlyListingCount ++
  checkAtLeast (str "active_listing_count") 0 m.activeListingCount ++
  checkAtLeast (str "repricing_observable_count") 0 m.repricingObservableCount ++
  checkAtLeast (str "price_cut_count") 0 m.priceCutCount ++
  checkAtLeast (str "price_increase_count") 0 m.priceIncreaseCount ++
  checkAtLeast (str "unchanged_price_count") 0 m.unchangedPriceCount

structure CommunityListingMetrics (T : Type := AwareDatetime) extends CommunityListingMetricsFields T where
  valid : toCommunityListingMetricsFields.errors = []
deriving DecidableEq

def CommunityListingMetricsFields.validate {T : Type} (fields : CommunityListingMetricsFields T) :
    Except Failure (CommunityListingMetrics T) :=
  if h : fields.errors = [] then .ok ⟨fields, h⟩ else .error (.validation fields.errors)

theorem CommunityListingMetricsFields.eq_of_validate {T : Type} {fields : CommunityListingMetricsFields T}
    {m : CommunityListingMetrics T} (h : fields.validate = .ok m) :
    m.toCommunityListingMetricsFields = fields := by
  unfold CommunityListingMetricsFields.validate at h
  split at h
  · cases h; rfl
  · cases h

/-- `current_status_count`: zero if no listing is in the status. -/
def CommunityListingMetrics.currentStatusCount {T : Type} (m : CommunityListingMetrics T) (status : ListingStatus) :
    Nat :=
  match m.currentStatusCounts.find? fun item => item.status = status with
  | some item => item.count
  | none => 0

/-- The metrics with their instant. -/
def CommunityListingMetrics.stored {T : Type} [Datetime T] (m : CommunityListingMetrics T) :
    CommunityListingMetrics Instant :=
  ⟨{ m.toCommunityListingMetricsFields with
    latestSnapshotAt := m.latestSnapshotAt.map Datetime.instant }, m.valid⟩

namespace ListingMetrics

/-! ### Indexing the evidence

The listings are of any datetimes, which nothing here looks at. A history is the items of a
dictionary under datetimes, which finds a key by `==`. -/

variable {U T : Type} [Datetime U] [Datetime T]

/-- What one pass over the listings collects. -/
structure Indexed (U : Type) [Datetime U] where
  identities : Dict Str (Listing U)
  foreign : List Str
  repeated : List Str

def indexListing (communityId : Str) (state : Indexed U) (listing : Listing U) : Indexed U where
  identities := state.identities.set listing.listingId listing
  foreign :=
    if listing.communityId ≠ communityId then appendNew state.foreign listing.communityId
    else state.foreign
  repeated :=
    if listing.listingId ∈ state.identities.keys then appendNew state.repeated listing.listingId
    else state.repeated

def indexListings [Runtime] (listings : List (Listing U)) (communityId : Str) :
    Except Failure (Dict Str (Listing U)) :=
  let ⟨identities, foreign, repeated⟩ := listings.foldl (indexListing communityId) ⟨.empty, [], []⟩
  if foreign ≠ [] then
    raiseValueError (str "listings must all belong to community " ++ communityId.pyRepr ++
      str ", also got: " ++ render foreign)
  else if repeated ≠ [] then
    raiseValueError (str "each listing must be supplied once, got repeated: " ++ render repeated)
  else .ok identities

/-- `history.setdefault(snapshot.snapshot_at, snapshot)`. -/
def enter (history : List (T × ListingSnapshot T)) (snapshot : ListingSnapshot T) :
    ListingSnapshot T × List (T × ListingSnapshot T) :=
  match history.find? fun entry => Datetime.eq entry.1 snapshot.snapshotAt with
  | some entry => (entry.2, history)
  | none => (snapshot, history ++ [(snapshot.snapshotAt, snapshot)])

/-- `values.add(value)`. -/
def addInstant (values : List (Str × T)) (value : Str × T) : List (Str × T) :=
  if values.any fun other => other.1 = value.1 && Datetime.eq other.2 value.2 then values
  else values ++ [value]

/-- What one pass over the snapshots collects. -/
structure Grouped (T : Type) where
  grouped : Dict Str (List (T × ListingSnapshot T))
  unknown : List Str
  conflicting : List (Str × T)

def groupSnapshot (identities : Dict Str (Listing U)) (state : Grouped T) (snapshot : ListingSnapshot T) :
    Grouped T :=
  if snapshot.listingId ∉ identities.keys then
    { state with unknown := appendNew state.unknown snapshot.listingId }
  else
    let (history, grouped) := state.grouped.setDefault snapshot.listingId []
    let (stored, history) := enter history snapshot
    { state with
      grouped := grouped.set snapshot.listingId history
      conflicting :=
        if stored.eq snapshot then state.conflicting
        else addInstant state.conflicting (snapshot.listingId, snapshot.snapshotAt) }

/-- `sorted(xs)` by `<`: the sort is stable, and its result is documented where `<` is an order. -/
def sortedBy {α : Type} (before : α → α → Bool) (xs : List α) : List α :=
  xs.insertionSort fun a b => before b a = false

/-- `history[snapshot_at] for snapshot_at in sorted(history)`. -/
def chronological (history : List (T × ListingSnapshot T)) : List (ListingSnapshot T) :=
  (sortedBy (fun a b => Datetime.lt a.1 b.1) history).map Prod.snd

/-- `_render_instants`: the listing ids and the instants, in order. -/
def renderInstants [Runtime] (values : List (Str × T)) : Str :=
  let before (a b : Str × T) : Bool := if a.1 = b.1 then Datetime.lt a.2 b.2 else a.1 < b.1
  Str.join (str ", ") ((sortedBy before values).map fun value =>
    value.1.pyRepr ++ str " at " ++ Datetime.isoformat value.2)

def groupSnapshots [Runtime] (snapshots : List (ListingSnapshot T)) (identities : Dict Str (Listing U)) :
    Except Failure (List (Str × List (ListingSnapshot T))) :=
  let ⟨grouped, unknown, conflicting⟩ := snapshots.foldl (groupSnapshot identities) ⟨.empty, [], []⟩
  if unknown ≠ [] then
    raiseValueError (str "snapshots must belong to a supplied listing, got unknown: " ++
      render unknown)
  else if conflicting ≠ [] then
    raiseValueError (str "snapshots of one listing at one instant must agree, got conflicting: " ++
      renderInstants conflicting)
  else .ok ((orderBy Prod.fst grouped.rows).map fun entry => (entry.1, chronological entry.2))

/-! ### The metrics -/

section

variable [Runtime]

def priceChangeRatio (snapshots : List (ListingSnapshot T)) : Except Failure Double := do
  let earliest ← item snapshots 0
  let latest ← lastItem snapshots
  (latest.listPriceCny.sub earliest.listPriceCny).div earliest.listPriceCny

def statusCounts (latest : List (ListingSnapshot T)) : List ListingStatusCount :=
  ListingStatus.all.filterMap fun status =>
    let count := (latest.filter fun item => item.status = status).length
    if count ≠ 0 then some ⟨status, count⟩ else none

/-- `max(ts, default=None)`. -/
def latestOf : List T → Option T
  | [] => none
  | t :: ts => some (ts.foldl (fun best t => if Datetime.lt best t then t else best) t)

/-- The metrics of indexed evidence. -/
def summarize (communityId : Str) (minimum : Int) (identities : Dict Str (Listing U))
    (history : List (Str × List (ListingSnapshot T))) : Except Failure (CommunityListingMetrics T) := do
  let latest ← history.mapM fun entry => lastItem entry.2
  let active := latest.filter fun item => item.status = .active
  let changes ← (history.filter fun entry => entry.2.length > 1).mapM fun entry =>
    priceChangeRatio entry.2
  let cuts := (changes.filter fun ratio => ratio.lt 0).length
  let increases := (changes.filter fun ratio => Double.lt 0 ratio).length
  let medianActiveListPriceCny ← medianMetric (active.map fun item => item.listPriceCny) minimum
  let medianActiveUnitPriceCnySqm ←
    medianMetric (active.filterMap fun item => item.unitPriceCnySqm) minimum
  let medianPriceChangeRatio ← medianMetric changes minimum
  CommunityListingMetricsFields.validate
    { communityId := communityId
      minimumSampleCount := minimum
      listingCount := identities.keys.length
      snapshotCount := ((history.map fun entry => entry.2.length).sum : Nat)
      observedListingCount := history.length
      identityOnlyListingCount := identities.keys.length - history.length
      latestSnapshotAt := latestOf (latest.map fun item => item.snapshotAt)
      currentStatusCounts := statusCounts latest
      activeListingCount := active.length
      medianActiveListPriceCny := medianActiveListPriceCny
      medianActiveUnitPriceCnySqm := medianActiveUnitPriceCnySqm
      repricingObservableCount := changes.length
      priceCutCount := cuts
      priceIncreaseCount := increases
      unchangedPriceCount := changes.length - cuts - increases
      priceCutShare :=
        if changes ≠ [] then some (Runtime.round ((cuts : ℚ) / changes.length)) else none
      medianPriceChangeRatio := medianPriceChangeRatio
      listingIds := orderBy id identities.keys
      latestSnapshotSources := sortedSet (latest.map fun item => item.source) }

def computeCommunityListingMetrics (listings : List (Listing U)) (snapshots : List (ListingSnapshot T))
    (communityId : Str) (minimum : Int) : Except Failure (CommunityListingMetrics T) := do
  let minimum ← validateMinimumSampleCount minimum
  let communityId ← validateCommunityId communityId
  let identities ← indexListings listings communityId
  let history ← groupSnapshots snapshots identities
  summarize communityId minimum identities history

end

/-! ### What indexing finds -/

/-- After the listings: the ids seen, and whether one was foreign or seen twice. -/
theorem foldl_indexListing (communityId : Str) (listings : List (Listing U)) :
    let state := listings.foldl (indexListing communityId) ⟨.empty, [], []⟩
    (∀ id, id ∈ state.identities.keys ↔ id ∈ listings.map (·.listingId)) ∧
      (state.foreign = [] ↔ ∀ l ∈ listings, l.communityId = communityId) ∧
      (state.repeated = [] ↔ (listings.map (·.listingId)).Nodup) := by
  induction listings using List.reverseRecOn with
  | nil => simp
  | append_singleton listings l ih =>
      obtain ⟨keys, foreign, repeated⟩ := ih
      simp only [List.foldl_append, List.foldl_cons, List.foldl_nil, indexListing]
      refine ⟨?_, ?_, ?_⟩
      · intro id
        rw [Dict.mem_keys_set, keys]
        simp [or_comm]
      · rw [List.forall_mem_append, List.forall_mem_singleton]
        by_cases own : l.communityId = communityId
        · simp only [own, ne_eq, not_true_eq_false, if_false, foreign, and_true]
        · simp [own, appendNew_ne_nil]
      · rw [List.map_append, List.map_singleton, List.nodup_append_comm, List.singleton_append,
          List.nodup_cons, ← keys l.listingId]
        split
        · rename_i seen
          exact iff_of_false (appendNew_ne_nil _ _) fun h => h.1 seen
        · rename_i fresh
          rw [repeated]
          exact ⟨fun h => ⟨fresh, h⟩, fun h => h.2⟩

/-- Indexing succeeds exactly on listings of the community under distinct ids. -/
theorem indexListings_cases [Runtime] (listings : List (Listing U)) (communityId : Str) :
    ((∀ l ∈ listings, l.communityId = communityId) ∧ (listings.map (·.listingId)).Nodup ∧
      ∃ identities, indexListings listings communityId = .ok identities ∧
        ∀ id, id ∈ identities.keys ↔ id ∈ listings.map (·.listingId)) ∨
    (¬ ((∀ l ∈ listings, l.communityId = communityId) ∧ (listings.map (·.listingId)).Nodup) ∧
      ∃ message, indexListings listings communityId = raiseValueError message) := by
  obtain ⟨keys, foreign, repeated⟩ := foldl_indexListing communityId listings
  unfold indexListings
  generalize listings.foldl (indexListing communityId) ⟨.empty, [], []⟩ = state at keys foreign repeated
  by_cases own : ∀ l ∈ listings, l.communityId = communityId
  · by_cases distinct : (listings.map (·.listingId)).Nodup
    · refine Or.inl ⟨own, distinct, state.identities, ?_, keys⟩
      simp only [foreign.mpr own, repeated.mpr distinct, ne_eq, not_true_eq_false, if_false]
    · refine Or.inr ⟨fun h => distinct h.2, ?_⟩
      simp only [foreign.mpr own, ne_eq, not_true_eq_false, if_false,
        if_pos (fun h => distinct (repeated.mp h))]
      exact ⟨_, rfl⟩
  · refine Or.inr ⟨fun h => own h.1, ?_⟩
    simp only [ne_eq, if_pos (fun h => own (foreign.mp h))]
    exact ⟨_, rfl⟩

/-- The snapshots are compared by their instants. -/
def ComparableAt (snapshots : List (ListingSnapshot T)) : Prop :=
  Datetime.Comparable (snapshots.map (·.snapshotAt))

instance (snapshots : List (ListingSnapshot T)) : Decidable (ComparableAt snapshots) :=
  inferInstanceAs (Decidable (Datetime.Comparable _))

theorem comparableAt_instants (snapshots : List (ListingSnapshot Instant)) : ComparableAt snapshots :=
  Datetime.comparable_instants _

theorem ComparableAt.eq_iff {snapshots : List (ListingSnapshot T)} (comparable : ComparableAt snapshots)
    {a b : ListingSnapshot T} (ha : a ∈ snapshots) (hb : b ∈ snapshots) :
    Datetime.eq a.snapshotAt b.snapshotAt = true ↔
      Datetime.instant a.snapshotAt = Datetime.instant b.snapshotAt :=
  (comparable _ (List.mem_map_of_mem ha) _ (List.mem_map_of_mem hb)).1

theorem ComparableAt.lt_iff {snapshots : List (ListingSnapshot T)} (comparable : ComparableAt snapshots)
    {a b : ListingSnapshot T} (ha : a ∈ snapshots) (hb : b ∈ snapshots) :
    Datetime.lt a.snapshotAt b.snapshotAt = true ↔
      Datetime.instant a.snapshotAt < Datetime.instant b.snapshotAt :=
  (comparable _ (List.mem_map_of_mem ha) _ (List.mem_map_of_mem hb)).2

theorem ComparableAt.of_subset {snapshots fewer : List (ListingSnapshot T)} (comparable : ComparableAt snapshots)
    (subset : fewer ⊆ snapshots) : ComparableAt fewer :=
  fun a ha b hb => comparable a (List.map_subset _ subset ha) b (List.map_subset _ subset hb)

/-- What a history holds at an instant. -/
def lookupAt (history : List (T × ListingSnapshot T)) (t : Instant) : Option (ListingSnapshot T) :=
  (history.find? fun entry => Datetime.instant entry.1 = t).map Prod.snd

/-- Each entry is a snapshot of these under its datetime, no two at one instant. -/
structure Entered (done : List (ListingSnapshot T)) (history : List (T × ListingSnapshot T)) : Prop where
  keyed : ∀ entry ∈ history, entry.1 = entry.2.snapshotAt ∧ entry.2 ∈ done
  distinct : (history.map fun entry => Datetime.instant entry.1).Nodup

section

variable {done : List (ListingSnapshot T)} {history : List (T × ListingSnapshot T)} {s : ListingSnapshot T}

theorem Entered.mono (entered : Entered done history) {more : List (ListingSnapshot T)} (subset : done ⊆ more) :
    Entered more history :=
  ⟨fun entry mem => ⟨(entered.keyed entry mem).1, subset (entered.keyed entry mem).2⟩, entered.distinct⟩

theorem Entered.lookupAt_eq_some_iff (entered : Entered done history) {t : Instant} :
    lookupAt history t = some s ↔ (s.snapshotAt, s) ∈ history ∧ Datetime.instant s.snapshotAt = t := by
  rw [lookupAt, Option.map_eq_some_iff]
  constructor
  · rintro ⟨⟨key, s⟩, found, rfl⟩
    have mem := List.mem_of_find?_eq_some found
    obtain ⟨rfl, -⟩ : key = s.snapshotAt ∧ _ := entered.keyed _ mem
    exact ⟨mem, by simpa using List.find?_some found⟩
  · rintro ⟨mem, rfl⟩
    cases found : history.find? fun entry => Datetime.instant entry.1 = Datetime.instant s.snapshotAt with
    | none => exact absurd (decide_eq_true rfl) (List.find?_eq_none.mp found _ mem)
    | some entry =>
        refine ⟨entry, rfl, ?_⟩
        have same : Datetime.instant entry.1 = Datetime.instant s.snapshotAt :=
          by simpa using List.find?_some found
        exact congrArg Prod.snd
          (List.inj_on_of_nodup_map entered.distinct (List.mem_of_find?_eq_some found) mem same)

variable (entered : Entered done history) (comparable : ComparableAt (done ++ [s]))

include entered comparable

/-- The key that is equal is the one at the instant. -/
theorem find?_key : (history.find? fun entry => Datetime.eq entry.1 s.snapshotAt) =
    history.find? fun entry => Datetime.instant entry.1 = Datetime.instant s.snapshotAt := by
  refine List.find?_congr fun entry mem => ?_
  obtain ⟨key, inDone⟩ := entered.keyed entry mem
  rw [Bool.eq_iff_iff, decide_eq_true_eq, key]
  exact comparable.eq_iff (List.mem_append_left _ inDone) (List.mem_append_right _ (List.mem_singleton_self s))

theorem enter_fst : (enter history s).1 = (lookupAt history (Datetime.instant s.snapshotAt)).getD s := by
  rw [enter, find?_key entered comparable, lookupAt]
  cases history.find? fun entry => Datetime.instant entry.1 = Datetime.instant s.snapshotAt <;> rfl

theorem lookupAt_enter (t : Instant) : lookupAt (enter history s).2 t =
    if Datetime.instant s.snapshotAt = t then some ((lookupAt history (Datetime.instant s.snapshotAt)).getD s)
    else lookupAt history t := by
  rw [enter, find?_key entered comparable]
  cases found : history.find? fun entry => Datetime.instant entry.1 = Datetime.instant s.snapshotAt with
  | some entry =>
      by_cases same : Datetime.instant s.snapshotAt = t
      · rw [if_pos same, ← same, lookupAt, found]
        rfl
      · rw [if_neg same]
  | none =>
      by_cases same : Datetime.instant s.snapshotAt = t
      · rw [if_pos same, ← same, lookupAt, lookupAt, List.find?_append, found]
        simp
      · rw [if_neg same, lookupAt, lookupAt, List.find?_append]
        simp [same]

/-- A snapshot is entered, or one at its instant was. -/
theorem Entered.enter : Entered (done ++ [s]) (enter history s).2 := by
  have before := entered.mono (List.subset_append_left done [s])
  unfold ListingMetrics.enter
  rw [find?_key entered comparable]
  cases found : history.find? fun entry => Datetime.instant entry.1 = Datetime.instant s.snapshotAt with
  | some entry => exact before
  | none =>
      constructor
      · rw [List.forall_mem_append, List.forall_mem_singleton]
        exact ⟨before.keyed, rfl, List.mem_append_right _ (List.mem_singleton_self s)⟩
      · rw [List.map_append, List.map_singleton, List.nodup_append_comm, List.singleton_append, List.nodup_cons]
        refine ⟨?_, entered.distinct⟩
        intro mem
        obtain ⟨entry, inside, same⟩ := List.mem_map.mp mem
        exact List.find?_eq_none.mp found entry inside (decide_eq_true same)

end

theorem addInstant_ne_nil (values : List (Str × T)) (value : Str × T) : addInstant values value ≠ [] := by
  unfold addInstant
  split_ifs with present
  · rintro rfl
    cases present
  · simp

/-- What is held under a listing and an instant. -/
def Grouped.lookup (state : Grouped T) (k : Str × Instant) : Option (ListingSnapshot T) :=
  (state.grouped.get? k.1).bind fun history => lookupAt history k.2

/-- What a state holds after the snapshots `done`: the first one of each key. -/
structure GroupedBy (identities : Dict Str (Listing U)) (done : List (ListingSnapshot T)) (state : Grouped T) :
    Prop where
  lookup : ∀ k, k.1 ∈ identities.keys → state.lookup k = done.find? fun s => s.key = k
  entered : ∀ id history, state.grouped.get? id = some history → Entered done history
  keys : ∀ id, id ∈ state.grouped.keys ↔ id ∈ identities.keys ∧ ∃ s ∈ done, s.listingId = id
  unknown : state.unknown = [] ↔ ∀ s ∈ done, s.listingId ∈ identities.keys
  conflicting : state.conflicting = [] ↔ ∀ s ∈ done, s.listingId ∈ identities.keys →
    (done.find? fun s' => s'.key = s.key).map (·.stored) = some s.stored

/-- A later snapshot does not change which snapshot of a key is the first. -/
theorem find?_append_singleton_of_mem {done : List (ListingSnapshot T)} {s x : ListingSnapshot T}
    (mem : s ∈ done) : ((done ++ [x]).find? fun s' => s'.key = s.key) =
      done.find? fun s' => s'.key = s.key := by
  rw [List.find?_append]
  cases found : done.find? fun s' => s'.key = s.key with
  | none => exact absurd (List.find?_eq_none.mp found s mem) (by simp)
  | some first => rfl

section

variable {identities : Dict Str (Listing U)} {state : Grouped T} {done : List (ListingSnapshot T)}
  {s : ListingSnapshot T}

/-- What is under the id of a snapshot when it is looked up. -/
def Grouped.historyOf (state : Grouped T) (id : Str) : List (T × ListingSnapshot T) :=
  (state.grouped.get? id).getD []

theorem lookup_eq (k : Str × Instant) : state.lookup k = lookupAt (state.historyOf k.1) k.2 := by
  rw [Grouped.lookup, Grouped.historyOf]
  cases state.grouped.get? k.1 <;> rfl

theorem GroupedBy.entered_historyOf (inv : GroupedBy identities done state) (id : Str) :
    Entered done (state.historyOf id) := by
  unfold Grouped.historyOf
  cases found : state.grouped.get? id with
  | none => exact ⟨fun _ mem => (nomatch mem), List.nodup_nil⟩
  | some history => exact inv.entered id history found

/-- A snapshot of a known listing is entered in the history of the listing. -/
theorem get?_groupSnapshot (known : s.listingId ∈ identities.keys) (id : Str) :
    (groupSnapshot identities state s).grouped.get? id =
      if s.listingId = id then some (enter (state.historyOf s.listingId) s).2 else state.grouped.get? id := by
  have read : (state.grouped.setDefault s.listingId []).1 = state.historyOf s.listingId := Dict.setDefault_fst ..
  simp only [groupSnapshot, known, not_true_eq_false, if_false, Dict.get?_set, read]
  by_cases same : s.listingId = id
  · rw [if_pos same, if_pos same]
  · rw [if_neg same, if_neg same, Dict.get?_setDefault, if_neg same]

theorem conflicting_groupSnapshot (known : s.listingId ∈ identities.keys) :
    (groupSnapshot identities state s).conflicting = [] ↔
      (enter (state.historyOf s.listingId) s).1.eq s = true ∧ state.conflicting = [] := by
  have read : (state.grouped.setDefault s.listingId []).1 = state.historyOf s.listingId := Dict.setDefault_fst ..
  simp only [groupSnapshot, known, not_true_eq_false, if_false, read]
  split_ifs with same
  · exact ⟨fun h => ⟨same, h⟩, fun h => h.2⟩
  · exact iff_of_false (addInstant_ne_nil _ _) fun h => same h.1

section

variable (inv : GroupedBy identities done state) (comparable : ComparableAt (done ++ [s]))

include inv comparable

/-- A snapshot of a known listing is entered under its key unless one is there. -/
theorem lookup_groupSnapshot (known : s.listingId ∈ identities.keys) (k : Str × Instant) :
    (groupSnapshot identities state s).lookup k =
      if s.key = k then some ((state.lookup s.key).getD s) else state.lookup k := by
  obtain ⟨id, t⟩ := k
  have entered := inv.entered_historyOf s.listingId
  simp only [Grouped.lookup, get?_groupSnapshot known]
  by_cases sameId : s.listingId = id
  · subst sameId
    rw [if_pos rfl, Option.bind_some, lookupAt_enter entered comparable]
    simp only [ListingSnapshot.key, Prod.mk.injEq, true_and]
    split_ifs with sameInstant
    · exact congrArg (fun found => some (Option.getD found s)) (lookup_eq s.key).symm
    · exact (lookup_eq (s.listingId, t)).symm
  · rw [if_neg sameId, if_neg fun same => sameId (congrArg Prod.fst same)]

/-- It conflicts with the one that was there when they differ. -/
theorem enter_eq_iff (known : s.listingId ∈ identities.keys) :
    (enter (state.historyOf s.listingId) s).1.eq s = true ↔
      (((done ++ [s]).find? fun s' => s'.key = s.key).map (·.stored)) = some s.stored := by
  have entered := inv.entered_historyOf s.listingId
  have last : s ∈ done ++ [s] := List.mem_append_right _ (List.mem_singleton_self s)
  rw [enter_fst entered comparable, List.find?_append, ← inv.lookup s.key known, lookup_eq]
  show ((lookupAt (state.historyOf s.listingId) (Datetime.instant s.snapshotAt)).getD s).eq s = true ↔
    ((lookupAt (state.historyOf s.listingId) (Datetime.instant s.snapshotAt)).or _).map _ = _
  cases found : lookupAt (state.historyOf s.listingId) (Datetime.instant s.snapshotAt) with
  | none =>
      rw [Option.getD_none, ListingSnapshot.eq_iff (comparable.eq_iff last last)]
      simp
  | some first =>
      have inDone := (entered.keyed _ (entered.lookupAt_eq_some_iff.mp found).1).2
      rw [Option.getD_some, ListingSnapshot.eq_iff (comparable.eq_iff (List.mem_append_left _ inDone) last)]
      simp

/-- A snapshot of a known listing: the state answers for one more. -/
theorem groupedBy_known (known : s.listingId ∈ identities.keys) :
    GroupedBy identities (done ++ [s]) (groupSnapshot identities state s) := by
  have first : ((done ++ [s]).find? fun s' => s'.key = s.key) =
      some ((state.lookup s.key).getD s) := by
    rw [List.find?_append, ← inv.lookup s.key known]
    cases state.lookup s.key <;> simp
  constructor
  · intro k hk
    rw [lookup_groupSnapshot inv comparable known]
    split
    · rename_i same
      rw [← same, first]
    · rename_i differ
      rw [List.find?_append, inv.lookup k hk]
      simp [differ]
  · intro id history found
    rw [get?_groupSnapshot known] at found
    split_ifs at found with same
    · cases found
      exact (inv.entered_historyOf s.listingId).enter comparable
    · exact (inv.entered id history found).mono (List.subset_append_left done [s])
  · intro id
    have keys : id ∈ (groupSnapshot identities state s).grouped.keys ↔
        id = s.listingId ∨ id ∈ state.grouped.keys := by
      simp only [Dict.mem_keys_iff, get?_groupSnapshot known]
      by_cases same : s.listingId = id
      · simp [same]
      · simp [same, Ne.symm same]
    rw [keys, inv.keys]
    simp only [List.mem_append, List.mem_singleton, or_and_right, exists_or, exists_eq_left]
    constructor
    · rintro (rfl | ⟨seen, before⟩)
      · exact ⟨known, Or.inr rfl⟩
      · exact ⟨seen, Or.inl before⟩
    · rintro ⟨seen, before | rfl⟩
      · exact Or.inr ⟨seen, before⟩
      · exact Or.inl rfl
  · rw [List.forall_mem_append, List.forall_mem_singleton, ← inv.unknown]
    simp [groupSnapshot, known]
  · rw [conflicting_groupSnapshot known, enter_eq_iff inv comparable known, inv.conflicting,
      List.forall_mem_append, List.forall_mem_singleton]
    constructor
    · rintro ⟨same, agree⟩
      exact ⟨fun x hx hk => by rw [find?_append_singleton_of_mem hx]; exact agree x hx hk, fun _ => same⟩
    · rintro ⟨agree, same⟩
      exact ⟨same known, fun x hx hk => by rw [← find?_append_singleton_of_mem hx]; exact agree x hx hk⟩

end

/-- A snapshot of an unknown listing is skipped but for its id. -/
theorem groupedBy_unknown (inv : GroupedBy identities done state) (unknown : s.listingId ∉ identities.keys) :
    GroupedBy identities (done ++ [s]) (groupSnapshot identities state s) := by
  have skipped : groupSnapshot identities state s =
      { state with unknown := appendNew state.unknown s.listingId } := if_pos unknown
  rw [skipped]
  constructor
  · intro k hk
    have differ : ¬ s.key = k := by
      rintro rfl
      exact unknown hk
    rw [List.find?_append, ← inv.lookup k hk]
    simp [differ, Grouped.lookup]
  · intro id history found
    exact (inv.entered id history found).mono (List.subset_append_left done [s])
  · intro id
    rw [inv.keys]
    apply and_congr_right
    intro seen
    simp only [List.mem_append, List.mem_singleton, or_and_right, exists_or, exists_eq_left]
    constructor
    · exact Or.inl
    · intro observed
      apply observed.resolve_right
      rintro rfl
      exact unknown seen
  · apply iff_of_false (appendNew_ne_nil _ _)
    intro all
    exact unknown (all s (List.mem_append_right _ (List.mem_singleton_self s)))
  · rw [inv.conflicting, List.forall_mem_append, List.forall_mem_singleton]
    constructor
    · intro agree
      exact ⟨fun x hx hk => by rw [find?_append_singleton_of_mem hx]; exact agree x hx hk,
        fun h => absurd h unknown⟩
    · rintro ⟨agree, -⟩ x hx hk
      rw [← find?_append_singleton_of_mem hx]
      exact agree x hx hk

theorem groupedBy_step (inv : GroupedBy identities done state) (comparable : ComparableAt (done ++ [s])) :
    GroupedBy identities (done ++ [s]) (groupSnapshot identities state s) := by
  by_cases known : s.listingId ∈ identities.keys
  · exact groupedBy_known inv comparable known
  · exact groupedBy_unknown inv known

end

theorem groupedBy_foldl (identities : Dict Str (Listing U)) {snapshots : List (ListingSnapshot T)}
    (comparable : ComparableAt snapshots) :
    GroupedBy identities snapshots
      (snapshots.foldl (groupSnapshot identities) ⟨.empty, [], []⟩) := by
  induction snapshots using List.reverseRecOn with
  | nil => exact ⟨fun _ _ => rfl, fun _ _ found => (nomatch found), by simp, by simp, by simp⟩
  | append_singleton snapshots s ih =>
      rw [List.foldl_append]
      exact groupedBy_step (ih (comparable.of_subset (List.subset_append_left snapshots [s]))) comparable

/-! ### The histories of a set of snapshots -/

/-- The snapshots, listing by listing in the order of the ids, each history
strictly increasing in the instant. -/
structure HistoryOf (snapshots : List (ListingSnapshot Instant))
    (history : List (Str × List (ListingSnapshot Instant))) : Prop where
  ids_sorted : history.Pairwise fun a b => a.1 < b.1
  sorted : ∀ entry ∈ history, entry.2.Pairwise fun a b => a.snapshotAt < b.snapshotAt
  nonempty : ∀ entry ∈ history, entry.2 ≠ []
  mem_iff : ∀ entry ∈ history, ∀ s, s ∈ entry.2 ↔ s ∈ snapshots ∧ s.listingId = entry.1
  covers : ∀ s ∈ snapshots, ∃ entry ∈ history, entry.1 = s.listingId

namespace HistoryOf

variable {snapshots snapshots' : List (ListingSnapshot Instant)}
  {history history' : List (Str × List (ListingSnapshot Instant))}

theorem mem_of_same (h : HistoryOf snapshots history) (h' : HistoryOf snapshots' history')
    (same : ∀ s, s ∈ snapshots ↔ s ∈ snapshots') {entry : Str × List (ListingSnapshot Instant)}
    (mem : entry ∈ history) : entry ∈ history' := by
  obtain ⟨s, hs⟩ := List.exists_mem_of_ne_nil _ (h.nonempty entry mem)
  obtain ⟨inS, id⟩ := (h.mem_iff entry mem s).mp hs
  obtain ⟨entry', mem', id'⟩ := h'.covers s ((same s).mp inS)
  have ids : entry.1 = entry'.1 := id.symm.trans id'.symm
  have histories : entry.2 = entry'.2 :=
    eq_of_pairwise_lt (h.sorted entry mem) (h'.sorted entry' mem') fun x => by
      rw [h.mem_iff entry mem, h'.mem_iff entry' mem', same, ids]
  rw [Prod.ext ids histories]
  exact mem'

/-- **The histories depend on the set of snapshots alone.** -/
theorem unique (h : HistoryOf snapshots history) (h' : HistoryOf snapshots' history')
    (same : ∀ s, s ∈ snapshots ↔ s ∈ snapshots') : history = history' :=
  eq_of_pairwise_lt h.ids_sorted h'.ids_sorted fun _ =>
    ⟨h.mem_of_same h' same, h'.mem_of_same h fun s => (same s).symm⟩

end HistoryOf

/-- No two snapshots of one listing at one instant differ. -/
def Agreeing (snapshots : List (ListingSnapshot Instant)) : Prop :=
  ∀ a ∈ snapshots, ∀ b ∈ snapshots, a.key = b.key → a = b

section

variable {identities : Dict Str (Listing U)} {snapshots : List (ListingSnapshot T)} {state : Grouped T}

/-- Without unknown listings there is a conflict exactly where snapshots disagree. -/
theorem conflicting_iff (inv : GroupedBy identities snapshots state)
    (known : ∀ s ∈ snapshots, s.listingId ∈ identities.keys) :
    state.conflicting = [] ↔ Agreeing (snapshots.map (·.stored)) := by
  rw [inv.conflicting, Agreeing, List.forall_mem_map]
  simp only [List.forall_mem_map]
  constructor
  · intro first a ha b hb same
    have found := first a ha (known a ha)
    rw [show a.key = b.key from same, first b hb (known b hb), Option.some_inj] at found
    exact found.symm
  · intro agreeing s hs _
    cases found : snapshots.find? fun s' => s'.key = s.key with
    | none => exact absurd (List.find?_eq_none.mp found s hs) (by simp)
    | some first =>
        have sameKey : first.key = s.key := by simpa using List.find?_some found
        rw [Option.map_some, agreeing first (List.mem_of_find?_eq_some found) s hs sameKey]

theorem mem_chronological {history : List (T × ListingSnapshot T)} {s : ListingSnapshot T} :
    s ∈ chronological history ↔ ∃ t, (t, s) ∈ history := by
  simp [chronological, sortedBy]

/-- What is grouped under an id is of its listing. -/
theorem GroupedBy.key_of_mem (inv : GroupedBy identities snapshots state) {id : Str}
    {history : List (T × ListingSnapshot T)} (found : state.grouped.get? id = some history)
    {entry : T × ListingSnapshot T} (mem : entry ∈ history) :
    entry.1 = entry.2.snapshotAt ∧ entry.2 ∈ snapshots ∧ entry.2.listingId = id := by
  obtain ⟨t, s⟩ := entry
  have entered := inv.entered id history found
  obtain ⟨rfl, inside⟩ : t = s.snapshotAt ∧ s ∈ snapshots := entered.keyed _ mem
  have seen : id ∈ identities.keys := ((inv.keys id).mp (Dict.mem_keys_iff.mpr ⟨_, found⟩)).1
  have lookup := inv.lookup (id, Datetime.instant s.snapshotAt) seen
  rw [Grouped.lookup, found, Option.bind_some, entered.lookupAt_eq_some_iff.mpr ⟨mem, rfl⟩] at lookup
  have key : s.key = (id, Datetime.instant s.snapshotAt) := by simpa using List.find?_some lookup.symm
  exact ⟨rfl, inside, congrArg Prod.fst key⟩

/-- What is grouped under an id: the snapshots of its listing. -/
theorem mem_grouped (inv : GroupedBy identities snapshots state)
    (known : ∀ s ∈ snapshots, s.listingId ∈ identities.keys) (agreeing : Agreeing (snapshots.map (·.stored)))
    {id : Str} {history : List (T × ListingSnapshot T)} (found : state.grouped.get? id = some history)
    {x : ListingSnapshot Instant} :
    x ∈ (chronological history).map (·.stored) ↔ x ∈ snapshots.map (·.stored) ∧ x.listingId = id := by
  constructor
  · intro mem
    obtain ⟨s, inside, rfl⟩ := List.mem_map.mp mem
    obtain ⟨t, entry⟩ := mem_chronological.mp inside
    obtain ⟨-, inSnapshots, same⟩ := inv.key_of_mem found entry
    exact ⟨List.mem_map_of_mem inSnapshots, same⟩
  · rintro ⟨mem, same⟩
    obtain ⟨s, inside, rfl⟩ := List.mem_map.mp mem
    have lookup := inv.lookup s.key (known s inside)
    have first := inv.conflicting.mp ((conflicting_iff inv known).mpr agreeing) s inside (known s inside)
    obtain ⟨x, located, agree⟩ := Option.map_eq_some_iff.mp first
    have sameId : s.key.1 = id := same
    rw [Grouped.lookup, sameId, found, Option.bind_some, located] at lookup
    have entry := ((inv.entered id history found).lookupAt_eq_some_iff.mp lookup).1
    exact List.mem_map.mpr ⟨x, mem_chronological.mpr ⟨_, entry⟩, agree⟩

/-- Sorting by the datetimes is sorting by their instants. -/
theorem map_chronological {history : List (T × ListingSnapshot T)} (comparable : ComparableAt snapshots)
    (entered : Entered snapshots history) : (chronological history).map (·.stored) =
      (orderBy Prod.fst (history.map fun entry => (Datetime.instant entry.1, entry.2.stored))).map Prod.snd := by
  have sorted : (sortedBy (fun a b => Datetime.lt a.1 b.1) history).map
      (fun entry => (Datetime.instant entry.1, entry.2.stored)) =
        orderBy Prod.fst (history.map fun entry => (Datetime.instant entry.1, entry.2.stored)) := by
    apply List.map_insertionSort
    intro a ha b hb
    obtain ⟨keyA, inA⟩ := entered.keyed a ha
    obtain ⟨keyB, inB⟩ := entered.keyed b hb
    show Datetime.lt b.1 a.1 = false ↔ Datetime.instant a.1 ≤ Datetime.instant b.1
    rw [keyA, keyB, ← not_lt, ← comparable.lt_iff inB inA, Bool.not_eq_true]
  rw [← sorted, chronological, List.map_map, List.map_map]
  rfl

end

/-- The histories with their instants. -/
def storedHistory (history : List (Str × List (ListingSnapshot T))) :
    List (Str × List (ListingSnapshot Instant)) :=
  history.map fun entry => (entry.1, entry.2.map (·.stored))

@[simp] theorem map_stored (snapshots : List (ListingSnapshot Instant)) :
    snapshots.map (·.stored) = snapshots := List.map_id snapshots

@[simp] theorem storedHistory_instants (history : List (Str × List (ListingSnapshot Instant))) :
    storedHistory history = history := by
  simp [storedHistory]

/-- Grouping snapshots of known listings that agree yields their histories. -/
theorem historyOf_grouped {identities : Dict Str (Listing U)} {snapshots : List (ListingSnapshot T)}
    {state : Grouped T} (inv : GroupedBy identities snapshots state) (comparable : ComparableAt snapshots)
    (known : ∀ s ∈ snapshots, s.listingId ∈ identities.keys) (agreeing : Agreeing (snapshots.map (·.stored))) :
    HistoryOf (snapshots.map (·.stored)) (storedHistory
      ((orderBy Prod.fst state.grouped.rows).map fun entry => (entry.1, chronological entry.2))) := by
  have entries : ∀ entry ∈ storedHistory ((orderBy Prod.fst state.grouped.rows).map
      fun entry => (entry.1, chronological entry.2)), ∃ history,
        state.grouped.get? entry.1 = some history ∧ entry.2 = (chronological history).map (·.stored) := by
    intro entry mem
    obtain ⟨_, inside, rfl⟩ := List.mem_map.mp mem
    obtain ⟨⟨id, history⟩, stored, rfl⟩ := List.mem_map.mp inside
    exact ⟨history, Dict.mem_rows_iff.mp (mem_orderBy.mp stored), rfl⟩
  refine ⟨?_, ?_, ?_, ?_, ?_⟩
  · rw [storedHistory, List.map_map, List.pairwise_map]
    exact pairwise_lt_orderBy state.grouped.keys_nodup
  · intro entry mem
    obtain ⟨history, found, same⟩ := entries entry mem
    have entered := inv.entered entry.1 history found
    rw [same, map_chronological comparable entered, List.pairwise_map]
    have instants : ((history.map fun entry => (Datetime.instant entry.1, entry.2.stored)).map Prod.fst).Nodup := by
      rw [List.map_map]
      exact entered.distinct
    have instant : ∀ row ∈ orderBy Prod.fst
        (history.map fun entry => (Datetime.instant entry.1, entry.2.stored)), row.2.snapshotAt = row.1 := by
      intro row hrow
      obtain ⟨entry, inside, rfl⟩ := List.mem_map.mp (mem_orderBy.mp hrow)
      exact congrArg Datetime.instant (entered.keyed entry inside).1.symm
    apply (pairwise_lt_orderBy instants).imp_of_mem
    intro a b ha hb lt
    rw [instant a ha, instant b hb]
    exact lt
  · intro entry mem
    obtain ⟨history, found, same⟩ := entries entry mem
    obtain ⟨-, s, hs, id⟩ := (inv.keys entry.1).mp (Dict.mem_keys_iff.mpr ⟨_, found⟩)
    rw [same]
    exact List.ne_nil_of_mem ((mem_grouped inv known agreeing found).mpr ⟨List.mem_map_of_mem hs, id⟩)
  · intro entry mem s
    obtain ⟨history, found, same⟩ := entries entry mem
    rw [same, mem_grouped inv known agreeing found]
  · intro x hx
    obtain ⟨s, hs, rfl⟩ := List.mem_map.mp hx
    obtain ⟨history, found⟩ := Dict.mem_keys_iff.mp
      ((inv.keys s.listingId).mpr ⟨known s hs, s, hs, rfl⟩)
    exact ⟨_, List.mem_map_of_mem (List.mem_map_of_mem (mem_orderBy.mpr (Dict.mem_rows_iff.mpr found))), rfl⟩

/-- Grouping snapshots that are compared by their instants succeeds exactly if they agree and their
listings are known. -/
theorem groupSnapshots_cases [Runtime] (identities : Dict Str (Listing U)) {snapshots : List (ListingSnapshot T)}
    (comparable : ComparableAt snapshots) :
    ((∀ s ∈ snapshots, s.listingId ∈ identities.keys) ∧ Agreeing (snapshots.map (·.stored)) ∧
      ∃ history, groupSnapshots snapshots identities = .ok history ∧
        (∀ entry ∈ history, entry.2 ⊆ snapshots) ∧
        HistoryOf (snapshots.map (·.stored)) (storedHistory history)) ∨
    (¬ ((∀ s ∈ snapshots, s.listingId ∈ identities.keys) ∧ Agreeing (snapshots.map (·.stored))) ∧
      ∃ message, groupSnapshots snapshots identities = raiseValueError message) := by
  have inv := groupedBy_foldl identities comparable
  unfold groupSnapshots
  generalize snapshots.foldl (groupSnapshot identities) ⟨.empty, [], []⟩ = state at inv
  by_cases known : ∀ s ∈ snapshots, s.listingId ∈ identities.keys
  · by_cases agreeing : Agreeing (snapshots.map (·.stored))
    · refine Or.inl ⟨known, agreeing, _, ?_, ?_, historyOf_grouped inv comparable known agreeing⟩
      · simp only [inv.unknown.mpr known, (conflicting_iff inv known).mpr agreeing, ne_eq,
          not_true_eq_false, if_false]
      · intro entry mem s inside
        obtain ⟨⟨id, history⟩, stored, rfl⟩ := List.mem_map.mp mem
        obtain ⟨t, entry⟩ := mem_chronological.mp inside
        exact (inv.key_of_mem (Dict.mem_rows_iff.mp (mem_orderBy.mp stored)) entry).2.1
    · refine Or.inr ⟨fun h => agreeing h.2, ?_⟩
      simp only [inv.unknown.mpr known, ne_eq, not_true_eq_false, if_false,
        if_pos fun h => agreeing ((conflicting_iff inv known).mp h)]
      exact ⟨_, rfl⟩
  · refine Or.inr ⟨fun h => known h.1, ?_⟩
    simp only [ne_eq, if_pos fun h => known (inv.unknown.mp h)]
    exact ⟨_, rfl⟩

theorem enter_ne_nil (history : List (T × ListingSnapshot T)) (s : ListingSnapshot T) :
    (enter history s).2 ≠ [] := by
  unfold enter
  cases found : history.find? fun entry => Datetime.eq entry.1 s.snapshotAt with
  | some entry => exact List.ne_nil_of_mem (List.mem_of_find?_eq_some found)
  | none => simp

theorem grouped_ne_nil (identities : Dict Str (Listing U)) (snapshots : List (ListingSnapshot T)) {id : Str}
    {history : List (T × ListingSnapshot T)} (found :
      (snapshots.foldl (groupSnapshot identities) ⟨.empty, [], []⟩).grouped.get? id = some history) :
    history ≠ [] := by
  induction snapshots using List.reverseRecOn with
  | nil => cases found
  | append_singleton snapshots s ih =>
      rw [List.foldl_append, List.foldl_cons, List.foldl_nil] at found
      by_cases known : s.listingId ∈ identities.keys
      · rw [get?_groupSnapshot known] at found
        split_ifs at found
        · cases found
          exact enter_ne_nil _ s
        · exact ih found
      · rw [groupSnapshot, if_pos known] at found
        exact ih found

/-- However its snapshots are compared, a history has one at least. -/
theorem nonempty_of_groupSnapshots [Runtime] {snapshots : List (ListingSnapshot T)}
    {identities : Dict Str (Listing U)} {history : List (Str × List (ListingSnapshot T))}
    (grouped : groupSnapshots snapshots identities = .ok history) : ∀ entry ∈ history, entry.2 ≠ [] := by
  unfold groupSnapshots raiseValueError at grouped
  dsimp only at grouped
  split_ifs at grouped
  obtain rfl := Except.ok.inj grouped
  intro entry mem
  obtain ⟨⟨id, one⟩, stored, rfl⟩ := List.mem_map.mp mem
  have length : (chronological one).length = one.length := by simp [chronological, sortedBy]
  intro empty
  rw [List.eq_nil_iff_length_eq_zero, length, ← List.eq_nil_iff_length_eq_zero] at empty
  exact grouped_ne_nil identities snapshots (Dict.mem_rows_iff.mp (mem_orderBy.mp stored)) empty

theorem groupSnapshots_instants [Runtime] (identities : Dict Str (Listing U))
    (snapshots : List (ListingSnapshot Instant)) :
    ((∀ s ∈ snapshots, s.listingId ∈ identities.keys) ∧ Agreeing snapshots ∧
      ∃ history, groupSnapshots snapshots identities = .ok history ∧ HistoryOf snapshots history) ∨
    (¬ ((∀ s ∈ snapshots, s.listingId ∈ identities.keys) ∧ Agreeing snapshots) ∧
      ∃ message, groupSnapshots snapshots identities = raiseValueError message) := by
  have told := groupSnapshots_cases identities (comparableAt_instants snapshots)
  simp only [map_stored, storedHistory_instants] at told
  rcases told with ⟨known, agreeing, history, grouped, -, histories⟩ | refused
  · exact Or.inl ⟨known, agreeing, history, grouped, histories⟩
  · exact Or.inr refused

/-- The latest of instants is their greatest. -/
theorem latestOf_instants (ts : List Instant) : latestOf ts = ts.max? := by
  cases ts with
  | nil => rfl
  | cons t ts =>
      have step : (fun best t : Instant => if Datetime.lt best t then t else best) = max := by
        funext best t
        show (if decide (best < t) = true then t else best) = max best t
        rcases lt_or_ge best t with lt | ge
        · rw [if_pos (decide_eq_true lt), max_eq_right lt.le]
        · rw [if_neg (by simpa using ge), max_eq_left ge]
      rw [latestOf, step, List.max?_cons']

/-! ### The metrics of histories -/

theorem HistoryOf.snapshotCount {snapshots : List (ListingSnapshot Instant)}
    {history : List (Str × List (ListingSnapshot Instant))} (h : HistoryOf snapshots history)
    (nodup : snapshots.Nodup) : (history.map fun entry => entry.2.length).sum = snapshots.length := by
  have each : ∀ entry ∈ history, entry.2.Nodup := by
    intro entry mem
    apply (h.sorted entry mem).imp
    intro a b lt same
    exact absurd (same ▸ lt) (lt_irrefl _)
  have apart : (history.map Prod.snd).Pairwise List.Disjoint := by
    rw [List.pairwise_map]
    apply h.ids_sorted.imp_of_mem
    intro a b ha hb lt s hsa hsb
    have ida := ((h.mem_iff a ha s).mp hsa).2
    have idb := ((h.mem_iff b hb s).mp hsb).2
    exact absurd (ida.symm.trans idb) (ne_of_lt lt)
  have flat : (history.map Prod.snd).flatten.Nodup := by
    apply List.nodup_flatten.mpr ⟨_, apart⟩
    intro l mem
    obtain ⟨entry, hentry, rfl⟩ := List.mem_map.mp mem
    exact each entry hentry
  have perm : (history.map Prod.snd).flatten.Perm snapshots := by
    apply (List.perm_ext_iff_of_nodup flat nodup).mpr
    intro s
    simp only [List.mem_flatten, List.mem_map, exists_exists_and_eq_and]
    constructor
    · rintro ⟨entry, mem, hs⟩
      exact ((h.mem_iff entry mem s).mp hs).1
    · intro hs
      obtain ⟨entry, mem, id⟩ := h.covers s hs
      exact ⟨entry, mem, (h.mem_iff entry mem s).mpr ⟨hs, id.symm⟩⟩
  rw [← perm.length_eq, List.length_flatten, List.map_map]
  rfl

section

variable [Runtime] {communityId : Str} {minimum : Int} {identities : Dict Str (Listing U)}
  {snapshots : List (ListingSnapshot Instant)} {history : List (Str × List (ListingSnapshot Instant))}

omit [Runtime] in
theorem keys_perm {V : Type} [Datetime V] {identities' : Dict Str (Listing V)}
    (same : ∀ id, id ∈ identities.keys ↔ id ∈ identities'.keys) :
    identities.keys.Perm identities'.keys :=
  (List.perm_ext_iff_of_nodup (Dict.keys_nodup _) (Dict.keys_nodup _)).mpr same

/-- The metrics read no more of the identities than their ids. -/
theorem summarize_congr {V : Type} [Datetime V] {identities' : Dict Str (Listing V)}
    (same : ∀ id, id ∈ identities.keys ↔ id ∈ identities'.keys) :
    summarize communityId minimum identities history =
      summarize communityId minimum identities' history := by
  have ids : orderBy id identities.keys = orderBy id identities'.keys :=
    orderBy_congr (by simpa using identities.keys_nodup) (by simpa using identities'.keys_nodup) same
  simp only [summarize, ids, (keys_perm same).length_eq]

omit [Runtime] in
/-- A cut and an increase exclude each other. -/
theorem length_cuts_add_increases (changes : List Double) :
    (changes.filter fun ratio => ratio.lt 0).length +
      (changes.filter fun ratio => Double.lt 0 ratio).length ≤ changes.length := by
  induction changes with
  | nil => rfl
  | cons ratio changes ih =>
      by_cases cut : ratio.lt 0 = true
      · have no_increase := Double.not_lt_of_lt cut
        simp only [List.filter_cons, cut, no_increase, if_true, Bool.false_eq_true, if_false,
          List.length_cons]
        omega
      · by_cases increase : Double.lt 0 ratio = true
        · simp only [List.filter_cons, cut, increase, if_true, Bool.false_eq_true, if_false,
            List.length_cons]
          omega
        · simp only [List.filter_cons, cut, increase, Bool.false_eq_true, if_false, List.length_cons]
          omega

theorem priceChangeRatio_ok {snapshots : List (ListingSnapshot Instant)} (nonempty : snapshots ≠ []) :
    ∃ ratio, priceChangeRatio snapshots = .ok ratio := by
  have positive := List.length_pos_of_ne_nil nonempty
  unfold priceChangeRatio
  rw [item_ok positive, lastItem_ok nonempty]
  obtain ⟨ratio, hratio⟩ := Double.div_ok_of_pos (a := (snapshots.getLast nonempty).listPriceCny.sub
    snapshots[0].listPriceCny) snapshots[0].listPriceCny_pos
  exact ⟨ratio, congrArg (Except.mapError Failure.builtin) hratio⟩

omit [Runtime] in
/-- Every history is that of a supplied listing. -/
theorem HistoryOf.length_le (h : HistoryOf snapshots history)
    (known : ∀ s ∈ snapshots, s.listingId ∈ identities.keys) :
    history.length ≤ identities.keys.length := by
  have nodup : (history.map Prod.fst).Nodup := by
    rw [List.Nodup, List.pairwise_map]
    exact h.ids_sorted.imp fun lt => ne_of_lt lt
  have sub : history.map Prod.fst ⊆ identities.keys := by
    intro id mem
    obtain ⟨entry, hentry, rfl⟩ := List.mem_map.mp mem
    obtain ⟨s, hs⟩ := List.exists_mem_of_ne_nil _ (h.nonempty entry hentry)
    obtain ⟨inS, same⟩ := (h.mem_iff entry hentry s).mp hs
    exact same ▸ known s inS
  simpa using (List.subperm_of_subset nodup sub).length_le

/-- The metrics of the histories of supplied listings always exist. -/
theorem summarize_ok (subject : communityId.Encodable ∧ communityId ≠ []) (enough : 1 ≤ minimum)
    (h : HistoryOf snapshots history)
    (known : ∀ s ∈ snapshots, s.listingId ∈ identities.keys) :
    ∃ metrics, summarize communityId minimum identities history = .ok metrics ∧
      metrics.communityId = communityId ∧ metrics.listingIds = orderBy id identities.keys ∧
      metrics.snapshotCount = (history.map fun entry => entry.2.length).sum := by
  obtain ⟨latest, hlatest⟩ := mapM_total (fun entry => lastItem entry.2) history
    fun entry mem => ⟨_, lastItem_ok (h.nonempty entry mem)⟩
  obtain ⟨changes, hchanges⟩ := mapM_total (fun entry => priceChangeRatio entry.2)
    (history.filter fun entry => entry.2.length > 1)
    fun entry mem => priceChangeRatio_ok (h.nonempty entry (List.mem_of_mem_filter mem))
  have fewer := h.length_le known
  have partitioned := length_cuts_add_increases changes
  simp only [summarize, hlatest, hchanges, bind, Except.bind]
  obtain ⟨prices, hprices⟩ := medianMetric_ok
    ((latest.filter fun item => item.status = .active).map fun item => item.listPriceCny) enough
  obtain ⟨unitPrices, hunitPrices⟩ := medianMetric_ok
    ((latest.filter fun item => item.status = .active).filterMap fun item => item.unitPriceCnySqm)
    enough
  obtain ⟨ratios, hratios⟩ := medianMetric_ok changes enough
  simp only [hprices, hunitPrices, hratios]
  refine ⟨⟨_, ?_⟩, dif_pos ?_, rfl, rfl, rfl⟩
  all_goals
    simp only [CommunityListingMetricsFields.errors, List.append_eq_nil_iff, checkNonempty_eq_nil,
      checkAtLeast_eq_nil]
    refine ⟨⟨⟨⟨⟨⟨⟨⟨⟨⟨subject, enough⟩, ?_⟩, ?_⟩, ?_⟩, ?_⟩, ?_⟩, ?_⟩, ?_⟩, ?_⟩, ?_⟩
    all_goals omega

/-- What the metrics accept: an id that is not blank, listings of the community
under distinct ids, and agreeing snapshots of them. -/
structure Accepted (communityId : Str) (listings : List (Listing U)) (snapshots : List (ListingSnapshot Instant)) :
    Prop where
  subject : communityId.strip ≠ []
  own : ∀ l ∈ listings, l.communityId = communityId
  distinct : (listings.map (·.listingId)).Nodup
  known : ∀ s ∈ snapshots, s.listingId ∈ listings.map (·.listingId)
  agreeing : Agreeing snapshots

/-- Past the arguments, the metrics are those of the indexed evidence. -/
theorem compute_of_arguments {listings : List (Listing U)} (enough : 1 ≤ minimum)
    (notBlank : communityId.strip ≠ []) :
    computeCommunityListingMetrics listings snapshots communityId minimum =
      (indexListings listings communityId >>= fun identities =>
        groupSnapshots snapshots identities >>= summarize communityId minimum identities) := by
  simp only [computeCommunityListingMetrics, validateMinimumSampleCount, validateCommunityId,
    if_neg (not_lt.mpr enough), if_neg notBlank, bind, Except.bind]

/-- Accepted evidence is summarized from its ids and its histories. -/
theorem compute_of_accepted {listings : List (Listing U)} (accepted : Accepted communityId listings snapshots)
    (enough : 1 ≤ minimum) :
    ∃ (identities : Dict Str (Listing U)) (history : List (Str × List (ListingSnapshot Instant))),
      (∀ id, id ∈ identities.keys ↔ id ∈ listings.map (·.listingId)) ∧
      HistoryOf snapshots history ∧
      computeCommunityListingMetrics listings snapshots communityId minimum =
        summarize communityId minimum identities history := by
  rcases indexListings_cases listings communityId with
    ⟨-, -, identities, indexed, keys⟩ | ⟨refused, -⟩
  · rcases groupSnapshots_instants identities snapshots with
      ⟨-, -, history, grouped, histories⟩ | ⟨refused, -⟩
    · refine ⟨identities, history, keys, histories, ?_⟩
      simp only [compute_of_arguments enough accepted.subject, indexed, grouped, bind, Except.bind]
    · exact absurd ⟨fun s hs => (keys _).mpr (accepted.known s hs), accepted.agreeing⟩ refused
  · exact absurd ⟨accepted.own, accepted.distinct⟩ refused

/-- Whatever the snapshots, metrics summarize histories that are not empty. -/
theorem exists_of_compute {listings : List (Listing U)} {snapshots : List (ListingSnapshot T)}
    {metrics : CommunityListingMetrics T}
    (computed : computeCommunityListingMetrics listings snapshots communityId minimum = .ok metrics) :
    ∃ (identities : Dict Str (Listing U)) (history : List (Str × List (ListingSnapshot T))),
      (∀ entry ∈ history, entry.2 ≠ []) ∧ summarize communityId minimum identities history = .ok metrics := by
  obtain ⟨_, threshold, computed⟩ := eq_ok_of_bind computed
  obtain ⟨_, subject, computed⟩ := eq_ok_of_bind computed
  obtain ⟨identities, -, computed⟩ := eq_ok_of_bind computed
  obtain ⟨history, grouped, summarized⟩ := eq_ok_of_bind computed
  rw [(validateMinimumSampleCount_eq_ok.mp threshold).2, (validateCommunityId_eq_ok.mp subject).2] at summarized
  exact ⟨identities, history, nonempty_of_groupSnapshots grouped, summarized⟩

/-- Metrics are computed for an id that is not blank and a positive threshold only. -/
theorem arguments_of_compute {listings : List (Listing U)} {metrics : CommunityListingMetrics Instant}
    (computed : computeCommunityListingMetrics listings snapshots communityId minimum = .ok metrics) :
    1 ≤ minimum ∧ communityId.strip ≠ [] := by
  obtain ⟨_, threshold, computed⟩ := eq_ok_of_bind computed
  obtain ⟨_, subject, -⟩ := eq_ok_of_bind computed
  exact ⟨(validateMinimumSampleCount_eq_ok.mp threshold).1, (validateCommunityId_eq_ok.mp subject).1⟩

/-! ### The metrics of the latest snapshots -/

/-- The snapshot is the latest of its listing. -/
def IsLatest (snapshots : List (ListingSnapshot Instant)) (s : ListingSnapshot Instant) : Prop :=
  s ∈ snapshots ∧ ∀ other ∈ snapshots, other.listingId = s.listingId → other.snapshotAt ≤ s.snapshotAt

omit [Runtime] in
/-- The last elements of the histories are the latest snapshots, one of each listing. -/
theorem HistoryOf.exists_latest (h : HistoryOf snapshots history) :
    ∃ latest, history.mapM (fun entry => lastItem entry.2) = .ok latest ∧
      (latest.map (·.listingId)).Nodup ∧ ∀ s, s ∈ latest ↔ IsLatest snapshots s := by
  obtain ⟨latest, found⟩ := mapM_total (fun entry => lastItem entry.2) history
    fun entry mem => ⟨_, lastItem_ok (h.nonempty entry mem)⟩
  have last : ∀ entry ∈ history, ∀ s, lastItem entry.2 = .ok s ↔
      s ∈ entry.2 ∧ ∀ other ∈ entry.2, other.snapshotAt ≤ s.snapshotAt := by
    intro entry mem s
    rw [← getLast?_eq_some_iff_of_pairwise (h.sorted entry mem), lastItem]
    cases entry.2.getLast? <;> simp
  have member : ∀ s, s ∈ latest ↔ IsLatest snapshots s := by
    intro s
    rw [mem_of_mapM found]
    constructor
    · rintro ⟨entry, mem, hs⟩
      obtain ⟨inEntry, greatest⟩ := (last entry mem s).mp hs
      obtain ⟨inS, same⟩ := (h.mem_iff entry mem s).mp inEntry
      refine ⟨inS, ?_⟩
      intro other hother id
      exact greatest other ((h.mem_iff entry mem other).mpr ⟨hother, id.trans same⟩)
    · rintro ⟨inS, greatest⟩
      obtain ⟨entry, mem, same⟩ := h.covers s inS
      refine ⟨entry, mem, (last entry mem s).mpr ⟨(h.mem_iff entry mem s).mpr ⟨inS, same.symm⟩, ?_⟩⟩
      intro other hother
      obtain ⟨hother, id⟩ := (h.mem_iff entry mem other).mp hother
      exact greatest other hother (id.trans same)
  have ids : latest.map (·.listingId) = history.map Prod.fst := by
    apply map_of_mapM found
    intro entry mem s hs
    exact ((h.mem_iff entry mem s).mp ((last entry mem s).mp hs).1).2
  refine ⟨latest, found, ?_, member⟩
  rw [ids, List.Nodup, List.pairwise_map]
  exact h.ids_sorted.imp fun lt => ne_of_lt lt

/-- The active part of the inventory. -/
def activeOf (latest : List (ListingSnapshot T)) : List (ListingSnapshot T) :=
  latest.filter fun item => item.status = .active

/-- What the metrics say of the current inventory is what `latest` says. -/
structure Describes (metrics : CommunityListingMetrics T) (minimum : Int) (latest : List (ListingSnapshot T)) :
    Prop where
  latestSnapshotAt : metrics.latestSnapshotAt = latestOf (latest.map (·.snapshotAt))
  currentStatusCounts : metrics.currentStatusCounts = statusCounts latest
  activeListingCount : metrics.activeListingCount = (activeOf latest).length
  medianActiveListPriceCny :
    medianMetric ((activeOf latest).map (·.listPriceCny)) minimum =
      .ok metrics.medianActiveListPriceCny
  medianActiveUnitPriceCnySqm :
    medianMetric ((activeOf latest).filterMap (·.unitPriceCnySqm)) minimum =
      .ok metrics.medianActiveUnitPriceCnySqm

theorem describes_of_summarize {history : List (Str × List (ListingSnapshot T))}
    {metrics : CommunityListingMetrics T} {latest : List (ListingSnapshot T)}
    (summarized : summarize communityId minimum identities history = .ok metrics)
    (found : history.mapM (fun entry => lastItem entry.2) = .ok latest) :
    Describes metrics minimum latest := by
  obtain ⟨latest', found', summarized⟩ := eq_ok_of_bind summarized
  cases found.symm.trans found'
  obtain ⟨changes, -, summarized⟩ := eq_ok_of_bind summarized
  obtain ⟨prices, hprices, summarized⟩ := eq_ok_of_bind summarized
  obtain ⟨unitPrices, hunitPrices, summarized⟩ := eq_ok_of_bind summarized
  obtain ⟨ratios, -, summarized⟩ := eq_ok_of_bind summarized
  have fields := CommunityListingMetricsFields.eq_of_validate summarized
  refine ⟨?_, ?_, ?_, ?_, ?_⟩
  · rw [fields]
  · rw [fields]
  · rw [fields]
    rfl
  · rw [fields]
    exact hprices
  · rw [fields]
    exact hunitPrices

/-- The order of the snapshots does not matter. -/
theorem Describes.congr {metrics : CommunityListingMetrics Instant}
    {latest latest' : List (ListingSnapshot Instant)} (h : Describes metrics minimum latest)
    (perm : latest.Perm latest') : Describes metrics minimum latest' := by
  have active : (activeOf latest).Perm (activeOf latest') := perm.filter _
  have prices : ∀ x ∈ (activeOf latest).map (·.listPriceCny), x ≠ .nan := by
    intro x mem
    obtain ⟨s, -, rfl⟩ := List.mem_map.mp mem
    exact Double.ne_nan_of_lt s.listPriceCny_pos
  have unitPrices : ∀ x ∈ (activeOf latest).filterMap (·.unitPriceCnySqm), x ≠ .nan := by
    intro x mem
    obtain ⟨s, -, price⟩ := List.mem_filterMap.mp mem
    exact Double.ne_nan_of_lt (s.unitPriceCnySqm_pos x price)
  refine ⟨?_, ?_, ?_, ?_, ?_⟩
  · rw [h.latestSnapshotAt, latestOf_instants, latestOf_instants, max?_of_perm (perm.map _)]
  · rw [h.currentStatusCounts, statusCounts, statusCounts]
    apply List.filterMap_congr
    intro status _
    rw [(perm.filter _).length_eq]
  · rw [h.activeListingCount, active.length_eq]
  · rw [← medianMetric_congr (active.map _) prices, h.medianActiveListPriceCny]
  · rw [← medianMetric_congr (active.filterMap _) unitPrices, h.medianActiveUnitPriceCnySqm]

end

end ListingMetrics

end CnPropertyAgent
