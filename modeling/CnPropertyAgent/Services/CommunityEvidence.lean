import CnPropertyAgent.Analytics.ListingMetrics
import CnPropertyAgent.Analytics.TransactionMetrics
import CnPropertyAgent.Storage.Reads

/-!
The read side: queries over the stored records, and the market evidence of one
community assembled from them.
-/

namespace CnPropertyAgent

open Python Relational

/-! ### Queries -/

structure TransactionQueryFields where
  communityId : Str
  startDate : Option Date
  endDate : Option Date
deriving DecidableEq

/-- A text field with a validator that refuses blank values. -/
def checkNotBlank (loc message : String) (s : Str) : List ErrorItem :=
  thenModel (checkNonempty (str loc) s)
    (if s.strip = [] then [{ valueErrorItem (str message) with loc := [str loc] }] else [])

def TransactionQueryFields.errors (q : TransactionQueryFields) : List ErrorItem :=
  thenModel (checkNotBlank "community_id" "community_id must not be blank" q.communityId)
    (windowErrors q.startDate q.endDate)

/-- One read request over canonical transactions. -/
structure TransactionQuery extends TransactionQueryFields where
  valid : toTransactionQueryFields.errors = []
deriving DecidableEq

def TransactionQueryFields.validate (fields : TransactionQueryFields) :
    Except Failure TransactionQuery :=
  if h : fields.errors = [] then .ok ⟨fields, h⟩ else .error (.validation fields.errors)

/-- The text of a query's community can be bound. -/
theorem TransactionQuery.encodable_communityId (query : TransactionQuery) : query.communityId.Encodable :=
  (checkNonempty_eq_nil.mp (thenModel_eq_nil.mp (thenModel_eq_nil.mp query.valid).1).1).1

namespace TransactionQueryService

def getTransactions (table : TransactionTable) (query : TransactionQuery) :
    Except Failure (List Transaction) :=
  TransactionRepository.listForCommunity table query.communityId query.startDate query.endDate

def getTransactionMetrics [Runtime] (table : TransactionTable) (query : TransactionQuery) :
    Except Failure CommunityTransactionMetrics := do
  let transactions ← getTransactions table query
  TransactionMetrics.computeCommunityTransactionMetrics transactions query.communityId
    minimumSampleCount

end TransactionQueryService

/-- One listing identity and the newest snapshot stored for it. -/
structure CurrentListing where
  listing : Listing Instant
  latestSnapshot : Option (ListingSnapshot Instant)
  identity : ∀ snapshot ∈ latestSnapshot, snapshot.listingId = listing.listingId

def CurrentListing.validate (listing : Listing Instant)
    (latestSnapshot : Option (ListingSnapshot Instant)) :
    Except Failure CurrentListing :=
  if h : ∀ snapshot ∈ latestSnapshot, snapshot.listingId = listing.listingId then
    .ok ⟨listing, latestSnapshot, h⟩
  else .error (.validation [valueErrorItem (str "listing and latest_snapshot listing_id must match")])

theorem CurrentListing.eq_of_validate {listing : Listing Instant}
    {latestSnapshot : Option (ListingSnapshot Instant)} {c : CurrentListing}
    (h : CurrentListing.validate listing latestSnapshot = .ok c) :
    c.listing = listing ∧ c.latestSnapshot = latestSnapshot := by
  unfold CurrentListing.validate at h
  split at h
  · cases h; exact ⟨rfl, rfl⟩
  · cases h

namespace ListingQueryService

def getListings (tables : ListingTables) (communityId : Str) : Except Failure (List (Listing Instant)) :=
  ListingRepository.listForCommunity tables communityId

def getCurrentListings (tables : ListingTables) (communityId : Str) :
    Except Failure (List CurrentListing) := do
  let latest ← ListingRepository.latestSnapshotsForCommunity tables communityId
  let listings ← ListingRepository.listForCommunity tables communityId
  listings.mapM fun listing =>
    CurrentListing.validate listing ((Dict.ofItems latest).get? listing.listingId)

def getListingHistory (tables : ListingTables) (listingId : Str) :
    Except Failure (List (ListingSnapshot Instant)) :=
  ListingRepository.history tables listingId

def getCommunityListingHistory (tables : ListingTables) (communityId : Str) :
    Except Failure (List (ListingSnapshot Instant)) :=
  ListingRepository.historyForCommunity tables communityId

end ListingQueryService

/-! ### Market evidence -/

structure CommunityMarketEvidenceFields where
  communityId : Str
  transactionMetrics : CommunityTransactionMetrics
  listingMetrics : CommunityListingMetrics Instant
deriving DecidableEq

def CommunityMarketEvidenceFields.errors [Runtime] (e : CommunityMarketEvidenceFields) :
    List ErrorItem :=
  let foreign := [e.transactionMetrics.communityId, e.listingMetrics.communityId].filter
    fun subject => subject ≠ e.communityId
  thenModel (checkNonempty (str "community_id") e.communityId)
    (if foreign ≠ [] then
      [valueErrorItem (str "component metrics must describe community " ++ e.communityId.pyRepr ++
        str ", also got: " ++ render foreign)]
    else [])

structure CommunityMarketEvidence [Runtime] extends CommunityMarketEvidenceFields where
  valid : toCommunityMarketEvidenceFields.errors = []

def CommunityMarketEvidenceFields.validate [Runtime] (fields : CommunityMarketEvidenceFields) :
    Except Failure CommunityMarketEvidence :=
  if h : fields.errors = [] then .ok ⟨fields, h⟩ else .error (.validation fields.errors)

namespace CommunityEvidenceService

variable [Runtime]

def getMarketEvidence (db : Database) (communityId : Str) : Except Failure CommunityMarketEvidence := do
  let query ← TransactionQueryFields.validate
    { communityId := communityId, startDate := none, endDate := none }
  let transactionMetrics ←
    TransactionQueryService.getTransactionMetrics db.propertyTransaction query
  let listings ← ListingQueryService.getListings db.listings query.communityId
  let history ← ListingQueryService.getCommunityListingHistory db.listings query.communityId
  let listingMetrics ← ListingMetrics.computeCommunityListingMetrics listings history
    query.communityId minimumSampleCount
  CommunityMarketEvidenceFields.validate
    { communityId := query.communityId
      transactionMetrics := transactionMetrics
      listingMetrics := listingMetrics }

end CommunityEvidenceService

end CnPropertyAgent
