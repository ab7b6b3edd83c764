import CnPropertyAgent.Properties.FiniteEvidence
import CnPropertyAgent.Providers.Lianjia.TransactionParser
import CnPropertyAgent.Python.Utf8
import CnPropertyAgent.Services.ListingRuns
import Mathlib.Data.Set.Function

/-!
When internal ids tell provider identities apart.

An internal id is the digest of the source and the provider's own id, joined by a unit
separator. Two things come before the digest and can merge identities without any collision of it:
the cell of the provider id loses its commas on the way (`commaless`), and the separator may
stand inside the parts it is to keep apart (`Shifted`).
-/

namespace CnPropertyAgent

open Python

/-! ### Identifiers -/

section

variable [Runtime]

/-- What is hashed of an identity. -/
def identityBytes (parts : List Str) : List UInt8 := (Str.join unitSeparator parts).flatMap CodePoint.utf8

/-- The truncated digest is injective on the bytes of these identities. -/
def DigestsApart (identities : Set (List Str)) : Prop :=
  Set.InjOn (fun data => (Runtime.sha256 data).take 32) (identityBytes '' identities)

/-- Ids are equal exactly when the texts under the digest are. -/
theorem stableId_eq_iff {identities : Set (List Str)} (apart : DigestsApart identities) {idPrefix : String}
    {parts parts' : List Str} (mem : parts ∈ identities) (mem' : parts' ∈ identities) {id id' : Str}
    (h : stableId idPrefix parts = .ok id) (h' : stableId idPrefix parts' = .ok id') :
    id = id' ↔ Str.join unitSeparator parts = Str.join unitSeparator parts' := by
  unfold stableId Str.encode? at h h'
  split_ifs at h h'
  all_goals try cases h
  all_goals try cases h'
  constructor
  · intro same
    have digests := List.append_cancel_left same
    exact Str.utf8_injective (apart (Set.mem_image_of_mem _ mem) (Set.mem_image_of_mem _ mem') digests)
  · intro same
    rw [same]

end

/-- The first identity is the second with a separator taken into its source. -/
def Shifted (source id source' id' : Str) : Prop :=
  ∃ between, source = source' ++ unitSeparator ++ between ∧ id' = between ++ unitSeparator ++ id

/-- Where one joined pair reaches past the source of the other, they are one pair or the
source takes a separator in. -/
theorem eq_or_shifted {source id source' id' between : Str} (reaches : source = source' ++ between)
    (rest : unitSeparator ++ id' = between ++ (unitSeparator ++ id)) :
    (source, id) = (source', id') ∨ Shifted source id source' id' := by
  cases between with
  | nil =>
      rw [List.append_nil] at reaches
      rw [reaches, List.append_cancel_left rest]
      exact Or.inl rfl
  | cons c between =>
      obtain ⟨rfl, split⟩ := List.cons.inj rest
      refine Or.inr ⟨between, ?_, ?_⟩
      · rw [reaches, List.append_assoc]
        rfl
      · rw [List.append_assoc]
        exact split

/-- Joined pairs are equal when the pairs are, or when a separator stands in a part. -/
theorem join_pair_eq_iff {source id source' id' : Str} :
    Str.join unitSeparator [source, id] = Str.join unitSeparator [source', id'] ↔
      (source, id) = (source', id') ∨ Shifted source id source' id' ∨ Shifted source' id' source id := by
  simp only [Str.join]
  constructor
  · intro same
    rw [List.append_assoc, List.append_assoc, List.append_eq_append_iff] at same
    rcases same with ⟨between, reaches, rest⟩ | ⟨between, reaches, rest⟩
    · rcases eq_or_shifted reaches rest with same | shifted
      · exact Or.inl same.symm
      · exact Or.inr (Or.inr shifted)
    · exact (eq_or_shifted reaches rest).imp_right Or.inl
  · rintro (same | ⟨between, rfl, rfl⟩ | ⟨between, rfl, rfl⟩)
    · cases same
      rfl
    · simp
    · simp

/-! ### Identities that are stored -/

theorem encodable_record_identity (record : RawTransactionRecord) {id : Str}
    (given : record.sourceTransactionId = some id) : ∀ part ∈ [record.source, id], part.Encodable := by
  obtain ⟨⟨source, -⟩, ids, -⟩ := RawTransactionFields.errors_eq_nil_iff.mp record.valid
  simp [source, ids id given]

theorem encodable_listing_identity (listing : Listing) :
    ∀ part ∈ [listing.source, listing.sourceListingId], part.Encodable := by
  obtain ⟨-, -, ⟨source, -⟩, ⟨id, -⟩, -⟩ := ListingFields.errors_eq_nil_iff.mp listing.valid
  simp [source, id]

section

variable [Runtime]

theorem stableId_pair_ne_iff {identities : Set (List Str)} (apart : DigestsApart identities) {idPrefix : String}
    {source id source' id' : Str} (mem : [source, id] ∈ identities) (mem' : [source', id'] ∈ identities)
    (text : ∀ part ∈ [source, id], part.Encodable) (text' : ∀ part ∈ [source', id'], part.Encodable)
    (differ : (source, id) ≠ (source', id')) :
    stableId idPrefix [source, id] ≠ stableId idPrefix [source', id'] ↔
      ¬ (Shifted source id source' id' ∨ Shifted source' id' source id) := by
  obtain ⟨hashed, built, -⟩ := stableId_ok idPrefix text
  obtain ⟨hashed', built', -⟩ := stableId_ok idPrefix text'
  rw [built, built', ne_eq, Except.ok.injEq, stableId_eq_iff apart mem mem' built built',
    join_pair_eq_iff, or_iff_right differ]

/-- **Separated identities.** Two identities that a record, or a listing, admits have
different ids exactly when neither is the other with a separator taken into its source. -/
theorem internal_ids_apart {identities : Set (List Str)} (apart : DigestsApart identities) :
    (∀ (record record' : RawTransactionRecord) (id id' : Str),
      record.sourceTransactionId = some id → record'.sourceTransactionId = some id' →
      [record.source, id] ∈ identities → [record'.source, id'] ∈ identities →
      (record.source, id) ≠ (record'.source, id') →
      (buildTransactionId record.source id ≠ buildTransactionId record'.source id' ↔
        ¬ (Shifted record.source id record'.source id' ∨ Shifted record'.source id' record.source id))) ∧
    ∀ listing listing' : Listing,
      [listing.source, listing.sourceListingId] ∈ identities →
      [listing'.source, listing'.sourceListingId] ∈ identities →
      (listing.source, listing.sourceListingId) ≠ (listing'.source, listing'.sourceListingId) →
      (Lianjia.buildListingId listing.source listing.sourceListingId ≠
          Lianjia.buildListingId listing'.source listing'.sourceListingId ↔
        ¬ (Shifted listing.source listing.sourceListingId listing'.source listing'.sourceListingId ∨
          Shifted listing'.source listing'.sourceListingId listing.source listing.sourceListingId)) := by
  constructor
  · intro record record' id id' given given' mem mem' differ
    exact stableId_pair_ne_iff apart mem mem' (encodable_record_identity record given)
      (encodable_record_identity record' given') differ
  · intro listing listing' mem mem' differ
    exact stableId_pair_ne_iff apart mem mem' (encodable_listing_identity listing)
      (encodable_listing_identity listing') differ

end

section

variable [Runtime] {parts parts' : List Str}

theorem digestsApart_of_ne
    (differ : (Runtime.sha256 (identityBytes parts)).take 32 ≠ (Runtime.sha256 (identityBytes parts')).take 32) :
    DigestsApart {parts, parts'} := by
  rintro _ ⟨a, rfl | rfl, rfl⟩ _ ⟨b, rfl | rfl, rfl⟩ same
  · rfl
  · exact absurd same differ
  · exact absurd same.symm differ
  · rfl

theorem digestsApart_of_eq (same : Str.join unitSeparator parts = Str.join unitSeparator parts') :
    DigestsApart {parts, parts'} := by
  have bytes : identityBytes parts = identityBytes parts' := congrArg (List.flatMap CodePoint.utf8) same
  rintro _ ⟨a, rfl | rfl, rfl⟩ _ ⟨b, rfl | rfl, rfl⟩ -
  · rfl
  · exact bytes
  · exact bytes.symm
  · rfl

end

/-- A record of a source under an id. -/
def recordOf (source id : Str) : RawTransactionFields :=
  { sampleRecordFields id 30 with source := source }

/-- Two records of one source that no separator stands in. -/
theorem internal_ids_apart_of_lianjia : let _ := sampleRuntime
    buildTransactionId (str "lianjia") (str "101") ≠ buildTransactionId (str "lianjia") (str "102") := by
  intro _
  have apart : DigestsApart {[str "lianjia", str "101"], [str "lianjia", str "102"]} :=
    digestsApart_of_ne (by decide +kernel)
  refine ((internal_ids_apart apart).1 ⟨recordOf (str "lianjia") (str "101"), rfl, rfl⟩
    ⟨recordOf (str "lianjia") (str "102"), rfl, rfl⟩ _ _ rfl rfl (Or.inl rfl) (Or.inr rfl)
    (by decide +kernel)).mpr ?_
  rintro (⟨between, source, -⟩ | ⟨between, source, -⟩)
  · exact absurd (congrArg List.length source) (by simp [recordOf, unitSeparator])
  · exact absurd (congrArg List.length source) (by simp [recordOf, unitSeparator])

/-- A source with a separator in its name, and one whose ids start with what follows it. -/
theorem internal_ids_merge : let _ := sampleRuntime
    (¬ ∀ (identities : Set (List Str)) (record record' : RawTransactionRecord) (id id' : Str),
      DigestsApart identities →
      record.sourceTransactionId = some id → record'.sourceTransactionId = some id' →
      [record.source, id] ∈ identities → [record'.source, id'] ∈ identities →
      (record.source, id) ≠ (record'.source, id') →
      buildTransactionId record.source id ≠ buildTransactionId record'.source id') ∧
    ¬ ∀ (identities : Set (List Str)) (listing listing' : Listing),
      DigestsApart identities → [listing.source, listing.sourceListingId] ∈ identities →
      [listing'.source, listing'.sourceListingId] ∈ identities →
      (listing.source, listing.sourceListingId) ≠ (listing'.source, listing'.sourceListingId) →
      Lianjia.buildListingId listing.source listing.sourceListingId ≠
        Lianjia.buildListingId listing'.source listing'.sourceListingId := by
  intro _
  have merged : DigestsApart {[str "a" ++ unitSeparator ++ str "b", str "c"],
      [str "a", str "b" ++ unitSeparator ++ str "c"]} := digestsApart_of_eq rfl
  constructor
  · intro differ
    exact differ _ ⟨recordOf (str "a" ++ unitSeparator ++ str "b") (str "c"), rfl, rfl⟩
      ⟨recordOf (str "a") (str "b" ++ unitSeparator ++ str "c"), rfl, rfl⟩ _ _
      merged rfl rfl (Or.inl rfl) (Or.inr rfl) (by decide +kernel) rfl
  · intro differ
    exact differ _
      ⟨{ sampleListingFields (str "lst-1") (str "cm-a") (str "c") firstDay .active with
        source := str "a" ++ unitSeparator ++ str "b" }, rfl⟩
      ⟨{ sampleListingFields (str "lst-2") (str "cm-a") (str "b" ++ unitSeparator ++ str "c") firstDay .active with
        source := str "a" }, rfl⟩
      merged (Or.inl rfl) (Or.inr rfl) (by decide +kernel) rfl

/-! ### Identities of source rows -/

namespace Lianjia

/-- A text without its commas, and with an ordinary space for each ideographic one. -/
def commaless (text : Str) : Str :=
  (text.filter (· ≠ 0x2C)).map fun c => if c = 0x3000 then 0x20 else c

theorem commaless_eq_filter {text : Str} (space : 0x3000 ∉ text) :
    commaless text = text.filter (· ≠ 0x2C) := by
  have kept : ∀ c ∈ text.filter (· ≠ 0x2C), (if c = 0x3000 then 0x20 else c) = c := by
    rintro c mem
    have other : c ≠ 0x3000 := by
      rintro rfl
      exact space (List.mem_of_mem_filter mem)
    exact if_neg other
  rw [commaless, List.map_congr_left kept, List.map_id']

theorem commaless_eq_self {text : Str} (comma : 0x2C ∉ text) (space : 0x3000 ∉ text) :
    commaless text = text := by
  rw [commaless_eq_filter space, List.filter_eq_self]
  rintro c mem
  have other : c ≠ 0x2C := by
    rintro rfl
    exact comma mem
  exact decide_eq_true other

variable [Runtime]

theorem normalizeText_eq (text : Str) : normalizeText text = commaless (Runtime.nfkc text).strip := by
  have comma : str "," = [0x2C] := by decide
  have space : str " " = [0x20] := by decide
  rw [normalizeText, comma, space, Str.replace_singleton_nil, Str.replace_singleton_singleton, commaless]

/-- A known text cell is read in its normal form. -/
theorem eq_normalizeText_of_cell {cells : Dict Str Json} {field : Field} {s text : Str}
    (value : rawValue cells field = .text s) (read : cell cells field = .ok (some text)) :
    text = normalizeText s := by
  rw [cell_eq_ok, value, normalizeCell_text, Except.ok.injEq] at read
  split_ifs at read
  exact (Option.some.inj read).symm

theorem sourceListingId_eq {context : LianjiaListingParseContext} {entries : List (Str × Json)}
    {rowIndex : Option Nat} {observation : ListingObservation} {s : Str}
    (parsed : parseListingRow context (.object entries) rowIndex = .ok (.inl observation))
    (value : rawValue (normalizeRowKeys entries) ListingParser.sourceIdField = .text s) :
    observation.listing.sourceListingId = commaless (Runtime.nfkc s).strip := by
  obtain ⟨_, _, _, _, _, _, same, -, identity, -, -, -, built⟩ := parseListingRow_inl parsed
  cases same
  rw [(ListingParser.buildObservation_ok built).1, eq_normalizeText_of_cell value identity, normalizeText_eq]

theorem sourceTransactionId_eq {context : LianjiaParseContext} {entries : List (Str × Json)}
    {rowIndex : Option Nat} {record : RawTransactionRecord} {s : Str}
    (parsed : parseTransactionRow context (.object entries) rowIndex = .ok (.inl record))
    (value : rawValue (normalizeRowKeys entries) TransactionParser.sourceIdField = .text s) :
    record.sourceTransactionId = some (commaless (Runtime.nfkc s).strip).trim := by
  obtain ⟨_, _, _, fields, same, -, identity, read, record_eq⟩ := parseTransactionRow_inl parsed
  cases same
  rw [record_eq, RawTransactionFields.strip, (TransactionParser.readFields_ok read).2.1,
    eq_normalizeText_of_cell value identity, normalizeText_eq]
  rfl

/-- **Ids of rows.** The ids of two accepted rows are different exactly when the texts of
their id cells, normalized and trimmed, differ in more than commas; for transactions, when
they still do after another trim. -/
theorem row_ids_apart {identities : Set (List Str)} (apart : DigestsApart identities) :
    (∀ (context context' : LianjiaListingParseContext) (entries entries' : List (Str × Json))
        (rowIndex rowIndex' : Option Nat) (observation observation' : ListingObservation) (s s' : Str),
      parseListingRow context (.object entries) rowIndex = .ok (.inl observation) →
      parseListingRow context' (.object entries') rowIndex' = .ok (.inl observation') →
      rawValue (normalizeRowKeys entries) ListingParser.sourceIdField = .text s →
      rawValue (normalizeRowKeys entries') ListingParser.sourceIdField = .text s' →
      [lianjiaSource, observation.listing.sourceListingId] ∈ identities →
      [lianjiaSource, observation'.listing.sourceListingId] ∈ identities →
      (observation.listing.listingId ≠ observation'.listing.listingId ↔
        commaless (Runtime.nfkc s).strip ≠ commaless (Runtime.nfkc s').strip)) ∧
    ∀ (context context' : LianjiaParseContext) (entries entries' : List (Str × Json))
        (rowIndex rowIndex' : Option Nat) (record record' : RawTransactionRecord) (s s' : Str),
      parseTransactionRow context (.object entries) rowIndex = .ok (.inl record) →
      parseTransactionRow context' (.object entries') rowIndex' = .ok (.inl record') →
      rawValue (normalizeRowKeys entries) TransactionParser.sourceIdField = .text s →
      rawValue (normalizeRowKeys entries') TransactionParser.sourceIdField = .text s' →
      (record.sourceTransactionId ≠ record'.sourceTransactionId ↔
        (commaless (Runtime.nfkc s).strip).trim ≠ (commaless (Runtime.nfkc s').strip).trim) := by
  constructor
  · intro context context' entries entries' rowIndex rowIndex' observation observation' s s' parsed parsed'
      value value' mem mem'
    have ids := stableId_eq_iff apart mem mem' (parseListingRow_identity parsed).2
      (parseListingRow_identity parsed').2
    have joined (a b : Str) : Str.join unitSeparator [lianjiaSource, a] =
        Str.join unitSeparator [lianjiaSource, b] ↔ a = b := by simp [Str.join]
    rw [ne_eq, ids, joined, sourceListingId_eq parsed value, sourceListingId_eq parsed' value']
  · intro context context' entries entries' rowIndex rowIndex' record record' s s' parsed parsed' value value'
    rw [sourceTransactionId_eq parsed value, sourceTransactionId_eq parsed' value', ne_eq, Option.some_inj]

omit [Runtime]

/-- A listing row with an id and a price. -/
def listingRow (id : Str) : List (Str × Json) :=
  [(str "房源编号", .text id), (str "总价", .text (str "300万"))]

/-- A transaction row with an id. -/
def transactionRow (id : Str) : List (Str × Json) := [(str "链家编号", .text id)]

/-- Two rows whose ids differ in a digit. -/
theorem row_ids_apart_by_a_digit : let _ := sampleRuntime
    ∃ observation observation', parseListingRow sampleListingContext (.object (listingRow (str "101"))) none =
        .ok (.inl observation) ∧
      parseListingRow sampleListingContext (.object (listingRow (str "102"))) none = .ok (.inl observation') ∧
      observation.listing.listingId ≠ observation'.listing.listingId := by
  intro _
  have accepted (id : Str) (named : (parseListingRow sampleListingContext (.object (listingRow id))
      none).toOption.bind (fun outcome => outcome.getLeft?.map fun o => o.listing.sourceListingId) = some id) :=
    exists_inl_of_map named
  obtain ⟨observation, parsed, id⟩ := accepted (str "101") (by decide +kernel)
  obtain ⟨observation', parsed', id'⟩ := accepted (str "102") (by decide +kernel)
  have apart : DigestsApart {[lianjiaSource, str "101"], [lianjiaSource, str "102"]} :=
    digestsApart_of_ne (by decide +kernel)
  refine ⟨observation, observation', parsed, parsed', ?_⟩
  exact ((row_ids_apart apart).1 _ _ _ _ _ _ _ _ (str "101") (str "102") parsed parsed' rfl rfl
    (Or.inl (by rw [id])) (Or.inr (by rw [id']; rfl))).mpr (by decide +kernel)

/-- Two rows whose ids differ in a comma. -/
theorem row_ids_merge : let _ := sampleRuntime
    (¬ ∀ (identities : Set (List Str)) (context context' : LianjiaListingParseContext)
        (entries entries' : List (Str × Json)) (observation observation' : ListingObservation) (s s' : Str),
      DigestsApart identities →
      parseListingRow context (.object entries) none = .ok (.inl observation) →
      parseListingRow context' (.object entries') none = .ok (.inl observation') →
      rawValue (normalizeRowKeys entries) ListingParser.sourceIdField = .text s →
      rawValue (normalizeRowKeys entries') ListingParser.sourceIdField = .text s' →
      [lianjiaSource, observation.listing.sourceListingId] ∈ identities →
      [lianjiaSource, observation'.listing.sourceListingId] ∈ identities →
      (Runtime.nfkc s).strip ≠ (Runtime.nfkc s').strip →
      observation.listing.listingId ≠ observation'.listing.listingId) ∧
    ¬ ∀ (context context' : LianjiaParseContext) (entries entries' : List (Str × Json))
        (record record' : RawTransactionRecord) (s s' : Str),
      parseTransactionRow context (.object entries) none = .ok (.inl record) →
      parseTransactionRow context' (.object entries') none = .ok (.inl record') →
      rawValue (normalizeRowKeys entries) TransactionParser.sourceIdField = .text s →
      rawValue (normalizeRowKeys entries') TransactionParser.sourceIdField = .text s' →
      (Runtime.nfkc s).strip ≠ (Runtime.nfkc s').strip →
      record.sourceTransactionId ≠ record'.sourceTransactionId := by
  intro _
  constructor
  · intro differ
    have accepted (id : Str) (named : (parseListingRow sampleListingContext (.object (listingRow id))
        none).toOption.bind (fun outcome => outcome.getLeft?.map fun o =>
          (o.listing.sourceListingId, o.listing.listingId)) =
        some (str "101", str "lst-924fa63e7cd5545e5c311ade8ad6d9af")) :=
      exists_inl_of_map named
    obtain ⟨observation, parsed, id⟩ := accepted (str "101") (by decide +kernel)
    obtain ⟨observation', parsed', id'⟩ := accepted (str "1,01") (by decide +kernel)
    obtain ⟨sourceId, listingId⟩ := Prod.mk.inj id
    obtain ⟨sourceId', listingId'⟩ := Prod.mk.inj id'
    have apart : DigestsApart {[lianjiaSource, str "101"], [lianjiaSource, str "101"]} := digestsApart_of_eq rfl
    exact differ _ _ _ _ _ _ _ (str "101") (str "1,01") apart parsed parsed' rfl rfl
      (Or.inl (by rw [sourceId])) (Or.inl (by rw [sourceId'])) (by decide +kernel)
      (listingId.trans listingId'.symm)
  · intro differ
    have accepted (id : Str) (named : (parseTransactionRow sampleContext (.object (transactionRow id))
        none).toOption.bind (fun outcome => outcome.getLeft?.map fun r => r.sourceTransactionId) =
        some (some (str "101"))) := exists_inl_of_map named
    obtain ⟨record, parsed, id⟩ := accepted (str "101") (by decide +kernel)
    obtain ⟨record', parsed', id'⟩ := accepted (str "1,01") (by decide +kernel)
    exact differ _ _ _ _ _ _ (str "101") (str "1,01") parsed parsed' rfl rfl (by decide +kernel)
      (id.trans id'.symm)

end Lianjia

end CnPropertyAgent
