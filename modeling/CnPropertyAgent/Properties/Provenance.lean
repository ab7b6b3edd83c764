import CnPropertyAgent.Properties.FiniteEvidence
import CnPropertyAgent.Properties.ProviderIdentity

/-!
What a row keeps of its own provenance.

The link and the payload reference of a row are read as its cells are, normalized for numbers
and labels. They are kept exactly when the normalization leaves them as they are (`Kept`), on
observations, records and rejections alike; a row that states neither takes what its batch does.
-/

namespace CnPropertyAgent.Lianjia

open Python

/-- What a row may state of its provenance. -/
inductive Provenance where
  | sourceUrl
  | rawPayloadRef

namespace Provenance

def field : Provenance → Field
  | .sourceUrl => sourceUrlField
  | .rawPayloadRef => rawPayloadRefField

def ofBatch : Provenance → BatchContext → Option Str
  | .sourceUrl, context => context.sourceUrl
  | .rawPayloadRef, context => context.rawPayloadRef

def ofRef : Provenance → SourceRowRef → Option Str
  | .sourceUrl, ref => ref.sourceUrl
  | .rawPayloadRef, ref => ref.rawPayloadRef

def ofSnapshot : Provenance → ListingSnapshot → Option Str
  | .sourceUrl, snapshot => snapshot.sourceUrl
  | .rawPayloadRef, snapshot => snapshot.rawPayloadRef

def ofRecord : Provenance → RawTransactionRecord → Option Str
  | .sourceUrl, record => record.sourceUrl
  | .rawPayloadRef, record => record.rawPayloadRef

end Provenance

/-! ### Texts that cells keep -/

section

variable [Runtime]

/-- The text is its own cell, or is passed over for a batch that states the same. -/
def Kept (s : Str) (batch : Option Str) : Prop :=
  (Runtime.nfkc s = s ∧ 0x2C ∉ s ∧ 0x3000 ∉ s) ∨
    Runtime.casefold (normalizeText s) ∈ unknownMarkers ∧ batch = some s

/-- What a row states with this text, or else its batch. -/
def stated (s : Str) (batch : Option Str) : Option Str :=
  orDefault (if Runtime.casefold (normalizeText s) ∈ unknownMarkers then none else some (normalizeText s)) batch

/-- A stripped text in normal form is its own cell, unless it has a comma. -/
theorem normalizeText_eq_self {s : Str} (stripped : s.strip = s)
    (plain : Runtime.nfkc s = s ∧ 0x2C ∉ s ∧ 0x3000 ∉ s) : normalizeText s = s := by
  obtain ⟨normal, comma, space⟩ := plain
  rw [normalizeText_eq, normal, stripped, commaless_eq_self comma space]

end

section

variable [NfkcRuntime] {s : Str} {batch : Option Str}

/-- A text that stands in its own cell is in normal form. -/
theorem plain_of_infix_normalizeText (stands : s <:+: normalizeText s) :
    Runtime.nfkc s = s ∧ 0x2C ∉ s ∧ 0x3000 ∉ s := by
  rw [normalizeText_eq] at stands
  have space : 0x3000 ∉ s := by
    intro mem
    obtain ⟨c, -, same⟩ := List.mem_map.mp (stands.subset mem)
    split_ifs at same with ideographic
    · cases same
    · exact ideographic same
  have spaceless : 0x3000 ∉ (Runtime.nfkc s).strip := fun mem =>
    space (NfkcRuntime.ideographicSpace_mem_nfkc s ((Str.strip_infix _).subset mem))
  have filtered : s <:+: (Runtime.nfkc s).strip.filter (· ≠ 0x2C) := by
    rwa [commaless_eq_filter spaceless] at stands
  have comma : 0x2C ∉ s := fun mem => of_decide_eq_true (List.mem_filter.mp (filtered.subset mem)).2 rfl
  have normal {c : CodePoint} (mem : c ∈ s) : c ∈ Runtime.nfkc s :=
    (Str.strip_infix _).subset (List.mem_of_mem_filter (filtered.subset mem))
  -- no character of a normal form makes a comma
  have unmade : 0x2C ∉ (Runtime.nfkc s).strip := by
    intro mem
    rcases NfkcRuntime.comma_mem_nfkc s ((Str.strip_infix _).subset mem) with own | ⟨c, mem', never⟩
    · exact comma own
    · exact never s (normal mem')
  rw [commaless_eq_self unmade spaceless] at stands
  exact ⟨NfkcRuntime.nfkc_of_infix s s (stands.trans (Str.strip_infix _)), comma, space⟩

variable (batch) in
/-- A cell with a known text states its normal form, unless that is an unknown marker. -/
theorem stated_cases (stripped : s.strip = s) (known : Runtime.casefold s ∉ unknownMarkers) :
    (stated s batch = batch ∧ Runtime.casefold (normalizeText s) ∈ unknownMarkers ∧
        ¬ (Runtime.nfkc s = s ∧ 0x2C ∉ s ∧ 0x3000 ∉ s)) ∨
      (stated s batch = some (normalizeText s) ∧ Runtime.casefold (normalizeText s) ∉ unknownMarkers) := by
  unfold stated
  split_ifs with marker
  · refine Or.inl ⟨rfl, marker, fun plain => known ?_⟩
    rwa [normalizeText_eq_self stripped plain] at marker
  · refine Or.inr ⟨if_neg fun empty => marker ?_, marker⟩
    rw [empty, NfkcRuntime.casefold_nil]
    exact List.mem_cons_self

/-- **Verbatim.** A row states a text exactly when the text is kept. -/
theorem stated_eq_iff (stripped : s.strip = s) (known : Runtime.casefold s ∉ unknownMarkers) :
    stated s batch = some s ↔ Kept s batch := by
  rcases stated_cases batch stripped known with ⟨same, marker, changed⟩ | ⟨same, known'⟩
  · rw [same, Kept, or_iff_right changed, and_iff_right marker]
  · rw [same, Kept, or_iff_left fun passed => known' passed.1, Option.some_inj]
    exact ⟨fun own => plain_of_infix_normalizeText ⟨[], [], by simp [own]⟩, normalizeText_eq_self stripped⟩

/-- The same of a record, which trims what the row states. -/
theorem trim_stated_eq_iff (stripped : s.strip = s) (known : Runtime.casefold s ∉ unknownMarkers) :
    (stated s batch).map Str.trim = some s ↔ Kept s (batch.map Str.trim) := by
  rcases stated_cases batch stripped known with ⟨same, marker, changed⟩ | ⟨same, known'⟩
  · rw [same, Kept, or_iff_right changed, and_iff_right marker]
  · rw [same, Kept, or_iff_left fun passed => known' passed.1, Option.map_some, Option.some_inj]
    constructor
    · intro own
      apply plain_of_infix_normalizeText
      conv_lhs => rw [← own]
      exact Str.trim_infix (normalizeText s)
    · intro plain
      rw [normalizeText_eq_self stripped plain, Str.trim_eq_self stripped]

end

/-! ### Provenance of outcomes -/

section

variable [Runtime] {p : Provenance} {context : BatchContext} {cells : Dict Str Json}

/-- A row reference states the cell, or else the batch. -/
theorem Provenance.ofRef_eq {sourceId : Field} {rowIndex : Option Nat} {ref : SourceRowRef}
    (built : buildRowRef sourceId context cells rowIndex = .ok ref) :
    ∃ text, rawText cells p.field = .ok text ∧ p.ofRef ref = orDefault text (p.ofBatch context) := by
  obtain ⟨url, payload, readUrl, readPayload, -, sourceUrl, rawPayloadRef⟩ := buildRowRef_ok built
  cases p with
  | sourceUrl => exact ⟨url, readUrl, sourceUrl⟩
  | rawPayloadRef => exact ⟨payload, readPayload, rawPayloadRef⟩

/-- What a row refers to when its only cell is this text. -/
theorem Provenance.ofRef_of_only {sourceId : Field} {rowIndex : Option Nat} {ref : SourceRowRef}
    {entries : List (Str × Json)} {key s : Str}
    (only : (entries.filter fun e => normalizeKey e.1 ∈ p.field.keys) = [(key, .text s)])
    (built : buildRowRef sourceId context (normalizeRowKeys entries) rowIndex = .ok ref) :
    p.ofRef ref = stated s (p.ofBatch context) := by
  obtain ⟨text, read, same⟩ := Provenance.ofRef_eq (p := p) built
  have cellText := rawText_of_cell (cell_eq_ok.mpr (by rw [rawValue_of_only only, normalizeCell_text]))
  rw [read, Except.ok.injEq] at cellText
  rw [same, cellText, stated]

/-- Without a cell, it is what the batch states. -/
theorem Provenance.ofRef_of_absent {sourceId : Field} {rowIndex : Option Nat} {ref : SourceRowRef}
    {entries : List (Str × Json)}
    (absent : (entries.filter fun e => normalizeKey e.1 ∈ p.field.keys) = [])
    (built : buildRowRef sourceId context (normalizeRowKeys entries) rowIndex = .ok ref) :
    p.ofRef ref = p.ofBatch context := by
  obtain ⟨text, read, same⟩ := Provenance.ofRef_eq (p := p) built
  have cellText := rawText_of_cell (cell_eq_ok.mpr (by rw [rawValue_of_absent absent]; rfl))
  rw [read, Except.ok.injEq] at cellText
  rw [same, cellText, orDefault]

/-- An observation states what its row reference does. -/
theorem Provenance.ofSnapshot_eq {context : LianjiaListingParseContext} {entries : List (Str × Json)}
    {rowIndex : Option Nat} {observation : ListingObservation} (p : Provenance)
    (parsed : parseListingRow context (.object entries) rowIndex = .ok (.inl observation)) :
    ∃ ref, buildRowRef ListingParser.sourceIdField context.toBatchContext (normalizeRowKeys entries) rowIndex =
      .ok ref ∧ p.ofSnapshot observation.snapshot = p.ofRef ref := by
  obtain ⟨_, ref, _, _, _, _, same, built, -, -, -, -, observed⟩ := parseListingRow_inl parsed
  cases same
  have snapshot := (ListingParser.buildObservation_ok observed).2
  refine ⟨ref, built, ?_⟩
  cases p with
  | sourceUrl => rw [ofSnapshot, snapshot, ofRef]
  | rawPayloadRef => rw [ofSnapshot, snapshot, ofRef]

/-- A record states it trimmed. -/
theorem Provenance.ofRecord_eq {context : LianjiaParseContext} {entries : List (Str × Json)}
    {rowIndex : Option Nat} {record : RawTransactionRecord} (p : Provenance)
    (parsed : parseTransactionRow context (.object entries) rowIndex = .ok (.inl record)) :
    ∃ ref, buildRowRef TransactionParser.sourceIdField context.toBatchContext (normalizeRowKeys entries)
      rowIndex = .ok ref ∧ p.ofRecord record = (p.ofRef ref).map Str.trim := by
  obtain ⟨_, ref, _, fields, same, built, -, read, stripped⟩ := parseTransactionRow_inl parsed
  cases same
  obtain ⟨-, -, sourceUrl, rawPayloadRef⟩ := TransactionParser.readFields_ok read
  refine ⟨ref, built, ?_⟩
  cases p with
  | sourceUrl => rw [ofRecord, stripped, RawTransactionFields.strip, sourceUrl, ofRef]
  | rawPayloadRef => rw [ofRecord, stripped, RawTransactionFields.strip, rawPayloadRef, ofRef]

end

/-- A trim keeps the texts that have no edges. -/
theorem map_trim_eq_iff {text : Option Str} : text.map Str.trim = text ↔ ∀ t ∈ text, t.trim = t := by
  cases text <;> simp

/-- **Row provenance.** What the only entry of a row states reaches observations, records and
rejections exactly when it is kept. Without an entry they state what the batch does, which a
record trims. -/
theorem row_provenance [NfkcRuntime] (p : Provenance) (entries : List (Str × Json)) (rowIndex : Option Nat)
    (listing : LianjiaListingParseContext) (transaction : LianjiaParseContext) :
    (∀ key s, (entries.filter fun e => normalizeKey e.1 ∈ p.field.keys) = [(key, .text s)] → s.strip = s →
      Runtime.casefold s ∉ unknownMarkers →
      (∀ observation, parseListingRow listing (.object entries) rowIndex = .ok (.inl observation) →
        (p.ofSnapshot observation.snapshot = some s ↔ Kept s (p.ofBatch listing.toBatchContext))) ∧
      (∀ rejection, parseListingRow listing (.object entries) rowIndex = .ok (.inr rejection) →
        (p.ofRef rejection.row = some s ↔ Kept s (p.ofBatch listing.toBatchContext))) ∧
      (∀ record, parseTransactionRow transaction (.object entries) rowIndex = .ok (.inl record) →
        (p.ofRecord record = some s ↔ Kept s ((p.ofBatch transaction.toBatchContext).map Str.trim))) ∧
      ∀ rejection, parseTransactionRow transaction (.object entries) rowIndex = .ok (.inr rejection) →
        (p.ofRef rejection.row = some s ↔ Kept s (p.ofBatch transaction.toBatchContext))) ∧
    ((entries.filter fun e => normalizeKey e.1 ∈ p.field.keys) = [] →
      (∀ observation, parseListingRow listing (.object entries) rowIndex = .ok (.inl observation) →
        p.ofSnapshot observation.snapshot = p.ofBatch listing.toBatchContext) ∧
      (∀ rejection, parseListingRow listing (.object entries) rowIndex = .ok (.inr rejection) →
        p.ofRef rejection.row = p.ofBatch listing.toBatchContext) ∧
      (∀ record, parseTransactionRow transaction (.object entries) rowIndex = .ok (.inl record) →
        (p.ofRecord record = p.ofBatch transaction.toBatchContext ↔
          ∀ text ∈ p.ofBatch transaction.toBatchContext, text.trim = text)) ∧
      ∀ rejection, parseTransactionRow transaction (.object entries) rowIndex = .ok (.inr rejection) →
        p.ofRef rejection.row = p.ofBatch transaction.toBatchContext) := by
  constructor
  · intro key s only stripped known
    refine ⟨?_, ?_, ?_, ?_⟩
    · intro observation parsed
      obtain ⟨ref, built, same⟩ := p.ofSnapshot_eq parsed
      rw [same, Provenance.ofRef_of_only only built, stated_eq_iff stripped known]
    · intro rejection parsed
      rw [Provenance.ofRef_of_only only (parseListingRow_inr parsed), stated_eq_iff stripped known]
    · intro record parsed
      obtain ⟨ref, built, same⟩ := p.ofRecord_eq parsed
      rw [same, Provenance.ofRef_of_only only built, trim_stated_eq_iff stripped known]
    · intro rejection parsed
      rw [Provenance.ofRef_of_only only (parseTransactionRow_inr parsed), stated_eq_iff stripped known]
  · intro absent
    refine ⟨?_, ?_, ?_, ?_⟩
    · intro observation parsed
      obtain ⟨ref, built, same⟩ := p.ofSnapshot_eq parsed
      rw [same, Provenance.ofRef_of_absent absent built]
    · intro rejection parsed
      exact Provenance.ofRef_of_absent absent (parseListingRow_inr parsed)
    · intro record parsed
      obtain ⟨ref, built, same⟩ := p.ofRecord_eq parsed
      rw [same, Provenance.ofRef_of_absent absent built, map_trim_eq_iff]
    · intro rejection parsed
      exact Provenance.ofRef_of_absent absent (parseTransactionRow_inr parsed)

/-! ### Rows with a link -/

/-- The full-width forms of ASCII characters. -/
def isWide (c : CodePoint) : Prop := 0xFF01 ≤ c.val ∧ c.val ≤ 0xFF5E

instance (c : CodePoint) : Decidable (isWide c) := inferInstanceAs (Decidable (_ ∧ _))

/-- The ASCII character of a full-width form. -/
def narrow (c : CodePoint) : CodePoint := if isWide c then c - 0xFEE0 else c

theorem val_narrow {c : CodePoint} (wide : isWide c) : (narrow c).val = c.val - 0xFEE0 := by
  rw [narrow, if_pos wide]
  exact Fin.sub_val_of_le (by rw [Fin.le_def]; exact le_trans (by decide) wide.1)

theorem narrow_eq_self {c : CodePoint} (plain : ¬ isWide c) : narrow c = c := if_neg plain

theorem not_isWide_narrow (c : CodePoint) : ¬ isWide (narrow c) := by
  by_cases wide : isWide c
  · rintro ⟨low, -⟩
    rw [val_narrow wide] at low
    have high := wide.2
    omega
  · rwa [narrow_eq_self wide]

/-- The sample runtime, whose NFKC narrows character by character. -/
@[reducible] def sampleNfkcRuntime : NfkcRuntime where
  toRuntime := sampleRuntime
  nfkc_of_infix s t stands := by
    have narrowed : ∀ c ∈ s, narrow c = c := by
      intro c mem
      obtain ⟨d, -, rfl⟩ := List.mem_map.mp (stands.subset mem)
      exact narrow_eq_self (not_isWide_narrow d)
    exact (List.map_congr_left narrowed).trans (List.map_id' s)
  ideographicSpace_mem_nfkc s mem := by
    obtain ⟨c, mem, same⟩ : ∃ c ∈ s, narrow c = 0x3000 := List.mem_map.mp mem
    by_cases wide : isWide c
    · have value : (0x3000 : CodePoint).val = c.val - 0xFEE0 := same ▸ val_narrow wide
      have high := wide.2
      have ideographic : (0x3000 : CodePoint).val = 0x3000 := rfl
      omega
    · rwa [← same, narrow_eq_self wide]
  comma_mem_nfkc s mem := by
    obtain ⟨c, mem, same⟩ : ∃ c ∈ s, narrow c = 0x2C := List.mem_map.mp mem
    by_cases wide : isWide c
    · refine Or.inr ⟨c, mem, fun t made => ?_⟩
      obtain ⟨d, -, rfl⟩ := List.mem_map.mp made
      exact not_isWide_narrow d wide
    · exact Or.inl (by rwa [← same, narrow_eq_self wide])
  casefold_nil := rfl

/-- A listing row with a link. -/
def linkedRow (link : Str) : List (Str × Json) := (str "链接", .text link) :: listingRow (str "101")

/-- A link in normal form without commas. -/
theorem row_provenance_of_link : let _ := sampleNfkcRuntime
    ∃ observation, parseListingRow sampleListingContext (.object (linkedRow (str "https://a.cn/101"))) none =
      .ok (.inl observation) ∧ observation.snapshot.sourceUrl = some (str "https://a.cn/101") := by
  intro _
  obtain ⟨observation, parsed, -⟩ := exists_inl_of_map (c := ())
    (x := parseListingRow sampleListingContext (.object (linkedRow (str "https://a.cn/101"))) none)
    (f := fun _ => ()) (by decide +kernel)
  refine ⟨observation, parsed, ?_⟩
  exact (((row_provenance .sourceUrl _ none sampleListingContext sampleContext).1 (str "链接")
    (str "https://a.cn/101") rfl (by decide +kernel) (by decide +kernel)).1 observation parsed).mpr
    (Or.inl (by decide +kernel))

/-- A comma leaves the link, and a record trims what its batch states. -/
theorem row_provenance_rewritten : let _ := sampleNfkcRuntime
    (¬ ∀ (p : Provenance) (entries : List (Str × Json)) (context : LianjiaListingParseContext) (key s : Str)
        (observation : ListingObservation),
      (entries.filter fun e => normalizeKey e.1 ∈ p.field.keys) = [(key, .text s)] → s.strip = s →
      Runtime.casefold s ∉ unknownMarkers →
      parseListingRow context (.object entries) none = .ok (.inl observation) →
      p.ofSnapshot observation.snapshot = some s) ∧
    ¬ ∀ (p : Provenance) (entries : List (Str × Json)) (context : LianjiaParseContext)
        (record : RawTransactionRecord),
      (entries.filter fun e => normalizeKey e.1 ∈ p.field.keys) = [] →
      parseTransactionRow context (.object entries) none = .ok (.inl record) →
      p.ofRecord record = p.ofBatch context.toBatchContext := by
  intro _
  constructor
  · intro verbatim
    obtain ⟨observation, parsed, link⟩ := exists_inl_of_map (c := some (str "https://a.cn/?ids=12"))
      (x := parseListingRow sampleListingContext (.object (linkedRow (str "https://a.cn/?ids=1,2"))) none)
      (f := fun o => o.snapshot.sourceUrl) (by decide +kernel)
    have kept := verbatim .sourceUrl _ _ (str "链接") (str "https://a.cn/?ids=1,2") observation rfl
      (by decide +kernel) (by decide +kernel) parsed
    exact absurd (link.symm.trans kept) (by decide +kernel)
  · intro verbatim
    obtain ⟨record, parsed, link⟩ := exists_inl_of_map (c := some (str "https://a.cn/"))
      (x := parseTransactionRow ⟨⟨some (str "https://a.cn/ "), none⟩, sampleCollectedAt⟩
        (.object (transactionRow (str "101"))) none)
      (f := fun r => r.sourceUrl) (by decide +kernel)
    have kept := verbatim .sourceUrl _ _ record rfl parsed
    exact absurd (link.symm.trans kept) (by decide +kernel)

end CnPropertyAgent.Lianjia
