import CnPropertyAgent.Properties.Provenance

/-!
Which cells are in normal form.

Normalization takes the commas out of a cell last. Whitespace that stood behind a leading comma,
or before a trailing one, is then at an end of the cell, and characters that a comma kept apart are
neighbours. So a cell is trimmed exactly when its commas had no whitespace to shield
(`CommasInside`), and is its own cell exactly when the text without them is in NFKC as well
(`CommasSpare`).
-/

namespace CnPropertyAgent.Lianjia

open Python

/-- Commas aside, the text has whitespace at neither end. -/
structure CommasInside (s : Str) : Prop where
  front : ∀ c ∈ s.find? (· ≠ 0x2C), c.isSpace = false
  back : ∀ c ∈ s.reverse.find? (· ≠ 0x2C), c.isSpace = false

theorem isSpace_ordinary (c : CodePoint) : (if c = 0x3000 then (0x20 : CodePoint) else c).isSpace = c.isSpace := by
  split_ifs with ideographic
  · rw [ideographic]
    rfl
  · rfl

/-- Taking the commas out leaves a trimmed text exactly when they stand inside. -/
theorem strip_commaless_eq_self_iff {s : Str} : (commaless s).strip = commaless s ↔ CommasInside s := by
  rw [Str.strip_eq_self_iff, commaless, List.head?_map, List.getLast?_map, List.head?_filter,
    List.getLast?_filter]
  simp only [Option.mem_map, forall_exists_index, and_imp, forall_apply_eq_imp_iff₂, isSpace_ordinary]
  exact ⟨fun ends => ⟨ends.1, ends.2⟩, fun inside => ⟨inside.front, inside.back⟩⟩

theorem not_mem_commaless (s : Str) : 0x2C ∉ commaless s ∧ 0x3000 ∉ commaless s := by
  constructor
  · intro mem
    obtain ⟨c, mem, same⟩ := List.mem_map.mp mem
    split_ifs at same
    · cases same
    · exact of_decide_eq_true (List.mem_filter.mp mem).2 same
  · intro mem
    obtain ⟨c, -, same⟩ := List.mem_map.mp mem
    split_ifs at same with ideographic
    · cases same
    · exact ideographic same

section

variable [Runtime]

/-- Commas stand inside of the text, and it is in NFKC without them. -/
def CommasSpare (s : Str) : Prop := CommasInside s ∧ Runtime.nfkc (commaless s) = commaless s

/-- A cell as it is compared: a known, trimmed text without commas that is its own cell. -/
structure NormalForm (t : Str) : Prop where
  nonempty : t ≠ []
  stripped : t.strip = t
  commaless : 0x2C ∉ t
  known : Runtime.casefold t ∉ unknownMarkers
  fixed : normalizeCell (.text t) = .ok (some t)

theorem normalizeCell_some {value : Json} {t : Str} (read : normalizeCell value = .ok (some t)) :
    t = commaless (Runtime.nfkc (cellText value)).strip ∧ Runtime.casefold t ∉ unknownMarkers := by
  unfold normalizeCell at read
  split at read
  · cases read
  · cases read
  · split_ifs at read
    rw [Except.ok.injEq] at read
    split_ifs at read with marker
    rw [← normalizeText_eq, ← Option.some.inj read]
    exact ⟨rfl, marker⟩

end

section

variable [NfkcRuntime] {value : Json} {t : Str}

/-- Without its commas, a text is its own cell exactly when they were spare. -/
theorem normalizeText_commaless_iff {s : Str} :
    normalizeText (commaless s) = commaless s ↔ CommasSpare s := by
  constructor
  · intro fixed
    have stands : commaless s <:+: normalizeText (commaless s) := by rw [fixed]
    obtain ⟨normal, comma, space⟩ := plain_of_infix_normalizeText stands
    refine ⟨strip_commaless_eq_self_iff.mp ?_, normal⟩
    conv_rhs => rw [← fixed, normalizeText_eq, normal]
    exact (commaless_eq_self (fun mem => comma ((Str.strip_infix _).subset mem))
      fun mem => space ((Str.strip_infix _).subset mem)).symm
  · rintro ⟨inside, normal⟩
    obtain ⟨comma, space⟩ := not_mem_commaless s
    exact normalizeText_eq_self (strip_commaless_eq_self_iff.mpr inside) ⟨normal, comma, space⟩

/-- A cell that is read has a text. -/
theorem ne_nil_of_normalizeCell (read : normalizeCell value = .ok (some t)) : t ≠ [] := by
  rintro rfl
  apply (normalizeCell_some read).2
  rw [NfkcRuntime.casefold_nil]
  exact List.mem_cons_self

theorem normalForm_iff (read : normalizeCell value = .ok (some t)) :
    NormalForm t ↔ CommasSpare (Runtime.nfkc (cellText value)).strip := by
  have nonempty := ne_nil_of_normalizeCell read
  obtain ⟨rfl, known⟩ := normalizeCell_some read
  rw [← normalizeText_commaless_iff]
  constructor
  · intro form
    have fixed := form.fixed
    rw [normalizeCell_text, Except.ok.injEq] at fixed
    split_ifs at fixed
    exact Option.some.inj fixed
  · intro fixed
    refine ⟨nonempty, ?_, (not_mem_commaless _).1, known, ?_⟩
    · exact strip_commaless_eq_self_iff.mpr (normalizeText_commaless_iff.mp fixed).1
    · rw [normalizeCell_text, fixed, if_neg known]

/-- An accepted row has the id of its cell. -/
theorem normalizeCell_sourceListingId {context : LianjiaListingParseContext} {entries : List (Str × Json)}
    {rowIndex : Option Nat} {observation : ListingObservation}
    (parsed : parseListingRow context (.object entries) rowIndex = .ok (.inl observation)) :
    normalizeCell (rawValue (normalizeRowKeys entries) ListingParser.sourceIdField) =
      .ok (some observation.listing.sourceListingId) := by
  obtain ⟨_, _, _, _, _, _, same, -, identity, -, -, -, built⟩ := parseListingRow_inl parsed
  cases same
  rw [(ListingParser.buildObservation_ok built).1]
  exact cell_eq_ok.mp identity

/-- **Normal cells.** A cell that is read is in normal form exactly when its commas are spare, and
the id of an accepted row is trimmed exactly when those of its cell stand inside; it is never
blank then. -/
theorem normal_cells :
    (∀ (value : Json) (t : Str), normalizeCell value = .ok (some t) →
      (NormalForm t ↔ CommasSpare (Runtime.nfkc (cellText value)).strip)) ∧
    ∀ (context : LianjiaListingParseContext) (entries : List (Str × Json)) (rowIndex : Option Nat)
        (observation : ListingObservation),
      parseListingRow context (.object entries) rowIndex = .ok (.inl observation) →
      (observation.listing.sourceListingId.strip ≠ [] ∧
          observation.listing.sourceListingId.strip = observation.listing.sourceListingId ↔
        CommasInside (Runtime.nfkc (cellText (rawValue (normalizeRowKeys entries)
          ListingParser.sourceIdField))).strip) := by
  constructor
  · intro value t read
    exact normalForm_iff read
  · intro context entries rowIndex observation parsed
    have read := normalizeCell_sourceListingId parsed
    rw [← strip_commaless_eq_self_iff, ← (normalizeCell_some read).1]
    refine and_iff_right_of_imp fun stripped => ?_
    rw [stripped]
    exact ne_nil_of_normalizeCell read

end

/-- A price with its thousands apart, and a listing id. -/
theorem normal_cells_of_price : let _ := sampleNfkcRuntime
    NormalForm (str "1234 元") ∧
      ∃ observation, parseListingRow sampleListingContext (.object (listingRow (str "1,01"))) none =
        .ok (.inl observation) ∧
        observation.listing.sourceListingId.strip = observation.listing.sourceListingId := by
  intro _
  constructor
  · have spare : CommasSpare (Runtime.nfkc (cellText (.text (str " 1,234 元")))).strip :=
      ⟨strip_commaless_eq_self_iff.mp (by decide +kernel), by decide +kernel⟩
    exact (normal_cells.1 (.text (str " 1,234 元")) _ (by decide +kernel)).mpr spare
  · obtain ⟨observation, parsed, -⟩ := exists_inl_of_map (c := ())
      (x := parseListingRow sampleListingContext (.object (listingRow (str "1,01"))) none)
      (f := fun _ => ()) (by decide +kernel)
    have inside : CommasInside (Runtime.nfkc (cellText (rawValue (normalizeRowKeys (listingRow (str "1,01")))
        ListingParser.sourceIdField))).strip := strip_commaless_eq_self_iff.mp (by decide +kernel)
    exact ⟨observation, parsed, ((normal_cells.2 _ _ _ observation parsed).mpr inside).2⟩

/-- Whitespace behind a comma stays, also as a listing id. -/
theorem normal_cells_padded : let _ := sampleNfkcRuntime
    (¬ ∀ (value : Json) (t : Str), normalizeCell value = .ok (some t) → NormalForm t) ∧
    ¬ ∀ (context : LianjiaListingParseContext) (entries : List (Str × Json)) (observation : ListingObservation),
      parseListingRow context (.object entries) none = .ok (.inl observation) →
      observation.listing.sourceListingId.strip ≠ [] ∧
        observation.listing.sourceListingId.strip = observation.listing.sourceListingId := by
  intro _
  constructor
  · intro normal
    have read : normalizeCell (.text (str ", 101")) = .ok (some (str " 101")) := by decide +kernel
    exact absurd (normal _ _ read).stripped (by decide +kernel)
  · intro named
    obtain ⟨observation, parsed, id⟩ := exists_inl_of_map (c := str " ")
      (x := parseListingRow sampleListingContext (.object (listingRow (str ", ,"))) none)
      (f := fun o => o.listing.sourceListingId) (by decide +kernel)
    have given := (named _ _ observation parsed).1
    rw [show observation.listing.sourceListingId = str " " from id] at given
    exact given (by decide +kernel)

end CnPropertyAgent.Lianjia
