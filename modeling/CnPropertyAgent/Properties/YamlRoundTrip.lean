import CnPropertyAgent.Properties.YamlSubset

/-!
A profile mapping, written out and read back.

Values stand in double quotes, sections are indented by a number of their own, and blank lines
and comments may stand between any two lines. Whatever separates the lines, the reader returns
the mapping in its order: the outer quotes are all that is taken off a value, so it may have
quotes, colons and blanks of its own.
-/

namespace CnPropertyAgent

open Python

namespace YamlMapping

/-- `"`. -/
def doubleQuote : CodePoint := 0x22

/-- `#`. -/
def hash : CodePoint := 0x23

/-! ### Rendering -/

def quoted (value : Str) : Str := doubleQuote :: (value ++ [doubleQuote])

/-- `key: "value"` behind spaces. -/
def pairLine (indent : Nat) (item : Str × Str) : Str :=
  List.replicate indent space ++ (item.1 ++ colon :: space :: quoted item.2)

/-- `key:`. -/
def headerLine (key : Str) : Str := key ++ [colon]

/-- The lines of one item, with the indentation of its section. -/
def itemLines (indent : Str → Nat) : Str × YamlValue → List Str
  | (key, .scalar value) => [pairLine 0 (key, value)]
  | (key, .section entries) => headerLine key :: entries.rows.map (pairLine (indent key))

def rendered (indent : Str → Nat) (mapping : YamlMapping) : List Str := mapping.rows.flatMap (itemLines indent)

/-! ### Lines between -/

/-- A blank line, or a comment behind whitespace. -/
inductive Filler : Str → Prop where
  | blank {line : Str} (blank : ∀ c ∈ line, c.isSpace = true) : Filler line
  | comment {before behind : Str} (blank : ∀ c ∈ before, c.isSpace = true) : Filler (before ++ hash :: behind)

/-- The lines with fillers inserted anywhere. -/
inductive Inserted : List Str → List Str → Prop where
  | nil : Inserted [] []
  | line {lines lines' : List Str} (line : Str) (rest : Inserted lines lines') :
      Inserted (line :: lines) (line :: lines')
  | filler {lines lines' : List Str} {line : Str} (filler : Filler line) (plain : line.Unbroken)
      (rest : Inserted lines lines') : Inserted lines (line :: lines')

/-! ### Mappings that can be rendered -/

/-- A nonempty trimmed text of one line without a colon that starts neither a comment nor
a sequence. -/
structure IsKey (key : Str) : Prop where
  nonempty : key ≠ []
  trimmed : key.strip = key
  plain : colon ∉ key
  unbroken : key.Unbroken
  starts : ∀ c ∈ key.head?, c ∉ str "#-"

theorem isKey_iff {key : Str} : IsKey key ↔
    key ≠ [] ∧ key.strip = key ∧ colon ∉ key ∧ key.Unbroken ∧ ∀ c ∈ key.head?, c ∉ str "#-" :=
  ⟨fun h => ⟨h.nonempty, h.trimmed, h.plain, h.unbroken, h.starts⟩,
    fun ⟨nonempty, trimmed, plain, unbroken, starts⟩ => ⟨nonempty, trimmed, plain, unbroken, starts⟩⟩

instance (key : Str) : Decidable (IsKey key) := decidable_of_iff' _ isKey_iff

/-- Keys are keys, and values are of one line. -/
structure Renderable (mapping : YamlMapping) : Prop where
  keys : ∀ key ∈ mapping.keys, IsKey key
  scalars : ∀ key value, (key, .scalar value) ∈ mapping.rows → value.Unbroken
  sections : ∀ key entries, (key, .section entries) ∈ mapping.rows →
    ∀ item ∈ entries.rows, IsKey item.1 ∧ item.2.Unbroken

/-! ### Rendered lines -/

theorem IsKey.isName {key : Str} (named : IsKey key) : IsName key := by
  refine ⟨?_, named.plain⟩
  cases key with
  | nil => exact absurd rfl named.nonempty
  | cons c tail =>
      have front := (Str.ends_of_strip_eq_self named.trimmed).1
      have starts : ¬ c.isSpace = true := List.dropWhile_eq_self_iff.mp front (Nat.succ_pos _)
      exact ⟨c, rfl, Bool.eq_false_of_not_eq_true starts, named.starts c rfl⟩

theorem strip_quoted (value : Str) : Str.strip (space :: quoted value) = quoted value := by
  have ends : quoted value = (doubleQuote :: value) ++ [doubleQuote] := rfl
  have front : (quoted value).dropWhile CodePoint.isSpace = quoted value :=
    List.dropWhile_cons_of_neg Bool.false_ne_true
  rw [Str.strip_cons_of_isSpace rfl, Str.strip, front, ends]
  exact List.rdropWhile_concat_neg _ _ _ Bool.false_ne_true

theorem unquote_quoted (value : Str) : unquote (quoted value) = value := by
  have last : (quoted value).getLast? = some doubleQuote :=
    List.getLast?_concat (l := doubleQuote :: value)
  have long : 2 ≤ (quoted value).length := by simp [quoted]
  have single : doubleQuote ∈ quotes := by decide
  have outer : 2 ≤ (quoted value).length ∧ (quoted value).head? = (quoted value).getLast? ∧
      (quoted value).head?.any (· ∈ quotes) = true :=
    ⟨long, last.symm, decide_eq_true single⟩
  rw [unquote, if_pos outer]
  exact List.dropLast_concat

section

variable {key value : Str} {indent : Nat}

theorem written_pairLine (named : IsKey key) :
    Written (pairLine indent (key, value)) indent key (space :: quoted value) := by
  refine ⟨?_, named.isName⟩
  have ends : pairLine indent (key, value) =
      (List.replicate indent space ++ (key ++ colon :: space :: doubleQuote :: value)) ++ doubleQuote :: [] := by
    simp [pairLine, quoted]
  rw [ends, Str.rstrip_append_cons rfl]
  exact ends.symm

theorem written_headerLine (named : IsKey key) : Written (headerLine key) 0 key [] :=
  ⟨Str.rstrip_append_cons rfl, named.isName⟩

theorem readsAs_pairLine (named : IsKey key) :
    ReadsAs (pairLine indent (key, value)) ⟨indent, key, some value⟩ := by
  refine (written_pairLine named).readsAs_iff.mpr ⟨rfl, named.trimmed.symm, ?_⟩
  have shown : quoted value ≠ [] := List.cons_ne_nil _ _
  rw [strip_quoted, if_neg shown, unquote_quoted]

theorem readsAs_headerLine (named : IsKey key) : ReadsAs (headerLine key) ⟨0, key, none⟩ :=
  (written_headerLine named).readsAs_iff.mpr ⟨rfl, named.trimmed.symm, rfl⟩

end

theorem Filler.not_significant {line : Str} (filler : Filler line) : ¬ Significant line := by
  rintro ⟨shown, plain⟩
  rcases filler with blank | @⟨before, behind, blank⟩
  · exact shown (Str.strip_eq_nil_iff.mpr fun c mem => blank c ((List.rdropWhile_prefix _ _).subset mem))
  · apply plain
    rw [Str.strip_rstrip, Str.rstrip_append_cons rfl, (cut_append blank rfl).2]
    exact List.prefix_append [hash] _

theorem unbroken_pairLine {key value : Str} {indent : Nat} (named : IsKey key) (plain : value.Unbroken) :
    (pairLine indent (key, value)).Unbroken := by
  intro c mem
  simp only [pairLine, quoted, List.mem_append, List.mem_cons, List.not_mem_nil, or_false] at mem
  rcases mem with spaces | key | rfl | rfl | rfl | value | rfl
  · rw [List.eq_of_mem_replicate spaces]
    rfl
  · exact named.unbroken c key
  · rfl
  · rfl
  · rfl
  · exact plain c value
  · rfl

theorem unbroken_headerLine {key : Str} (named : IsKey key) : (headerLine key).Unbroken := by
  intro c mem
  rcases List.mem_append.mp mem with key | single
  · exact named.unbroken c key
  · rw [List.mem_singleton.mp single]
    rfl

/-! ### Whole mappings -/

/-- An item as a node, with the indentation of its section. -/
def nodeOf (indent : Str → Nat) : Str × YamlValue → Node
  | (key, .scalar value) => .scalar key value
  | (key, .section entries) => .section key (indent key) entries

theorem item_nodeOf (indent : Str → Nat) (item : Str × YamlValue) : (nodeOf indent item).item = item := by
  obtain ⟨key, value | entries⟩ := item <;> rfl

theorem key_nodeOf (indent : Str → Nat) (item : Str × YamlValue) : (nodeOf indent item).key = item.1 := by
  rw [← Node.item_fst, item_nodeOf]

/-- The key of an item is a key, and what is under it can be written. -/
structure IsItem (item : Str × YamlValue) : Prop where
  key : IsKey item.1
  scalar : ∀ value, item.2 = .scalar value → value.Unbroken
  entries : ∀ entries, item.2 = .section entries →
    ∀ entry ∈ entries.rows, IsKey entry.1 ∧ entry.2.Unbroken

theorem Renderable.isItem {mapping : YamlMapping} (renderable : Renderable mapping) {item : Str × YamlValue}
    (mem : item ∈ mapping.rows) : IsItem item := by
  obtain ⟨key, value⟩ := item
  refine ⟨renderable.keys key (List.mem_map_of_mem mem), ?_, ?_⟩
  · rintro text rfl
    exact renderable.scalars key text mem
  · rintro entries rfl
    exact renderable.sections key entries mem

/-- The lines of an item are read as its entries. -/
theorem IsItem.reads {item : Str × YamlValue} (renderable : IsItem item) (indent : Str → Nat) :
    List.Forall₂ ReadsAs (itemLines indent item) (nodeOf indent item).entries := by
  obtain ⟨key, value | entries⟩ := item
  · exact .cons (readsAs_pairLine renderable.key) .nil
  · refine .cons (readsAs_headerLine renderable.key) ?_
    rw [List.forall₂_map_left_iff, List.forall₂_map_right_iff, List.forall₂_same]
    intro entry mem
    exact readsAs_pairLine (renderable.entries entries rfl entry mem).1

/-- They are single lines that are not skipped. -/
theorem IsItem.lines {item : Str × YamlValue} (renderable : IsItem item) (indent : Str → Nat) :
    ∀ line ∈ itemLines indent item, Significant line ∧ line.Unbroken := by
  obtain ⟨key, value | entries⟩ := item
  · intro line mem
    rw [List.mem_singleton.mp mem]
    exact ⟨(written_pairLine renderable.key).significant,
      unbroken_pairLine renderable.key (renderable.scalar value rfl)⟩
  · intro line mem
    rcases List.mem_cons.mp mem with rfl | nested
    · exact ⟨(written_headerLine renderable.key).significant, unbroken_headerLine renderable.key⟩
    · obtain ⟨entry, stored, rfl⟩ := List.mem_map.mp nested
      obtain ⟨named, plain⟩ := renderable.entries entries rfl entry stored
      exact ⟨(written_pairLine named).significant, unbroken_pairLine named plain⟩

section

variable {mapping : YamlMapping} {indent : Str → Nat}

theorem Renderable.lines (renderable : Renderable mapping) :
    ∀ line ∈ rendered indent mapping, Significant line ∧ line.Unbroken := by
  intro line mem
  obtain ⟨item, stored, mem⟩ := List.mem_flatMap.mp mem
  exact (renderable.isItem stored).lines indent line mem

theorem Renderable.reads (renderable : Renderable mapping) :
    List.Forall₂ ReadsAs (rendered indent mapping) ((mapping.rows.map (nodeOf indent)).flatMap Node.entries) := by
  have each : List.Forall₂ (fun item node => List.Forall₂ ReadsAs (itemLines indent item) node.entries)
      mapping.rows (mapping.rows.map (nodeOf indent)) := by
    rw [List.forall₂_map_right_iff, List.forall₂_same]
    exact fun item stored => (renderable.isItem stored).reads indent
  exact List.rel_flatMap each fun _ _ reads => reads

variable (mapping) in
/-- The keys of a mapping are distinct, and its sections are indented. -/
theorem document_nodeOf (positive : ∀ key, 0 < indent key) : Document (mapping.rows.map (nodeOf indent)) := by
  constructor
  · rw [List.map_map]
    have keys : Node.key ∘ nodeOf indent = Prod.fst := funext (key_nodeOf indent)
    rw [keys]
    exact mapping.keys_nodup
  · intro key width entries mem
    obtain ⟨⟨_, _ | _⟩, -, same⟩ := List.mem_map.mp mem
    · cases same
    · cases same
      exact positive key

end

section

variable {lines lines' : List Str}

/-- Fillers are skipped. -/
theorem Inserted.filter (inserted : Inserted lines lines') (significant : ∀ line ∈ lines, Significant line) :
    lines'.filter Significant = lines := by
  induction inserted with
  | nil => rfl
  | line line _ ih =>
      have shown : decide (Significant line) = true := decide_eq_true (significant line List.mem_cons_self)
      rw [List.filter_cons, if_pos shown, ih fun other mem => significant other (List.mem_cons_of_mem _ mem)]
  | filler filler _ _ ih =>
      rw [List.filter_cons, if_neg (by simpa using filler.not_significant), ih significant]

theorem Inserted.unbroken (inserted : Inserted lines lines') (plain : ∀ line ∈ lines, line.Unbroken) :
    ∀ line ∈ lines', line.Unbroken := by
  induction inserted with
  | nil => exact plain
  | line line _ ih =>
      intro other mem
      rcases List.mem_cons.mp mem with rfl | mem
      · exact plain other List.mem_cons_self
      · exact ih (fun l mem => plain l (List.mem_cons_of_mem _ mem)) other mem
  | filler _ own _ ih =>
      intro other mem
      rcases List.mem_cons.mp mem with rfl | mem
      · exact own
      · exact ih plain other mem

end

end YamlMapping

open YamlMapping

/-- **The round trip.** A mapping written with quoted values, and with blank lines and comments
in between, is read back as it is, in its order. -/
theorem yaml_round_trip [Runtime] (indent : Str → Nat) (mapping : YamlMapping) (pieces : List (Str × Str))
    (last : Str) (positive : ∀ key, 0 < indent key) (renderable : Renderable mapping)
    (inserted : Inserted (rendered indent mapping) (pieces.map Prod.fst ++ [last]))
    (separated : ∀ piece ∈ pieces, piece.2.IsSeparator) :
    parseYamlMapping ((pieces.flatMap fun piece => piece.1 ++ piece.2) ++ last) = .ok mapping := by
  have lines (line : Str) (mem : line ∈ rendered indent mapping) : Significant line ∧ line.Unbroken :=
    renderable.lines line mem
  have empty : decide (Significant []) = false := by decide
  have kept : (Str.splitlines ((pieces.flatMap fun piece => piece.1 ++ piece.2) ++ last)).filter Significant =
      rendered indent mapping := by
    rw [Str.filter_splitlines empty (inserted.unbroken fun line mem => (lines line mem).2) separated,
      inserted.filter fun line mem => (lines line mem).1]
  have items : Node.item ∘ nodeOf indent = id := funext (item_nodeOf indent)
  refine parseYamlMapping_ok_iff.mpr ⟨mapping.rows.map (nodeOf indent),
    ⟨document_nodeOf mapping positive, kept ▸ renderable.reads⟩, ?_⟩
  rw [List.map_map, items, List.map_id]

/-- A profile with a value that looks like an entry and a section with an empty one. -/
def sampleProfile : YamlMapping :=
  ⟨[(str "city_code", .scalar (str "a: #b\" ")),
    (str "providers", .section ⟨[(str "listings", [])], by decide⟩)], by decide⟩

theorem sampleProfile_renderable : Renderable sampleProfile where
  keys := by decide +kernel
  scalars key value mem := by
    rcases List.mem_cons.mp mem with same | mem
    · cases same
      decide +kernel
    · cases List.mem_singleton.mp mem
  sections key entries mem := by
    rcases List.mem_cons.mp mem with same | mem
    · cases same
    · cases List.mem_singleton.mp mem
      decide +kernel

/-- The profile with a comment, a blank line and three kinds of line ends. -/
theorem yaml_round_trip_of_profile : let _ := sampleRuntime
    parseYamlMapping (str "\t# city\r\ncity_code: \"a: #b\" \"\r \nproviders:\n  listings: \"\"") =
      .ok sampleProfile := by
  intro _
  have text : str "\t# city\r\ncity_code: \"a: #b\" \"\r \nproviders:\n  listings: \"\"" =
      ([(str "\t# city", [0x0D, 0x0A]), (pairLine 0 (str "city_code", str "a: #b\" "), [0x0D]), (str " ", [0x0A]),
        (headerLine (str "providers"), [0x0A])].flatMap fun piece => piece.1 ++ piece.2) ++
        pairLine 2 (str "listings", []) := by decide +kernel
  rw [text]
  refine yaml_round_trip (fun _ => 2) sampleProfile _ _ (fun _ => Nat.succ_pos 1) sampleProfile_renderable ?_ ?_
  · have tabbed : ∀ c ∈ [tab], c.isSpace = true := List.forall_mem_singleton.mpr rfl
    have blank : ∀ c ∈ str " ", c.isSpace = true := List.forall_mem_singleton.mpr rfl
    refine .filler (.comment tabbed) (by decide +kernel) ?_
    refine .line _ (.filler (.blank blank) (by decide +kernel) ?_)
    exact .line _ (.line _ .nil)
  · intro piece mem
    simp only [List.mem_cons, List.not_mem_nil, or_false] at mem
    rcases mem with rfl | rfl | rfl | rfl
    · exact Or.inl rfl
    · exact Or.inr ⟨_, rfl, rfl⟩
    · exact Or.inr ⟨_, rfl, rfl⟩
    · exact Or.inr ⟨_, rfl, rfl⟩

end CnPropertyAgent
