import CnPropertyAgent.Config.YamlMapping
import CnPropertyAgent.Utils
import Mathlib.Data.List.Forall2

/-!
The documented subset of YAML, and what is read beside it.

A document is a list of scalars and sections with distinct keys, and its lines are the
entries of these. The reader attaches entries exactly as they make up a document; but it
takes any line between whitespace for an entry, and any text for a value.
-/

namespace CnPropertyAgent

open Python

namespace YamlMapping

/-! ### Documents -/

/-- A top-level scalar, or a section with its entries, which no key repeats and which
share one indentation. -/
inductive Node where
  | scalar (key value : Str)
  | section (key : Str) (indent : Nat) (entries : Dict Str Str)

namespace Node

def key : Node → Str
  | scalar key _ => key
  | «section» key _ _ => key

/-- The entries on the lines of a node. -/
def entries : Node → List Entry
  | scalar key value => [⟨0, key, some value⟩]
  | «section» key indent entries =>
      ⟨0, key, none⟩ :: entries.rows.map fun item => ⟨indent, item.1, some item.2⟩

def item : Node → Str × YamlValue
  | scalar key value => (key, .scalar value)
  | «section» key _ entries => (key, .section entries)

theorem item_fst (node : Node) : node.item.1 = node.key := by
  cases node <;> rfl

end Node

/-- No key repeats at top level, and the entries of sections are indented. -/
structure Document (nodes : List Node) : Prop where
  keys : (nodes.map Node.key).Nodup
  indented : ∀ key indent entries, .section key indent entries ∈ nodes → 0 < indent

theorem Document.append_singleton {nodes : List Node} {node : Node} :
    Document (nodes ++ [node]) ↔ Document nodes ∧ node.key ∉ nodes.map Node.key ∧
      ∀ key indent entries, node = .section key indent entries → 0 < indent := by
  constructor
  · rintro ⟨keys, indented⟩
    rw [List.map_append, List.map_singleton, List.nodup_append] at keys
    refine ⟨⟨keys.1, ?_⟩, ?_, ?_⟩
    · intro key indent entries mem
      exact indented key indent entries (List.mem_append_left _ mem)
    · intro mem
      exact keys.2.2 _ mem _ (List.mem_singleton_self _) rfl
    · rintro key indent entries rfl
      exact indented key indent entries (by simp)
  · rintro ⟨⟨keys, indented⟩, fresh, last⟩
    constructor
    · rw [List.map_append, List.map_singleton, List.nodup_append]
      refine ⟨keys, List.nodup_singleton _, ?_⟩
      rintro key mem _ single rfl
      rw [List.mem_singleton] at single
      exact fresh (single ▸ mem)
    · intro key indent entries mem
      rcases List.mem_append.mp mem with before | single
      · exact indented key indent entries before
      · exact last key indent entries (List.mem_singleton.mp single).symm

theorem Document.append_section {nodes : List Node} (document : Document nodes) {key : Str}
    (fresh : key ∉ nodes.map Node.key) {indent : Nat} (positive : 0 < indent) (entries : Dict Str Str) :
    Document (nodes ++ [.section key indent entries]) := by
  refine Document.append_singleton.mpr ⟨document, fresh, ?_⟩
  rintro _ _ _ ⟨⟩
  exact positive

/-! ### Lines -/

/-- A key starts with neither whitespace, a comment sign nor a dash, and has no colon. -/
structure IsName (name : Str) : Prop where
  starts : ∃ c ∈ name.head?, c.isSpace = false ∧ c ∉ str "#-"
  plain : colon ∉ name

/-- No sequence, anchor, alias or block scalar. -/
def PlainValue (value : Str) : Prop :=
  (∀ c ∈ value.head?, c ∉ str "[&*|>") ∧ value ≠ str "-" ∧
    ¬ str "- " <+: value ∧ ¬ str "-\t" <+: value

instance (value : Str) : Decidable (PlainValue value) := inferInstanceAs (Decidable (_ ∧ _))

theorem plainValue_nil : PlainValue (Str.strip []) := by
  simp [PlainValue, Str.strip, str]

def IsBlank (c : CodePoint) : Prop := c = space ∨ c = tab

instance (c : CodePoint) : Decidable (IsBlank c) := inferInstanceAs (Decidable (_ ∨ _))

/-- Behind spaces, the line is a name, its colon and the rest. -/
structure Written (line : Str) (indent : Nat) (name behind : Str) : Prop where
  text : line.rstrip = List.replicate indent space ++ (name ++ colon :: behind)
  named : IsName name

/-- A line of the documented subset, `key:` or `key: value` behind spaces. -/
inductive Spells (line : Str) : Entry → Prop where
  | header {indent : Nat} {name : Str} (written : Written line indent name []) :
      Spells line ⟨indent, Str.strip name, none⟩
  | pair {indent : Nat} {name value : Str} {blank : CodePoint}
      (written : Written line indent name (blank :: value)) (apart : IsBlank blank)
      (plain : PlainValue (Str.strip value)) :
      Spells line ⟨indent, Str.strip name, some (unquote (Str.strip value))⟩

/-- The entry of the line starts behind spaces alone, its colon ends it or a blank
follows, and its value means nothing else in YAML. -/
structure Regular (line : Str) : Prop where
  spaced : ∀ c ∈ (line.rstrip.dropWhile (· = space)).head?, c.isSpace = false
  apart : ∀ c ∈ (line.rstrip.dropWhile (· ≠ colon)).tail.head?, IsBlank c
  plain : PlainValue (Str.strip (line.rstrip.dropWhile (· ≠ colon)).tail)

theorem regular_iff {line : Str} : Regular line ↔
    (∀ c ∈ (line.rstrip.dropWhile (· = space)).head?, c.isSpace = false) ∧
      (∀ c ∈ (line.rstrip.dropWhile (· ≠ colon)).tail.head?, IsBlank c) ∧
      PlainValue (Str.strip (line.rstrip.dropWhile (· ≠ colon)).tail) :=
  ⟨fun h => ⟨h.spaced, h.apart, h.plain⟩, fun h => ⟨h.1, h.2.1, h.2.2⟩⟩

instance (line : Str) : Decidable (Regular line) := decidable_of_iff' _ regular_iff

section Lines

variable {line name behind : Str} {indent : Nat} {entry : Entry}

theorem isSpace_of_blank {c : CodePoint} (h : IsBlank c) : c.isSpace = true := by
  rcases h with rfl | rfl <;> rfl

/-- The cut of a text at the first character that fails a condition. -/
theorem cut_append {p : CodePoint → Bool} {before rest : Str} {c : CodePoint}
    (pass : ∀ c ∈ before, p c = true) (stop : p c = false) :
    (before ++ c :: rest).takeWhile p = before ∧ (before ++ c :: rest).dropWhile p = c :: rest := by
  rw [List.takeWhile_append_of_pos pass, List.dropWhile_append_of_pos pass,
    List.takeWhile_cons_of_neg (by rw [stop]; exact Bool.false_ne_true),
    List.dropWhile_cons_of_neg (by rw [stop]; exact Bool.false_ne_true), List.append_nil]
  exact ⟨rfl, rfl⟩

theorem Written.exists_cons (written : Written line indent name behind) :
    ∃ c tail, name = c :: tail ∧ c.isSpace = false ∧ c ∉ str "#-" := by
  obtain ⟨c, head, starts⟩ := written.named.starts
  cases name with
  | nil => cases head
  | cons c' tail =>
      cases head
      exact ⟨_, tail, rfl, starts⟩

theorem Written.indented (written : Written line indent name behind) :
    line.rstrip.takeWhile (· = space) = List.replicate indent space ∧
      line.rstrip.dropWhile (· = space) = name ++ colon :: behind := by
  obtain ⟨c, tail, rfl, starts, -⟩ := written.exists_cons
  have other : decide (c = space) = false := by
    rw [decide_eq_false_iff_not]
    rintro rfl
    exact absurd starts (by decide)
  rw [written.text, List.cons_append]
  exact cut_append (fun c mem => decide_eq_true (List.eq_of_mem_replicate mem)) other

theorem Written.strip (written : Written line indent name behind) :
    line.rstrip.strip = name ++ colon :: behind := by
  obtain ⟨c, tail, rfl, starts, -⟩ := written.exists_cons
  rw [Str.strip_rstrip, written.text, List.cons_append]
  refine (cut_append ?_ starts).2
  intro c mem
  rw [List.eq_of_mem_replicate mem]
  rfl

theorem cut_colon {before : Str} (plain : colon ∉ before) :
    (before ++ colon :: behind).takeWhile (· ≠ colon) = before ∧
      (before ++ colon :: behind).dropWhile (· ≠ colon) = colon :: behind := by
  refine cut_append ?_ (decide_eq_false (not_not_intro rfl))
  rintro c mem
  exact decide_eq_true fun same => plain (same ▸ mem)

theorem Written.dropWhile (written : Written line indent name behind) :
    (line.rstrip.dropWhile (· ≠ colon)).tail = behind := by
  have plain : colon ∉ List.replicate indent space ++ name := by
    rw [List.mem_append, not_or]
    refine ⟨?_, written.named.plain⟩
    intro mem
    exact absurd (List.eq_of_mem_replicate mem) (by decide)
  rw [written.text, ← List.append_assoc, (cut_colon plain).2]
  rfl

theorem Written.significant (written : Written line indent name behind) : Significant line := by
  obtain ⟨c, tail, rfl, -, starts⟩ := written.exists_cons
  rw [Significant, written.strip]
  refine ⟨List.cons_ne_nil _ _, ?_⟩
  intro comment
  obtain ⟨same, -⟩ := List.cons_prefix_cons.mp comment
  exact starts (same ▸ by decide)

/-- A line with spaces alone before its entry is written like one. -/
theorem ReadsAs.written (reads : ReadsAs line entry) (significant : Significant line)
    (spaced : ∀ c ∈ (line.rstrip.dropWhile (· = space)).head?, c.isSpace = false) :
    ∃ name behind, Written line entry.indent name behind := by
  have text := List.takeWhile_append_dropWhile (p := (· = space)) (l := line.rstrip)
  have spaces : line.rstrip.takeWhile (· = space) = List.replicate entry.indent space := by
    refine List.eq_replicate_iff.mpr ⟨reads.indent.symm, ?_⟩
    intro c mem
    simpa using List.mem_takeWhile_imp mem
  have blank : ∀ c ∈ List.replicate entry.indent space, c.isSpace = true := by
    intro c mem
    rw [List.eq_of_mem_replicate mem]
    rfl
  rw [spaces] at text
  cases body : line.rstrip.dropWhile (· = space) with
  | nil =>
      rw [body, List.append_nil] at text
      refine absurd ?_ significant.1
      rw [Str.strip_rstrip, ← text]
      exact List.dropWhile_eq_nil_iff.mpr blank
  | cons c tail =>
      rw [body] at text spaced
      have strip : line.rstrip.strip = c :: tail := by
        rw [Str.strip_rstrip, ← text]
        exact (cut_append blank (spaced c rfl)).2
      obtain ⟨name, behind, split, plain⟩ := List.eq_append_cons_of_mem (strip ▸ reads.separated)
      have named := reads.named
      rw [reads.key, strip, split, (cut_colon plain).1] at named
      refine ⟨name, behind, ⟨?_, ⟨c, ?_, spaced c rfl, ?_⟩, plain⟩⟩
      · rw [← text, split]
      · cases name with
        | nil => exact absurd rfl named
        | cons c' rest =>
            obtain ⟨rfl, -⟩ := List.cons_eq_cons.mp split
            rfl
      · intro mem
        have sign : c = CodePoint.ofChar '#' ∨ c = CodePoint.ofChar '-' := by
          simpa [str] using mem
        rcases sign with rfl | rfl
        · exact significant.2 (strip ▸ List.prefix_append _ _)
        · exact reads.single (strip ▸ List.prefix_append _ _)

theorem Written.readsAs_iff (written : Written line indent name behind) :
    ReadsAs line entry ↔ entry.indent = indent ∧ entry.key = Str.strip name ∧
      entry.value = if Str.strip behind = [] then none else some (unquote (Str.strip behind)) := by
  obtain ⟨spaces, body⟩ := written.indented
  constructor
  · intro reads
    refine ⟨?_, ?_, ?_⟩
    · rw [reads.indent, spaces, List.length_replicate]
    · rw [reads.key, written.strip, (cut_colon written.named.plain).1]
    · rw [reads.value, written.strip, (cut_colon written.named.plain).2]
      rfl
  · rintro ⟨hindent, hkey, hvalue⟩
    obtain ⟨c, tail, rfl, starts, sign⟩ := written.exists_cons
    constructor
    · rw [body]
      rintro ⟨⟩
      exact absurd starts (by decide)
    · rw [written.strip]
      intro sequence
      obtain ⟨same, -⟩ := List.cons_prefix_cons.mp sequence
      exact sign (same ▸ by decide)
    · rw [written.strip]
      exact List.mem_append_right _ List.mem_cons_self
    · rw [spaces, List.length_replicate, hindent]
    · rw [written.strip, (cut_colon written.named.plain).1, hkey]
    · rw [hkey]
      intro unnamed
      have kept := Str.strip_eq_nil_iff.mp unnamed c List.mem_cons_self
      exact absurd (starts.symm.trans kept) Bool.false_ne_true
    · rw [written.strip, (cut_colon written.named.plain).2, hvalue]
      rfl

theorem Written.regular_iff (written : Written line indent name behind) :
    Regular line ↔ (∀ c ∈ behind.head?, IsBlank c) ∧ PlainValue (Str.strip behind) := by
  obtain ⟨c, tail, rfl, starts, -⟩ := written.exists_cons
  rw [YamlMapping.regular_iff, written.dropWhile, written.indented.2]
  refine and_iff_right ?_
  rintro _ ⟨⟩
  exact starts

theorem Written.eq_nil_of_strip (written : Written line indent name behind)
    (blank : Str.strip behind = []) : behind = [] := by
  have split : line.rstrip = (List.replicate indent space ++ (name ++ [colon])) ++ behind := by
    rw [written.text]
    simp
  exact Str.eq_nil_of_strip_eq_nil split blank

/-- The lines of the subset are the regular ones among those that are read. -/
theorem spells_iff : Spells line entry ↔ (Significant line ∧ Regular line) ∧ ReadsAs line entry := by
  constructor
  · rintro (written | ⟨written, apart, plain⟩)
    · exact ⟨⟨written.significant, written.regular_iff.mpr ⟨nofun, plainValue_nil⟩⟩,
        written.readsAs_iff.mpr ⟨rfl, rfl, rfl⟩⟩
    · rename_i value blank
      have strip : Str.strip (blank :: value) = Str.strip value :=
        Str.strip_cons_of_isSpace (isSpace_of_blank apart)
      have valued : Str.strip (blank :: value) ≠ [] := by
        intro none
        exact absurd (written.eq_nil_of_strip none) (List.cons_ne_nil _ _)
      refine ⟨⟨written.significant, written.regular_iff.mpr ⟨?_, strip ▸ plain⟩⟩,
        written.readsAs_iff.mpr ⟨rfl, rfl, ?_⟩⟩
      · rintro _ ⟨⟩
        exact apart
      · rw [if_neg valued, strip]
  · rintro ⟨⟨significant, regular⟩, reads⟩
    obtain ⟨name, behind, written⟩ := reads.written significant regular.spaced
    obtain ⟨-, hkey, hvalue⟩ := written.readsAs_iff.mp reads
    obtain ⟨apart, plain⟩ := written.regular_iff.mp regular
    obtain ⟨indent, key, value⟩ := entry
    dsimp only at hkey hvalue
    subst hkey
    cases behind with
    | nil =>
        obtain rfl : value = none := hvalue
        exact .header written
    | cons blank rest =>
        have valued : Str.strip (blank :: rest) ≠ [] := by
          intro none
          exact absurd (written.eq_nil_of_strip none) (List.cons_ne_nil _ _)
        rw [if_neg valued] at hvalue
        subst hvalue
        rw [Str.strip_cons_of_isSpace (isSpace_of_blank (apart blank rfl))] at plain ⊢
        exact .pair written (apart blank rfl) plain

end Lines

/-! ### What the entries build -/

/-- The state after the entries of a document. Where a section is open, it is the last
node, and has its indentation as soon as it has an entry. -/
structure Reaches (state : State) (nodes : List Node) : Prop where
  document : Document nodes
  root : state.root.rows = nodes.map Node.item
  opened : ∀ entries, state.openSection = some entries → ∃ before indent,
    nodes = before ++ [.section state.sectionKey indent entries] ∧
      state.sectionIndent = if entries.rows = [] then none else some indent

theorem reaches_initial : Reaches .initial [] :=
  ⟨⟨List.nodup_nil, by simp⟩, rfl, nofun⟩

variable {state state' : State} {nodes : List Node}

theorem Reaches.keys (reaches : Reaches state nodes) : state.root.keys = nodes.map Node.key := by
  rw [Dict.keys, reaches.root, List.map_map]
  exact List.map_congr_left fun node _ => node.item_fst

theorem Reaches.scalar (reaches : Reaches state nodes) {key value : Str}
    (fresh : key ∉ nodes.map Node.key) :
    Reaches ⟨state.root.set key (.scalar value), none, state.sectionKey, none⟩
      (nodes ++ [.scalar key value]) := by
  refine ⟨Document.append_singleton.mpr ⟨reaches.document, fresh, nofun⟩, ?_, nofun⟩
  rw [Dict.rows_set_of_not_mem (reaches.keys ▸ fresh), reaches.root, List.map_append]
  rfl

theorem Reaches.header (reaches : Reaches state nodes) {key : Str}
    (fresh : key ∉ nodes.map Node.key) {indent : Nat} (positive : 0 < indent) :
    Reaches ⟨state.root.set key (.section Dict.empty), some Dict.empty, key, none⟩
      (nodes ++ [.section key indent Dict.empty]) := by
  constructor
  · exact reaches.document.append_section fresh positive _
  · rw [Dict.rows_set_of_not_mem (reaches.keys ▸ fresh), reaches.root, List.map_append]
    rfl
  · rintro _ ⟨⟩
    exact ⟨nodes, indent, rfl, rfl⟩

/-- The indentation of a section is free until it has an entry. -/
theorem Reaches.reindent {before : List Node} {entries : Dict Str Str} {indent indent' : Nat}
    (reaches : Reaches state (before ++ [.section state.sectionKey indent entries]))
    (opened : state.openSection = some entries) (bare : entries.rows = []) (positive : 0 < indent') :
    Reaches state (before ++ [.section state.sectionKey indent' entries]) := by
  obtain ⟨document, fresh, -⟩ := Document.append_singleton.mp reaches.document
  constructor
  · exact document.append_section fresh positive entries
  · rw [reaches.root, List.map_append, List.map_append]
    rfl
  · rw [opened]
    rintro _ ⟨⟩
    obtain ⟨_, _, -, shared⟩ := reaches.opened entries opened
    rw [if_pos bare] at shared
    exact ⟨before, indent', rfl, shared.trans (if_pos bare).symm⟩

theorem Reaches.nested {before : List Node} {entries : Dict Str Str} {indent : Nat}
    (reaches : Reaches state (before ++ [.section state.sectionKey indent entries]))
    {key text : Str} (fresh : key ∉ entries.keys) :
    Reaches ⟨state.root.set state.sectionKey (.section (entries.set key text)),
        some (entries.set key text), state.sectionKey, some indent⟩
      (before ++ [.section state.sectionKey indent (entries.set key text)]) := by
  obtain ⟨document, unused, positive⟩ := Document.append_singleton.mp reaches.document
  constructor
  · exact document.append_section unused (positive _ _ _ rfl) _
  · have root := reaches.root
    rw [List.map_append, List.map_singleton] at root
    rw [List.map_append, List.map_singleton]
    exact Dict.rows_set_of_last root
  · rintro _ ⟨⟩
    refine ⟨before, indent, rfl, (if_neg ?_).symm⟩
    rw [Dict.rows_set_of_not_mem fresh]
    exact List.append_ne_nil_of_right_ne_nil _ (List.cons_ne_nil _ _)

variable [Runtime] {number : Nat}

/-- An entry that is attached continues the document. -/
theorem Reaches.of_attach (reaches : Reaches state nodes) {entry : Entry}
    (attached : attach state number entry = .ok state') :
    ∃ nodes', Reaches state' nodes' ∧
      nodes'.flatMap Node.entries = nodes.flatMap Node.entries ++ [entry] := by
  obtain ⟨indent, key, value⟩ := entry
  unfold attach at attached
  dsimp only at attached
  split_ifs at attached with top
  · subst top
    obtain ⟨fresh, rfl⟩ := attachTop_ok_iff.mp attached
    rw [reaches.keys] at fresh
    cases value with
    | none => exact ⟨_, reaches.header fresh Nat.one_pos, by simp [Node.entries, Dict.empty]⟩
    | some value => exact ⟨_, reaches.scalar fresh, by simp [Node.entries]⟩
  · obtain ⟨entries, text, opened, aligned, rfl, fresh, rfl⟩ := attachNested_ok_iff.mp attached
    obtain ⟨before, i, rfl, shared⟩ := reaches.opened entries opened
    -- A first entry gives the section its indentation, a later one has it.
    have indented : Reaches state (before ++ [.section state.sectionKey indent entries]) ∧
        state.sectionIndent.getD indent = indent ∧
        (before ++ [Node.section state.sectionKey i entries]).flatMap Node.entries =
          (before ++ [Node.section state.sectionKey indent entries]).flatMap Node.entries := by
      by_cases bare : entries.rows = []
      · rw [if_pos bare] at shared
        refine ⟨reaches.reindent opened bare (Nat.pos_of_ne_zero top), by rw [shared]; rfl, ?_⟩
        simp [Node.entries, bare]
      · rw [if_neg bare] at shared
        obtain rfl := aligned i shared
        exact ⟨reaches, by rw [shared]; rfl, rfl⟩
    obtain ⟨reaches, same, lines⟩ := indented
    rw [same, lines]
    refine ⟨_, reaches.nested fresh, ?_⟩
    simp [Node.entries, Dict.rows_set_of_not_mem fresh]

/-! ### Whole runs -/

/-- The entries attached one after another. Line numbers stand in messages only. -/
def attachAll (state : State) (entries : List Entry) : Except Exc State :=
  entries.foldlM (attach · 0) state

theorem attach_ok_number {entry : Entry} (n : Nat) :
    attach state number entry = .ok state' ↔ attach state n entry = .ok state' := by
  unfold attach
  split_ifs
  · rw [attachTop_ok_iff, attachTop_ok_iff]
  · rw [attachNested_ok_iff, attachNested_ok_iff]

theorem attach_top (n : Nat) (key : Str) (value : Option Str) :
    attach state n ⟨0, key, value⟩ = attachTop state n key value := if_pos rfl

theorem attach_nested (n : Nat) {indent : Nat} (positive : 0 < indent) (key : Str) (value : Option Str) :
    attach state n ⟨indent, key, value⟩ = attachNested state n indent key value :=
  if_neg (Nat.ne_of_gt positive)

theorem attachAll_cons_ok_iff {entry : Entry} {entries : List Entry} :
    attachAll state (entry :: entries) = .ok state' ↔
      ∃ next, attach state 0 entry = .ok next ∧ attachAll next entries = .ok state' := by
  rw [attachAll, List.foldlM_cons]
  cases attach state 0 entry with
  | error e =>
      refine iff_of_false nofun ?_
      rintro ⟨_, ⟨⟩, -⟩
  | ok next =>
      constructor
      · exact fun rest => ⟨next, rfl, rest⟩
      · rintro ⟨_, ⟨⟩, rest⟩
        exact rest

theorem attachAll_append_ok {entries entries' : List Entry} {next : State}
    (first : attachAll state entries = .ok next) :
    attachAll state (entries ++ entries') = attachAll next entries' := by
  rw [attachAll, List.foldlM_append]
  rw [attachAll] at first
  rw [first]
  rfl

theorem Reaches.of_attachAll (reaches : Reaches state nodes) {entries : List Entry}
    (attached : attachAll state entries = .ok state') :
    ∃ nodes', Reaches state' nodes' ∧
      nodes'.flatMap Node.entries = nodes.flatMap Node.entries ++ entries := by
  induction entries generalizing state nodes with
  | nil =>
      cases attached
      exact ⟨nodes, reaches, (List.append_nil _).symm⟩
  | cons entry entries ih =>
      obtain ⟨next, first, rest⟩ := attachAll_cons_ok_iff.mp attached
      obtain ⟨nodes', reaches', lines'⟩ := reaches.of_attach first
      obtain ⟨nodes'', reaches'', lines''⟩ := ih reaches' rest
      exact ⟨nodes'', reaches'', by rw [lines'', lines', List.append_assoc]; rfl⟩

/-- The entries of a section are attached to it. -/
theorem Reaches.attach_section {before : List Node} {entries entries' : Dict Str Str}
    {indent : Nat} {items : List (Str × Str)}
    (reaches : Reaches state (before ++ [.section state.sectionKey indent entries]))
    (opened : state.openSection = some entries) (more : entries'.rows = entries.rows ++ items) :
    ∃ state', attachAll state (items.map fun item => ⟨indent, item.1, some item.2⟩) =
        .ok state' ∧
      Reaches state' (before ++ [.section state.sectionKey indent entries']) := by
  induction items generalizing state entries with
  | nil =>
      obtain rfl : entries' = entries := Relational.Table.ext (more.trans (List.append_nil _))
      exact ⟨state, rfl, reaches⟩
  | cons item items ih =>
      obtain ⟨key, text⟩ := item
      have positive : 0 < indent :=
        reaches.document.indented _ _ _ (List.mem_append_right _ (List.mem_singleton_self _))
      have fresh : key ∉ entries.keys := by
        have nodup := entries'.keys_nodup
        rw [Dict.keys, more, List.map_append] at nodup
        intro mem
        exact List.disjoint_of_nodup_append nodup mem List.mem_cons_self
      have shared : state.sectionIndent = if entries.rows = [] then none else some indent := by
        obtain ⟨_, _, same, shared⟩ := reaches.opened entries opened
        obtain ⟨-, ⟨⟩⟩ := List.append_inj' same rfl
        exact shared
      have aligned : ∀ i ∈ state.sectionIndent, indent = i := by
        intro i hi
        rw [shared] at hi
        split_ifs at hi
        · cases hi
        · exact Option.some.inj hi
      have same : state.sectionIndent.getD indent = indent := by
        rw [shared]
        split_ifs <;> rfl
      have attached := (attach_nested 0 positive key (some text)).trans
        (attachNested_ok_iff.mpr ⟨entries, text, opened, aligned, rfl, fresh, rfl⟩)
      rw [same] at attached
      obtain ⟨state', rest, reaches'⟩ := ih (reaches.nested fresh) rfl
        (by rw [Dict.rows_set_of_not_mem fresh, List.append_assoc]; exact more)
      exact ⟨state', attachAll_cons_ok_iff.mpr ⟨_, attached, rest⟩, reaches'⟩

/-- The entries of a document build it. -/
theorem Document.exists_attachAll (document : Document nodes) :
    ∃ state, attachAll .initial (nodes.flatMap Node.entries) = .ok state ∧
      Reaches state nodes := by
  induction nodes using List.reverseRecOn with
  | nil => exact ⟨_, rfl, reaches_initial⟩
  | append_singleton nodes node ih =>
      obtain ⟨document, fresh, indented⟩ := Document.append_singleton.mp document
      obtain ⟨state, attached, reaches⟩ := ih document
      have absent : node.key ∉ state.root.keys := reaches.keys ▸ fresh
      rw [List.flatMap_append, List.flatMap_singleton, attachAll_append_ok attached]
      cases node with
      | scalar key value =>
          have attached : attach state 0 ⟨0, key, some value⟩ = .ok _ :=
            (attach_top 0 key (some value)).trans (attachTop_ok_iff.mpr ⟨absent, rfl⟩)
          exact ⟨_, attachAll_cons_ok_iff.mpr ⟨_, attached, rfl⟩, reaches.scalar fresh⟩
      | «section» key indent entries =>
          have reaches' := reaches.header fresh (indented _ _ _ rfl)
          have more : entries.rows = Dict.empty.rows ++ entries.rows := rfl
          obtain ⟨state', rest, final⟩ := reaches'.attach_section rfl more
          have attached : attach state 0 ⟨0, key, none⟩ = .ok _ :=
            (attach_top 0 key none).trans (attachTop_ok_iff.mpr ⟨absent, rfl⟩)
          exact ⟨state', attachAll_cons_ok_iff.mpr ⟨_, attached, rest⟩, final⟩

theorem parseLine_ok_iff {line : Str} {n : Nat} (significant : Significant line) :
    parseLine state (line, n) = .ok state' ↔
      ∃ entry, ReadsAs line entry ∧ attach state n entry = .ok state' := by
  rw [parseLine]
  cases read : readEntry line n with
  | error e =>
      refine iff_of_false nofun ?_
      rintro ⟨entry, reads, -⟩
      cases read.symm.trans ((readEntry_ok_iff significant).mpr ⟨entry, rfl, reads⟩)
  | ok entry? =>
      obtain ⟨entry, rfl, reads⟩ := (readEntry_ok_iff significant).mp read
      constructor
      · exact fun attached => ⟨entry, reads, attached⟩
      · rintro ⟨entry', reads', attached⟩
        cases read.symm.trans ((readEntry_ok_iff significant).mpr ⟨entry', rfl, reads'⟩)
        exact attached

/-- The entries of the lines are attached one after another. -/
theorem foldlM_parseLine_ok_iff {lines : List Str} (n : Nat) :
    (lines.zipIdx n).foldlM parseLine state = .ok state' ↔
      ∃ entries, List.Forall₂ ReadsAs (lines.filter Significant) entries ∧
        attachAll state entries = .ok state' := by
  induction lines generalizing state n with
  | nil =>
      constructor
      · exact fun h => ⟨[], .nil, h⟩
      · rintro ⟨_, ⟨⟩, h⟩
        exact h
  | cons line lines ih =>
      rw [List.zipIdx_cons, List.foldlM_cons, List.filter_cons]
      by_cases significant : Significant line
      · rw [if_pos (decide_eq_true significant)]
        constructor
        · intro h
          cases first : parseLine state (line, n) with
          | error e =>
              rw [first] at h
              cases h
          | ok next =>
              rw [first] at h
              obtain ⟨entry, reads, attached⟩ := (parseLine_ok_iff significant).mp first
              obtain ⟨entries, rest, run⟩ := (ih (n + 1)).mp h
              exact ⟨entry :: entries, .cons reads rest,
                attachAll_cons_ok_iff.mpr ⟨next, (attach_ok_number 0).mp attached, run⟩⟩
        · rintro ⟨_, lines, run⟩
          obtain ⟨entry, entries, reads, rest, rfl⟩ := List.forall₂_cons_left_iff.mp lines
          obtain ⟨next, attached, run⟩ := attachAll_cons_ok_iff.mp run
          rw [(parseLine_ok_iff significant).mpr ⟨_, reads, (attach_ok_number n).mp attached⟩]
          exact (ih (n + 1)).mpr ⟨_, rest, run⟩
      · have skipped : parseLine state (line, n) = .ok state := by
          rw [parseLine, readEntry_of_not_significant significant]
          rfl
        rw [if_neg (by simpa using significant), ← ih (n + 1), skipped]
        rfl

/-- Every exception on the way is a `ValueError`. -/
theorem parseLine_error {line : Str × Nat} {e : Exc} (h : parseLine state line = .error e) :
    IsValueError e := by
  rw [parseLine] at h
  cases read : readEntry line.1 line.2 with
  | error e' =>
      rw [read] at h
      cases h
      exact readEntry_error read
  | ok entry? =>
      rw [read] at h
      cases entry? with
      | none => cases h
      | some entry => exact attach_error h

theorem foldlM_parseLine_error {lines : List (Str × Nat)} {e : Exc}
    (h : lines.foldlM parseLine state = .error e) : IsValueError e := by
  induction lines generalizing state with
  | nil => cases h
  | cons line lines ih =>
      rw [List.foldlM_cons] at h
      cases first : parseLine state line with
      | error e' =>
          rw [first] at h
          cases h
          exact parseLine_error first
      | ok next =>
          rw [first] at h
          exact ih h

end YamlMapping

open YamlMapping

/-- The lines of a text other than blank lines and comments are the entries of a document,
each related to its entry as given. -/
structure LaysOut (reads : Str → Entry → Prop) (text : Str) (nodes : List Node) : Prop where
  document : Document nodes
  lines : List.Forall₂ reads (text.splitlines.filter Significant) (nodes.flatMap Node.entries)

/-- The text lies in the documented subset. -/
def InGrammar (text : Str) : Prop := ∃ nodes, LaysOut Spells text nodes

/-- The text is a document as far as the reader can tell. -/
def ReadsAsDocument (text : Str) : Prop := ∃ nodes, LaysOut ReadsAs text nodes

/-- Every line that carries an entry is regular. -/
def RegularLines (text : Str) : Prop := ∀ line ∈ text.splitlines, Significant line → Regular line

instance (text : Str) : Decidable (RegularLines text) :=
  inferInstanceAs (Decidable (∀ _ ∈ _, _ → _))

theorem laysOut_spells_iff {text : Str} {nodes : List Node} :
    LaysOut Spells text nodes ↔ LaysOut ReadsAs text nodes ∧ RegularLines text := by
  have spells : Spells = fun line entry => (Significant line ∧ Regular line) ∧ ReadsAs line entry := by
    funext line entry
    exact propext spells_iff
  constructor
  · rintro ⟨document, lines⟩
    rw [spells, List.forall₂_and_left] at lines
    refine ⟨⟨document, lines.2⟩, ?_⟩
    intro line mem significant
    exact (lines.1 line (List.mem_filter.mpr ⟨mem, decide_eq_true significant⟩)).2
  · rintro ⟨⟨document, lines⟩, regular⟩
    refine ⟨document, ?_⟩
    rw [spells, List.forall₂_and_left]
    refine ⟨?_, lines⟩
    intro line mem
    obtain ⟨mem, significant⟩ := List.mem_filter.mp mem
    have significant := of_decide_eq_true significant
    exact ⟨significant, regular line mem significant⟩

theorem inGrammar_iff {text : Str} : InGrammar text ↔ ReadsAsDocument text ∧ RegularLines text := by
  simp only [InGrammar, ReadsAsDocument, laysOut_spells_iff, exists_and_right]

section

variable [Runtime] {text : Str}

/-- The reader takes a text exactly when it reads as a document, and returns the
mapping that the document describes. -/
theorem parseYamlMapping_ok_iff {mapping : YamlMapping} :
    parseYamlMapping text = .ok mapping ↔
      ∃ nodes, LaysOut ReadsAs text nodes ∧ mapping.rows = nodes.map Node.item := by
  rw [parseYamlMapping]
  constructor
  · intro h
    cases run : (text.splitlines.zipIdx 1).foldlM parseLine State.initial with
    | error e =>
        rw [run] at h
        cases h
    | ok state =>
        rw [run] at h
        cases h
        obtain ⟨entries, lines, attached⟩ := (foldlM_parseLine_ok_iff 1).mp run
        obtain ⟨nodes, reaches, rfl⟩ := reaches_initial.of_attachAll attached
        exact ⟨nodes, ⟨reaches.document, lines⟩, reaches.root⟩
  · rintro ⟨nodes, ⟨document, lines⟩, rows⟩
    obtain ⟨state, attached, reaches⟩ := document.exists_attachAll
    rw [(foldlM_parseLine_ok_iff 1).mpr ⟨_, lines, attached⟩]
    exact congrArg Except.ok (Relational.Table.ext (reaches.root.trans rows.symm))

theorem parseYamlMapping_error {e : Exc} (h : parseYamlMapping text = .error e) : IsValueError e := by
  rw [parseYamlMapping] at h
  cases run : (text.splitlines.zipIdx 1).foldlM parseLine State.initial with
  | error e' =>
      rw [run] at h
      cases h
      exact foldlM_parseLine_error run
  | ok state =>
      rw [run] at h
      cases h

theorem parseYamlMapping_ok_of_laysOut {nodes : List Node} (lays : LaysOut ReadsAs text nodes) :
    ∃ mapping, parseYamlMapping text = .ok mapping ∧ mapping.rows = nodes.map Node.item := by
  obtain ⟨state, -, reaches⟩ := lays.document.exists_attachAll
  exact ⟨state.root, parseYamlMapping_ok_iff.mpr ⟨nodes, lays, reaches.root⟩, reaches.root⟩

/-- A text is rejected, with a `ValueError`, exactly when it reads as no document. -/
theorem rejected_iff :
    (∃ message, parseYamlMapping text = .error (.valueError message)) ↔ ¬ ReadsAsDocument text := by
  constructor
  · rintro ⟨message, rejected⟩ ⟨nodes, lays⟩
    obtain ⟨mapping, parsed, -⟩ := parseYamlMapping_ok_of_laysOut lays
    cases rejected.symm.trans parsed
  · intro unread
    cases parsed : parseYamlMapping text with
    | error e =>
        obtain ⟨message, rfl⟩ := parseYamlMapping_error parsed
        exact ⟨message, rfl⟩
    | ok mapping =>
        obtain ⟨nodes, lays, -⟩ := parseYamlMapping_ok_iff.mp parsed
        exact absurd ⟨nodes, lays⟩ unread

end

/-- A text is rejected with a `ValueError` or lies in the documented subset, unless it reads as a
document and has an irregular line; and a text of the subset yields its document. -/
theorem yaml_subset [Runtime] (text : Str) :
    (((∃ message, parseYamlMapping text = .error (.valueError message)) ∨ InGrammar text) ↔
      (ReadsAsDocument text → RegularLines text)) ∧
    ∀ nodes, LaysOut Spells text nodes →
      ∃ mapping, parseYamlMapping text = .ok mapping ∧ mapping.rows = nodes.map Node.item := by
  constructor
  · rw [rejected_iff, inGrammar_iff]
    tauto
  · intro nodes lays
    exact parseYamlMapping_ok_of_laysOut (laysOut_spells_iff.mp lays).1

/-- A sequence, an anchor, an alias, a block scalar, an entry indented by an ideographic space, and
text around a colon. -/
def guessedTexts : List Str :=
  [str "providers: [lianjia]\n", str "units: &metric sqm\n", str "units: *metric\n", str "note: |\n",
    str "providers:\n\u3000transactions: lianjia\n", str "city_code:testville\n"]

/-- None of them is rejected, and none lies in the subset. -/
theorem yaml_guessed : let _ := sampleRuntime
    ∀ text ∈ guessedTexts,
      ¬ ((∃ message, parseYamlMapping text = .error (.valueError message)) ∨ InGrammar text) := by
  intro _ text mem
  have accepted : ∀ text ∈ guessedTexts, (parseYamlMapping text).isOk = true := by
    rw [← List.all_eq_true]
    decide +kernel
  have irregular : ∀ text ∈ guessedTexts, ¬ RegularLines text := by decide +kernel
  rintro (⟨message, rejected⟩ | inside)
  · have ok := accepted text mem
    rw [rejected] at ok
    cases ok
  · exact irregular text mem (inGrammar_iff.mp inside).2

end CnPropertyAgent
