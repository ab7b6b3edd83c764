import CnPropertyAgent.Python.Collections
import CnPropertyAgent.Python.Runtime

/-!
The reader of city profiles: top-level scalars and one level of named sections.

A line is read by itself, as an entry with an indentation or as nothing, and the entry is
then attached to what the lines before it left open.
-/

namespace CnPropertyAgent

open Python

inductive YamlValue where
  | scalar (text : Str)
  | section (entries : Dict Str Str)

abbrev YamlMapping := Dict Str YamlValue

def YamlMapping.empty : YamlMapping := Dict.empty

namespace YamlMapping

def space : CodePoint := CodePoint.ofChar ' '

def tab : CodePoint := CodePoint.ofChar '\t'

def colon : CodePoint := CodePoint.ofChar ':'

/-- `_QUOTES`. -/
def quotes : Str := str "'\""

/-- What one line says: how far it is indented, its key, and its value unless it is a
section header. -/
structure Entry where
  indent : Nat
  key : Str
  value : Option Str
deriving DecidableEq

def unquote (value : Str) : Str :=
  if 2 ≤ value.length ∧ value.head? = value.getLast? ∧ value.head?.any (· ∈ quotes) then
    (value.drop 1).dropLast
  else value

variable [Runtime]

/-- `raise ValueError(f"line {number}: {message}")`. -/
def fail {α : Type} (number : Nat) (message : Str) : Except Exc α :=
  .error (.valueError (str "line " ++ natStr number ++ str ": " ++ message))

/-- Splits `key: value` into its parts; a section header has no value. -/
def splitEntry (content : Str) (number : Nat) : Except Exc (Str × Option Str) :=
  if colon ∉ content then fail number (str "expected 'key: value', got " ++ content.pyRepr)
  else
    let name := content.takeWhile (· ≠ colon)
    let key := Str.strip name
    if key = [] then fail number (str "entry has an empty key")
    else
      let value := Str.strip (content.drop (name.length + 1))
      .ok (key, if value = [] then none else some (unquote value))

/-- The entry of a line; a blank line and a comment have none. -/
def readEntry (rawLine : Str) (number : Nat) : Except Exc (Option Entry) :=
  let line := rawLine.rstrip
  let content := line.strip
  let indent := line.length - (line.dropWhile (· = space)).length
  if content = [] ∨ str "#" <+: content then .ok none
  else if tab ∈ line.take indent ∨ (line.drop indent).take 1 = [tab] then
    fail number (str "tab indentation is not supported")
  else if str "-" <+: content then fail number (str "sequences are not supported")
  else (splitEntry content number).map fun parts => some ⟨indent, parts.1, parts.2⟩

/-- What the lines so far have left. The open section is the last one of `root`. -/
structure State where
  root : YamlMapping
  openSection : Option (Dict Str Str)
  sectionKey : Str
  sectionIndent : Option Nat

def State.initial : State := ⟨.empty, none, [], none⟩

/-- An entry without indentation opens a section, or closes one. -/
def attachTop (state : State) (number : Nat) (key : Str) (value : Option Str) : Except Exc State :=
  if key ∈ state.root.keys then fail number (str "duplicate key " ++ key.pyRepr)
  else match value with
  | none => .ok ⟨state.root.set key (.section Dict.empty), some Dict.empty, key, none⟩
  | some value => .ok ⟨state.root.set key (.scalar value), none, state.sectionKey, none⟩

/-- An indented entry belongs to the open section. Assigning to the section changes it in
`root` too. -/
def attachNested (state : State) (number indent : Nat) (key : Str) (value : Option Str) :
    Except Exc State :=
  match state.openSection with
  | none => fail number (str "indented entry " ++ key.pyRepr ++ str " has no parent section")
  | some entries =>
      if state.sectionIndent.any (indent ≠ ·) then
        fail number (str "inconsistent indentation in section " ++ state.sectionKey.pyRepr)
      else match value with
      | none => fail number (str "nesting deeper than one level is not supported")
      | some value =>
          if key ∈ entries.keys then
            fail number (str "duplicate key " ++ key.pyRepr ++ str " in section " ++
              state.sectionKey.pyRepr)
          else
            let entries := entries.set key value
            .ok ⟨state.root.set state.sectionKey (.section entries), some entries, state.sectionKey,
              some (state.sectionIndent.getD indent)⟩

def attach (state : State) (number : Nat) (entry : Entry) : Except Exc State :=
  if entry.indent = 0 then attachTop state number entry.key entry.value
  else attachNested state number entry.indent entry.key entry.value

/-- One pass of the loop. -/
def parseLine (state : State) (line : Str × Nat) : Except Exc State := do
  match ← readEntry line.1 line.2 with
  | none => return state
  | some entry => attach state line.2 entry

end YamlMapping

open YamlMapping

/-- Parses the supported subset, or raises a `ValueError` that names the line. -/
def parseYamlMapping [Runtime] (text : Str) : Except Exc YamlMapping := do
  let state ← (text.splitlines.zipIdx 1).foldlM parseLine State.initial
  return state.root

namespace YamlMapping

/-! ### When a line is read -/

/-- A line that is neither blank nor a comment. -/
def Significant (line : Str) : Prop := line.rstrip.strip ≠ [] ∧ ¬ str "#" <+: line.rstrip.strip

instance (line : Str) : Decidable (Significant line) := inferInstanceAs (Decidable (_ ∧ _))

/-- The line is an entry, between whitespace. -/
structure ReadsAs (line : Str) (entry : Entry) : Prop where
  untabbed : (line.rstrip.dropWhile (· = space)).head? ≠ some tab
  single : ¬ str "-" <+: line.rstrip.strip
  separated : colon ∈ line.rstrip.strip
  indent : entry.indent = (line.rstrip.takeWhile (· = space)).length
  key : entry.key = Str.strip (line.rstrip.strip.takeWhile (· ≠ colon))
  named : entry.key ≠ []
  value : entry.value =
    let value := Str.strip (line.rstrip.strip.dropWhile (· ≠ colon)).tail
    if value = [] then none else some (unquote value)

section

variable [Runtime] {number : Nat}

omit [Runtime] in
@[simp] theorem fail_ne_ok {α : Type} {message : Str} {a : α} : fail number message ≠ .ok a := nofun

omit [Runtime] in
/-- A text is cut where a condition first fails. -/
theorem cut_takeWhile {α : Type} (p : α → Bool) (s : List α) :
    s.length - (s.dropWhile p).length = (s.takeWhile p).length ∧
      s.take (s.takeWhile p).length = s.takeWhile p ∧ s.drop (s.takeWhile p).length = s.dropWhile p := by
  have split := List.takeWhile_append_dropWhile (p := p) (l := s)
  generalize s.takeWhile p = before at split ⊢
  generalize s.dropWhile p = behind at split ⊢
  subst split
  simp

theorem splitEntry_ok_iff {content key : Str} {value : Option Str} :
    splitEntry content number = .ok (key, value) ↔
      colon ∈ content ∧ key = Str.strip (content.takeWhile (· ≠ colon)) ∧ key ≠ [] ∧
        value = let text := Str.strip (content.dropWhile (· ≠ colon)).tail
          if text = [] then none else some (unquote text) := by
  unfold splitEntry
  dsimp only
  rw [← List.tail_drop, (cut_takeWhile _ _).2.2]
  by_cases separated : colon ∈ content
  · rw [if_neg (not_not_intro separated)]
    by_cases unnamed : Str.strip (content.takeWhile (· ≠ colon)) = []
    · rw [if_pos unnamed]
      refine iff_of_false fail_ne_ok ?_
      rintro ⟨-, rfl, named, -⟩
      exact named unnamed
    · rw [if_neg unnamed, Except.ok.injEq, Prod.mk.injEq]
      constructor
      · rintro ⟨rfl, rfl⟩
        exact ⟨separated, rfl, unnamed, rfl⟩
      · rintro ⟨-, rfl, -, rfl⟩
        exact ⟨rfl, rfl⟩
  · rw [if_pos separated]
    exact iff_of_false fail_ne_ok fun parts => separated parts.1

theorem readEntry_of_not_significant {line : Str} (h : ¬ Significant line) :
    readEntry line number = .ok none := by
  have skipped : line.rstrip.strip = [] ∨ str "#" <+: line.rstrip.strip := by
    rw [Significant, not_and_or, not_not, not_not] at h
    exact h
  exact if_pos skipped

/-- A significant line is an entry or an error. -/
theorem readEntry_ok_iff {line : Str} (significant : Significant line) {read : Option Entry} :
    readEntry line number = .ok read ↔ ∃ entry, read = some entry ∧ ReadsAs line entry := by
  have content : ¬ (line.rstrip.strip = [] ∨ str "#" <+: line.rstrip.strip) :=
    not_or.mpr ⟨significant.1, significant.2⟩
  obtain ⟨indent, spaces, behind⟩ := cut_takeWhile (· = space) line.rstrip
  have tabbed : (tab ∈ line.rstrip.takeWhile (· = space) ∨
      (line.rstrip.dropWhile (· = space)).take 1 = [tab]) ↔
        (line.rstrip.dropWhile (· = space)).head? = some tab := by
    have spaces : tab ∉ line.rstrip.takeWhile (· = space) := by
      intro mem
      have same : tab = space := by simpa using List.mem_takeWhile_imp mem
      exact absurd same (by decide)
    rw [or_iff_right spaces]
    cases line.rstrip.dropWhile (· = space) <;> simp
  unfold readEntry
  dsimp only
  rw [if_neg content, indent, spaces, behind]
  by_cases untabbed : (line.rstrip.dropWhile (· = space)).head? = some tab
  · rw [if_pos (tabbed.mpr untabbed)]
    refine iff_of_false fail_ne_ok ?_
    rintro ⟨entry, -, reads⟩
    exact reads.untabbed untabbed
  rw [if_neg (tabbed.not.mpr untabbed)]
  by_cases single : str "-" <+: line.rstrip.strip
  · rw [if_pos single]
    refine iff_of_false fail_ne_ok ?_
    rintro ⟨entry, -, reads⟩
    exact reads.single single
  rw [if_neg single]
  constructor
  · intro h
    cases parts : splitEntry line.rstrip.strip number with
    | error e =>
        rw [parts] at h
        cases h
    | ok entry =>
        obtain ⟨key, value⟩ := entry
        rw [parts] at h
        cases h
        obtain ⟨separated, hkey, named, hvalue⟩ := splitEntry_ok_iff.mp parts
        exact ⟨_, rfl, untabbed, single, separated, rfl, hkey, named, hvalue⟩
  · rintro ⟨⟨_, key, value⟩, rfl, -, -, separated, rfl, hkey, named, hvalue⟩
    rw [splitEntry_ok_iff.mpr ⟨separated, hkey, named, hvalue⟩]
    rfl

/-! ### What is attached -/

theorem attachTop_ok_iff {state state' : State} {key : Str} {value : Option Str} :
    attachTop state number key value = .ok state' ↔ key ∉ state.root.keys ∧
      state' = match value with
        | none => ⟨state.root.set key (.section Dict.empty), some Dict.empty, key, none⟩
        | some value => ⟨state.root.set key (.scalar value), none, state.sectionKey, none⟩ := by
  unfold attachTop
  split_ifs with taken
  · exact iff_of_false fail_ne_ok fun h => h.1 taken
  · cases value <;> simp [taken, eq_comm]

theorem attachNested_ok_iff {state state' : State} {indent : Nat} {key : Str} {value : Option Str} :
    attachNested state number indent key value = .ok state' ↔
      ∃ entries text, state.openSection = some entries ∧ (∀ i ∈ state.sectionIndent, indent = i) ∧
        value = some text ∧ key ∉ entries.keys ∧
        state' = ⟨state.root.set state.sectionKey (.section (entries.set key text)),
          some (entries.set key text), state.sectionKey, some (state.sectionIndent.getD indent)⟩ := by
  unfold attachNested
  cases opened : state.openSection with
  | none =>
      refine iff_of_false fail_ne_ok ?_
      rintro ⟨_, _, ⟨⟩, -⟩
  | some entries =>
  dsimp only
  by_cases shifted : state.sectionIndent.any (indent ≠ ·) = true
  · rw [if_pos shifted]
    obtain ⟨i, hi, differ⟩ := (Option.any_eq_true _ _).mp shifted
    refine iff_of_false fail_ne_ok ?_
    rintro ⟨_, _, -, aligned, -⟩
    exact of_decide_eq_true differ (aligned i hi)
  rw [if_neg shifted]
  have aligned : ∀ i ∈ state.sectionIndent, indent = i := by
    intro i hi
    simpa using (Option.any_eq_false _ _).mp (Bool.eq_false_of_not_eq_true shifted) i hi
  cases value with
  | none =>
      refine iff_of_false fail_ne_ok ?_
      rintro ⟨_, _, -, -, ⟨⟩, -⟩
  | some text =>
      dsimp only
      by_cases taken : key ∈ entries.keys
      · rw [if_pos taken]
        refine iff_of_false fail_ne_ok ?_
        rintro ⟨_, _, ⟨⟩, -, -, fresh, -⟩
        exact fresh taken
      · rw [if_neg taken, Except.ok.injEq]
        constructor
        · rintro rfl
          exact ⟨entries, text, rfl, aligned, rfl, taken, rfl⟩
        · rintro ⟨_, _, ⟨⟩, -, ⟨⟩, -, rfl⟩
          rfl

/-! ### What is raised -/

/-- A `ValueError`. -/
def IsValueError (e : Exc) : Prop := ∃ message, e = .valueError message

omit [Runtime] in
theorem isValueError_of_fail {α : Type} {message : Str} {e : Exc}
    (h : (fail number message : Except Exc α) = .error e) : IsValueError e := by
  cases h
  exact ⟨_, rfl⟩

theorem splitEntry_error {content : Str} {e : Exc} (h : splitEntry content number = .error e) :
    IsValueError e := by
  unfold splitEntry at h
  dsimp only at h
  split_ifs at h
  · exact isValueError_of_fail h
  · exact isValueError_of_fail h

theorem readEntry_error {line : Str} {e : Exc} (h : readEntry line number = .error e) :
    IsValueError e := by
  unfold readEntry at h
  dsimp only at h
  split_ifs at h
  · exact isValueError_of_fail h
  · exact isValueError_of_fail h
  · cases parts : splitEntry line.rstrip.strip number with
    | error e' =>
        rw [parts] at h
        cases h
        exact splitEntry_error parts
    | ok entry =>
        rw [parts] at h
        cases h

theorem attach_error {state : State} {entry : Entry} {e : Exc} (h : attach state number entry = .error e) :
    IsValueError e := by
  unfold attach attachTop attachNested at h
  split at h
  · split at h
    · exact isValueError_of_fail h
    · split at h <;> cases h
  · split at h
    · exact isValueError_of_fail h
    · split at h
      · exact isValueError_of_fail h
      · split at h
        · exact isValueError_of_fail h
        · split at h
          · exact isValueError_of_fail h
          · cases h

end

end YamlMapping

end CnPropertyAgent
