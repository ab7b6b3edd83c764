import CnPropertyAgent.Providers.Lianjia.Values
import CnPropertyAgent.Python.Collections
import CnPropertyAgent.Relational.Statements
import CnPropertyAgent.Utils

/-!
The cells of one extracted row, and the frame both row parsers share.

A row is looked up by its normalized keys under the aliases of each field. A field
that cannot be read rejects the row, and so does a record its model refuses; both
are caught. A cell that is nested too deep to be printed is not, so the row parser returns
exactly when it reaches no such cell and the rest of the row raises nothing else.
-/

namespace CnPropertyAgent.Lianjia

open Python Relational

/-- An entry of `_ALIASES`: a canonical field name and the keys it may stand under. -/
structure Field where
  name : String
  aliases : List String

/-! ### Fields of both parsers -/

def areaField : Field := ⟨"建筑面积", ["建筑面积", "面积"]⟩

def layoutField : Field := ⟨"房屋户型", ["房屋户型", "户型"]⟩

def titleField : Field := ⟨"标题", ["标题", "房源标题", "title", "name"]⟩

def orientationField : Field := ⟨"房屋朝向", ["房屋朝向", "朝向"]⟩

def floorField : Field := ⟨"所在楼层", ["所在楼层", "楼层"]⟩

def builtYearField : Field := ⟨"建成年代", ["建成年代", "建筑年代", "建成年份"]⟩

def sourceUrlField : Field := ⟨"source_url", ["source_url", "房源链接", "链接", "url"]⟩

def rawPayloadRefField : Field := ⟨"raw_payload_ref", ["raw_payload_ref"]⟩

/-- What a batch states for the rows that state nothing of their own. -/
structure BatchContext where
  sourceUrl : Option Str
  rawPayloadRef : Option Str

/-- A batch that states nothing. -/
def BatchContext.silent : BatchContext := ⟨none, none⟩

variable [Runtime]

/-! ### Reading cells -/

/-- `_LOOKUP[canonical]`. -/
def Field.keys (field : Field) : List Str := field.aliases.map fun spelling => normalizeKey (str spelling)

def normalizeRowKeys (row : List (Str × Json)) : Dict Str Json :=
  row.foldl (fun cells entry => Dict.set cells (normalizeKey entry.1) entry.2) Dict.empty

/-- The cell under the first alias that the row has. -/
def rawValue (cells : Dict Str Json) (field : Field) : Json :=
  (field.keys.findSome? (Dict.get? cells)).getD .null

/-- A field error names the field it is about. -/
def cell (cells : Dict Str Json) (field : Field) : Except Failure (Option Str) :=
  match normalizeCell (rawValue cells field) with
  | .error (.fieldParse message _ reason) => .error (.fieldParse message (some (str field.name)) reason)
  | outcome => outcome

/-- Best-effort text used for provenance. -/
def rawText (cells : Dict Str Json) (field : Field) : Except Failure (Option Str) :=
  match cell cells field with
  | .error (.fieldParse ..) => .ok none
  | outcome => outcome

def convert {α : Type} (cells : Dict Str Json) (field : Field)
    (converter : Str → Option Str → Except Failure α) : Except Failure (Option α) := do
  match ← cell cells field with
  | none => return none
  | some text => return some (← converter text (some (str field.name)))

/-- The dedicated layout field, else what the title says. -/
def layout (cells : Dict Str Json) : Except Failure (Option Str) := do
  match ← cell cells layoutField with
  | some layout => return some layout
  | none =>
      match ← cell cells titleField with
      | none => return none
      | some title => return extractLayout title

/-! ### The row reference and rejections -/

/-- `text or default`: an empty text counts as none. -/
def orDefault (text default : Option Str) : Option Str :=
  match text with
  | none => default
  | some text => if text = [] then default else some text

def buildRowRef (sourceId : Field) (context : BatchContext) (cells : Dict Str Json)
    (rowIndex : Option Nat) : Except Failure SourceRowRef := do
  let sourceUrl := orDefault (← rawText cells sourceUrlField) context.sourceUrl
  let rawPayloadRef := orDefault (← rawText cells rawPayloadRefField) context.rawPayloadRef
  let sourceRowId ← rawText cells sourceId
  SourceRowRefFields.validate ⟨lianjiaSource, rowIndex, sourceRowId, sourceUrl, rawPayloadRef⟩

section

variable {α β : Type}

def reject (row : SourceRowRef) (reason : ParseRejectionReason) (detail : Str) (field : Option Str) :
    Except Failure (α ⊕ ParseRejection) :=
  (ParseRejectionFields.validate ⟨row, reason, field, detail⟩).map .inr

/-- `except FieldParseError` around the fields of a row. -/
def catchField (row : SourceRowRef) (fields : Except Failure β)
    (parse : β → Except Failure (α ⊕ ParseRejection)) : Except Failure (α ⊕ ParseRejection) :=
  match fields with
  | .ok fields => parse fields
  | .error (.fieldParse message field reason) => reject row reason message field
  | .error e => .error e

/-- `except ValidationError` around the models of a row. -/
def catchValidation (row : SourceRowRef) (model : Except Failure α) :
    Except Failure (α ⊕ ParseRejection) :=
  match model with
  | .ok model => .ok (.inl model)
  | .error (.validation items) => reject row .schemaInvalid (formatValidationError items) none
  | .error e => .error e

end

section

variable {α : Type}

/-- One extracted row: `parse` reads the rest of a row that states its identity. -/
def parseRow (sourceId : Field) (context : BatchContext)
    (parse : Dict Str Json → SourceRowRef → Str → Except Failure (α ⊕ ParseRejection))
    (row : Json) (rowIndex : Option Nat) : Except Failure (α ⊕ ParseRejection) :=
  match row with
  | .object entries => do
      let cells := normalizeRowKeys entries
      let rowRef ← buildRowRef sourceId context cells rowIndex
      catchField rowRef (cell cells sourceId) fun
        | some id => parse cells rowRef id
        | none =>
            -- Provider-native identity is never fabricated.
            reject rowRef .missingSourceIdentity (str sourceId.name ++ str " is missing or empty")
              (some (str sourceId.name))
  | row => do
      let rowRef ← SourceRowRefFields.validate ⟨lianjiaSource, rowIndex, none, none, none⟩
      reject rowRef .malformedRow (str "expected a field mapping, got " ++ row.typeName) none

/-- A batch of rows, each parsed under its position. -/
def parseRows (parseRow : Json → Option Nat → Except Failure (α ⊕ ParseRejection)) (rows : List Json) :
    Except Failure (ParseResult α) :=
  (rows.zipIdx.mapM fun (row, index) => parseRow row (some index)).map buildParseResult

end

/-! ### What a row holds -/

/-- Of the entries with one normalized key, the last one is kept. -/
theorem get?_normalizeRowKeys (row : List (Str × Json)) (key : Str) :
    Dict.get? (normalizeRowKeys row) key =
      (row.filter fun entry => normalizeKey entry.1 = key).getLast?.map Prod.snd := by
  have items : normalizeRowKeys row = Dict.ofItems (row.map fun entry => (normalizeKey entry.1, entry.2)) :=
    (List.foldl_map ..).symm
  rw [items, Dict.get?_ofItems, List.filter_map, List.getLast?_map, Option.map_map]
  rfl

section

variable {row : List (Str × Json)} {field : Field}

/-- Under its aliases a field sees only its own entries. -/
theorem get?_of_mem_keys {key : Str} (mem : key ∈ field.keys) :
    Dict.get? (normalizeRowKeys row) key =
      ((row.filter fun entry => normalizeKey entry.1 ∈ field.keys).filter fun entry =>
        normalizeKey entry.1 = key).getLast?.map Prod.snd := by
  have own : (fun entry : Str × Json => decide (normalizeKey entry.1 = key) &&
      decide (normalizeKey entry.1 ∈ field.keys)) = fun entry => decide (normalizeKey entry.1 = key) := by
    funext entry
    by_cases same : normalizeKey entry.1 = key <;> simp [same, mem]
  rw [get?_normalizeRowKeys, List.filter_filter, own]

/-- The value of a field is that of its only entry. -/
theorem rawValue_of_only {entry : Str × Json}
    (only : (row.filter fun e => normalizeKey e.1 ∈ field.keys) = [entry]) :
    rawValue (normalizeRowKeys row) field = entry.2 := by
  have mem : entry ∈ row.filter fun e => normalizeKey e.1 ∈ field.keys := by simp [only]
  have named : normalizeKey entry.1 ∈ field.keys := of_decide_eq_true (List.mem_filter.mp mem).2
  have found (key : Str) (mem : key ∈ field.keys) : Dict.get? (normalizeRowKeys row) key =
      if normalizeKey entry.1 = key then some entry.2 else none := by
    rw [get?_of_mem_keys mem, only]
    by_cases same : normalizeKey entry.1 = key <;> simp [same]
  cases first : field.keys.findSome? (Dict.get? (normalizeRowKeys row)) with
  | none =>
      have none_found := List.findSome?_eq_none_iff.mp first _ named
      rw [found _ named, if_pos rfl] at none_found
      cases none_found
  | some value =>
      obtain ⟨key, mem, value_eq⟩ := List.exists_of_findSome?_eq_some first
      rw [found key mem] at value_eq
      split_ifs at value_eq
      rw [rawValue, first, Option.getD_some, Option.some.inj value_eq]

/-- A field without an entry has no value. -/
theorem rawValue_of_absent (absent : (row.filter fun e => normalizeKey e.1 ∈ field.keys) = []) :
    rawValue (normalizeRowKeys row) field = .null := by
  have none_found : field.keys.findSome? (Dict.get? (normalizeRowKeys row)) = none :=
    List.findSome?_eq_none_iff.mpr fun key named => by
      rw [get?_of_mem_keys named, absent]
      rfl
  rw [rawValue, none_found, Option.getD_none]

end

/-! ### What a row can raise -/

/-- A parse error of some field of the row, which rejects it. -/
def IsRowError (e : Failure) : Prop := ∃ name : String, IsFieldError (some (str name)) e

/-- The cell of the field is not nested too deep to be printed. -/
def Shallow (cells : Dict Str Json) (field : Field) : Prop :=
  (rawValue cells field).depth ≤ Runtime.reprLimit

/-- What reading a row can raise: what rejects it, and what no `try` of the parsers catches. -/
def IsReadError (e : Failure) : Prop := IsRowError e ∨ e = .builtin .recursionError

section

variable {cells : Dict Str Json} {field : Field}

theorem cell_eq_ok {text : Option Str} :
    cell cells field = .ok text ↔ normalizeCell (rawValue cells field) = .ok text := by
  unfold cell
  split
  · rename_i normalized
    simp [normalized]
  · rfl

theorem shallow_of_cell {text : Option Str} (read : cell cells field = .ok text) : Shallow cells field :=
  depth_le_of_normalizeCell (cell_eq_ok.mp read)

/-- A boolean rejects the row, and what is nested too deep raises through it. -/
theorem cell_error {e : Failure} (raised : cell cells field = .error e) :
    (IsRowError e ∧ Shallow cells field) ∨ (e = .builtin .recursionError ∧ ¬ Shallow cells field) := by
  unfold cell at raised
  split at raised
  · rename_i message _ reason normalized
    rcases normalizeCell_error normalized with ⟨⟨_, same, plain, nonempty⟩, b, bool⟩ | ⟨isDeep, -⟩
    · cases same
      cases raised
      exact Or.inl ⟨⟨field.name, message, rfl, plain, nonempty⟩, by rw [Shallow, bool]; exact Nat.zero_le _⟩
    · cases isDeep
  · rename_i other
    rcases normalizeCell_error raised with ⟨⟨message, rfl, -⟩, -⟩ | ⟨isDeep, deep⟩
    · exact absurd raised (other message none _)
    · exact Or.inr ⟨isDeep, Nat.not_le_of_lt deep⟩

omit [Runtime] in
theorem not_isRowError_recursionError : ¬ IsRowError (.builtin .recursionError) := by
  rintro ⟨_, _, isField, -⟩
  cases isField

theorem cell_raises : OnlyRaises IsReadError (cell cells field) := fun _ raised =>
  (cell_error raised).imp And.left And.left

theorem cell_raises_iff : OnlyRaises IsRowError (cell cells field) ↔ Shallow cells field := by
  cases read : cell cells field with
  | ok text => exact iff_of_true (fun _ raised => nomatch raised) (shallow_of_cell read)
  | error e =>
      rcases cell_error read with ⟨isRow, shallow⟩ | ⟨rfl, deep⟩
      · exact iff_of_true (fun _ raised => Except.error.inj raised ▸ isRow) shallow
      · exact iff_of_false (fun raises => not_isRowError_recursionError (raises _ rfl)) deep

theorem convert_raises {α : Type} {converter : Str → Option Str → Except Failure α}
    (h : ∀ text field, OnlyRaises (IsFieldError field) (converter text field)) :
    OnlyRaises IsReadError (convert cells field converter) := by
  apply cell_raises.bind
  intro text
  cases text with
  | none => exact onlyRaises_pure
  | some text => exact ((h text _).mono fun e err => .inl ⟨field.name, err⟩).bind fun _ => onlyRaises_pure

theorem convert_raises_iff {α : Type} {converter : Str → Option Str → Except Failure α}
    (h : ∀ text field, OnlyRaises (IsFieldError field) (converter text field)) :
    OnlyRaises IsRowError (convert cells field converter) ↔ Shallow cells field := by
  rw [convert, onlyRaises_bind_iff, cell_raises_iff, and_iff_left_iff_imp]
  intro _ text _
  cases text with
  | none => exact onlyRaises_pure
  | some text => exact ((h text _).mono fun e err => ⟨field.name, err⟩).bind fun _ => onlyRaises_pure

theorem layout_raises : OnlyRaises IsReadError (layout cells) := by
  apply cell_raises.bind
  intro own
  cases own with
  | some text => exact onlyRaises_pure
  | none =>
      apply cell_raises.bind
      intro title
      cases title <;> exact onlyRaises_pure

/-- The title is looked at only where the layout field says nothing. -/
theorem layout_raises_iff : OnlyRaises IsRowError (layout cells) ↔
    Shallow cells layoutField ∧ (cell cells layoutField = .ok none → Shallow cells titleField) := by
  rw [layout, onlyRaises_bind_iff, cell_raises_iff]
  refine and_congr_right fun _ => ⟨fun rest absent => ?_, fun title own read => ?_⟩
  · exact cell_raises_iff.mp (onlyRaises_bind_iff.mp (rest none absent)).1
  · cases own with
    | some text => exact onlyRaises_pure
    | none =>
        apply (cell_raises_iff.mpr (title read)).bind
        intro title
        cases title <;> exact onlyRaises_pure

/-- What a field is converted to, its cell is. -/
theorem convert_eq_some {α : Type} {converter : Str → Option Str → Except Failure α} {a : α}
    (h : convert cells field converter = .ok (some a)) :
    ∃ text, cell cells field = .ok (some text) ∧ converter text (some (str field.name)) = .ok a := by
  obtain ⟨text, read, rest⟩ := eq_ok_of_bind h
  cases text with
  | none => cases rest
  | some text =>
      obtain ⟨b, converted, same⟩ := eq_ok_of_bind rest
      cases same
      exact ⟨text, read, converted⟩

theorem rawText_of_cell {text : Option Str} (read : cell cells field = .ok text) :
    rawText cells field = .ok text := by
  rw [rawText, read]

/-- Provenance is read, if only as none, where its cell is not nested too deep. -/
theorem rawText_ok_iff : (∃ text, rawText cells field = .ok text) ↔ Shallow cells field := by
  cases read : cell cells field with
  | ok text => exact iff_of_true ⟨text, rawText_of_cell read⟩ (shallow_of_cell read)
  | error e =>
      rcases cell_error read with ⟨⟨_, message, rfl, -⟩, shallow⟩ | ⟨rfl, deep⟩
      · exact iff_of_true ⟨none, by rw [rawText, read]⟩ shallow
      · refine iff_of_false ?_ deep
        rintro ⟨text, known⟩
        rw [rawText, read] at known
        cases known

end

section

variable {sourceId : Field} {context : BatchContext} {cells : Dict Str Json} {rowIndex : Option Nat}

/-- The row reference states what the cells do, or else the batch. -/
theorem buildRowRef_ok {ref : SourceRowRef} (h : buildRowRef sourceId context cells rowIndex = .ok ref) :
    ∃ url payload, rawText cells sourceUrlField = .ok url ∧
      rawText cells rawPayloadRefField = .ok payload ∧ rawText cells sourceId = .ok ref.sourceRowId ∧
      ref.sourceUrl = orDefault url context.sourceUrl ∧
      ref.rawPayloadRef = orDefault payload context.rawPayloadRef := by
  obtain ⟨url, readUrl, h⟩ := eq_ok_of_bind h
  obtain ⟨payload, readPayload, h⟩ := eq_ok_of_bind h
  obtain ⟨id, readId, h⟩ := eq_ok_of_bind h
  unfold SourceRowRefFields.validate at h
  split at h
  · cases h
    exact ⟨url, payload, readUrl, readPayload, readId, rfl, rfl⟩
  · cases h

omit [Runtime] in
/-- Of a row reference only the source is checked. -/
theorem SourceRowRefFields.validate_ok (rowIndex : Option Nat) (id url payload : Option Str) :
    ∃ ref, SourceRowRefFields.validate ⟨lianjiaSource, rowIndex, id, url, payload⟩ = .ok ref :=
  ⟨_, dif_pos (checkNonempty_eq_nil.mpr lianjiaSource_valid)⟩

/-- **The row reference.** It can be built exactly when its three cells are not nested too deep. -/
theorem buildRowRef_ok_iff :
    (∃ ref, buildRowRef sourceId context cells rowIndex = .ok ref) ↔
      Shallow cells sourceUrlField ∧ Shallow cells rawPayloadRefField ∧ Shallow cells sourceId := by
  simp only [← rawText_ok_iff]
  constructor
  · rintro ⟨ref, h⟩
    obtain ⟨url, payload, readUrl, readPayload, readId, -⟩ := buildRowRef_ok h
    exact ⟨⟨url, readUrl⟩, ⟨payload, readPayload⟩, ⟨_, readId⟩⟩
  · rintro ⟨⟨url, readUrl⟩, ⟨payload, readPayload⟩, ⟨id, readId⟩⟩
    simp only [buildRowRef, readUrl, readPayload, readId, bind, Except.bind]
    exact SourceRowRefFields.validate_ok _ _ _ _

end

section

variable {α β : Type} {row : SourceRowRef}

omit [Runtime] in
theorem reject_ok {reason : ParseRejectionReason} {detail : Str} {field : Option Str}
    (plain : detail.Encodable) (nonempty : detail ≠ []) :
    ∃ outcome, (reject row reason detail field : Except Failure (α ⊕ ParseRejection)) = .ok outcome := by
  have valid : (⟨row, reason, field, detail⟩ : ParseRejectionFields).errors = [] :=
    checkNonempty_eq_nil.mpr ⟨plain, nonempty⟩
  exact ⟨.inr ⟨_, valid⟩, by rw [reject, ParseRejectionFields.validate, dif_pos valid]; rfl⟩

omit [Runtime] in
/-- Whatever else its fields raise goes through the row. -/
theorem catchField_ok_iff {fields : Except Failure β} {parse : β → Except Failure (α ⊕ ParseRejection)}
    (raises : OnlyRaises IsReadError fields) :
    (∃ outcome, catchField row fields parse = .ok outcome) ↔
      OnlyRaises IsRowError fields ∧ ∀ b, fields = .ok b → ∃ outcome, parse b = .ok outcome := by
  cases read : fields with
  | ok b =>
      constructor
      · intro returned
        refine ⟨fun _ raised => (nomatch raised), ?_⟩
        rintro _ ⟨⟩
        exact returned
      · rintro ⟨-, parses⟩
        exact parses b rfl
  | error e =>
      rcases raises e read with isRow | rfl
      · obtain ⟨name, message, rfl, plain, nonempty⟩ := isRow
        refine iff_of_true (reject_ok plain nonempty) ⟨?_, fun _ same => (nomatch same)⟩
        rintro _ ⟨⟩
        exact ⟨name, message, rfl, plain, nonempty⟩
      · refine iff_of_false ?_ fun h => not_isRowError_recursionError (h.1 _ rfl)
        rintro ⟨outcome, returned⟩
        cases returned

omit [Runtime] in
theorem catchValidation_ok {model : Except Failure α} (raises : OnlyRaises IsModelError model) :
    ∃ outcome, catchValidation row model = .ok outcome := by
  cases built : model with
  | ok m => exact ⟨.inl m, rfl⟩
  | error e =>
      obtain ⟨items, rfl, nonempty, plain⟩ := raises e built
      exact reject_ok (encodable_formatValidationError plain) (formatValidationError_ne_nil nonempty)

end

/-! ### What a parsed row went through -/

section

variable {α β : Type} {row : SourceRowRef} {a : α}

omit [Runtime] in
theorem reject_ne_inl {reason : ParseRejectionReason} {detail : Str} {field : Option Str} :
    reject row reason detail field ≠ .ok (.inl a) := by
  unfold reject ParseRejectionFields.validate
  split <;> simp [Except.map]

omit [Runtime] in
theorem catchField_inl {fields : Except Failure β} {parse : β → Except Failure (α ⊕ ParseRejection)}
    (parsed : catchField row fields parse = .ok (.inl a)) :
    ∃ b, fields = .ok b ∧ parse b = .ok (.inl a) := by
  unfold catchField at parsed
  split at parsed
  · exact ⟨_, rfl, parsed⟩
  · exact absurd parsed reject_ne_inl
  · cases parsed

omit [Runtime] in
theorem catchValidation_inl {model : Except Failure α}
    (parsed : catchValidation row model = .ok (.inl a)) : model = .ok a := by
  unfold catchValidation at parsed
  split at parsed
  · cases parsed
    rfl
  · exact absurd parsed reject_ne_inl
  · cases parsed

omit [Runtime] in
theorem reject_inr {reason : ParseRejectionReason} {detail : Str} {field : Option Str} {r : ParseRejection}
    (h : (reject row reason detail field : Except Failure (α ⊕ ParseRejection)) = .ok (.inr r)) :
    r.row = row := by
  unfold reject ParseRejectionFields.validate at h
  split at h
  · cases h
    rfl
  · cases h

omit [Runtime] in
theorem catchField_inr {fields : Except Failure β} {parse : β → Except Failure (α ⊕ ParseRejection)}
    {r : ParseRejection} (parsed : catchField row fields parse = .ok (.inr r)) :
    r.row = row ∨ ∃ b, fields = .ok b ∧ parse b = .ok (.inr r) := by
  unfold catchField at parsed
  split at parsed
  · exact Or.inr ⟨_, rfl, parsed⟩
  · exact Or.inl (reject_inr parsed)
  · cases parsed

omit [Runtime] in
theorem catchValidation_inr {model : Except Failure α} {r : ParseRejection}
    (parsed : catchValidation row model = .ok (.inr r)) : r.row = row := by
  unfold catchValidation at parsed
  split at parsed
  · cases parsed
  · exact reject_inr parsed
  · cases parsed

theorem parseRow_inl {sourceId : Field} {context : BatchContext}
    {parse : Dict Str Json → SourceRowRef → Str → Except Failure (α ⊕ ParseRejection)} {source : Json}
    {rowIndex : Option Nat} (parsed : parseRow sourceId context parse source rowIndex = .ok (.inl a)) :
    ∃ entries ref id, source = .object entries ∧
      buildRowRef sourceId context (normalizeRowKeys entries) rowIndex = .ok ref ∧
      cell (normalizeRowKeys entries) sourceId = .ok (some id) ∧
      parse (normalizeRowKeys entries) ref id = .ok (.inl a) := by
  unfold parseRow at parsed
  split at parsed
  · rename_i entries
    cases built : buildRowRef sourceId context (normalizeRowKeys entries) rowIndex with
    | error e => simp only [built, bind, Except.bind, reduceCtorEq] at parsed
    | ok ref =>
        simp only [built, bind, Except.bind] at parsed
        obtain ⟨id, identity, rest⟩ := catchField_inl parsed
        cases id with
        | none => exact absurd rest reject_ne_inl
        | some id => exact ⟨entries, ref, id, rfl, built, identity, rest⟩
  · obtain ⟨ref, -, rest⟩ := eq_ok_of_bind parsed
    exact absurd rest reject_ne_inl

/-- **Rejected rows.** Every rejection of a mapping points to the row reference that was built
before anything was read. -/
theorem parseRow_inr {sourceId : Field} {context : BatchContext}
    {parse : Dict Str Json → SourceRowRef → Str → Except Failure (α ⊕ ParseRejection)}
    {entries : List (Str × Json)} {rowIndex : Option Nat} {r : ParseRejection}
    (rejects : ∀ cells ref id, parse cells ref id = .ok (.inr r) → r.row = ref)
    (parsed : parseRow sourceId context parse (.object entries) rowIndex = .ok (.inr r)) :
    buildRowRef sourceId context (normalizeRowKeys entries) rowIndex = .ok r.row := by
  unfold parseRow at parsed
  obtain ⟨ref, built, rest⟩ := eq_ok_of_bind parsed
  rw [built]
  rcases catchField_inr rest with same | ⟨id, -, rest⟩
  · rw [same]
  · cases id with
    | none => rw [reject_inr rest]
    | some id => rw [rejects _ _ _ rest]

end

/-! ### When a row is parsed at all -/

/-- One of the fields that a parser reads in turn. -/
structure Reading where
  /-- No cell it looks at is nested too deep. -/
  shallow : Prop
  /-- It is read, so that the next one is. -/
  reads : Prop

def Reading.converted {α : Type} (cells : Dict Str Json) (field : Field)
    (converter : Str → Option Str → Except Failure α) : Reading :=
  ⟨Shallow cells field, ∃ a, convert cells field converter = .ok a⟩

def Reading.text (cells : Dict Str Json) (field : Field) : Reading :=
  ⟨Shallow cells field, ∃ text, cell cells field = .ok text⟩

/-- The title is looked at only where the layout field says nothing. -/
def Reading.layout (cells : Dict Str Json) : Reading :=
  ⟨Shallow cells layoutField ∧ (cell cells layoutField = .ok none → Shallow cells titleField),
    ∃ text, Lianjia.layout cells = .ok text⟩

omit [Runtime] in
/-- No cell that is reached is nested too deep. Behind a field that rejects the row none is reached. -/
def ReadInOrder : List Reading → Prop
  | [] => True
  | reading :: rest => reading.shallow ∧ (reading.reads → ReadInOrder rest)

/-- The computation reads the field. -/
structure ReadsField {α : Type} (x : Except Failure α) (reading : Reading) : Prop where
  raises_iff : OnlyRaises IsRowError x ↔ reading.shallow
  returns_iff : (∃ a, x = .ok a) ↔ reading.reads

/-- The computation reads the fields in their order. -/
structure Follows {α : Type} (x : Except Failure α) (readings : List Reading) : Prop where
  raises_iff : OnlyRaises IsRowError x ↔ ReadInOrder readings
  returns_iff : (∃ a, x = .ok a) ↔ ∀ reading ∈ readings, reading.reads

section

variable {α β : Type} {cells : Dict Str Json} {field : Field}

theorem readsField_cell : ReadsField (cell cells field) (.text cells field) := ⟨cell_raises_iff, Iff.rfl⟩

theorem readsField_convert {converter : Str → Option Str → Except Failure α}
    (h : ∀ text field, OnlyRaises (IsFieldError field) (converter text field)) :
    ReadsField (convert cells field converter) (.converted cells field converter) :=
  ⟨convert_raises_iff h, Iff.rfl⟩

theorem readsField_layout : ReadsField (layout cells) (.layout cells) := ⟨layout_raises_iff, Iff.rfl⟩

omit [Runtime] in
theorem ReadsField.map {x : Except Failure α} {reading : Reading} (h : ReadsField x reading) (f : α → β) :
    ReadsField (do return f (← x)) reading := by
  cases x with
  | ok a =>
      have read : reading.reads := h.returns_iff.mp ⟨a, rfl⟩
      have shallow : reading.shallow := h.raises_iff.mp fun _ raised => (nomatch raised)
      exact ⟨iff_of_true onlyRaises_pure shallow, iff_of_true ⟨f a, rfl⟩ read⟩
  | error e =>
      refine ⟨Iff.trans ⟨?_, ?_⟩ h.raises_iff, iff_of_false (by rintro ⟨b, returned⟩; cases returned) ?_⟩
      · exact fun raises e' same => raises e' (Except.error.inj same ▸ rfl)
      · exact fun raises e' same => raises e' (Except.error.inj same ▸ rfl)
      · intro read
        obtain ⟨a, returned⟩ := h.returns_iff.mpr read
        cases returned

omit [Runtime] in
theorem follows_pure {a : α} : Follows (pure a) [] :=
  ⟨iff_of_true onlyRaises_pure trivial, iff_of_true ⟨a, rfl⟩ (by simp)⟩

omit [Runtime] in
/-- One field and those behind it. -/
theorem ReadsField.bind {x : Except Failure α} {next : α → Except Failure β} {reading : Reading}
    {readings : List Reading} (first : ReadsField x reading) (rest : ∀ a, Follows (next a) readings) :
    Follows (x >>= next) (reading :: readings) := by
  constructor
  · rw [onlyRaises_bind_iff, first.raises_iff, ReadInOrder, ← first.returns_iff]
    refine and_congr_right fun _ => ⟨?_, ?_⟩
    · rintro behind ⟨a, read⟩
      exact (rest a).raises_iff.mp (behind a read)
    · intro behind a read
      exact (rest a).raises_iff.mpr (behind ⟨a, read⟩)
  · rw [List.forall_mem_cons, ← first.returns_iff]
    constructor
    · rintro ⟨b, returned⟩
      obtain ⟨a, read, behind⟩ := eq_ok_of_bind returned
      exact ⟨⟨a, read⟩, (rest a).returns_iff.mp ⟨b, behind⟩⟩
    · rintro ⟨⟨a, read⟩, behind⟩
      obtain ⟨b, returned⟩ := (rest a).returns_iff.mpr behind
      exact ⟨b, by rw [read]; exact returned⟩

end

/-- The cells of a mapping that the parsers reach are not nested too deep, and `Rest` holds of an
identified row. -/
def RowReturns (sourceId : Field) (Rest : Dict Str Json → Str → Prop) (row : Json) : Prop :=
  ∀ entries, row = .object entries →
    Shallow (normalizeRowKeys entries) sourceUrlField ∧
    Shallow (normalizeRowKeys entries) rawPayloadRefField ∧ Shallow (normalizeRowKeys entries) sourceId ∧
    ∀ id, cell (normalizeRowKeys entries) sourceId = .ok (some id) → Rest (normalizeRowKeys entries) id

section

variable {α : Type} {sourceId : Field} {context : BatchContext}
  {parse : Dict Str Json → SourceRowRef → Str → Except Failure (α ⊕ ParseRejection)}
  {Rest : Dict Str Json → Str → Prop}

omit [Runtime] in
theorem encodable_typeName (value : Json) : value.typeName.Encodable := by
  cases value <;> exact encodable_str _

/-- **One row.** When the rest of an identified row returns exactly if `Rest` holds of it, the row
parser returns exactly if no cell it reaches is nested too deep and `Rest` holds. -/
theorem parseRow_returns_iff
    (rest : ∀ cells ref id, (∃ outcome, parse cells ref id = .ok outcome) ↔ Rest cells id)
    (row : Json) (rowIndex : Option Nat) :
    (∃ outcome, parseRow sourceId context parse row rowIndex = .ok outcome) ↔
      RowReturns sourceId Rest row := by
  cases row with
  | object entries =>
      have own : RowReturns sourceId Rest (.object entries) ↔
          (∃ ref, buildRowRef sourceId context (normalizeRowKeys entries) rowIndex = .ok ref) ∧
          ∀ id, cell (normalizeRowKeys entries) sourceId = .ok (some id) →
            Rest (normalizeRowKeys entries) id := by
        rw [buildRowRef_ok_iff, and_assoc, and_assoc]
        constructor
        · intro returns
          exact returns entries rfl
        · rintro returns _ ⟨⟩
          exact returns
      rw [own, parseRow]
      cases built : buildRowRef sourceId context (normalizeRowKeys entries) rowIndex with
      | error e =>
          refine iff_of_false ?_ (by simp)
          rintro ⟨outcome, parsed⟩
          cases parsed
      | ok ref =>
          have shallow := (buildRowRef_ok_iff.mp ⟨ref, built⟩).2.2
          simp only [bind, Except.bind, Except.ok.injEq, exists_eq', true_and]
          rw [catchField_ok_iff cell_raises, cell_raises_iff]
          constructor
          · rintro ⟨-, parses⟩ id identity
            exact (rest _ ref id).mp (parses (some id) identity)
          · intro parses
            refine ⟨shallow, fun id identity => ?_⟩
            cases id with
            | none => exact reject_ok (by simp) (by simp [str])
            | some id => exact (rest _ ref id).mpr (parses id identity)
  | _ =>
      apply iff_of_true
      · obtain ⟨ref, built⟩ := SourceRowRefFields.validate_ok rowIndex none none none
        simp only [parseRow, built, bind, Except.bind]
        exact reject_ok (by simp [encodable_typeName]) (by simp [str])
      · intro entries same
        cases same

end

/-! ### Batches -/

section

variable {α : Type} {parse : Json → Option Nat → Except Failure (α ⊕ ParseRejection)} {rows : List Json}

omit [Runtime] in
/-- A batch is parsed exactly when each of its rows is, under its own position. -/
theorem parseRows_eq_ok_iff {result : ParseResult α} :
    parseRows parse rows = .ok result ↔
      ∃ outcomes, (rows.mapIdx fun i row => parse row (some i)) = outcomes.map .ok ∧
        result = buildParseResult outcomes := by
  rw [List.mapIdx_eq_zipIdx_map, parseRows]
  constructor
  · intro parsed
    cases outcomes : rows.zipIdx.mapM fun (row, index) => parse row (some index) with
    | error e => rw [outcomes] at parsed; cases parsed
    | ok os =>
        rw [outcomes] at parsed
        cases parsed
        exact ⟨os, mapM_eq_ok_iff.mp outcomes, rfl⟩
  · rintro ⟨outcomes, each, rfl⟩
    rw [mapM_eq_ok_iff.mpr each]
    rfl

omit [Runtime] in
/-- Every record of a batch was parsed from one of its rows. -/
theorem exists_row_of_records {result : ParseResult α} (parsed : parseRows parse rows = .ok result)
    {record : α} (mem : record ∈ result.records) :
    ∃ i row, rows[i]? = some row ∧ parse row (some i) = .ok (.inl record) := by
  obtain ⟨outcomes, each, rfl⟩ := parseRows_eq_ok_iff.mp parsed
  rw [buildParseResult_eq, List.mem_filterMap] at mem
  obtain ⟨outcome, houtcome, left⟩ := mem
  obtain ⟨i, at_⟩ := List.mem_iff_getElem?.mp houtcome
  have row_i := congrArg (·[i]?) each
  simp only [List.getElem?_mapIdx, List.getElem?_map, at_, Option.map_some] at row_i
  obtain ⟨row, found, same⟩ := Option.map_eq_some_iff.mp row_i
  rw [Sum.getLeft?_eq_some_iff.mp left] at same
  exact ⟨i, row, found, same⟩

omit [Runtime] in
theorem parseRows_returns_iff :
    (∃ result, parseRows parse rows = .ok result) ↔
      ∀ i row, rows[i]? = some row → ∃ outcome, parse row (some i) = .ok outcome := by
  constructor
  · rintro ⟨result, parsed⟩ i row found
    obtain ⟨outcomes, each, -⟩ := parseRows_eq_ok_iff.mp parsed
    have at_ := congrArg (·[i]?) each
    simp only [List.getElem?_mapIdx, found, Option.map_some, List.getElem?_map] at at_
    obtain ⟨outcome, -, same⟩ := Option.map_eq_some_iff.mp at_.symm
    exact ⟨outcome, same.symm⟩
  · intro each
    obtain ⟨outcomes, all⟩ := mapM_total (fun (entry : Json × Nat) => parse entry.1 (some entry.2))
      rows.zipIdx fun entry mem => each entry.2 entry.1 (List.mk_mem_zipIdx_iff_getElem?.mp mem)
    exact ⟨_, by rw [parseRows, all]; rfl⟩

end

end CnPropertyAgent.Lianjia
