import CnPropertyAgent.Python.Runtime

/-!
Exceptions of the modelled code and the field checks of its frozen models.

A frozen model is its field values together with the proof that no validator
objects to them, so an instance that pydantic would have refused cannot be
built. The validators are the lists of error items they report: the field
constraints in declaration order and, when no field fails, the model validator.
-/

namespace CnPropertyAgent

open Python

/-- Why one source row could not be represented as a provider DTO. -/
inductive ParseRejectionReason where
  | missingSourceIdentity
  | malformedField
  | malformedRow
  | schemaInvalid
deriving DecidableEq, Repr

/-- One item of `ValidationError.errors()`. -/
structure ErrorItem where
  loc : List Str
  msg : Str
deriving DecidableEq

inductive Failure where
  | builtin (error : Exc)
  | validation (items : List ErrorItem)
  | fieldParse (message : Str) (field : Option Str) (reason : ParseRejectionReason)
  /-- DuckDB refuses a row under a `UNIQUE` constraint. -/
  | constraint
  /-- DuckDB refuses a value outside the range of its column. -/
  | conversion
  /-- DuckDB refuses a parameter that is no UTF-8 text. -/
  | invalidInput
  | providerFetch (provider subjectId message : Str)
  | providerContract (provider subjectId message : Str)
deriving DecidableEq

/-- The built-in exceptions of a Python computation are exceptions of the code. -/
instance : MonadLift (Except Exc) (Except Failure) := ⟨Except.mapError .builtin⟩

/-- `raise ValueError(message)`. -/
def raiseValueError {α : Type} (message : Str) : Except Failure α :=
  .error (.builtin (.valueError message))

/-! ### Field checks -/

def notUnicode (loc : Str) : ErrorItem :=
  ⟨[loc], str "Input should be a valid string, unable to parse raw data as a unicode string"⟩

/-- A `str` field of a model with `str_strip_whitespace`. A `str` field without any constraint takes
every text as it is. -/
def checkStr (loc : Str) (s : Str) : List ErrorItem :=
  if s.Encodable then [] else [notUnicode loc]

/-- A `str` field with `min_length=1`. -/
def checkNonempty (loc : Str) (s : Str) : List ErrorItem :=
  if s.Encodable then
    (if s = [] then [⟨[loc], str "String should have at least 1 character"⟩] else [])
  else [notUnicode loc]

/-- A `float` field with `gt=0`. -/
def checkPositive (loc : Str) (x : Double) : List ErrorItem :=
  if Double.lt 0 x then [] else [⟨[loc], str "Input should be greater than 0"⟩]

/-- A `float` field with `ge` and `le`. -/
def checkFloatRange (loc : Str) (lower upper : Int) (x : Double) : List ErrorItem :=
  if ¬ x.le (.finite upper) then
    [⟨[loc], str "Input should be less than or equal to " ++ intStr upper⟩]
  else if ¬ Double.le (.finite lower) x then
    [⟨[loc], str "Input should be greater than or equal to " ++ intStr lower⟩]
  else []

/-- An `int` field with `ge` and `le`. -/
def checkIntRange (loc : Str) (lower upper : Int) (n : Int) : List ErrorItem :=
  if upper < n then [⟨[loc], str "Input should be less than or equal to " ++ intStr upper⟩]
  else if n < lower then
    [⟨[loc], str "Input should be greater than or equal to " ++ intStr lower⟩]
  else []

/-- An `int` field with `ge`. -/
def checkAtLeast (loc : Str) (lower n : Int) : List ErrorItem :=
  if n < lower then [⟨[loc], str "Input should be greater than or equal to " ++ intStr lower⟩] else []

/-- A field that may be `None`. -/
def checkOptional {α : Type} (check : α → List ErrorItem) : Option α → List ErrorItem
  | none => []
  | some a => check a

/-- The elements of a tuple field, each under its index. -/
def checkEach {α : Type} (loc : Str) (check : α → List ErrorItem) (items : List α) : List ErrorItem :=
  (items.mapIdx fun i a => (check a).map fun e => { e with loc := loc :: natStr i :: e.loc }).flatten

/-- A `ValueError` of a model validator. -/
def valueErrorItem (message : Str) : ErrorItem := ⟨[], str "Value error, " ++ message⟩

/-- The model validators run only on fields that are valid one by one. -/
def thenModel (fieldErrors modelErrors : List ErrorItem) : List ErrorItem :=
  if fieldErrors = [] then modelErrors else fieldErrors

/-- The model validator of a request window. -/
def windowErrors (startDate endDate : Option Date) : List ErrorItem :=
  if ∃ first ∈ startDate, ∃ last ∈ endDate, last < first then
    [valueErrorItem (str "start_date must not be after end_date")]
  else []

section

variable {loc s : Str}

@[simp] theorem checkStr_eq_nil : checkStr loc s = [] ↔ s.Encodable := by
  simp [checkStr]

@[simp] theorem checkNonempty_eq_nil : checkNonempty loc s = [] ↔ s.Encodable ∧ s ≠ [] := by
  unfold checkNonempty
  split_ifs <;> simp [*]

@[simp] theorem checkPositive_eq_nil {x : Double} : checkPositive loc x = [] ↔ Double.lt 0 x = true := by
  simp [checkPositive]

@[simp] theorem checkIntRange_eq_nil {lower upper n : Int} :
    checkIntRange loc lower upper n = [] ↔ lower ≤ n ∧ n ≤ upper := by
  unfold checkIntRange
  split_ifs <;> simp <;> omega

@[simp] theorem checkAtLeast_eq_nil {lower n : Int} : checkAtLeast loc lower n = [] ↔ lower ≤ n := by
  simp [checkAtLeast]

@[simp] theorem checkOptional_eq_nil {α : Type} {check : α → List ErrorItem} {a : Option α} :
    checkOptional check a = [] ↔ ∀ x ∈ a, check x = [] := by
  cases a <;> simp [checkOptional]

@[simp] theorem checkEach_eq_nil {α : Type} {check : α → List ErrorItem} {items : List α} :
    checkEach loc check items = [] ↔ ∀ item ∈ items, check item = [] := by
  simp only [checkEach, List.flatten_eq_nil_iff, List.mem_mapIdx, forall_exists_index]
  constructor
  · intro h item mem
    obtain ⟨i, hi, rfl⟩ := List.getElem_of_mem mem
    simpa using h _ i hi rfl
  · rintro h _ i hi rfl
    simp [h items[i] (List.getElem_mem hi)]

@[simp] theorem thenModel_eq_nil {fieldErrors modelErrors : List ErrorItem} :
    thenModel fieldErrors modelErrors = [] ↔ fieldErrors = [] ∧ modelErrors = [] := by
  unfold thenModel
  split_ifs with h <;> simp [h]

end

/-! ### Texts of errors -/

/-- `"; ".join(f"{'.'.join(loc)}: {msg}" for item in error.errors())`. -/
def formatValidationError (items : List ErrorItem) : Str :=
  Str.join (str "; ") (items.map fun item => Str.join (str ".") item.loc ++ str ": " ++ item.msg)

/-- What is reported can itself be stored as text. -/
def ErrorItem.Encodable (e : ErrorItem) : Prop := (∀ part ∈ e.loc, part.Encodable) ∧ e.msg.Encodable

/-- Every item of a report can be stored as text. -/
def EncodableItems (items : List ErrorItem) : Prop := ∀ e ∈ items, e.Encodable

theorem encodable_formatValidationError {items : List ErrorItem} (h : EncodableItems items) :
    (formatValidationError items).Encodable := by
  apply encodable_join (encodable_str _)
  intro part mem
  obtain ⟨e, he, rfl⟩ := List.mem_map.mp mem
  simp [encodable_join (encodable_str ".") (h e he).1, (h e he).2]

theorem formatValidationError_ne_nil {items : List ErrorItem} (h : items ≠ []) :
    formatValidationError items ≠ [] := by
  obtain ⟨item, rest, rfl⟩ := List.exists_cons_of_ne_nil h
  cases rest <;> simp [formatValidationError, Str.join, str]

section

variable {loc : String}

@[simp] theorem encodableItems_nil : EncodableItems [] := fun _ h => nomatch h

@[simp] theorem encodableItems_append {items items' : List ErrorItem} :
    EncodableItems (items ++ items') ↔ EncodableItems items ∧ EncodableItems items' := by
  simp [EncodableItems, or_imp, forall_and]

theorem encodableItems_singleton {msg : Str} (h : msg.Encodable) :
    EncodableItems [⟨[str loc], msg⟩] := by
  intro e he
  rw [List.mem_singleton.mp he]
  exact ⟨by simp, h⟩

theorem encodableItems_valueErrorItem {message : Str} (h : message.Encodable) :
    EncodableItems [valueErrorItem message] := by
  intro e he
  rw [List.mem_singleton.mp he]
  exact ⟨by simp [valueErrorItem], by simp [valueErrorItem, h]⟩

@[simp] theorem encodableItems_checkStr (s : Str) : EncodableItems (checkStr (str loc) s) := by
  unfold checkStr notUnicode
  split_ifs
  · exact encodableItems_nil
  · exact encodableItems_singleton (encodable_str _)

@[simp] theorem encodableItems_checkNonempty (s : Str) : EncodableItems (checkNonempty (str loc) s) := by
  unfold checkNonempty notUnicode
  split_ifs
  · exact encodableItems_singleton (encodable_str _)
  · exact encodableItems_nil
  · exact encodableItems_singleton (encodable_str _)

@[simp] theorem encodableItems_checkPositive (x : Double) :
    EncodableItems (checkPositive (str loc) x) := by
  unfold checkPositive
  split_ifs
  · exact encodableItems_nil
  · exact encodableItems_singleton (encodable_str _)

@[simp] theorem encodableItems_checkIntRange (lower upper n : Int) :
    EncodableItems (checkIntRange (str loc) lower upper n) := by
  unfold checkIntRange
  split_ifs
  · exact encodableItems_singleton (by simp)
  · exact encodableItems_singleton (by simp)
  · exact encodableItems_nil

@[simp] theorem encodableItems_checkAtLeast (lower n : Int) :
    EncodableItems (checkAtLeast (str loc) lower n) := by
  unfold checkAtLeast
  split_ifs
  · exact encodableItems_singleton (by simp)
  · exact encodableItems_nil

@[simp] theorem encodableItems_checkOptional {α : Type} {check : α → List ErrorItem}
    (h : ∀ x, EncodableItems (check x)) (a : Option α) : EncodableItems (checkOptional check a) := by
  cases a with
  | none => exact encodableItems_nil
  | some x => exact h x

theorem encodableItems_thenModel {fieldErrors modelErrors : List ErrorItem}
    (fields : EncodableItems fieldErrors) (model : EncodableItems modelErrors) :
    EncodableItems (thenModel fieldErrors modelErrors) := by
  unfold thenModel
  split_ifs
  · exact model
  · exact fields

end

/-! ### What a computation can raise -/

/-- Everything that `x` raises satisfies `P`. -/
def OnlyRaises {ε α : Type} (P : ε → Prop) (x : Except ε α) : Prop := ∀ e, x = .error e → P e

section

variable {ε α β : Type} {P Q : ε → Prop}

theorem exists_eq_ok {x : Except ε α} (h : x.isOk = true) : ∃ a, x = .ok a := by
  cases x with
  | error e => cases h
  | ok a => exact ⟨a, rfl⟩

/-- A computation that returns ran its first part and then the rest. -/
theorem eq_ok_of_bind {x : Except ε α} {f : α → Except ε β} {b : β} (h : (x >>= f) = .ok b) :
    ∃ a, x = .ok a ∧ f a = .ok b := by
  cases x with
  | error e => cases h
  | ok a => exact ⟨a, rfl, h⟩

/-- A check that passes exactly when every item does refuses over some item. -/
theorem exists_not_of_refused {R : α → Prop} {xs : List α} {check : Except ε Unit} {e : ε}
    (passes : check = .ok () ↔ ∀ x ∈ xs, R x) (refused : check = .error e) : ∃ x ∈ xs, ¬ R x := by
  by_contra none_fails
  push Not at none_fails
  rw [passes.mpr none_fails] at refused
  cases refused

theorem onlyRaises_pure {a : α} : OnlyRaises P (pure a : Except ε α) := fun _ h => nomatch h

theorem OnlyRaises.mono {x : Except ε α} (h : OnlyRaises P x) (weaker : ∀ e, P e → Q e) :
    OnlyRaises Q x := fun e raised => weaker e (h e raised)

theorem OnlyRaises.bind {x : Except ε α} {f : α → Except ε β} (hx : OnlyRaises P x)
    (hf : ∀ a, OnlyRaises P (f a)) : OnlyRaises P (x >>= f) := by
  intro e raised
  cases result : x with
  | error e' =>
      rw [result] at raised
      cases raised
      exact hx e result
  | ok a =>
      rw [result] at raised
      exact hf a e raised

theorem onlyRaises_bind_iff {x : Except ε α} {f : α → Except ε β} :
    OnlyRaises P (x >>= f) ↔ OnlyRaises P x ∧ ∀ a, x = .ok a → OnlyRaises P (f a) := by
  cases x with
  | error e =>
      constructor
      · intro h
        exact ⟨fun e' raised => h e' (Except.error.inj raised ▸ rfl), fun _ returned => nomatch returned⟩
      · rintro ⟨h, -⟩ e' raised
        exact h e' (Except.error.inj raised ▸ rfl)
  | ok a =>
      constructor
      · intro h
        refine ⟨fun _ raised => (nomatch raised), ?_⟩
        intro b returned
        cases returned
        exact h
      · rintro ⟨-, h⟩
        exact h a rfl

end

/-- A report of at least one item that can be stored as text. -/
def IsModelError (e : Failure) : Prop :=
  ∃ items, e = .validation items ∧ items ≠ [] ∧ EncodableItems items

/-- A model refuses its fields with such a report. -/
theorem isModelError_of_validate {α : Type} {items : List ErrorItem} {build : items = [] → α}
    (plain : EncodableItems items) :
    OnlyRaises IsModelError (if h : items = [] then .ok (build h) else .error (.validation items)) := by
  intro e raised
  split at raised
  · cases raised
  · rename_i refused
    cases raised
    exact ⟨items, rfl, refused, plain⟩

end CnPropertyAgent
