import CnPropertyAgent.Domain.Validation
import CnPropertyAgent.Python.Json

/-!
`model_validate` of a mapping that was read from a file.

Each field is looked up under its name and validated, and the items of all fields are
reported together, in declaration order. Keys that name no field are ignored, or forbidden.
-/

namespace CnPropertyAgent

open Python

/-- A JSON object, or a mapping with the same values. -/
abbrev Payload := List (Str × Json)

/-- A validated value, or the items of the `ValidationError`. -/
abbrev Validated (α : Type) := Except (List ErrorItem) α

/-- The items of two parts of one model, in their order. -/
def Validated.both {α β : Type} : Validated α → Validated β → Validated (α × β)
  | .ok a, .ok b => .ok (a, b)
  | .ok _, .error items => .error items
  | .error items, .ok _ => .error items
  | .error items, .error items' => .error (items ++ items')

/-- `payload.get(name)`. -/
def Payload.get? (payload : Payload) (name : Str) : Option Json :=
  (payload.find? fun entry => entry.1 = name).map Prod.snd

/-- How pydantic reads the values that it converts. -/
class Pydantic where
  /-- An `AwareDatetime` field; an error is the message of its item. -/
  awareDatetime : Json → Except Str AwareDatetime

/-- An `AwareDatetime` field. -/
def validateAwareDatetime [Pydantic] (loc : Str) (value : Json) : Validated AwareDatetime :=
  (Pydantic.awareDatetime value).mapError fun msg => [⟨[loc], msg⟩]

/-- A `str` field with the constraints that `check` checks. -/
def validateText (loc : Str) (check : Str → List ErrorItem) : Json → Validated {s : Str // check s = []}
  | .text s => if h : check s = [] then .ok ⟨s, h⟩ else .error (check s)
  | _ => .error [⟨[loc], str "Input should be a valid string"⟩]

/-- A field without a default. -/
def requireField {α : Type} (payload : Payload) (loc : Str) (validate : Json → Validated α) : Validated α :=
  match payload.get? loc with
  | none => .error [⟨[loc], str "Field required"⟩]
  | some value => validate value

/-- A `str | None` field with the default `None`. -/
def optionalText (payload : Payload) (loc : Str) (check : Str → List ErrorItem) :
    Validated {s : Option Str // checkOptional check s = []} :=
  match payload.get? loc with
  | none => .ok ⟨none, rfl⟩
  | some .null => .ok ⟨none, rfl⟩
  | some value => (validateText loc check value).map fun s => ⟨some s.1, s.2⟩

/-- The items of keys that name no field, of a model that forbids them. -/
def forbidExtra (names : List Str) (payload : Payload) : List ErrorItem :=
  (payload.filter fun entry => entry.1 ∉ names).map fun entry =>
    ⟨[entry.1], str "Extra inputs are not permitted"⟩

/-- A value, unless more items are reported. -/
def Validated.unless {α : Type} (validated : Validated α) (more : List ErrorItem) : Validated α :=
  if more = [] then validated
  else match validated with
    | .ok _ => .error more
    | .error items => .error (items ++ more)

/-- The payload has this text under the name, or for `None` either nothing or a null. -/
def SaysText (payload : Payload) (loc : Str) : Option Str → Prop
  | none => payload.get? loc = none ∨ payload.get? loc = some .null
  | some s => payload.get? loc = some (.text s)

section

variable {α β : Type}

@[simp] theorem Validated.both_eq_ok {x : Validated α} {y : Validated β} {a : α} {b : β} :
    Validated.both x y = .ok (a, b) ↔ x = .ok a ∧ y = .ok b := by
  cases x <;> cases y <;> simp [both]

theorem Validated.map_eq_ok {x : Validated α} {f : α → β} {b : β} :
    x.map f = .ok b ↔ ∃ a, x = .ok a ∧ f a = b := by
  cases x <;> simp [Except.map]

theorem validateText_eq_ok {loc : Str} {check : Str → List ErrorItem} {value : Json}
    {t : {s : Str // check s = []}} : validateText loc check value = .ok t ↔ value = .text t.1 := by
  constructor
  · intro validated
    unfold validateText at validated
    split at validated
    · split_ifs at validated with valid
      rw [← Except.ok.inj validated]
    · cases validated
  · rintro rfl
    rw [validateText, dif_pos t.2]

theorem requireField_eq_ok {payload : Payload} {loc : Str} {validate : Json → Validated α} {a : α} :
    requireField payload loc validate = .ok a ↔
      ∃ value, payload.get? loc = some value ∧ validate value = .ok a := by
  unfold requireField
  cases payload.get? loc <;> simp

theorem optionalText_eq_ok {payload : Payload} {loc : Str} {check : Str → List ErrorItem}
    {t : {s : Option Str // checkOptional check s = []}} :
    optionalText payload loc check = .ok t ↔ SaysText payload loc t.1 := by
  obtain ⟨t, valid⟩ := t
  have given (value : Json) (validated : (validateText loc check value).map (fun s => (⟨some s.1, s.2⟩ :
      {s : Option Str // checkOptional check s = []})) = .ok ⟨t, valid⟩) :
      ∃ s, value = .text s ∧ t = some s := by
    obtain ⟨s, text, same⟩ := Validated.map_eq_ok.mp validated
    exact ⟨s.1, validateText_eq_ok.mp text, (congrArg Subtype.val same).symm⟩
  unfold optionalText
  split
  · rename_i absent
    cases t <;> simp [SaysText, absent, Subtype.ext_iff]
  · rename_i null
    cases t <;> simp [SaysText, null, Subtype.ext_iff]
  · rename_i value other found
    constructor
    · intro validated
      obtain ⟨s, rfl, rfl⟩ := given value validated
      exact found
    · intro told
      cases t with
      | none =>
          rcases told with absent | null
          · cases found.symm.trans absent
          · cases found.symm.trans null
            exact absurd rfl other
      | some s =>
          cases found.symm.trans told
          exact Validated.map_eq_ok.mpr ⟨⟨s, valid⟩, validateText_eq_ok.mpr rfl, rfl⟩

theorem validateAwareDatetime_eq_ok [Pydantic] {loc : Str} {value : Json} {t : AwareDatetime} :
    validateAwareDatetime loc value = .ok t ↔ Pydantic.awareDatetime value = .ok t := by
  unfold validateAwareDatetime
  cases Pydantic.awareDatetime value <;> simp [Except.mapError]

theorem Validated.unless_nil {validated : Validated α} : Validated.unless validated [] = validated := if_pos rfl

/-! ### The order of the keys -/

theorem Payload.get?_eq_none_iff {payload : Payload} {name : Str} :
    payload.get? name = none ↔ name ∉ payload.map Prod.fst := by
  simp only [Payload.get?, Option.map_eq_none_iff, List.find?_eq_none, decide_eq_true_eq, List.mem_map,
    not_exists, not_and]

/-- Among distinct keys, each is found with its value. -/
theorem Payload.get?_eq_some_iff {payload : Payload} (distinct : (payload.map Prod.fst).Nodup) {name : Str}
    {value : Json} : payload.get? name = some value ↔ (name, value) ∈ payload := by
  unfold Payload.get?
  induction payload with
  | nil => simp
  | cons entry payload ih =>
      rw [List.map_cons, List.nodup_cons] at distinct
      rw [List.find?_cons, List.mem_cons]
      by_cases first : entry.1 = name
      · have later : (name, value) ∉ payload := fun mem =>
          distinct.1 (first ▸ List.mem_map_of_mem (f := Prod.fst) mem)
        simp only [first, decide_true, Option.map_some, Option.some.injEq]
        constructor
        · rintro rfl
          exact Or.inl (Prod.ext first.symm rfl)
        · rintro (rfl | mem)
          · rfl
          · exact absurd mem later
      · have other : (name, value) ≠ entry := fun same => first (congrArg Prod.fst same).symm
        simp only [first, decide_false, ih distinct.2, other, false_or]

/-- Keys are found wherever they stand. -/
theorem Payload.get?_perm {payload other : Payload} (perm : payload.Perm other)
    (distinct : (payload.map Prod.fst).Nodup) (name : Str) : payload.get? name = other.get? name := by
  have distinct' : (other.map Prod.fst).Nodup := (perm.map Prod.fst).nodup_iff.mp distinct
  ext value
  rw [Payload.get?_eq_some_iff distinct, Payload.get?_eq_some_iff distinct', perm.mem_iff]

theorem saysText_perm {payload other : Payload} (perm : payload.Perm other)
    (distinct : (payload.map Prod.fst).Nodup) (loc : Str) (told : Option Str) :
    SaysText payload loc told ↔ SaysText other loc told := by
  unfold SaysText
  rw [Payload.get?_perm perm distinct]

end

end CnPropertyAgent
