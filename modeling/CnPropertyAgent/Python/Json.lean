import CnPropertyAgent.Python.Runtime

/-!
What `json.loads` produces, and the texts Python makes of it.

An integer that was read has at most 4300 digits and prints again. A text may hold
unpaired surrogates, and so may a key; `repr` escapes them, so the text of anything
but a string is plain.
-/

namespace Python

/-- The integers that can be read and printed. -/
abbrev PrintableInt := {n : Int // n.natAbs < 10 ^ maxStrDigits}

inductive Json where
  | null
  | bool (b : Bool)
  | int (n : PrintableInt)
  | float (x : Double)
  | text (s : Str)
  | array (items : List Json)
  /-- The entries in order; no key is read twice. -/
  | object (entries : List (Str × Json))

namespace Json

/-- `type(value).__name__`. -/
def typeName : Json → Str
  | null => str "NoneType"
  | bool _ => str "bool"
  | int _ => str "int"
  | float _ => str "float"
  | text _ => str "str"
  | array _ => str "list"
  | object _ => str "dict"

mutual

/-- The levels of containers that `repr(value)` descends. -/
def depth : Json → Nat
  | array items => depthItems items
  | object entries => depthEntries entries
  | _ => 0

def depthItems : List Json → Nat
  | [] => 0
  | item :: items => max (depth item + 1) (depthItems items)

def depthEntries : List (Str × Json) → Nat
  | [] => 0
  | (_, value) :: entries => max (depth value + 1) (depthEntries entries)

end

section

variable [Runtime]

mutual

/-- `repr(value)` of a value that is not too deep. -/
def repr : Json → Str
  | null => str "None"
  | bool true => str "True"
  | bool false => str "False"
  | int n => intStr n
  | float x => Runtime.floatRepr x
  | text s => s.pyRepr
  | array items => str "[" ++ Str.join (str ", ") (reprItems items) ++ str "]"
  | object entries => str "\x7b" ++ Str.join (str ", ") (reprEntries entries) ++ str "\x7d"

def reprItems : List Json → List Str
  | [] => []
  | item :: items => repr item :: reprItems items

def reprEntries : List (Str × Json) → List Str
  | [] => []
  | (key, value) :: entries => (key.pyRepr ++ str ": " ++ repr value) :: reprEntries entries

end

/-- `str(value)` of a value that is not too deep. -/
def toStr : Json → Str
  | text s => s
  | value => value.repr

mutual

theorem encodable_repr : ∀ value : Json, value.repr.Encodable
  | null => by simp [repr]
  | bool true => by simp [repr]
  | bool false => by simp [repr]
  | int n => by simp [repr]
  | float x => by simp [repr]
  | text s => by simp [repr]
  | array items => by
      have parts := encodable_join (encodable_str ", ") (encodable_reprItems items)
      simp [repr, parts]
  | object entries => by
      have parts := encodable_join (encodable_str ", ") (encodable_reprEntries entries)
      simp [repr, parts]

theorem encodable_reprItems : ∀ items : List Json, ∀ part ∈ reprItems items, part.Encodable
  | [], _, h => nomatch h
  | item :: items, part, h => by
      rw [reprItems, List.mem_cons] at h
      rcases h with rfl | h
      · exact encodable_repr item
      · exact encodable_reprItems items part h

theorem encodable_reprEntries :
    ∀ entries : List (Str × Json), ∀ part ∈ reprEntries entries, part.Encodable
  | [], _, h => nomatch h
  | (key, value) :: entries, part, h => by
      rw [reprEntries, List.mem_cons] at h
      rcases h with rfl | h
      · simp [encodable_repr value]
      · exact encodable_reprEntries entries part h

end

end

end Json

end Python
