import CnPropertyAgent.Python.Text
import Mathlib.Algebra.Order.Ring.Int
import Mathlib.Order.Basic

/-!
Python's `date`, and the exceptions of the built-in types.

A date is its proleptic ordinal, which exists for the years 1 to 9999 only, so
adding days to one is partial.
-/

namespace Python

/-- The built-in exceptions the modelled code can raise. -/
inductive Exc where
  | valueError (message : Str)
  | overflowError (message : Str)
  | zeroDivisionError (message : Str)
  | unicodeEncodeError
  | indexError (message : Str)
  | recursionError
deriving DecidableEq

/-- `str(error)`. -/
def Exc.message : Exc → Str
  | .valueError message => message
  | .overflowError message => message
  | .zeroDivisionError message => message
  | .unicodeEncodeError => str "'utf-8' codec can't encode: surrogates not allowed"
  | .indexError message => message
  | .recursionError => str "maximum recursion depth exceeded while getting the repr of an object"

/-- The numerals Python prints have at most 4300 digits. -/
def maxStrDigits : Nat := 4300

/-- `str(n)` of an `int`. -/
def strInt (n : Int) : Except Exc Str :=
  if n.natAbs < 10 ^ maxStrDigits then .ok (intStr n)
  else .error (.valueError (str ("Exceeds the limit (4300 digits) for integer string conversion; " ++
    "use sys.set_int_max_str_digits() to increase the limit")))

/-! ### Dates -/

/-- `date.max.toordinal()`: the last day of the year 9999. -/
def maxOrdinal : Int := 3652059

@[ext] structure Date where
  ordinal : Int
  one_le : 1 ≤ ordinal
  le_max : ordinal ≤ maxOrdinal
deriving DecidableEq

instance : LinearOrder Date := LinearOrder.lift' Date.ordinal fun _ _ => Date.ext

theorem Date.le_def {a b : Date} : a ≤ b ↔ a.ordinal ≤ b.ordinal := Iff.rfl

theorem Date.lt_def {a b : Date} : a < b ↔ a.ordinal < b.ordinal := Iff.rfl

/-- The date with an ordinal, if there is one. -/
def Date.ofOrdinal? (n : Int) : Option Date :=
  if h : 1 ≤ n ∧ n ≤ maxOrdinal then some ⟨n, h.1, h.2⟩ else none

/-- `d + timedelta(days=n)`. -/
def Date.addDays (d : Date) (n : Int) : Except Exc Date :=
  match Date.ofOrdinal? (d.ordinal + n) with
  | some d' => .ok d'
  | none => .error (.overflowError (str "date value out of range"))

theorem Date.addDays_ok_iff {d d' : Date} {n : Int} :
    d.addDays n = .ok d' ↔ d'.ordinal = d.ordinal + n := by
  unfold addDays ofOrdinal?
  split_ifs with exists_
  · simp [Date.ext_iff, eq_comm]
  · have lower := d'.one_le
    have upper := d'.le_max
    simp only [false_iff]
    omega

def isLeap (year : Nat) : Bool := year % 4 = 0 && (year % 100 ≠ 0 || year % 400 = 0)

def daysBeforeYear (year : Nat) : Nat :=
  let y := year - 1
  y * 365 + y / 4 - y / 100 + y / 400

def daysInMonth (year month : Nat) : Nat :=
  if month = 2 then (if isLeap year then 29 else 28)
  else if month = 4 || month = 6 || month = 9 || month = 11 then 30 else 31

def daysBeforeMonth (year month : Nat) : Nat :=
  ((List.range month).drop 1).foldl (fun days m => days + daysInMonth year m) 0

/-- `date(year, month, day)`. -/
def Date.ofYmd (year month day : Nat) : Except Exc Date :=
  if ¬ (1 ≤ year ∧ year ≤ 9999) then
    .error (.valueError (str "year " ++ natStr year ++ str " is out of range"))
  else if ¬ (1 ≤ month ∧ month ≤ 12) then .error (.valueError (str "month must be in 1..12"))
  else if ¬ (1 ≤ day ∧ day ≤ daysInMonth year month) then
    .error (.valueError (str "day is out of range for month"))
  else match Date.ofOrdinal? (daysBeforeYear year + daysBeforeMonth year month + day) with
    | some d => .ok d
    | none => .error (.valueError (str "ordinal is out of range"))

/-- Year, month and day of an ordinal, by the cycles of 400, 100, 4 and 1 years. -/
def ymdOfOrdinal (ordinal : Nat) : Nat × Nat × Nat :=
  let n := ordinal - 1
  let n400 := n / 146097
  let n := n % 146097
  let n100 := n / 36524
  let n := n % 36524
  let n4 := n / 1461
  let n := n % 1461
  let n1 := n / 365
  let n := n % 365
  let year := n400 * 400 + n100 * 100 + n4 * 4 + n1 + 1
  if n1 = 4 || n100 = 4 then (year - 1, 12, 31)
  else
    let month := (n + 50) / 32
    let month := if n < daysBeforeMonth year month then month - 1 else month
    (year, month, n - daysBeforeMonth year month + 1)

/-- `str(d)`. -/
def Date.isoformat (d : Date) : Str :=
  let (year, month, day) := ymdOfOrdinal d.ordinal.toNat
  paddedStr 4 year ++ str "-" ++ paddedStr 2 month ++ str "-" ++ paddedStr 2 day

@[simp] theorem Date.encodable_isoformat (d : Date) : d.isoformat.Encodable := by
  simp [Date.isoformat]

end Python
