import CnPropertyAgent.Python.Datetime
import CnPropertyAgent.Relational.Query
import Mathlib.Algebra.Order.Field.Rat
import Mathlib.Data.Prod.Lex

/-!
Doubles, and the parts of Python that rest on tables or on the machine.

A double is a rational, an infinity or a NaN. The exact result of an operation on
finite doubles goes through `Runtime.round`, which stands for the rounding to the
nearest double, overflow to an infinity included; only that it keeps small
integers is assumed of it, so every statement holds of exact arithmetic and of
binary64 alike.

`Runtime` collects what is taken as given: the rounding, where `sorted` puts a NaN,
the text of a float, the Unicode tables behind NFKC, case folding, decimal digits and printability,
`datetime.fromisoformat` and SHA-256. Its laws are the documented ones that the
development uses: texts of floats and hexadecimal digests are plain text, no
surrogate is printable, and NFKC and case folding keep surrogates as they are.
-/

namespace Python

/-- A binary64 value; the two zeros are one. -/
inductive Double where
  | finite (q : ℚ)
  | posInf
  | negInf
  | nan
deriving DecidableEq

namespace Double

instance : OfNat Double n := ⟨.finite n⟩

/-- `a < b`; a comparison with a NaN is false. -/
def lt : Double → Double → Bool
  | .nan, _ => false
  | _, .nan => false
  | .finite a, .finite b => a < b
  | .negInf, .negInf => false
  | .negInf, _ => true
  | .finite _, .posInf => true
  | _, _ => false

/-- `a <= b`. -/
def le : Double → Double → Bool
  | .nan, _ => false
  | _, .nan => false
  | a, b => !b.lt a

def isFinite : Double → Bool
  | .finite _ => true
  | _ => false

/-- `abs(x)`. -/
def abs : Double → Double
  | .finite q => .finite |q|
  | .negInf => .posInf
  | x => x

def neg : Double → Double
  | .finite q => .finite (-q)
  | .posInf => .negInf
  | .negInf => .posInf
  | .nan => .nan

theorem ne_nan_of_lt {a b : Double} (h : a.lt b = true) : b ≠ .nan := by
  rintro rfl
  cases a <;> simp [lt] at h

theorem isFinite_iff {x : Double} : x.isFinite = true ↔ ∃ q, x = .finite q := by
  cases x <;> simp [isFinite]

/-- Above zero are the positive numbers and the infinity. -/
theorem finite_or_posInf {x : Double} (h : Double.lt 0 x = true) :
    (∃ q, 0 < q ∧ x = .finite q) ∨ x = .posInf := by
  cases x with
  | finite q => exact Or.inl ⟨q, of_decide_eq_true h, rfl⟩
  | posInf => exact Or.inr rfl
  | negInf => cases h
  | nan => cases h

theorem not_lt_of_lt {x : Double} (h : x.lt 0 = true) : Double.lt 0 x = false := by
  cases x with
  | finite q => simp_all [lt, OfNat.ofNat, le_of_lt]
  | _ => simp_all [lt]

theorem not_le_of_lt {x : Double} (h : Double.lt 0 x = true) : x.le 0 = false := by
  cases x with
  | finite q => simp_all [le, lt, OfNat.ofNat]
  | _ => simp_all [le, lt]

end Double

/-- What `datetime.fromisoformat` returns: a reading with an offset, or a naive one. -/
inductive IsoDatetime where
  | aware (t : AwareDatetime)
  | naive

/-- A place for every double, with NaN past the infinities. -/
def Double.rank : Double → ℕ ×ₗ ℚ
  | .negInf => toLex (0, 0)
  | .finite q => toLex (1, q)
  | .posInf => toLex (2, 0)
  | .nan => toLex (3, 0)

theorem Double.le_of_rank_le {a b : Double} (h : a.rank ≤ b.rank) (ha : a ≠ .nan) (hb : b ≠ .nan) :
    a.le b = true := by
  cases a <;> cases b <;> simp_all [Double.rank, Double.le, Double.lt, Prod.Lex.toLex_le_toLex]

/-- Two doubles at most each other are one. -/
theorem Double.eq_of_le_of_le {a b : Double} (h : a.le b = true) (h' : b.le a = true) : a = b := by
  cases a <;> cases b <;> simp_all [Double.le, Double.lt]
  exact le_antisymm h h'

class Runtime where
  /-- The double nearest to an exact result. -/
  round : ℚ → Double
  /-- `sorted(xs)` of floats. -/
  sorted : List Double → List Double
  /-- `repr(x)`. -/
  floatRepr : Double → Str
  /-- `f"{x:.2%}"`. -/
  floatPercent : Double → Str
  /-- `unicodedata.normalize("NFKC", text)`. -/
  nfkc : Str → Str
  /-- `text.casefold()`. -/
  casefold : Str → Str
  /-- The digit a character of category `Nd` stands for. -/
  decimal? : CodePoint → Option (Fin 10)
  isPrintable : CodePoint → Bool
  /-- The levels of containers that `repr` descends before `RecursionError`. -/
  reprLimit : Nat
  /-- `datetime.fromisoformat(text)`; `none` is `ValueError`. -/
  fromisoformat : Str → Option IsoDatetime
  /-- `hashlib.sha256(data).hexdigest()`. -/
  sha256 : List UInt8 → Str
  /-- Integers of at most 53 bits are doubles. -/
  round_int : ∀ n : Int, n.natAbs ≤ 2 ^ 53 → round n = .finite n
  perm_sorted : ∀ xs, (sorted xs).Perm xs
  pairwise_sorted : ∀ xs, (∀ x ∈ xs, x ≠ .nan) → (sorted xs).Pairwise fun a b => a.le b = true
  encodable_floatRepr : ∀ x, (floatRepr x).Encodable
  encodable_floatPercent : ∀ x, (floatPercent x).Encodable
  /-- Normalization neither removes a surrogate nor makes one. -/
  encodable_nfkc_iff : ∀ s, (nfkc s).Encodable ↔ s.Encodable
  /-- Nor does case folding. -/
  encodable_casefold_iff : ∀ s, (casefold s).Encodable ↔ s.Encodable
  printable_not_surrogate : ∀ c, isPrintable c = true → c.isSurrogate = false
  encodable_sha256 : ∀ data, (sha256 data).Encodable

/-- A runtime that rounds to the nearest: no exact result becomes a NaN, and none from zero
on becomes the negative infinity. -/
class NearestRuntime extends Runtime where
  round_ne_nan : ∀ q, round q ≠ .nan
  round_ne_negInf : ∀ q, 0 ≤ q → round q ≠ .negInf

/-- A runtime whose NFKC obeys the standard: a part of a normal form is one, an ideographic
space is never made, and a comma is made only of characters that no normal form has. -/
class NfkcRuntime extends Runtime where
  nfkc_of_infix : ∀ s t, s <:+: nfkc t → nfkc s = s
  ideographicSpace_mem_nfkc : ∀ s, 0x3000 ∈ nfkc s → 0x3000 ∈ s
  comma_mem_nfkc : ∀ s, 0x2C ∈ nfkc s → 0x2C ∈ s ∨ ∃ c ∈ s, ∀ t, c ∉ nfkc t
  casefold_nil : casefold [] = []

/-- A character without case: whitespace, a decimal digit, ASCII before the letters, or one of
the CJK blocks. -/
def CodePoint.Caseless [Runtime] (c : CodePoint) : Prop :=
  c.isSpace = true ∨ (Runtime.decimal? c).isSome = true ∨ c.val < 0x41 ∨ 0x3000 ≤ c.val ∧ c.val ≤ 0x9FFF

/-- A runtime whose character tables obey the standard: case folding goes character by
character, and neither changes nor makes one without case; decimal digits are those of ASCII
and others behind its blocks, none of them whitespace or of the CJK blocks. -/
class CharacterRuntime extends Runtime where
  /-- The full case folding of one character. -/
  fold : CodePoint → Str
  casefold_eq : ∀ s, casefold s = s.flatMap fold
  fold_ne_nil : ∀ c, fold c ≠ []
  fold_small : ∀ c : CodePoint, 0x61 ≤ c.val → c.val ≤ 0x7A → fold c = [c]
  fold_caseless : ∀ c : CodePoint, c.Caseless → fold c = [c]
  eq_of_mem_fold : ∀ c, ∀ d ∈ fold c, d.Caseless → c = d
  decimal_cases : ∀ c : CodePoint, (decimal? c).isSome = true →
    0x30 ≤ c.val ∧ c.val ≤ 0x39 ∨ 0x660 ≤ c.val ∧ c.isSpace = false ∧ (c.val < 0x3000 ∨ 0x9FFF < c.val)

section

variable [CharacterRuntime]

theorem CharacterRuntime.casefold_eq_self {s : Str} (kept : ∀ c ∈ s, fold c = [c]) :
    Runtime.casefold s = s := by
  rw [casefold_eq, List.flatMap_congr kept, List.flatMap_singleton']

/-- A text that is folded to one without case is itself without case. -/
theorem CharacterRuntime.casefold_eq_self_of_caseless {s : Str}
    (caseless : ∀ c ∈ Runtime.casefold s, c.Caseless) : Runtime.casefold s = s := by
  apply casefold_eq_self
  intro c mem
  obtain ⟨d, folded⟩ := List.exists_mem_of_ne_nil _ (fold_ne_nil c)
  have made : d.Caseless := by
    apply caseless d
    rw [casefold_eq]
    exact List.mem_flatMap.mpr ⟨c, mem, folded⟩
  exact fold_caseless c (eq_of_mem_fold c d folded made ▸ made)

end

/-- Without a NaN, sorting forgets the order of its argument. -/
theorem Runtime.sorted_congr [Runtime] {xs ys : List Double} (perm : xs.Perm ys)
    (numbers : ∀ x ∈ xs, x ≠ .nan) : sorted xs = sorted ys := by
  apply List.Perm.eq_of_pairwise
  · intro a b _ _ le le'
    exact Double.eq_of_le_of_le le le'
  · exact pairwise_sorted xs numbers
  · exact pairwise_sorted ys fun y mem => numbers y (perm.mem_iff.mpr mem)
  · exact (perm_sorted xs).trans (perm.trans (perm_sorted ys).symm)

namespace Double

variable [Runtime]

private def sign (q : ℚ) : Double :=
  if 0 < q then .posInf else if q < 0 then .negInf else .nan

/-- `a * b`. -/
def mul : Double → Double → Double
  | .finite a, .finite b => Runtime.round (a * b)
  | .nan, _ => .nan
  | _, .nan => .nan
  | .finite a, .posInf => sign a
  | .finite a, .negInf => (sign a).neg
  | .posInf, .finite b => sign b
  | .negInf, .finite b => (sign b).neg
  | .posInf, .posInf => .posInf
  | .negInf, .negInf => .posInf
  | .posInf, .negInf => .negInf
  | .negInf, .posInf => .negInf

/-- `a + b`. -/
def add : Double → Double → Double
  | .finite a, .finite b => Runtime.round (a + b)
  | .nan, _ => .nan
  | _, .nan => .nan
  | .posInf, .negInf => .nan
  | .negInf, .posInf => .nan
  | .posInf, _ => .posInf
  | _, .posInf => .posInf
  | .negInf, _ => .negInf
  | _, .negInf => .negInf

/-- `a - b`. -/
def sub (a b : Double) : Double := a.add b.neg

/-- `a / b`; dividing by zero raises, for every `a`. -/
def div : Double → Double → Except Exc Double
  | _, .finite 0 => .error (.zeroDivisionError (str "float division by zero"))
  | .finite a, .finite b => .ok (Runtime.round (a / b))
  | .nan, _ => .ok .nan
  | _, .nan => .ok .nan
  | .finite _, .posInf => .ok 0
  | .finite _, .negInf => .ok 0
  | .posInf, .finite b => .ok (sign b)
  | .negInf, .finite b => .ok (sign b).neg
  | _, _ => .ok .nan

/-- A divisor that is not at most zero never raises. -/
theorem div_ok {a b : Double} (h : b.le 0 = false) : ∃ r, a.div b = .ok r := by
  cases b with
  | finite q =>
      have hq : q ≠ 0 := by rintro rfl; simp [le, lt, OfNat.ofNat] at h
      cases a <;> simp [div, hq]
  | posInf => cases a <;> exact ⟨_, rfl⟩
  | negInf => simp [le, lt] at h
  | nan => cases a <;> exact ⟨_, rfl⟩

theorem div_ok_of_pos {a b : Double} (h : Double.lt 0 b = true) : ∃ r, a.div b = .ok r :=
  div_ok (not_le_of_lt h)

theorem mul_posInf {a : Double} (h : Double.lt 0 a = true) : a.mul .posInf = .posInf := by
  rcases finite_or_posInf h with ⟨q, positive, rfl⟩ | rfl
  · exact if_pos positive
  · rfl

theorem posInf_mul {b : Double} (h : Double.lt 0 b = true) : Double.posInf.mul b = .posInf := by
  rcases finite_or_posInf h with ⟨q, positive, rfl⟩ | rfl
  · exact if_pos positive
  · rfl

theorem posInf_div {b : ℚ} (h : 0 < b) : Double.posInf.div (.finite b) = .ok .posInf := by
  have nonzero : b ≠ 0 := ne_of_gt h
  simp [div, nonzero, sign, h]

theorem negInf_div {b : ℚ} (h : 0 < b) : Double.negInf.div (.finite b) = .ok .negInf := by
  have nonzero : b ≠ 0 := ne_of_gt h
  simp [div, nonzero, sign, h, neg]

/-- `float(n)` of an `int`. -/
def ofInt (n : Int) : Except Exc Double :=
  match Runtime.round n with
  | .finite q => .ok (.finite q)
  | _ => .error (.overflowError (str "int too large to convert to float"))

theorem ofInt_ok {n : Int} (h : n.natAbs ≤ 2 ^ 53) : ofInt n = .ok (.finite n) := by
  simp [ofInt, Runtime.round_int n h]

end Double

/-- `repr(text)`. -/
def Str.pyRepr [Runtime] (s : Str) : Str := s.repr Runtime.isPrintable

@[simp] theorem encodable_pyRepr [Runtime] (s : Str) : s.pyRepr.Encodable :=
  encodable_repr Runtime.printable_not_surrogate s

attribute [simp] Runtime.encodable_floatRepr Runtime.encodable_floatPercent Runtime.encodable_sha256

/-- The Unicode tables on ASCII text and its full-width forms, with exact arithmetic;
SHA-256 and ISO timestamps are parameters. -/
@[reducible] def Runtime.ascii (sha256 : List UInt8 → String) (fromisoformat : Str → Option IsoDatetime) :
    Runtime where
  round := .finite
  sorted := Relational.orderBy Double.rank
  floatRepr
    | .finite q => str (toString q.num ++ "/" ++ toString q.den)
    | .posInf => str "inf"
    | .negInf => str "-inf"
    | .nan => str "nan"
  floatPercent
    | .finite q => intStr (q * 100).floor ++ str "%"
    | .posInf => str "inf%"
    | .negInf => str "-inf%"
    | .nan => str "nan%"
  nfkc := List.map fun c => if 0xFF01 ≤ c.val ∧ c.val ≤ 0xFF5E then c - 0xFEE0 else c
  casefold := List.map fun c => if 0x41 ≤ c.val ∧ c.val ≤ 0x5A then c + 32 else c
  decimal? c := if 0x30 ≤ c.val ∧ c.val ≤ 0x39 then some (Fin.ofNat 10 (c.val - 0x30)) else none
  isPrintable c := 0x20 ≤ c.val && c.val ≤ 0x7E
  reprLimit := 1000
  fromisoformat := fromisoformat
  sha256 data := str (sha256 data)
  round_int _ _ := rfl
  perm_sorted := Relational.perm_orderBy Double.rank
  pairwise_sorted xs numbers := (Relational.pairwise_orderBy Double.rank xs).imp_of_mem
    fun ha hb le => Double.le_of_rank_le le (numbers _ (Relational.mem_orderBy.mp ha))
      (numbers _ (Relational.mem_orderBy.mp hb))
  encodable_floatRepr x := by cases x <;> simp
  encodable_floatPercent x := by cases x <;> simp
  encodable_nfkc_iff s := by
    have narrow (c : CodePoint) : (if 0xFF01 ≤ c.val ∧ c.val ≤ 0xFF5E then c - 0xFEE0 else c).isSurrogate =
        c.isSurrogate := by
      split_ifs with wide
      · have value : (c - 0xFEE0 : CodePoint).val = c.val - 0xFEE0 :=
          Fin.sub_val_of_le (by rw [Fin.le_def]; exact le_trans (by decide) wide.1)
        have plain : (c - 0xFEE0 : CodePoint).isSurrogate = false := by
          rw [CodePoint.isSurrogate_eq_false_iff, value]
          omega
        rw [plain, eq_comm, CodePoint.isSurrogate_eq_false_iff]
        omega
      · rfl
    simp [Str.Encodable, narrow]
  encodable_casefold_iff s := by
    have lower (c : CodePoint) : (if 0x41 ≤ c.val ∧ c.val ≤ 0x5A then c + 32 else c).isSurrogate =
        c.isSurrogate := by
      split_ifs with upper
      · have value : (c + 32 : CodePoint).val = c.val + 32 := by
          refine Fin.val_add_eq_of_add_lt ?_
          have : (32 : CodePoint).val = 32 := rfl
          omega
        have plain : (c + 32 : CodePoint).isSurrogate = false := by
          rw [CodePoint.isSurrogate_eq_false_iff, value]
          omega
        rw [plain, eq_comm, CodePoint.isSurrogate_eq_false_iff]
        omega
      · rfl
    simp [Str.Encodable, lower]
  printable_not_surrogate c h := by
    simp only [Bool.and_eq_true, decide_eq_true_eq] at h
    rw [CodePoint.isSurrogate_eq_false_iff]
    omega
  encodable_sha256 _ := encodable_str _

end Python
