import CnPropertyAgent.Providers.Lianjia.Values
import CnPropertyAgent.Python.Tokens

/-!
The numerals that the scanners find.

A numeral is an optional sign, digits, and optionally a point with more digits (`Numeral`).
Between whitespace, the scan finds a numeral and nothing else (`Numeral.scan_eq`), so a number is
parsed exactly from a text that is left so, into the value of its numeral (`parseNumber_ok_iff`).
-/

namespace CnPropertyAgent.Lianjia

open Python

/-! ### The grammar -/

section

variable [Runtime]

/-- `[+-]?\d+(?:\.\d+)?`; without a fraction there is no point. -/
structure Numeral where
  sign : Str
  whole : Str
  fraction : Str
  sign_mem : sign ∈ [[], str "+", str "-"]
  whole_ne_nil : whole ≠ []
  whole_digits : ∀ c ∈ whole, isDigit c = true
  fraction_digits : ∀ c ∈ fraction, isDigit c = true

namespace Numeral

/-- The fraction with its point. -/
def pointed (n : Numeral) : Str := if n.fraction = [] then [] else 0x2E :: n.fraction

def text (n : Numeral) : Str := n.sign ++ (n.whole ++ n.pointed)

/-- The number that is written. -/
def value (n : Numeral) : ℚ :=
  let magnitude : ℚ := digitsValue n.whole + digitsValue n.fraction / 10 ^ n.fraction.length
  if n.sign = str "-" then -magnitude else magnitude

theorem text_ne_nil (n : Numeral) : n.text ≠ [] := by
  simp [text, n.whole_ne_nil]

/-- A numeral has digits, and at most a sign and a point beside them. -/
theorem mem_text {n : Numeral} {c : CodePoint} (mem : c ∈ n.text) :
    isDigit c = true ∨ c = 0x2B ∨ c = 0x2D ∨ c = 0x2E := by
  rcases List.mem_append.mp mem with sign | mem
  · have signs := n.sign_mem
    simp only [List.mem_cons, List.not_mem_nil, or_false] at signs
    rcases signs with none | plus | minus
    · rw [none] at sign
      cases sign
    · rw [plus] at sign
      exact Or.inr (Or.inl (List.mem_singleton.mp sign))
    · rw [minus] at sign
      exact Or.inr (Or.inr (Or.inl (List.mem_singleton.mp sign)))
  rcases List.mem_append.mp mem with whole | pointed
  · exact Or.inl (n.whole_digits c whole)
  · unfold Numeral.pointed at pointed
    split_ifs at pointed
    · cases pointed
    · rcases List.mem_cons.mp pointed with point | fraction
      · exact Or.inr (Or.inr (Or.inr point))
      · exact Or.inl (n.fraction_digits c fraction)

end Numeral

end

/-! ### Scanning -/

theorem mem_marks_iff {c : CodePoint} : c ∈ str "+-" ∨ c ∈ str "." ↔ c = 0x2B ∨ c = 0x2D ∨ c = 0x2E := by
  have signs : str "+-" = [0x2B, 0x2D] := by decide
  have point : str "." = [0x2E] := by decide
  rw [signs, point, List.mem_cons, List.mem_singleton, List.mem_singleton, or_assoc]

/-- Whitespace is neither a sign nor a point. -/
theorem not_mem_marks_of_isSpace {c : CodePoint} (blank : c.isSpace = true) : c ∉ str "+-" ∧ c ∉ str "." := by
  rw [← not_or, mem_marks_iff]
  rintro (rfl | rfl | rfl) <;> cases blank

section

variable [CharacterRuntime] {n : Numeral} {rest : Str}

theorem isDigit_eq_false_of_lt {c : CodePoint} (low : c.val < 0x30) : isDigit c = false := by
  by_contra digit
  have cases := CharacterRuntime.decimal_cases c (Bool.eq_true_of_not_eq_false digit)
  omega

theorem isDigit_eq_false_of_isSpace {c : CodePoint} (blank : c.isSpace = true) : isDigit c = false := by
  by_contra digit
  rcases CharacterRuntime.decimal_cases c (Bool.eq_true_of_not_eq_false digit) with ascii | ⟨-, shown, -⟩
  · simp only [CodePoint.isSpace, Bool.or_eq_true, Bool.and_eq_true, decide_eq_true_eq] at blank
    omega
  · rw [shown] at blank
    cases blank

/-- Neither is a digit. -/
theorem not_mem_marks_of_isDigit {c : CodePoint} (digit : isDigit c = true) : c ∉ str "+-" ∧ c ∉ str "." := by
  rw [← not_or, mem_marks_iff]
  rintro (rfl | rfl | rfl)
  all_goals
    rw [isDigit_eq_false_of_lt (by decide)] at digit
    cases digit

/-- No numeral goes on with this text. -/
def Closes (rest : Str) : Prop := ∀ c ∈ rest.head?, isDigit c = false ∧ c ∉ str "."

theorem takeWhile_digits {digits : Str} (all : ∀ c ∈ digits, isDigit c = true)
    (ends : ∀ c ∈ rest.head?, isDigit c = false) : (digits ++ rest).takeWhile isDigit = digits := by
  rw [List.takeWhile_append_of_pos all]
  cases rest with
  | nil => rw [List.takeWhile_nil, List.append_nil]
  | cons c rest =>
      rw [List.takeWhile_cons_of_neg (by rw [ends c rfl]; exact Bool.false_ne_true), List.append_nil]

theorem Numeral.signAt_eq (n : Numeral) (rest : Str) : signAt (n.sign ++ (n.whole ++ rest)) = n.sign := by
  have signs := n.sign_mem
  simp only [List.mem_cons, List.not_mem_nil, or_false] at signs
  rcases signs with none | plus | minus
  · obtain ⟨c, tail, split⟩ := List.exists_cons_of_ne_nil n.whole_ne_nil
    have digit := n.whole_digits c (by rw [split]; exact List.mem_cons_self)
    rw [none, split]
    exact if_neg (not_mem_marks_of_isDigit digit).1
  · rw [plus]
    rfl
  · rw [minus]
    rfl

theorem Numeral.ends_whole (n : Numeral) (closes : Closes rest) :
    ∀ c ∈ (n.pointed ++ rest).head?, isDigit c = false := by
  unfold Numeral.pointed
  split_ifs
  · exact fun c first => (closes c first).1
  · rintro c ⟨⟩
    exact isDigit_eq_false_of_lt (by decide)

theorem Numeral.fractionAt_eq (n : Numeral) (closes : Closes rest) :
    fractionAt (n.pointed ++ rest) = n.pointed := by
  unfold Numeral.pointed
  split_ifs with none
  · cases rest with
    | nil => rfl
    | cons c rest => exact if_neg fun point => (closes c rfl).2 point.1
  · have digits := takeWhile_digits n.fraction_digits fun c first => (closes c first).1
    have point : (0x2E : CodePoint) ∈ str "." := List.mem_singleton.mpr rfl
    rw [List.cons_append, fractionAt, digits, if_pos ⟨point, none⟩]

/-- The scanner finds the numeral that a text starts with. -/
theorem Numeral.numeralAt_eq (n : Numeral) (closes : Closes rest) : numeralAt (n.text ++ rest) = some n.text := by
  have split : n.text ++ rest = n.sign ++ (n.whole ++ (n.pointed ++ rest)) := by
    rw [text, List.append_assoc, List.append_assoc]
  have digits := takeWhile_digits n.whole_digits (n.ends_whole closes)
  have behind : (n.sign ++ (n.whole ++ (n.pointed ++ rest))).drop (n.sign ++ n.whole).length =
      n.pointed ++ rest := by
    rw [← List.append_assoc, List.drop_left]
  rw [split, numeralAt]
  simp only [n.signAt_eq, List.drop_left, digits, if_neg n.whole_ne_nil, behind, n.fractionAt_eq closes]
  rw [text, List.append_assoc]

/-- `float` of a numeral is its value, rounded. -/
theorem Numeral.floatOfNumeral_eq (n : Numeral) : floatOfNumeral n.text = Runtime.round n.value := by
  have nothing : Closes [] := fun c none => by cases none
  have split : n.text = n.sign ++ (n.whole ++ (n.pointed ++ [])) := by rw [text, List.append_nil]
  have digits := takeWhile_digits n.whole_digits (n.ends_whole nothing)
  have behind : (n.sign ++ (n.whole ++ (n.pointed ++ []))).drop (n.sign ++ n.whole).length = n.pointed := by
    rw [← List.append_assoc, List.drop_left, List.append_nil]
  have fraction : n.pointed.drop 1 = n.fraction := by
    unfold Numeral.pointed
    split_ifs with none
    · exact none.symm
    · rfl
  rw [split, floatOfNumeral]
  simp only [n.signAt_eq, List.drop_left, digits, behind, fraction]
  rfl

end

theorem signAt_mem (s : Str) : signAt s ∈ [[], str "+", str "-"] := by
  cases s with
  | nil => exact List.mem_cons_self
  | cons c s =>
      rw [signAt]
      split_ifs with sign
      · have plus : str "+" = [0x2B] := by decide
        have minus : str "-" = [0x2D] := by decide
        have signs : str "+-" = [0x2B, 0x2D] := by decide
        rw [signs, List.mem_cons, List.mem_singleton] at sign
        rcases sign with rfl | rfl
        · exact List.mem_cons_of_mem _ (plus ▸ List.mem_cons_self)
        · exact List.mem_cons_of_mem _ (List.mem_cons_of_mem _ (minus ▸ List.mem_cons_self))
      · exact List.mem_cons_self

theorem signAt_starts (s : Str) : signAt s <+: s := by
  cases s with
  | nil => exact List.nil_prefix
  | cons c s =>
      rw [signAt]
      split_ifs
      · exact ⟨s, rfl⟩
      · exact List.nil_prefix

theorem prefix_append_of_drop {a b s : Str} (first : a <+: s) (second : b <+: s.drop a.length) :
    a ++ b <+: s := by
  obtain ⟨rest, rfl⟩ := first
  rw [List.drop_left] at second
  exact (List.prefix_append_right_inj a).mpr second

section

variable [Runtime] {s : Str}

theorem fractionAt_cases (s : Str) : fractionAt s = [] ∨ ∃ digits, digits ≠ [] ∧
    (∀ c ∈ digits, isDigit c = true) ∧ fractionAt s = 0x2E :: digits ∧ 0x2E :: digits <+: s := by
  cases s with
  | nil => exact Or.inl rfl
  | cons c s =>
      rw [fractionAt]
      split_ifs with point
      · obtain rfl : c = 0x2E := List.mem_singleton.mp point.1
        exact Or.inr ⟨_, point.2, fun c mem => List.mem_takeWhile_imp mem, rfl,
          List.cons_prefix_cons.mpr ⟨rfl, List.takeWhile_prefix _⟩⟩
      · exact Or.inl rfl

/-- What the scanner finds is a numeral at the start. -/
theorem exists_numeral_of_numeralAt {found : Str} (h : numeralAt s = some found) :
    ∃ n : Numeral, n.text = found ∧ found <+: s := by
  unfold numeralAt at h
  dsimp only at h
  split_ifs at h with none
  cases h
  have digits := prefix_append_of_drop (signAt_starts s)
    (List.takeWhile_prefix isDigit (l := s.drop (signAt s).length))
  have all : ∀ c ∈ (s.drop (signAt s).length).takeWhile isDigit, isDigit c = true :=
    fun c mem => List.mem_takeWhile_imp mem
  generalize (s.drop (signAt s).length).takeWhile isDigit = whole at digits all none ⊢
  rcases fractionAt_cases (s.drop (signAt s ++ whole).length) with
    missing | ⟨fraction, some_, fractional, found, within⟩
  · refine ⟨⟨signAt s, whole, [], signAt_mem s, none, all, fun c none => by cases none⟩, ?_, ?_⟩
    · rw [missing, List.append_nil]
      simp [Numeral.text, Numeral.pointed]
    · rw [missing, List.append_nil]
      exact digits
  · refine ⟨⟨signAt s, whole, fraction, signAt_mem s, none, all, fractional⟩, ?_, ?_⟩
    · rw [found, List.append_assoc]
      simp [Numeral.text, Numeral.pointed, some_]
    · rw [found]
      exact prefix_append_of_drop digits within

def Token.text : Token → Str
  | .numeral text => text
  | .other c => [c]

/-- The tokens make up the text, apart from the characters that are passed over. -/
theorem flatMap_tokensFrom (skip : Nat) (s : Str) : (tokensFrom skip s).flatMap Token.text = s.drop skip := by
  induction s generalizing skip with
  | nil => cases skip <;> rfl
  | cons c s ih =>
      cases skip with
      | succ skip => exact ih skip
      | zero =>
          rw [tokensFrom]
          split
          · rename_i found h
            obtain ⟨n, rfl, behind, split⟩ := exists_numeral_of_numeralAt h
            rw [List.flatMap_cons, ih, Token.text, List.drop_zero, ← split]
            congr 1
            have length : n.text.length - 1 + 1 = n.text.length :=
              Nat.succ_pred_eq_of_pos (List.length_pos_of_ne_nil n.text_ne_nil)
            rw [← List.drop_succ_cons (a := c), length, ← split, List.drop_left]
          · rw [List.flatMap_cons, ih]
            rfl

theorem exists_numeral_of_mem_tokensFrom {skip : Nat} {found : Str} (mem : .numeral found ∈ tokensFrom skip s) :
    ∃ n : Numeral, n.text = found := by
  induction s generalizing skip with
  | nil => cases skip <;> cases mem
  | cons c s ih =>
      cases skip with
      | succ skip => exact ih mem
      | zero =>
          rw [tokensFrom] at mem
          split at mem
          · rename_i first h
            rcases List.mem_cons.mp mem with same | mem
            · obtain ⟨n, text, -⟩ := exists_numeral_of_numeralAt h
              cases same
              exact ⟨n, text⟩
            · exact ih mem
          · rcases List.mem_cons.mp mem with same | mem
            · cases same
            · exact ih mem

omit [Runtime] in
/-- Tokens of whitespace, none of them a numeral, make up a blank text. -/
theorem blank_of_no_numeral {tokens : List Token} (none : ∀ text, .numeral text ∉ tokens)
    (blank : ∀ c, .other c ∈ tokens → c.isSpace = true) : Str.Blank (tokens.flatMap Token.text) := by
  intro c mem
  obtain ⟨t, inside, mem⟩ := List.mem_flatMap.mp mem
  cases t with
  | numeral text => exact absurd inside (none text)
  | other d =>
      rw [List.mem_singleton.mp mem]
      exact blank d inside

/-- **One numeral.** If all but one numeral is whitespace, the text is that numeral between
whitespace. -/
theorem exists_blanks_of_findNumerals {found : Str} (only : findNumerals s = [found])
    (nothing : (blankNumerals s).strip = []) : ∃ (n : Numeral) (blanks blanks' : Str),
      n.text = found ∧ blanks.Blank ∧ blanks'.Blank ∧ s = blanks ++ (n.text ++ blanks') := by
  have blank := Str.strip_eq_nil_iff.mp nothing
  obtain ⟨before, token, behind, split, none, some_, rest⟩ := List.filterMap_eq_cons_iff.mp only
  have none' := List.filterMap_eq_nil_iff.mp rest
  have side (c : CodePoint) (mem : Token.other c ∈ tokensFrom 0 s) : c.isSpace = true :=
    blank c (List.mem_flatMap.mpr ⟨_, mem, List.mem_singleton_self c⟩)
  have blank_before : Str.Blank (before.flatMap Token.text) := by
    apply blank_of_no_numeral
    · exact fun text inside => by cases none _ inside
    · exact fun c inside => side c (split ▸ List.mem_append_left _ inside)
  have blank_behind : Str.Blank (behind.flatMap Token.text) := by
    apply blank_of_no_numeral
    · exact fun text inside => by cases none' _ inside
    · exact fun c inside => side c (split ▸ List.mem_append_right _ (List.mem_cons_of_mem _ inside))
  cases token with
  | other c => cases some_
  | numeral text =>
      cases some_
      have scanned : Token.numeral found ∈ tokensFrom 0 s :=
        split ▸ List.mem_append_right _ List.mem_cons_self
      obtain ⟨n, rfl⟩ := exists_numeral_of_mem_tokensFrom scanned
      refine ⟨n, _, _, rfl, blank_before, blank_behind, ?_⟩
      have whole := flatMap_tokensFrom 0 s
      rw [split, List.flatMap_append, List.flatMap_cons] at whole
      exact whole.symm

end

section

variable [CharacterRuntime]

theorem tokensFrom_append (passed rest : Str) :
    tokensFrom passed.length (passed ++ rest) = tokensFrom 0 rest := by
  induction passed with
  | nil => rfl
  | cons c passed ih => exact ih

theorem Numeral.tokensFrom_eq (n : Numeral) {rest : Str} (closes : Closes rest) :
    tokensFrom 0 (n.text ++ rest) = .numeral n.text :: tokensFrom 0 rest := by
  have found := n.numeralAt_eq closes
  obtain ⟨c, tail, text⟩ := List.exists_cons_of_ne_nil n.text_ne_nil
  rw [text] at found ⊢
  rw [List.cons_append, tokensFrom, ← List.cons_append, found]
  exact congrArg _ (tokensFrom_append tail rest)

theorem tokensFrom_blanks {blanks : Str} (blank : blanks.Blank) (rest : Str) :
    tokensFrom 0 (blanks ++ rest) = blanks.map .other ++ tokensFrom 0 rest := by
  induction blanks with
  | nil => rfl
  | cons c blanks ih =>
      have space := blank c List.mem_cons_self
      have unsigned : signAt (c :: (blanks ++ rest)) = [] := if_neg (not_mem_marks_of_isSpace space).1
      have undigited : ¬ isDigit c = true := by
        rw [isDigit_eq_false_of_isSpace space]
        exact Bool.false_ne_true
      have none : numeralAt (c :: (blanks ++ rest)) = none := by
        rw [numeralAt]
        simp only [unsigned, List.length_nil, List.drop_zero, List.takeWhile_cons_of_neg undigited, if_true]
      rw [List.cons_append, tokensFrom, none, List.map_cons, List.cons_append,
        ← ih fun d mem => blank d (List.mem_cons_of_mem c mem)]

theorem closes_of_blank {blanks : Str} (blank : blanks.Blank) : Closes blanks := by
  intro c first
  have space := blank c (List.mem_of_head? first)
  exact ⟨isDigit_eq_false_of_isSpace space, (not_mem_marks_of_isSpace space).2⟩

/-- **The scan.** Between whitespace, a numeral is found, and nothing else. -/
theorem Numeral.scan_eq (n : Numeral) {blanks blanks' : Str} (blank : blanks.Blank) (blank' : blanks'.Blank) :
    findNumerals (blanks ++ (n.text ++ blanks')) = [n.text] ∧
      (blankNumerals (blanks ++ (n.text ++ blanks'))).strip = [] := by
  have tokens : tokensFrom 0 (blanks ++ (n.text ++ blanks')) =
      blanks.map .other ++ .numeral n.text :: blanks'.map .other := by
    have last := tokensFrom_blanks blank' []
    rw [List.append_nil] at last
    rw [tokensFrom_blanks blank, n.tokensFrom_eq (closes_of_blank blank'), last]
    exact congrArg _ (congrArg _ (List.append_nil _))
  constructor
  · rw [findNumerals, tokens]
    simp [List.filterMap_append, List.filterMap_map]
  · rw [Str.strip_eq_nil_iff, blankNumerals, tokens]
    intro c mem
    simp only [List.flatMap_append, List.flatMap_cons, List.flatMap_map, List.flatMap_singleton',
      List.mem_append] at mem
    rcases mem with before | single | behind
    · exact blank c before
    · rw [List.mem_singleton.mp single]
      rfl
    · exact blank' c behind

/-- **One number.** A text is parsed exactly when its tokens leave one numeral between whitespace,
into the value of the numeral, rounded. -/
theorem parseNumber_ok_iff {text : Str} {units : List Str} {field : Option Str} {x : Double} :
    parseNumber text units field = .ok x ↔ ∃ (n : Numeral) (blanks blanks' : Str), blanks.Blank ∧ blanks'.Blank ∧
      withoutUnits units text = blanks ++ (n.text ++ blanks') ∧ x = Runtime.round n.value := by
  constructor
  · intro parsed
    unfold parseNumber at parsed
    dsimp only at parsed
    split at parsed
    · rename_i found only
      split_ifs at parsed with left
      · cases parsed
      · obtain ⟨n, blanks, blanks', rfl, blank, blank', split⟩ :=
          exists_blanks_of_findNumerals only (not_not.mp left)
        cases parsed
        exact ⟨n, blanks, blanks', blank, blank', split, n.floatOfNumeral_eq⟩
    · cases parsed
  · rintro ⟨n, blanks, blanks', blank, blank', split, rfl⟩
    obtain ⟨only, nothing⟩ := n.scan_eq blank blank'
    unfold parseNumber
    dsimp only
    rw [split, only]
    dsimp only
    rw [nothing, if_neg (not_not_intro rfl), n.floatOfNumeral_eq]

end

end CnPropertyAgent.Lianjia
