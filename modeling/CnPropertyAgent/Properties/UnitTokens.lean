import CnPropertyAgent.Providers.Lianjia.Numerals
import CnPropertyAgent.Utils

/-!
What the converters take off a number.

The tokens of a converter's units can be peeled off in their order, so whatever runs of them
stand around a numeral, whitespace is left. And nothing else is taken off: a number is parsed
only from a numeral between two runs (`parseNumber_ok_iff_of_units`).
-/

namespace CnPropertyAgent.Lianjia

open Python

/-- The units of the converters. -/
def converterUnits : List (List Str) := [areaUnits, wanUnits, unitPriceUnits, dayUnits, yearUnits]

/-- Units start with a small letter, a slash or a CJK character. -/
def startsUnit (c : CodePoint) : Bool :=
  (0x61 ≤ c.val && c.val ≤ 0x7A) || c.val = 0x2F || (0x3001 ≤ c.val && c.val ≤ 0x9FFF)

/-- Case folding keeps the characters of units. -/
def keptByFold (c : CodePoint) : Bool :=
  (0x61 ≤ c.val && c.val ≤ 0x7A) || c.val < 0x41 || (0x3000 ≤ c.val && c.val ≤ 0x9FFF)

theorem peelable_of_mem {units : List Str} (mem : units ∈ converterUnits) : Peelable startsUnit units := by
  have all : ∀ units ∈ converterUnits, Peelable startsUnit units := by decide +kernel
  exact all units mem

/-- A unit is a text without a space that case folding keeps. -/
theorem unit_of_mem {units : List Str} (mem : units ∈ converterUnits) {unit : Str} (listed : unit ∈ units) :
    unit ≠ [] ∧ (0x20 : CodePoint) ∉ unit ∧ unit.all keptByFold = true := by
  have all : ∀ units ∈ converterUnits, ∀ unit ∈ units,
      unit ≠ [] ∧ (0x20 : CodePoint) ∉ unit ∧ unit.all keptByFold = true := by decide +kernel
  exact all units mem unit listed

theorem startsUnit_eq_false_of_isSpace (c : CodePoint) (blank : c.isSpace = true) : startsUnit c = false := by
  simp only [CodePoint.isSpace, Bool.or_eq_true, Bool.and_eq_true, decide_eq_true_eq] at blank
  simp only [startsUnit, Bool.or_eq_false_iff, Bool.and_eq_false_iff, decide_eq_false_iff_not]
  omega

section

variable [CharacterRuntime] {units : List Str} {text : Str}

/-! ### Case folding -/

theorem fold_eq_of_kept {c : CodePoint} (kept : keptByFold c = true) : CharacterRuntime.fold c = [c] := by
  simp only [keptByFold, Bool.or_eq_true, Bool.and_eq_true, decide_eq_true_eq] at kept
  rcases kept with (⟨low, high⟩ | early) | cjk
  · exact CharacterRuntime.fold_small c low high
  · exact CharacterRuntime.fold_caseless c (Or.inr (Or.inr (Or.inl early)))
  · exact CharacterRuntime.fold_caseless c (Or.inr (Or.inr (Or.inr cjk)))

/-- The characters of a numeral have no case. -/
theorem Numeral.caseless {n : Numeral} : ∀ c ∈ n.text, c.Caseless := by
  intro c mem
  rcases Numeral.mem_text mem with digit | rfl | rfl | rfl
  · exact Or.inr (Or.inl digit)
  all_goals exact Or.inr (Or.inr (Or.inl (by decide)))

theorem startsUnit_eq_false_of_isDigit {c : CodePoint} (digit : isDigit c = true) : startsUnit c = false := by
  have cases := CharacterRuntime.decimal_cases c digit
  simp only [startsUnit, Bool.or_eq_false_iff, Bool.and_eq_false_iff, decide_eq_false_iff_not]
  omega

theorem Numeral.startsUnit_eq_false {n : Numeral} : ∀ c ∈ n.text, startsUnit c = false := by
  intro c mem
  rcases Numeral.mem_text mem with digit | rfl | rfl | rfl
  · exact startsUnit_eq_false_of_isDigit digit
  all_goals rfl

theorem Numeral.space_not_mem {n : Numeral} : (0x20 : CodePoint) ∉ n.text := by
  intro mem
  rcases Numeral.mem_text mem with digit | plus | minus | point
  · rw [isDigit_eq_false_of_isSpace rfl] at digit
    cases digit
  · cases plus
  · cases minus
  · cases point

theorem fold_eq_of_mem_run (mem : units ∈ converterUnits) (run : Run units) :
    ∀ c ∈ run.text, CharacterRuntime.fold c = [c] := by
  intro c inside
  rcases Run.mem_text inside with blank | ⟨unit, listed, inside⟩
  · exact CharacterRuntime.fold_caseless c (Or.inl blank)
  · exact fold_eq_of_kept (List.all_eq_true.mp (unit_of_mem mem listed).2.2 c inside)

theorem casefold_between_runs (mem : units ∈ converterUnits) (before behind : Run units) (n : Numeral) :
    Runtime.casefold (before.text ++ (n.text ++ behind.text)) = before.text ++ (n.text ++ behind.text) := by
  apply CharacterRuntime.casefold_eq_self
  apply Run.forall_between (fold_eq_of_mem_run mem)
  intro c inside
  exact CharacterRuntime.fold_caseless c (Numeral.caseless c inside)

/-- The units are replaced as they are listed. -/
theorem withoutUnits_eq (mem : units ∈ converterUnits) (text : Str) :
    withoutUnits units text =
      units.foldl (fun residual unit => residual.replace unit [0x20]) (Runtime.casefold text) := by
  have space : str " " = [0x20] := by decide
  apply List.foldl_ext
  intro residual unit listed
  have folded : Runtime.casefold unit = unit := CharacterRuntime.casefold_eq_self fun c inside =>
    fold_eq_of_kept (List.all_eq_true.mp (unit_of_mem mem listed).2.2 c inside)
  rw [folded, space]

/-! ### Numbers among units -/

/-- What the replacements leave as a numeral between whitespace was one between two runs. -/
theorem exists_runs_of_withoutUnits (mem : units ∈ converterUnits) {n : Numeral} {blanks blanks' : Str}
    (blank : blanks.Blank) (blank' : blanks'.Blank)
    (replaced : withoutUnits units text = blanks ++ (n.text ++ blanks')) :
    ∃ before behind : Run units, Runtime.casefold text = before.text ++ (n.text ++ behind.text) := by
  rw [withoutUnits_eq mem] at replaced
  exact exists_runs_of_replaced (fun unit listed => (unit_of_mem mem listed).1)
    (fun unit listed => (unit_of_mem mem listed).2.1) Numeral.space_not_mem blank blank' replaced

/-- A number is parsed exactly from a numeral between two runs of units. -/
theorem parseNumber_ok_iff_of_units (mem : units ∈ converterUnits) {field : Option Str} {x : Double} :
    parseNumber text units field = .ok x ↔ ∃ (before behind : Run units) (n : Numeral),
      Runtime.casefold text = before.text ++ (n.text ++ behind.text) ∧ x = Runtime.round n.value := by
  rw [parseNumber_ok_iff]
  constructor
  · rintro ⟨n, blanks, blanks', blank, blank', replaced, rfl⟩
    obtain ⟨before, behind, split⟩ := exists_runs_of_withoutUnits mem blank blank' replaced
    exact ⟨before, behind, n, split, rfl⟩
  · rintro ⟨before, behind, n, split, rfl⟩
    obtain ⟨blanks, blanks', blank, blank', replaced⟩ := (peelable_of_mem mem).replace_runs
      startsUnit_eq_false_of_isSpace n.text_ne_nil Numeral.startsUnit_eq_false before behind
    refine ⟨n, blanks, blanks', blank, blank', ?_, rfl⟩
    rw [withoutUnits_eq mem, split, replaced]

/-- **Units.** Between two runs of the units of a converter, a numeral is parsed into its value,
rounded as `float` does. Whatever is parsed is a numeral between two runs; it is the only
numeral when their tokens are dropped, or replaced by spaces. -/
theorem units_strip_off (mem : units ∈ converterUnits) (field : Option Str) :
    (∀ (before behind : Run units) (n : Numeral),
      parseNumber (before.text ++ (n.text ++ behind.text)) units field = .ok (Runtime.round n.value)) ∧
    ∀ (text : Str) (x : Double), parseNumber text units field = .ok x →
      ∃ (before behind : Run units) (n : Numeral),
        Runtime.casefold text = before.text ++ (n.text ++ behind.text) ∧ x = Runtime.round n.value ∧
        findNumerals (before.spaces ++ (n.text ++ behind.spaces)) = [n.text] ∧
        findNumerals (withoutUnits units text) = [n.text] := by
  constructor
  · intro before behind n
    exact (parseNumber_ok_iff_of_units mem).mpr ⟨before, behind, n, casefold_between_runs mem before behind n, rfl⟩
  · intro text x parsed
    obtain ⟨n, blanks, blanks', blank, blank', replaced, value⟩ := parseNumber_ok_iff.mp parsed
    obtain ⟨before, behind, split⟩ := exists_runs_of_withoutUnits mem blank blank' replaced
    have only := (n.scan_eq blank blank').1
    rw [← replaced] at only
    exact ⟨before, behind, n, split, value, (n.scan_eq before.blank_spaces behind.blank_spaces).1, only⟩

end

theorem sampleRuntime_decimal {c : CodePoint} (digit : (sampleRuntime.decimal? c).isSome = true) :
    0x30 ≤ c.val ∧ c.val ≤ 0x39 := by
  by_contra other
  have none : sampleRuntime.decimal? c = none := if_neg other
  rw [none] at digit
  cases digit

theorem sampleRuntime_caseless {c : CodePoint} (caseless : @CodePoint.Caseless sampleRuntime c) :
    ¬ (0x41 ≤ c.val ∧ c.val ≤ 0x5A) ∧ ¬ (0x61 ≤ c.val ∧ c.val ≤ 0x7A) := by
  rcases caseless with blank | digit | early | cjk
  · simp only [CodePoint.isSpace, Bool.or_eq_true, Bool.and_eq_true, decide_eq_true_eq] at blank
    omega
  · have range := sampleRuntime_decimal digit
    omega
  · omega
  · omega

theorem val_lower {c : CodePoint} (upper : 0x41 ≤ c.val ∧ c.val ≤ 0x5A) :
    (c + 32 : CodePoint).val = c.val + 32 := by
  have offset : (32 : CodePoint).val = 32 := rfl
  exact Fin.val_add_eq_of_add_lt (by omega)

/-- The sample runtime, which folds character by character. -/
@[reducible] def sampleCharacterRuntime : CharacterRuntime where
  toRuntime := sampleRuntime
  fold c := [if 0x41 ≤ c.val ∧ c.val ≤ 0x5A then c + 32 else c]
  casefold_eq _ := List.map_eq_flatMap
  fold_ne_nil _ := List.cons_ne_nil _ _
  fold_small c low _ := by rw [if_neg (by omega)]
  fold_caseless c caseless := by rw [if_neg (sampleRuntime_caseless caseless).1]
  eq_of_mem_fold c d mem caseless := by
    rw [List.mem_singleton] at mem
    split_ifs at mem with upper
    · have small := (sampleRuntime_caseless caseless).2
      rw [mem, val_lower upper] at small
      omega
    · exact mem.symm
  decimal_cases c digit := Or.inl (sampleRuntime_decimal digit)

/-- `+120.5`. -/
def sampleNumeral : @Numeral sampleRuntime :=
  @Numeral.mk sampleRuntime (str "+") (str "120") (str "5") (by decide) (by decide)
    (List.all_eq_true.mp (by decide +kernel)) (List.all_eq_true.mp (by decide +kernel))

/-- An area with its units before and behind, one of them with a digit. -/
theorem units_strip_off_area : let _ := sampleCharacterRuntime
    parseNumber (str "m2 +120.5m2平") areaUnits none = .ok (.finite (241 / 2)) ∧
      ∃ (before behind : Run areaUnits) (n : Numeral),
        Runtime.casefold (str "120.5M2") = before.text ++ (n.text ++ behind.text) ∧ n.value = 241 / 2 := by
  intro _
  have strips := @units_strip_off _ areaUnits List.mem_cons_self none
  have value : sampleNumeral.value = 241 / 2 := by decide +kernel
  constructor
  · have parsed := strips.1 [.token (str "m2") (by decide +kernel), .space 0x20 rfl]
      [.token (str "m2") (by decide +kernel), .token (str "平") (by decide +kernel)] sampleNumeral
    rw [value] at parsed
    exact parsed
  · have parsed : parseNumber (str "120.5M2") areaUnits none = .ok (.finite (241 / 2)) := by decide +kernel
    obtain ⟨before, behind, n, split, same, -⟩ := strips.2 _ _ parsed
    exact ⟨before, behind, n, split, (Double.finite.inj same).symm⟩

end CnPropertyAgent.Lianjia
