import CnPropertyAgent.Properties.UnitTokens
import CnPropertyAgent.Providers.Lianjia.Numerals
import CnPropertyAgent.Python.Gregorian
import CnPropertyAgent.Python.JsonRoundTrip
import Mathlib.Data.Option.Basic

/-!
The texts that are deal dates.

A date is written as four digits, one or two, and one or two, either set apart by `-`, `/` or
`.`, or each followed by its unit. A text is read as a date exactly when it is written so and
its numbers are those of the date, and what `isoformat` writes of a date is read as it.
-/

namespace CnPropertyAgent

open Python

/-- A runtime whose ASCII digits are digits. -/
class DigitRuntime extends CharacterRuntime where
  decimal_ascii : ∀ c : CodePoint, c.isAsciiDigit = true → (decimal? c).map Fin.val = some (c.val - 0x30)

namespace Lianjia

/-! ### Digits -/

section

variable [Runtime]

/-- So many digits spell the number. -/
structure Spells (digits : Str) (least most n : Nat) : Prop where
  each : ∀ c ∈ digits, isDigit c = true
  least : least ≤ digits.length
  most : digits.length ≤ most
  value : digitsValue digits = n

theorem digitsAt_append_drop (count : Nat) (text : Str) :
    digitsAt count text ++ text.drop (digitsAt count text).length = text :=
  List.prefix_iff_eq_append.mp ((List.takeWhile_prefix _).trans (List.take_prefix _ _))

theorem length_digitsAt_le (count : Nat) (text : Str) : (digitsAt count text).length ≤ count :=
  ((List.takeWhile_prefix _).length_le).trans (List.length_take_le _ _)

theorem isDigit_of_mem_digitsAt {count : Nat} {text : Str} : ∀ c ∈ digitsAt count text, isDigit c = true :=
  fun _ mem => List.mem_takeWhile_imp mem

/-- Digits are taken up to the bound, or up to what is none. -/
theorem digitsAt_append {digits rest : Str} {count : Nat} (each : ∀ c ∈ digits, isDigit c = true)
    (most : digits.length ≤ count) (ends : digits.length = count ∨ ∀ c ∈ rest.head?, isDigit c = false) :
    digitsAt count (digits ++ rest) = digits := by
  unfold digitsAt
  rw [List.take_append, List.take_of_length_le most, List.takeWhile_append_of_pos each]
  rcases ends with exact_ | stops
  · rw [exact_, Nat.sub_self, List.take_zero, List.takeWhile_nil, List.append_nil]
  · cases rest with
    | nil => rw [List.take_nil, List.takeWhile_nil, List.append_nil]
    | cons c rest =>
        cases more : count - digits.length with
        | zero => rw [List.take_zero, List.takeWhile_nil, List.append_nil]
        | succ k =>
            have stop := stops c rfl
            rw [List.take_succ_cons, List.takeWhile_cons_of_neg (by simp [stop]), List.append_nil]

theorem spells_digitsAt {least count : Nat} {text : Str} (enough : least ≤ (digitsAt count text).length) :
    Spells (digitsAt count text) least count (digitsValue (digitsAt count text)) :=
  ⟨isDigit_of_mem_digitsAt, enough, length_digitsAt_le count text, rfl⟩

/-! ### Patterns -/

/-- The text is of the pattern `^\d{4}[yearEnd]\d{1,2}[monthEnd]\d{1,2}[dayEnd]?$`, with these
numbers. -/
def Matches (yearEnd monthEnd dayEnd text : Str) (y m d : Nat) : Prop :=
  ∃ year month day unit tail s s', text = year ++ s :: (month ++ s' :: (day ++ (unit ++ tail))) ∧
    Spells year 4 4 y ∧ Spells month 1 2 m ∧ Spells day 1 2 d ∧ s ∈ yearEnd ∧ s' ∈ monthEnd ∧
    (unit = [] ∨ ∃ c ∈ dayEnd, unit = [c]) ∧ atEnd tail = true

omit [Runtime] in
theorem skipOne_eq_some_iff {characters text rest : Str} :
    skipOne characters text = some rest ↔ ∃ c ∈ characters, text = c :: rest := by
  cases text with
  | nil => simp [skipOne]
  | cons c text => by_cases mem : c ∈ characters <;> simp [skipOne, mem, eq_comm]

omit [Runtime] in
/-- The end, or the last unit and the end. -/
theorem ends_iff {dayEnd rest : Str} : (atEnd rest || (skipOne dayEnd rest).any atEnd) = true ↔
    ∃ unit tail, rest = unit ++ tail ∧ (unit = [] ∨ ∃ c ∈ dayEnd, unit = [c]) ∧ atEnd tail = true := by
  rw [Bool.or_eq_true, Option.any_eq_true]
  constructor
  · rintro (ends | ⟨tail, skipped, ends⟩)
    · exact ⟨[], rest, rfl, Or.inl rfl, ends⟩
    · obtain ⟨c, mem, rfl⟩ := skipOne_eq_some_iff.mp skipped
      exact ⟨[c], tail, rfl, Or.inr ⟨c, mem, rfl⟩, ends⟩
  · rintro ⟨unit, tail, rfl, rfl | ⟨c, mem, rfl⟩, ends⟩
    · exact Or.inl ends
    · exact Or.inr ⟨tail, skipOne_eq_some_iff.mpr ⟨c, mem, rfl⟩, ends⟩

theorem matches_of_matchDate {yearEnd monthEnd dayEnd text : Str} {y m d : Nat}
    (found : matchDate yearEnd monthEnd dayEnd text = some (y, m, d)) :
    Matches yearEnd monthEnd dayEnd text y m d := by
  simp only [matchDate, Option.bind_eq_bind, Option.bind_eq_some_iff, Option.guard_eq_some', Option.pure_def,
    Option.some.injEq, Prod.mk.injEq, skipOne_eq_some_iff] at found
  obtain ⟨-, four, rest, ⟨s, hs, behindYear⟩, -, month, rest', ⟨s', hs', behindMonth⟩, -, day, -, ends,
    rfl, rfl, rfl⟩ := found
  obtain ⟨unit, tail, split, hunit, htail⟩ := ends_iff.mp ends
  refine ⟨digitsAt 4 text, digitsAt 2 rest, digitsAt 2 rest', unit, tail, s, s', ?_, spells_digitsAt four.ge,
    spells_digitsAt (List.length_pos_of_ne_nil month), spells_digitsAt (List.length_pos_of_ne_nil day), hs, hs',
    hunit, htail⟩
  rw [← split, digitsAt_append_drop, ← behindMonth, digitsAt_append_drop, ← behindYear, digitsAt_append_drop]

/-- What follows the numbers is no digit. -/
theorem matchDate_of_matches {yearEnd monthEnd dayEnd text : Str} {y m d : Nat}
    (apart : ∀ c ∈ monthEnd ++ dayEnd ++ [0x0A], isDigit c = false)
    (h : Matches yearEnd monthEnd dayEnd text y m d) :
    matchDate yearEnd monthEnd dayEnd text = some (y, m, d) := by
  obtain ⟨year, month, day, unit, tail, s, s', rfl, hy, hm, hd, hs, hs', hunit, htail⟩ := h
  have stops : ∀ c ∈ (unit ++ tail).head?, isDigit c = false := by
    intro c first
    rcases hunit with rfl | ⟨c', mem, rfl⟩
    · rw [atEnd, Bool.or_eq_true, decide_eq_true_eq, decide_eq_true_eq] at htail
      rcases htail with rfl | rfl
      · cases first
      · cases first
        exact apart _ (List.mem_append_right _ List.mem_cons_self)
    · cases first
      exact apart _ (List.mem_append_left _ (List.mem_append_right _ mem))
  have readYear : digitsAt 4 (year ++ s :: (month ++ s' :: (day ++ (unit ++ tail)))) = year :=
    digitsAt_append hy.each hy.most (Or.inl (le_antisymm hy.most hy.least))
  have readMonth : digitsAt 2 (month ++ s' :: (day ++ (unit ++ tail))) = month := by
    refine digitsAt_append hm.each hm.most (Or.inr ?_)
    rintro c ⟨⟩
    exact apart _ (List.mem_append_left _ (List.mem_append_left _ hs'))
  have readDay : digitsAt 2 (day ++ (unit ++ tail)) = day := digitsAt_append hd.each hd.most (Or.inr stops)
  have ends : (atEnd (unit ++ tail) || (skipOne dayEnd (unit ++ tail)).any atEnd) = true :=
    ends_iff.mpr ⟨unit, tail, rfl, hunit, htail⟩
  simp only [matchDate, readYear, List.drop_left, Option.bind_eq_bind, Option.bind_eq_some_iff,
    Option.guard_eq_some', Option.pure_def, Option.some.injEq, Prod.mk.injEq, skipOne_eq_some_iff]
  refine ⟨(), le_antisymm hy.most hy.least, _, ⟨s, hs, rfl⟩, (), ?_, _,
    ⟨s', hs', by rw [readMonth, List.drop_left]⟩, (), ?_, (), ?_, hy.value, ?_, ?_⟩
  · rw [readMonth]
    exact List.ne_nil_of_length_pos hm.least
  · rw [readDay]
    exact List.ne_nil_of_length_pos hd.least
  · rw [readDay, List.drop_left]
    exact ends
  · rw [readMonth]
    exact hm.value
  · rw [readDay]
    exact hd.value

end

/-! ### Deal dates -/

/-- The numbers set apart by separators. -/
def Separated [Runtime] (text : Str) (y m d : Nat) : Prop := Matches (str "-/.") (str "-/.") [] text y m d

/-- The numbers with their units; that of the day may be left out. -/
def Named [Runtime] (text : Str) (y m d : Nat) : Prop := Matches (str "年") (str "月") (str "日") text y m d

section

variable [CharacterRuntime] {text : Str} {y m d : Nat}

theorem isDigit_eq_false_of_cjk {c : CodePoint} (block : 0x3000 ≤ c.val ∧ c.val ≤ 0x9FFF) : isDigit c = false := by
  by_contra digit
  have cases := CharacterRuntime.decimal_cases c (Bool.eq_true_of_not_eq_false digit)
  omega

theorem separated_iff : matchDate (str "-/.") (str "-/.") [] text = some (y, m, d) ↔ Separated text y m d := by
  refine ⟨matches_of_matchDate, matchDate_of_matches fun c mem => isDigit_eq_false_of_lt ?_⟩
  have listed : c ∈ [0x2D, 0x2F, 0x2E, 0x0A] := mem
  simp only [List.mem_cons, List.not_mem_nil, or_false] at listed
  rcases listed with rfl | rfl | rfl | rfl <;> decide

theorem named_iff : matchDate (str "年") (str "月") (str "日") text = some (y, m, d) ↔ Named text y m d := by
  refine ⟨matches_of_matchDate, matchDate_of_matches fun c mem => ?_⟩
  have listed : c ∈ [0x6708, 0x65E5, 0x0A] := mem
  simp only [List.mem_cons, List.not_mem_nil, or_false] at listed
  rcases listed with rfl | rfl | rfl
  · exact isDigit_eq_false_of_cjk (by decide)
  · exact isDigit_eq_false_of_cjk (by decide)
  · exact isDigit_eq_false_of_lt (by decide)

omit [CharacterRuntime] in
/-- The fifth character tells the two apart. -/
theorem not_named_of_separated [Runtime] {y' m' d' : Nat} (h : Separated text y m d) : ¬ Named text y' m' d' := by
  rintro ⟨year', month', day', unit', tail', s', t', same, hy', -, -, hs', -⟩
  obtain ⟨year, month, day, unit, tail, s, t, split, hy, -, -, hs, -⟩ := h
  have four : year.length = year'.length :=
    (le_antisymm hy.most hy.least).trans (le_antisymm hy'.most hy'.least).symm
  obtain ⟨fifth, -⟩ := List.cons.inj (List.append_inj (split.symm.trans same) four).2
  have listed : s ∈ [0x2D, 0x2F, 0x2E] := hs
  have unit : s' ∈ [0x5E74] := hs'
  rw [← fifth, List.mem_singleton] at unit
  subst unit
  exact absurd listed (by decide)

omit [CharacterRuntime] in
/-- The text of the error plays no part in when there is a date. -/
theorem dateOf_ok_iff {made : Except Exc Date} {message : Exc → Str} {field : Option Str} {date : Date} :
    (match made with
      | .ok date => Except.ok date
      | .error error => raiseFieldParseError (message error) field) = .ok date ↔ made = .ok date := by
  cases made <;> simp [raiseFieldParseError]

/-- A text is read as a date exactly when it is written by one of the two patterns, with the numbers
of the date. -/
theorem parseDealDate_ok_iff {field : Option Str} {date : Date} : parseDealDate text field = .ok date ↔
    ∃ y m d, (Separated text y m d ∨ Named text y m d) ∧ Date.ofYmd y m d = .ok date := by
  unfold parseDealDate
  cases separated : matchDate (str "-/.") (str "-/.") [] text with
  | some numbers =>
      obtain ⟨y, m, d⟩ := numbers
      refine dateOf_ok_iff.trans ⟨fun made => ⟨y, m, d, Or.inl (separated_iff.mp separated), made⟩, ?_⟩
      rintro ⟨y', m', d', again | named, made⟩
      · cases separated.symm.trans (separated_iff.mpr again)
        exact made
      · exact absurd named (not_named_of_separated (separated_iff.mp separated))
  | none =>
      have unseparated : ∀ y m d, ¬ Separated text y m d := by
        intro y m d again
        cases separated.symm.trans (separated_iff.mpr again)
      rw [Option.none_or]
      cases named : matchDate (str "年") (str "月") (str "日") text with
      | some numbers =>
          obtain ⟨y, m, d⟩ := numbers
          refine dateOf_ok_iff.trans ⟨fun made => ⟨y, m, d, Or.inr (named_iff.mp named), made⟩, ?_⟩
          rintro ⟨y', m', d', again | again, made⟩
          · exact absurd again (unseparated y' m' d')
          · cases named.symm.trans (named_iff.mpr again)
            exact made
      | none =>
          refine iff_of_false (by simp [raiseFieldParseError]) ?_
          rintro ⟨y, m, d, again | again, -⟩
          · exact unseparated y m d again
          · cases named.symm.trans (named_iff.mpr again)

end

/-! ### Reading back -/

section

variable [DigitRuntime]

theorem isDigit_of_isAsciiDigit {c : CodePoint} (ascii : c.isAsciiDigit = true) : isDigit c = true := by
  have value := DigitRuntime.decimal_ascii c ascii
  rw [isDigit]
  cases digit : Runtime.decimal? c with
  | none => simp [digit] at value
  | some n => rfl

/-- ASCII digits spell what they spell in JSON. -/
theorem digitsValue_eq {digits : Str} (ascii : ∀ c ∈ digits, c.isAsciiDigit = true) :
    digitsValue digits = Python.digitsValue digits := by
  unfold digitsValue Python.digitsValue
  apply List.foldl_ext
  intro n c mem
  rw [DigitRuntime.decimal_ascii c (ascii c mem), Option.getD_some, Nat.mul_comm]

/-- A number by its own digits. -/
theorem spells_natStr {most n : Nat} (positive : 0 < most) (small : n < 10 ^ most) :
    Spells (natStr n) 1 most n := by
  have ascii : ∀ c ∈ natStr n, c.isAsciiDigit = true := fun c mem => isAsciiDigit_of_mem_natStr mem
  refine ⟨fun c mem => isDigit_of_isAsciiDigit (ascii c mem), List.length_pos_of_ne_nil (natStr_ne_nil n), ?_, ?_⟩
  · rw [natStr_eq_toDigits, List.length_map]
    exact (Nat.length_toDigits_le_iff (by decide) positive).mpr small
  · rw [digitsValue_eq ascii, digitsValue_natStr]

/-- Zeros ahead of a number add nothing to it. -/
theorem spells_paddedStr {width n : Nat} (positive : 0 < width) (small : n < 10 ^ width) :
    Spells (paddedStr width n) width width n := by
  obtain ⟨digits, -, length, value⟩ := spells_natStr positive small
  have zero : isDigit (CodePoint.ofChar '0') = true := isDigit_of_isAsciiDigit rfl
  have exact_ : (paddedStr width n).length = width := by
    rw [paddedStr, List.length_append, List.length_replicate]
    omega
  have zeros (k : Nat) : digitsValue (List.replicate k (CodePoint.ofChar '0')) = 0 := by
    rw [digitsValue_eq fun c mem => by rw [List.eq_of_mem_replicate mem]; rfl]
    induction k with
    | zero => rfl
    | succ k ih => exact ih
  refine ⟨?_, exact_.ge, exact_.le, ?_⟩
  · intro c mem
    rcases List.mem_append.mp mem with padding | digit
    · rwa [List.eq_of_mem_replicate padding]
    · exact digits c digit
  · rw [paddedStr, digitsValue, List.foldl_append]
    change (natStr n).foldl _ (digitsValue (List.replicate (width - (natStr n).length) (CodePoint.ofChar '0'))) = n
    rw [zeros]
    exact value

theorem Spells.mono {digits : Str} {least least' most n : Nat} (h : Spells digits least most n)
    (le : least' ≤ least) : Spells digits least' most n :=
  ⟨h.each, le.trans h.least, h.most, h.value⟩

omit [DigitRuntime] in
/-- The numbers of a date fit their places. -/
theorem fits_of_names {ordinal y m d : Nat} (names : Names ordinal (y, m, d)) :
    y < 10 ^ 4 ∧ m < 10 ^ 2 ∧ d < 10 ^ 2 := by
  have year := names.year.2
  have month := names.month.2
  have day := names.day.2
  dsimp only at year month day
  have days : daysInMonth y m ≤ 31 := by
    unfold daysInMonth
    split_ifs <;> decide
  omega

/-- `isoformat` writes the numbers of a date. -/
theorem separated_isoformat {date : Date} {y m d : Nat} (made : Date.ofYmd y m d = .ok date)
    (numbers : ymdOfOrdinal date.ordinal.toNat = (y, m, d)) : Separated date.isoformat y m d := by
  obtain ⟨year, month, day⟩ := fits_of_names (Date.ofYmd_eq_ok_iff.mp made)
  have dash : str "-" = [0x2D] := rfl
  refine ⟨paddedStr 4 y, paddedStr 2 m, paddedStr 2 d, [], [], 0x2D, 0x2D, ?_, spells_paddedStr (by decide) year,
    (spells_paddedStr (by decide) month).mono (by decide), (spells_paddedStr (by decide) day).mono (by decide),
    List.mem_cons_self, List.mem_cons_self, Or.inl rfl, rfl⟩
  rw [Date.isoformat, numbers, dash]
  simp only [List.append_assoc, List.cons_append, List.nil_append, List.append_nil]

/-- The numbers with their units, month and day by their own digits. -/
def named (y m d : Nat) : Str := paddedStr 4 y ++ str "年" ++ natStr m ++ str "月" ++ natStr d ++ str "日"

theorem named_named {date : Date} {y m d : Nat} (made : Date.ofYmd y m d = .ok date) :
    Named (named y m d) y m d := by
  obtain ⟨year, month, day⟩ := fits_of_names (Date.ofYmd_eq_ok_iff.mp made)
  have units : str "年" = [0x5E74] ∧ str "月" = [0x6708] ∧ str "日" = [0x65E5] := ⟨rfl, rfl, rfl⟩
  refine ⟨paddedStr 4 y, natStr m, natStr d, [0x65E5], [], 0x5E74, 0x6708, ?_, spells_paddedStr (by decide) year,
    spells_natStr (by decide) month, spells_natStr (by decide) day, List.mem_cons_self, List.mem_cons_self,
    Or.inr ⟨_, List.mem_cons_self, rfl⟩, rfl⟩
  rw [named, units.1, units.2.1, units.2.2]
  simp only [List.append_assoc, List.cons_append, List.nil_append, List.append_nil]

end

end Lianjia

open Lianjia

/-- **Deal dates.** A text is read as a date exactly when it is written by one of the two patterns with
the numbers of the date; and every date is read from its `isoformat`, and from its numbers
with their units. -/
theorem deal_dates [DigitRuntime] (field : Option Str) :
    (∀ text date, parseDealDate text field = .ok date ↔
      ∃ y m d, (Separated text y m d ∨ Named text y m d) ∧ Date.ofYmd y m d = .ok date) ∧
    ∀ date : Date, parseDealDate date.isoformat field = .ok date ∧
      ∃ y m d, Date.ofYmd y m d = .ok date ∧ parseDealDate (named y m d) field = .ok date := by
  refine ⟨fun text date => parseDealDate_ok_iff, fun date => ?_⟩
  have made := date.ofYmd_ymdOfOrdinal
  refine ⟨?_, _, _, _, made, parseDealDate_ok_iff.mpr ⟨_, _, _, Or.inr (named_named made), made⟩⟩
  exact parseDealDate_ok_iff.mpr ⟨_, _, _, Or.inl (separated_isoformat made rfl), made⟩

/-! ### A date -/

theorem sampleRuntime_decimal_ascii (c : CodePoint) (ascii : c.isAsciiDigit = true) :
    (sampleRuntime.decimal? c).map Fin.val = some (c.val - 0x30) := by
  simp only [CodePoint.isAsciiDigit, Bool.and_eq_true, decide_eq_true_eq] at ascii
  have range : 0x30 ≤ c.val ∧ c.val ≤ 0x39 := ascii
  simp only [Runtime.decimal?, if_pos range, Option.map_some, Fin.val_ofNat, Option.some.injEq]
  omega

/-- The sample runtime, whose digits are those of ASCII. -/
@[reducible] def sampleDigitRuntime : DigitRuntime where
  toCharacterRuntime := sampleCharacterRuntime
  decimal_ascii := sampleRuntime_decimal_ascii

def newYear : Date := ⟨738886, by decide, by decide⟩

theorem deal_dates_of_new_year : let _ := sampleDigitRuntime
    parseDealDate (str "2024-01-01") none = .ok newYear ∧ parseDealDate (str "2024年1月1日") none = .ok newYear := by
  intro _
  obtain ⟨reads, back⟩ := deal_dates none
  have iso : newYear.isoformat = str "2024-01-01" := by decide +kernel
  have numbers : Date.ofYmd 2024 1 1 = .ok newYear := by decide +kernel
  have units : named 2024 1 1 = str "2024年1月1日" := by decide +kernel
  exact ⟨iso ▸ (back newYear).1, (reads _ _).mpr ⟨2024, 1, 1, Or.inr (units ▸ named_named numbers), numbers⟩⟩

end CnPropertyAgent
