import CnPropertyAgent.Python.Calendar

/-!
Year, month and day of an ordinal.

The days before a year add up by cycles of 400, 100, 4 and 1 years, so taking an ordinal apart
by these cycles gives the year and the day in it back, and every ordinal is a calendar date
(`ofYmd_ymdOfOrdinal`).
-/

namespace Python

/-! ### Years -/

/-- A year by its cycles. -/
def yearOf (a b c e : Nat) : Nat := a * 400 + b * 100 + c * 4 + e + 1

section

variable {a b c e : Nat}

theorem daysBeforeYear_yearOf (hb : b < 4) (hc : c < 25) (he : e < 4) :
    daysBeforeYear (yearOf a b c e) = 146097 * a + 36524 * b + 1461 * c + 365 * e := by
  unfold daysBeforeYear yearOf
  dsimp only
  omega

/-- The last year of four is a leap year, unless it is the last of a hundred and not of four
hundred. -/
theorem isLeap_yearOf (hb : b < 4) (hc : c < 25) (he : e < 4) :
    isLeap (yearOf a b c e) = true ↔ e = 3 ∧ (c = 24 → b = 3) := by
  unfold isLeap yearOf
  simp only [Bool.and_eq_true, Bool.or_eq_true, decide_eq_true_eq, ne_eq]
  omega

end

/-! ### Months -/

/-- The days of a month, by whether the year is a leap year. -/
def daysOfMonth (leap : Bool) (month : Nat) : Nat :=
  if month = 2 then (if leap then 29 else 28)
  else if month = 4 || month = 6 || month = 9 || month = 11 then 30 else 31

def daysAhead (leap : Bool) (month : Nat) : Nat :=
  ((List.range month).drop 1).foldl (fun days m => days + daysOfMonth leap m) 0

theorem daysInMonth_eq (year month : Nat) : daysInMonth year month = daysOfMonth (isLeap year) month := rfl

theorem daysBeforeMonth_eq (year month : Nat) : daysBeforeMonth year month = daysAhead (isLeap year) month := rfl

/-- The month of a day of the year, but for the last of a leap year. -/
def monthOf (leap : Bool) (day : Nat) : Nat :=
  if day < daysAhead leap ((day + 50) / 32) then (day + 50) / 32 - 1 else (day + 50) / 32

theorem monthOf_spec : ∀ leap : Bool, ∀ day < 365,
    1 ≤ monthOf leap day ∧ monthOf leap day ≤ 12 ∧ daysAhead leap (monthOf leap day) ≤ day ∧
      day - daysAhead leap (monthOf leap day) < daysOfMonth leap (monthOf leap day) := by
  decide +kernel

/-- The last month starts 31 days before the year ends. -/
theorem daysAhead_december (leap : Bool) : daysAhead leap 12 = if leap then 335 else 334 := by
  cases leap <;> decide +kernel

/-! ### Ordinals -/

/-- The three numbers are a date of this ordinal. -/
structure Names (ordinal : Nat) (ymd : Nat × Nat × Nat) : Prop where
  year : 1 ≤ ymd.1 ∧ ymd.1 ≤ 9999
  month : 1 ≤ ymd.2.1 ∧ ymd.2.1 ≤ 12
  day : 1 ≤ ymd.2.2 ∧ ymd.2.2 ≤ daysInMonth ymd.1 ymd.2.1
  ordinal : daysBeforeYear ymd.1 + daysBeforeMonth ymd.1 ymd.2.1 + ymd.2.2 = ordinal

/-- A day of the year that is not the last of a leap year. -/
theorem names_monthOf {a b c e day : Nat} (hb : b < 4) (hc : c < 25) (he : e < 4) (hday : day < 365)
    (bound : yearOf a b c e ≤ 9999) :
    Names (146097 * a + 36524 * b + 1461 * c + 365 * e + day + 1)
      (yearOf a b c e, monthOf (isLeap (yearOf a b c e)) day,
        day - daysAhead (isLeap (yearOf a b c e)) (monthOf (isLeap (yearOf a b c e)) day) + 1) := by
  obtain ⟨first, last, ahead, inside⟩ := monthOf_spec (isLeap (yearOf a b c e)) day hday
  refine ⟨⟨Nat.le_add_left 1 _, bound⟩, ⟨first, last⟩, ⟨Nat.le_add_left 1 _, ?_⟩, ?_⟩
  · rw [daysInMonth_eq]
    exact inside
  · dsimp only
    rw [daysBeforeYear_yearOf hb hc he, daysBeforeMonth_eq]
    omega

/-- The last day of a leap year. -/
theorem names_leap {a b c : Nat} (hb : b < 4) (hc : c < 25) (leap : c = 24 → b = 3)
    (bound : yearOf a b c 3 ≤ 9999) :
    Names (146097 * a + 36524 * b + 1461 * c + 1461) (yearOf a b c 3, 12, 31) := by
  have leaps : isLeap (yearOf a b c 3) = true := (isLeap_yearOf hb hc (by decide)).mpr ⟨rfl, leap⟩
  have before : daysBeforeYear (yearOf a b c 3) = 146097 * a + 36524 * b + 1461 * c + 365 * 3 :=
    daysBeforeYear_yearOf hb hc (by decide)
  have ahead : daysBeforeMonth (yearOf a b c 3) 12 = 335 := by
    rw [daysBeforeMonth_eq, leaps, daysAhead_december, if_pos rfl]
  refine ⟨⟨Nat.le_add_left 1 _, bound⟩, ⟨Nat.le_add_left 1 11, le_rfl⟩, ⟨Nat.le_add_left 1 30, le_rfl⟩, ?_⟩
  dsimp only
  rw [before, ahead]

/-- The cycles of a day: four centuries but for one day, at most 24 times four years in all of
them but the last, and so on. -/
theorem exists_cycles (n : Nat) : ∃ a b c e day, n = 146097 * a + 36524 * b + 1461 * c + 365 * e + day ∧
    (b < 4 ∧ c < 25 ∧ e < 4 ∧ day < 365 ∨ b < 4 ∧ c < 24 ∧ e = 4 ∧ day = 0 ∨
      b = 4 ∧ c = 0 ∧ e = 0 ∧ day = 0) ∧
    ymdOfOrdinal (n + 1) =
      if (e = 4 || b = 4) = true then (yearOf a b c e - 1, 12, 31)
      else (yearOf a b c e, monthOf (isLeap (yearOf a b c e)) day,
        day - daysAhead (isLeap (yearOf a b c e)) (monthOf (isLeap (yearOf a b c e)) day) + 1) := by
  refine ⟨n / 146097, n % 146097 / 36524, n % 146097 % 36524 / 1461, n % 146097 % 36524 % 1461 / 365,
    n % 146097 % 36524 % 1461 % 365, by omega, by omega, rfl⟩

/-- **Ordinals.** Every ordinal is taken apart into its date. -/
theorem names_ymdOfOrdinal {n : Nat} (bound : n < 3652059) : Names (n + 1) (ymdOfOrdinal (n + 1)) := by
  obtain ⟨a, b, c, e, day, total, ⟨hb, hc, he, hday⟩ | ⟨hb, hc, rfl, rfl⟩ | ⟨rfl, rfl, rfl, rfl⟩, apart⟩ :=
    exists_cycles n
  · have inside : ¬ (e = 4 || b = 4) = true := by simp; omega
    have last : yearOf a b c e ≤ 9999 := by unfold yearOf; omega
    rw [apart, if_neg inside, total]
    exact names_monthOf hb hc he hday last
  · -- The 366th day of a leap year.
    have last : yearOf a b c 3 ≤ 9999 := by unfold yearOf; omega
    have special : (4 = 4 || b = 4) = true := rfl
    rw [apart, if_pos special, total]
    exact names_leap hb (hc.trans (by decide)) (fun twentyFour => absurd twentyFour hc.ne) last
  · -- The last day of four centuries.
    have last : yearOf a 3 24 3 ≤ 9999 := by unfold yearOf; omega
    have year : yearOf a 4 0 0 - 1 = yearOf a 3 24 3 := by unfold yearOf; omega
    have day : n + 1 = 146097 * a + 36524 * 3 + 1461 * 24 + 1461 := by omega
    have special : (0 = 4 || 4 = 4) = true := rfl
    rw [apart, if_pos special, year, day]
    exact names_leap (by decide) (by decide) (fun _ => rfl) last

theorem Date.ofOrdinal?_eq_some_iff {n : Int} {d : Date} : Date.ofOrdinal? n = some d ↔ d.ordinal = n := by
  unfold Date.ofOrdinal?
  split_ifs with exists_
  · rw [Option.some_inj, Date.ext_iff, eq_comm]
  · refine iff_of_false (by rintro ⟨⟩) ?_
    rintro rfl
    exact exists_ ⟨d.one_le, d.le_max⟩

/-- A date is made of the numbers that name its ordinal. -/
theorem Date.ofYmd_eq_ok_iff {year month day : Nat} {d : Date} :
    Date.ofYmd year month day = .ok d ↔ Names d.ordinal.toNat (year, month, day) := by
  unfold Date.ofYmd
  by_cases hyear : 1 ≤ year ∧ year ≤ 9999
  · by_cases hmonth : 1 ≤ month ∧ month ≤ 12
    · by_cases hday : 1 ≤ day ∧ day ≤ daysInMonth year month
      · rw [if_neg (not_not.mpr hyear), if_neg (not_not.mpr hmonth), if_neg (not_not.mpr hday)]
        have lower := d.one_le
        have names : Names d.ordinal.toNat (year, month, day) ↔
            Date.ofOrdinal? (daysBeforeYear year + daysBeforeMonth year month + day) = some d := by
          rw [Date.ofOrdinal?_eq_some_iff]
          refine ⟨fun h => ?_, fun same => ⟨hyear, hmonth, hday, by dsimp only; omega⟩⟩
          have same := h.ordinal
          dsimp only at same
          omega
        rw [names]
        cases Date.ofOrdinal? (daysBeforeYear year + daysBeforeMonth year month + day) <;> simp
      · rw [if_neg (not_not.mpr hyear), if_neg (not_not.mpr hmonth), if_pos hday]
        exact iff_of_false (by simp) fun h => hday h.day
    · rw [if_neg (not_not.mpr hyear), if_pos hmonth]
      exact iff_of_false (by simp) fun h => hmonth h.month
  · rw [if_pos hyear]
    exact iff_of_false (by simp) fun h => hyear h.year

/-- The calendar date of a date makes the date. -/
theorem Date.ofYmd_ymdOfOrdinal (d : Date) :
    Date.ofYmd (ymdOfOrdinal d.ordinal.toNat).1 (ymdOfOrdinal d.ordinal.toNat).2.1
      (ymdOfOrdinal d.ordinal.toNat).2.2 = .ok d := by
  have lower := d.one_le
  have upper := d.le_max
  unfold maxOrdinal at upper
  obtain ⟨n, day⟩ := Nat.exists_eq_add_of_le (show 1 ≤ d.ordinal.toNat by omega)
  rw [Nat.add_comm] at day
  rw [Date.ofYmd_eq_ok_iff, day]
  exact names_ymdOfOrdinal (by omega)

end Python
