import CnPropertyAgent.Python.Calendar

/-!
Instants, and Python's timezone-aware `datetime`.

An aware datetime is a reading of a clock, on the first or the second pass over it, together
with the `tzinfo` object of the clock. Two datetimes of one object are compared by their
readings alone, two of different objects by their instants, and a reading whose offset
depends on the pass equals none of another object. So where a clock is turned back `==` and
`<` are not those of the instants, which is all that a `TIMESTAMPTZ` column keeps; on a
clock with one offset they are (`AwareDatetime.Fixed.comparable`).

The instants reach past the calendar by almost a day at both ends, and there the date in UTC
does not exist (`Instant.utcDate`).
-/

namespace Python

/-! ### Instants -/

/-- Microseconds in a day. -/
def dayMicros : Int := 86400000000

/-- A point in time, in microseconds since the midnight UTC that begins the year 1. -/
@[ext] structure Instant where
  micros : Int
  after_min : -dayMicros < micros
  before_max : micros < (maxOrdinal + 1) * dayMicros - 1
deriving DecidableEq

namespace Instant

instance : LinearOrder Instant := LinearOrder.lift' micros fun _ _ => Instant.ext

theorem lt_def {a b : Instant} : a < b ↔ a.micros < b.micros := Iff.rfl

/-- `t.astimezone(UTC).date()`. -/
def utcDate (t : Instant) : Except Exc Date :=
  match Date.ofOrdinal? (t.micros / dayMicros + 1) with
  | some d => .ok d
  | none => .error (.overflowError (str "date value out of range"))

theorem utcDate_eq_ok_iff {t : Instant} {d : Date} :
    t.utcDate = .ok d ↔ d.ordinal = t.micros / dayMicros + 1 := by
  unfold utcDate Date.ofOrdinal?
  constructor
  · intro h
    split at h
    · rename_i found
      split at found
      · cases found; cases h; rfl
      · cases found
    · cases h
  · intro h
    have lower := d.one_le
    have upper := d.le_max
    rw [dif_pos ⟨by omega, by omega⟩]
    simp [Date.ext_iff, h]

/-- The UTC date exists, and so does the day after it. -/
def HasNextDay (t : Instant) : Prop := 0 ≤ t.micros ∧ t.micros < (maxOrdinal - 1) * dayMicros

instance (t : Instant) : Decidable t.HasNextDay := inferInstanceAs (Decidable (_ ∧ _))

theorem hasNextDay_iff {t : Instant} :
    t.HasNextDay ↔ ∃ day next, t.utcDate = .ok day ∧ day.addDays 1 = .ok next := by
  simp only [utcDate_eq_ok_iff, Date.addDays_ok_iff]
  unfold HasNextDay
  constructor
  · rintro ⟨lower, upper⟩
    refine ⟨⟨t.micros / dayMicros + 1, ?_, ?_⟩, ⟨t.micros / dayMicros + 1 + 1, ?_, ?_⟩, rfl, rfl⟩ <;>
      unfold maxOrdinal dayMicros at * <;> omega
  · rintro ⟨day, next, hday, hnext⟩
    have lower := day.one_le
    have upper := next.le_max
    unfold maxOrdinal dayMicros at *
    omega

/-- The day after the UTC date is two after the count of whole days. -/
theorem HasNextDay.exists_days {t : Instant} (h : t.HasNextDay) :
    ∃ day next, t.utcDate = .ok day ∧ day.addDays 1 = .ok next ∧
      next.ordinal = t.micros / dayMicros + 2 := by
  obtain ⟨day, next, hday, hnext⟩ := hasNextDay_iff.mp h
  refine ⟨day, next, hday, hnext, ?_⟩
  rw [Date.addDays_ok_iff.mp hnext, utcDate_eq_ok_iff.mp hday]
  omega

end Instant

/-! ### Aware datetimes -/

/-- `isoformat` of a reading at an offset. -/
def isoText (wall offset : Int) : Str :=
  let clock (micros : Nat) : Str :=
    paddedStr 2 (micros / 3600000000) ++ str ":" ++ paddedStr 2 (micros / 60000000 % 60)
  let seconds (micros : Nat) : Str :=
    str ":" ++ paddedStr 2 (micros / 1000000 % 60) ++
      (if micros % 1000000 = 0 then [] else str "." ++ paddedStr 6 (micros % 1000000))
  let (year, month, day) := ymdOfOrdinal (wall / dayMicros + 1).toNat
  let time := (wall % dayMicros).toNat
  let size := offset.natAbs
  paddedStr 4 year ++ str "-" ++ paddedStr 2 month ++ str "-" ++ paddedStr 2 day ++ str "T" ++
    clock time ++ seconds time ++ str (if offset < 0 then "-" else "+") ++ clock size ++
    (if size % 60000000 = 0 then [] else seconds size)

/-- What `utcoffset` answers for a reading, on the first pass over it and on the second. -/
structure Offsets where
  first : Int
  second : Int
  first_lt_day : -dayMicros < first ∧ first < dayMicros
  second_lt_day : -dayMicros < second ∧ second < dayMicros
deriving DecidableEq

/-- A `tzinfo` object: its offsets at first and, in order, those from each of some readings on.
Objects that answer alike are told apart by their number. -/
structure TzInfo where
  number : Nat
  start : Offsets
  changes : List (Int × Offsets)
deriving DecidableEq

def TzInfo.offsets (tzinfo : TzInfo) (wall : Int) : Offsets :=
  tzinfo.changes.foldl (fun offsets change => if change.1 ≤ wall then change.2 else offsets) tzinfo.start

/-- A reading, in microseconds since the midnight of the clock that begins the year 1, with
`fold` for the second pass over it. -/
structure AwareDatetime where
  wall : Int
  fold : Bool
  tzinfo : TzInfo
  wall_nonneg : 0 ≤ wall
  wall_lt : wall < maxOrdinal * dayMicros
deriving DecidableEq

/-- `UTC`. -/
def TzInfo.utc : TzInfo := ⟨0, ⟨0, 0, by decide, by decide⟩, []⟩

namespace AwareDatetime

def utcoffset (t : AwareDatetime) : Int :=
  let offsets := t.tzinfo.offsets t.wall
  if t.fold then offsets.second else offsets.first

theorem utcoffset_bound (t : AwareDatetime) : -dayMicros < t.utcoffset ∧ t.utcoffset < dayMicros := by
  unfold utcoffset
  split_ifs
  · exact (t.tzinfo.offsets t.wall).second_lt_day
  · exact (t.tzinfo.offsets t.wall).first_lt_day

def instant (t : AwareDatetime) : Instant where
  micros := t.wall - t.utcoffset
  after_min := by
    have bound := t.utcoffset_bound
    have nonneg := t.wall_nonneg
    omega
  before_max := by
    have bound := t.utcoffset_bound
    have upper := t.wall_lt
    unfold maxOrdinal dayMicros at *
    omega

/-- The offset depends on the pass over the reading. -/
def passMatters (t : AwareDatetime) : Bool :=
  (t.tzinfo.offsets t.wall).first ≠ (t.tzinfo.offsets t.wall).second

/-- `a == b`. -/
def eq (a b : AwareDatetime) : Bool :=
  if a.tzinfo = b.tzinfo then a.wall = b.wall
  else !a.passMatters && !b.passMatters && a.instant = b.instant

/-- `a < b`. -/
def lt (a b : AwareDatetime) : Bool :=
  if a.tzinfo = b.tzinfo then a.wall < b.wall else a.instant < b.instant

/-- `hash(t)` is the hash of the instant of the first pass. -/
def hashed (t : AwareDatetime) : Int := t.wall - (t.tzinfo.offsets t.wall).first

/-- Equal datetimes have one hash, so a dictionary finds the key that is equal. -/
theorem hashed_eq_of_eq {a b : AwareDatetime} (same : a.eq b = true) : a.hashed = b.hashed := by
  unfold eq at same
  split_ifs at same with zone
  · unfold hashed
    rw [zone, of_decide_eq_true same]
  · simp only [passMatters, ne_eq, Bool.and_eq_true, Bool.not_eq_true', decide_eq_false_iff_not, not_not,
      decide_eq_true_eq] at same
    obtain ⟨⟨plainA, plainB⟩, same⟩ := same
    have instants := congrArg Instant.micros same
    simp only [instant, utcoffset, plainA, plainB, ite_self] at instants
    simpa only [hashed, plainA, plainB] using instants

end AwareDatetime

/-! ### Datetimes that are compared -/

/-- Datetimes as `==` and `<` compare them, with the instants that a column keeps of them. -/
class Datetime (T : Type) where
  eq : T → T → Bool
  lt : T → T → Bool
  instant : T → Instant
  isoformat : T → Str

instance : Datetime AwareDatetime where
  eq := AwareDatetime.eq
  lt := AwareDatetime.lt
  instant := AwareDatetime.instant
  isoformat t := isoText t.wall t.utcoffset

/-- What is read of a column: the `tzinfo` object of each datetime has one offset. They are written in
the zone of the session, which is UTC here. -/
instance : Datetime Instant where
  eq a b := a = b
  lt a b := a < b
  instant := id
  isoformat t := isoText t.micros 0

namespace Datetime

variable {T : Type} [Datetime T]

/-- `==` and `<` of these datetimes are those of their instants. -/
def Comparable (ts : List T) : Prop :=
  ∀ a ∈ ts, ∀ b ∈ ts, (eq a b = true ↔ instant a = instant b) ∧ (lt a b = true ↔ instant a < instant b)

instance (ts : List T) : Decidable (Comparable ts) :=
  inferInstanceAs (Decidable (∀ a ∈ ts, ∀ b ∈ ts, _))

@[simp] theorem instant_instant (t : Instant) : Datetime.instant t = t := rfl

/-- What is read of a column is compared by the instants. -/
theorem comparable_instants (ts : List Instant) : Comparable ts :=
  fun _ _ _ _ => ⟨decide_eq_true_iff, decide_eq_true_iff⟩

end Datetime

theorem AwareDatetime.lt_self (t : AwareDatetime) : Datetime.lt t t = false := by
  show t.lt t = false
  simp [lt]

/-- The clock has one offset. -/
def AwareDatetime.Fixed (t : AwareDatetime) : Prop :=
  t.tzinfo.changes = [] ∧ t.tzinfo.start.first = t.tzinfo.start.second

instance (t : AwareDatetime) : Decidable t.Fixed := inferInstanceAs (Decidable (_ ∧ _))

/-- Datetimes of such clocks are compared by their instants. -/
theorem AwareDatetime.Fixed.comparable {ts : List AwareDatetime} (fixed : ∀ t ∈ ts, t.Fixed) :
    Datetime.Comparable ts := by
  have offsets {t : AwareDatetime} (mem : t ∈ ts) : t.tzinfo.offsets t.wall = t.tzinfo.start := by
    rw [TzInfo.offsets, (fixed t mem).1]
    rfl
  have micros {t : AwareDatetime} (mem : t ∈ ts) : t.instant.micros = t.wall - t.tzinfo.start.first := by
    simp only [instant, utcoffset, offsets mem, ← (fixed t mem).2, ite_self]
  have plain {t : AwareDatetime} (mem : t ∈ ts) : t.passMatters = false := by
    simp only [passMatters, offsets mem, (fixed t mem).2, ne_eq, not_true_eq_false, decide_false]
  intro a ha b hb
  show (a.eq b = true ↔ a.instant = b.instant) ∧ (a.lt b = true ↔ a.instant < b.instant)
  rw [Instant.ext_iff, Instant.lt_def]
  unfold eq lt
  by_cases zone : a.tzinfo = b.tzinfo
  · rw [if_pos zone, if_pos zone, micros ha, micros hb, zone, decide_eq_true_eq, decide_eq_true_eq]
    constructor <;> omega
  · rw [if_neg zone, if_neg zone, plain ha, plain hb]
    simp [Instant.ext_iff, Instant.lt_def]

end Python
