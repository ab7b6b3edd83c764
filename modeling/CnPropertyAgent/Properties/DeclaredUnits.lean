import CnPropertyAgent.Properties.UnitTokens

/-!
Which total prices are accepted.

The unit of a total price is 万元. Since a price is parsed from a numeral between two runs of
units, a unit may stand before it, or more than one behind it; such a text is read as if it had
the one unit in its place.
-/

namespace CnPropertyAgent.Lianjia

open Python

/-- `万`. -/
def wan : CodePoint := CodePoint.ofChar '万'

section

variable [Runtime]

/-- The text is this numeral with at most one unit behind it, and whitespace around each. -/
def Declares (text : Str) (n : Numeral) : Prop :=
  ∃ lead gap unit tail : Str, lead.Blank ∧ gap.Blank ∧ tail.Blank ∧ unit ∈ [] :: wanUnits ∧
    text = lead ++ (n.text ++ (gap ++ (unit ++ tail)))

/-- A declared price is read, and every other text is refused. -/
def ReadsDeclared (text : Str) (field : Option Str) : Prop :=
  (∀ n, Declares text n → parseWanToCny text field = .ok (.finite (10000 * n.value))) ∧
    ((∀ n, ¬ Declares text n) → ∃ e, parseWanToCny text field = .error e ∧ IsFieldError field e)

/-- At most one unit, with no digit behind it. -/
def UnitInPlace (text : Str) : Prop :=
  text.count wan ≤ 1 ∧ ∀ c ∈ text.dropWhile (· ≠ wan), isDigit c = false

/-- The text is a numeral between runs of units. -/
def Surrounded (text : Str) : Prop :=
  ∃ (before behind : Run wanUnits) (n : Numeral), text = before.text ++ (n.text ++ behind.text)

end

/-! ### Runs of the unit -/

theorem wanUnits_mem : wanUnits ∈ converterUnits := List.mem_cons_of_mem _ List.mem_cons_self

theorem count_wan_of_mem {unit : Str} (mem : unit ∈ wanUnits) : unit.count wan = 1 := by
  have all : ∀ unit ∈ wanUnits, unit.count wan = 1 := by decide +kernel
  exact all unit mem

theorem wan_not_mem_of_blank {s : Str} (blank : s.Blank) : wan ∉ s := fun mem => by
  cases blank wan mem

/-- A run without the character has no unit. -/
theorem blank_of_wan_not_mem {run : Run wanUnits} (none : wan ∉ run.text) : run.text.Blank := by
  intro c mem
  obtain ⟨piece, listed, mem⟩ := List.mem_flatMap.mp mem
  cases piece with
  | space d blank => rwa [List.mem_singleton.mp mem]
  | token unit known =>
      have inside : wan ∈ unit := List.count_pos_iff.mp (by rw [count_wan_of_mem known]; exact one_pos)
      exact absurd (List.mem_flatMap.mpr ⟨_, listed, inside⟩) none

/-- A run with the character at most once has at most one unit. -/
theorem exists_unit_of_count_le {run : Run wanUnits} (once : run.text.count wan ≤ 1) :
    ∃ gap unit tail : Str, gap.Blank ∧ tail.Blank ∧ unit ∈ [] :: wanUnits ∧
      run.text = gap ++ (unit ++ tail) := by
  induction run with
  | nil =>
      exact ⟨[], [], [], Str.blank_nil, Str.blank_nil, List.mem_cons_self, rfl⟩
  | cons piece run ih =>
      rw [Run.text_cons, List.count_append] at once
      cases piece with
      | space c space =>
          obtain ⟨gap, unit, tail, blank, blank', known, split⟩ := ih (le_trans (Nat.le_add_left _ _) once)
          refine ⟨c :: gap, unit, tail, ?_, blank', known, ?_⟩
          · intro d mem
            rcases List.mem_cons.mp mem with rfl | mem
            · exact space
            · exact blank d mem
          · rw [Run.text_cons, split]
            rfl
      | token unit known =>
          have counted : unit.count wan = 1 := count_wan_of_mem known
          have none : wan ∉ Run.text run := by
            rw [← List.count_eq_zero]
            have total : unit.count wan + (Run.text run).count wan ≤ 1 := once
            omega
          exact ⟨[], unit, Run.text run, Str.blank_nil, blank_of_wan_not_mem none,
            List.mem_cons_of_mem _ known, Run.text_cons _ _⟩

section

variable [CharacterRuntime] {text : Str} {n : Numeral}

theorem Numeral.wan_not_mem : wan ∉ n.text := by
  intro mem
  cases Numeral.startsUnit_eq_false wan mem

theorem Numeral.exists_digit (n : Numeral) : ∃ c ∈ n.text, isDigit c = true := by
  obtain ⟨c, mem⟩ := List.exists_mem_of_ne_nil _ n.whole_ne_nil
  exact ⟨c, List.mem_append_right _ (List.mem_append_left _ mem), n.whole_digits c mem⟩

/-! ### Declared prices -/

theorem Declares.surrounded (declares : Declares text n) :
    ∃ before behind : Run wanUnits, text = before.text ++ (n.text ++ behind.text) := by
  obtain ⟨lead, gap, unit, tail, blank, blank', blank'', known, rfl⟩ := declares
  obtain ⟨before, rfl⟩ : ∃ run : Run wanUnits, run.text = lead := blank.exists_run
  obtain ⟨between, rfl⟩ : ∃ run : Run wanUnits, run.text = gap := blank'.exists_run
  obtain ⟨last, rfl⟩ : ∃ run : Run wanUnits, run.text = tail := blank''.exists_run
  rcases List.mem_cons.mp known with rfl | listed
  · exact ⟨before, between ++ last, by simp [Run.text]⟩
  · exact ⟨before, between ++ .token unit listed :: last, by simp [Run.text, Piece.text]⟩

/-- A declared price has its unit in its place. -/
theorem Declares.unitInPlace (declares : Declares text n) : UnitInPlace text := by
  obtain ⟨lead, gap, unit, tail, blank, blank', blank'', known, rfl⟩ := declares
  have front : wan ∉ lead ++ (n.text ++ gap) := by
    simp only [List.mem_append, not_or]
    exact ⟨wan_not_mem_of_blank blank, Numeral.wan_not_mem, wan_not_mem_of_blank blank'⟩
  have split : lead ++ (n.text ++ (gap ++ (unit ++ tail))) = (lead ++ (n.text ++ gap)) ++ (unit ++ tail) := by
    simp only [List.append_assoc]
  rw [split]
  constructor
  · have early := List.count_eq_zero.mpr front
    have late := List.count_eq_zero.mpr (wan_not_mem_of_blank blank'')
    rw [List.count_append, early, List.count_append, late]
    rcases List.mem_cons.mp known with rfl | listed
    · exact Nat.zero_le 1
    · rw [count_wan_of_mem listed]
  · have passed : (lead ++ (n.text ++ gap)).dropWhile (· ≠ wan) = [] :=
      List.dropWhile_eq_nil_iff.mpr fun c mem => decide_eq_true fun same => front (same ▸ mem)
    intro c mem
    rw [List.dropWhile_append, passed, List.isEmpty_nil, if_pos rfl] at mem
    rcases List.mem_append.mp ((List.dropWhile_sublist _).subset mem) with inside | inside
    · rcases List.mem_cons.mp known with rfl | listed
      · cases inside
      · have starts : unit.all startsUnit = true := by
          have all : ∀ unit ∈ wanUnits, unit.all startsUnit = true := by decide +kernel
          exact all unit listed
        by_contra digit
        have other := startsUnit_eq_false_of_isDigit (Bool.eq_true_of_not_eq_false digit)
        rw [List.all_eq_true.mp starts c inside] at other
        cases other
    · exact isDigit_eq_false_of_isSpace (blank'' c inside)

/-- Between runs, a unit in its place is declared. -/
theorem UnitInPlace.declares {before behind : Run wanUnits}
    (inPlace : UnitInPlace (before.text ++ (n.text ++ behind.text))) :
    Declares (before.text ++ (n.text ++ behind.text)) n := by
  obtain ⟨once, undigited⟩ := inPlace
  have none : wan ∉ before.text := by
    intro mem
    -- the digits of the numeral stand behind this unit
    obtain ⟨c, inside, digit⟩ := n.exists_digit
    have found : (before.text.dropWhile (· ≠ wan)).isEmpty = false := by
      rw [List.isEmpty_eq_false_iff, Ne, List.dropWhile_eq_nil_iff]
      intro passed
      exact of_decide_eq_true (passed wan mem) rfl
    have behind_mem : c ∈ (before.text ++ (n.text ++ behind.text)).dropWhile (· ≠ wan) := by
      rw [List.dropWhile_append, found]
      exact List.mem_append_right _ (List.mem_append_left _ inside)
    rw [undigited c behind_mem] at digit
    cases digit
  have counted : behind.text.count wan ≤ 1 := by
    rw [List.count_append, List.count_append] at once
    omega
  obtain ⟨gap, unit, tail, blank', blank'', known, split⟩ := exists_unit_of_count_le counted
  exact ⟨before.text, gap, unit, tail, blank_of_wan_not_mem none, blank', blank'', known, by rw [split]⟩

/-- What stands among the units of a price has no case. -/
theorem caseless_of_mem_run (run : Run wanUnits) : ∀ c ∈ run.text, c.Caseless := by
  intro c mem
  rcases Run.mem_text mem with blank | ⟨unit, listed, inside⟩
  · exact Or.inl blank
  · have cjk : ∀ unit ∈ wanUnits, unit.all (fun c => 0x3000 ≤ c.val && c.val ≤ 0x9FFF) = true := by
      decide +kernel
    have range := List.all_eq_true.mp (cjk unit listed) c inside
    rw [Bool.and_eq_true, decide_eq_true_eq, decide_eq_true_eq] at range
    exact Or.inr (Or.inr (Or.inr range))

/-- A number in 万元 is parsed exactly from a numeral between two runs of the units. -/
theorem parseNumber_wan_iff {field : Option Str} {x : Double} :
    parseNumber text wanUnits field = .ok x ↔ ∃ (before behind : Run wanUnits) (n : Numeral),
      text = before.text ++ (n.text ++ behind.text) ∧ x = Runtime.round n.value := by
  rw [parseNumber_ok_iff_of_units wanUnits_mem]
  constructor
  · rintro ⟨before, behind, n, split, value⟩
    have kept : Runtime.casefold text = text := by
      apply CharacterRuntime.casefold_eq_self_of_caseless
      rw [split]
      exact Run.forall_between caseless_of_mem_run Numeral.caseless before behind
    exact ⟨before, behind, n, kept ▸ split, value⟩
  · rintro ⟨before, behind, n, rfl, value⟩
    exact ⟨before, behind, n, casefold_between_runs wanUnits_mem before behind n, value⟩

/-- So is a price. -/
theorem parseWanToCny_ok_iff {field : Option Str} {y : Double} :
    parseWanToCny text field = .ok y ↔ ∃ (before behind : Run wanUnits) (n : Numeral),
      text = before.text ++ (n.text ++ behind.text) ∧ y = (Runtime.round n.value).mul cnyPerWan := by
  rw [parseWanToCny]
  constructor
  · intro parsed
    cases number : parseNumber text wanUnits field with
    | error e =>
        rw [number] at parsed
        cases parsed
    | ok x =>
        rw [number] at parsed
        cases parsed
        obtain ⟨before, behind, n, split, rfl⟩ := parseNumber_wan_iff.mp number
        exact ⟨before, behind, n, split, rfl⟩
  · rintro ⟨before, behind, n, split, rfl⟩
    rw [parseNumber_wan_iff.mpr ⟨before, behind, n, split, rfl⟩]
    rfl

theorem parseWanToCny_raises_iff {field : Option Str} :
    (∃ e, parseWanToCny text field = .error e) ↔ ¬ Surrounded text := by
  constructor
  · rintro ⟨e, raised⟩ ⟨before, behind, n, split⟩
    rw [parseWanToCny_ok_iff.mpr ⟨before, behind, n, split, rfl⟩] at raised
    cases raised
  · intro apart
    cases outcome : parseWanToCny text field with
    | error e => exact ⟨e, rfl⟩
    | ok y =>
        obtain ⟨before, behind, n, split, -⟩ := parseWanToCny_ok_iff.mp outcome
        exact absurd ⟨before, behind, n, split⟩ apart

/-- **Declared units.** In exact arithmetic a text is read as its price in 万元 says, and refused if
it says none, exactly when its unit is in its place, or when it is no numeral between units. -/
theorem wan_prices (exact : ∀ q, Runtime.round q = .finite q) (text : Str) (field : Option Str) :
    ReadsDeclared text field ↔ UnitInPlace text ∨ ¬ Surrounded text := by
  constructor
  · rintro ⟨-, refused⟩
    by_contra! wrong
    obtain ⟨misplaced, surrounded⟩ := wrong
    have undeclared : ∀ n, ¬ Declares text n := fun n declares => misplaced declares.unitInPlace
    obtain ⟨e, raised, -⟩ := refused undeclared
    exact parseWanToCny_raises_iff.mp ⟨e, raised⟩ surrounded
  · intro fits
    constructor
    · intro n declares
      obtain ⟨before, behind, split⟩ := declares.surrounded
      rw [parseWanToCny_ok_iff]
      refine ⟨before, behind, n, split, ?_⟩
      have factor : cnyPerWan = .finite 10000 := rfl
      rw [exact, factor, Double.mul, exact, mul_comm]
    · intro undeclared
      have apart : ¬ Surrounded text := by
        rintro ⟨before, behind, n, rfl⟩
        rcases fits with inPlace | apart
        · exact undeclared n inPlace.declares
        · exact apart ⟨before, behind, n, rfl⟩
      obtain ⟨e, raised⟩ := parseWanToCny_raises_iff.mpr apart
      exact ⟨e, raised, parseWanToCny_error raised⟩

end

/-- A price with its unit. -/
theorem wan_prices_of_unit : let _ := sampleCharacterRuntime
    ReadsDeclared (str "1140.5 万元") none := by
  intro _
  have undigited : ((str "1140.5 万元").dropWhile (· ≠ wan)).all (fun c => !isDigit c) = true := by decide +kernel
  refine (wan_prices (fun _ => rfl) _ _).mpr (Or.inl ⟨by decide +kernel, fun c mem => ?_⟩)
  exact Bool.eq_false_of_not_eq_true' (List.all_eq_true.mp undigited c mem)

/-- A repeated unit is read as if it were one. -/
theorem wan_prices_of_repeated_unit : let _ := sampleCharacterRuntime
    ¬ ∀ (value : Json) (text : Str) (field : Option Str), normalizeCell value = .ok (some text) →
      ReadsDeclared text field := by
  intro _ reads
  have cell : normalizeCell (.text (str "100万万")) = .ok (some (str "100万万")) := by decide +kernel
  obtain ⟨-, refused⟩ := reads _ _ none cell
  have undeclared : ∀ n, ¬ Declares (str "100万万") n := by
    intro n declares
    exact absurd declares.unitInPlace.1 (by decide +kernel)
  obtain ⟨e, raised, -⟩ := refused undeclared
  have accepted : parseWanToCny (str "100万万") none = .ok 1000000 := by decide +kernel
  cases accepted.symm.trans raised

end CnPropertyAgent.Lianjia
