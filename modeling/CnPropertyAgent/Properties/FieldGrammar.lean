import CnPropertyAgent.Properties.DealDates
import CnPropertyAgent.Properties.DeclaredUnits
import CnPropertyAgent.Providers.Lianjia.Cells

/-!
How a field of a row writes its value.

A field is silent, or holds a text that writes its value: a numeral between units, a whole
number, a date, the words of one list only. A reader of the code returns a value exactly when
the text writes it.
-/

namespace CnPropertyAgent.Lianjia

open Python

/-! ### Words -/

/-- The text has a word of the entry. -/
def Mentions {α : Type} (text : Str) (entry : List Str × α) : Prop := ∃ word ∈ entry.1, word <:+: text

/-- The text has words of one entry of the table only, the one of this value. -/
def NamesOnly {α : Type} (table : List (List Str × α)) (text : Str) (value : α) : Prop :=
  ∃ entry ∈ table, entry.2 = value ∧ Mentions text entry ∧
    ∀ other ∈ table, Mentions text other → other = entry

/-- A text writes the value that it alone names, and the unknown one when it names none or several. -/
def WritesWord {α : Type} (table : List (List Str × α)) (unknown : α) (text : Str) (value : α) : Prop :=
  NamesOnly table text value ∨ value = unknown ∧ ∀ v, ¬ NamesOnly table text v

theorem filter_eq_singleton_iff {α : Type} {l : List α} (nodup : l.Nodup) {p : α → Bool} {a : α} :
    l.filter p = [a] ↔ a ∈ l ∧ p a = true ∧ ∀ b ∈ l, p b = true → b = a := by
  constructor
  · intro only
    have mem : a ∈ l.filter p := only ▸ List.mem_singleton_self a
    refine ⟨(List.mem_filter.mp mem).1, (List.mem_filter.mp mem).2, ?_⟩
    intro b hb selected
    exact List.mem_singleton.mp (only ▸ List.mem_filter.mpr ⟨hb, selected⟩)
  · rintro ⟨mem, selected, only⟩
    apply List.perm_singleton.mp
    apply (List.perm_ext_iff_of_nodup (nodup.filter p) (List.nodup_singleton a)).mpr
    intro b
    rw [List.mem_filter, List.mem_singleton]
    constructor
    · rintro ⟨hb, selected⟩
      exact only b hb selected
    · rintro rfl
      exact ⟨mem, selected⟩

theorem mentions_iff {α : Type} {text : Str} {entry : List Str × α} :
    entry.1.any text.contains = true ↔ Mentions text entry := by
  rw [List.any_eq_true]
  exact exists_congr fun word => and_congr_right fun _ => decide_eq_true_iff

theorem namesOnly_iff {α : Type} {table : List (List Str × α)} (nodup : table.Nodup) {text : Str}
    {value : α} : NamesOnly table text value ↔
      ∃ entry, table.filter (fun entry => entry.1.any text.contains) = [entry] ∧ entry.2 = value := by
  simp only [filter_eq_singleton_iff nodup, mentions_iff]
  constructor
  · rintro ⟨entry, mem, rfl, mentions, only⟩
    exact ⟨entry, ⟨mem, mentions, only⟩, rfl⟩
  · rintro ⟨entry, ⟨mem, mentions, only⟩, rfl⟩
    exact ⟨entry, mem, rfl, mentions, only⟩

theorem onlyMatch_iff {α : Type} {table : List (List Str × α)} (nodup : table.Nodup) {unknown value : α}
    {text : Str} : onlyMatch table unknown text = value ↔ WritesWord table unknown text value := by
  unfold onlyMatch WritesWord
  simp only [namesOnly_iff nodup]
  split
  · rename_i entry only
    simp [only]
  · rename_i none_
    have silent (v : α) : ¬ ∃ entry, table.filter (fun entry => entry.1.any text.contains) = [entry] ∧
        entry.2 = v := by
      rintro ⟨entry, only, -⟩
      exact none_ entry only
    simp only [silent, not_false_eq_true, implies_true, and_true, false_or]
    exact eq_comm

/-! ### Layouts -/

/-- `N室`, `N室M厅` or `N房M厅`. -/
inductive IsLayout [Runtime] : Str → Prop where
  | rooms {rooms : Str} (nonempty : rooms ≠ []) (digits : ∀ c ∈ rooms, isDigit c = true) :
      IsLayout (rooms ++ str "室")
  | halls {rooms halls : Str} {unit : CodePoint} (nonempty : rooms ≠ [])
      (digits : ∀ c ∈ rooms, isDigit c = true) (named : unit ∈ str "室房")
      (nonempty' : halls ≠ []) (digits' : ∀ c ∈ halls, isDigit c = true) :
      IsLayout (rooms ++ unit :: (halls ++ str "厅"))

/-- The longest layout that the text starts with. -/
def StartsLayout [Runtime] (text layout : Str) : Prop :=
  IsLayout layout ∧ layout <+: text ∧
    ∀ other, IsLayout other → other <+: text → other.length ≤ layout.length

/-- The first layout of the text, and at its place the longest. -/
def FirstLayout [Runtime] (text layout : Str) : Prop :=
  ∃ before rest, text = before ++ rest ∧ StartsLayout rest layout ∧
    ∀ before' rest', text = before' ++ rest' → before'.length < before.length →
      ∀ other, IsLayout other → ¬ other <+: rest'

section

variable [CharacterRuntime] {text : Str}

omit [CharacterRuntime] in
theorem layoutUnits : str "室房" = [0x5BA4, 0x623F] ∧ str "室" = [0x5BA4] ∧ str "厅" = [0x5385] :=
  ⟨rfl, rfl, rfl⟩

/-- What a layout starts with decides what the text is cut into. -/
theorem layoutAt_rooms {rooms behind : Str} {unit : CodePoint} (nonempty : rooms ≠ [])
    (digits : ∀ c ∈ rooms, isDigit c = true) (named : unit ∈ str "室房") :
    layoutAt (rooms ++ unit :: behind) =
      if behind.takeWhile isDigit ≠ [] ∧ str "厅" <+: behind.drop (behind.takeWhile isDigit).length then
        some (rooms ++ [unit] ++ behind.takeWhile isDigit ++ str "厅")
      else if unit ∈ str "室" then some (rooms ++ [unit]) else none := by
  have stop : isDigit unit = false := by
    rw [layoutUnits.1, List.mem_cons, List.mem_singleton] at named
    rcases named with rfl | rfl <;> exact isDigit_eq_false_of_cjk (by decide)
  have cut : (rooms ++ unit :: behind).takeWhile isDigit = rooms := by
    apply takeWhile_digits digits
    rintro c ⟨⟩
    exact stop
  rw [layoutAt]
  simp only [cut, if_neg nonempty, List.drop_left, named, true_and]

theorem takeWhile_halls {halls behind : Str} (digits : ∀ c ∈ halls, isDigit c = true) :
    (halls ++ (str "厅" ++ behind)).takeWhile isDigit = halls := by
  apply takeWhile_digits digits
  rintro c ⟨⟩
  exact isDigit_eq_false_of_cjk (by decide)

/-- What is found is a layout. -/
theorem isLayout_of_layoutAt {layout : Str} (found : layoutAt text = some layout) :
    IsLayout layout ∧ layout <+: text := by
  have digits : ∀ c ∈ text.takeWhile isDigit, isDigit c = true := fun c mem => List.mem_takeWhile_imp mem
  have split := List.prefix_iff_eq_append.mp (List.takeWhile_prefix isDigit (l := text))
  have nonempty : text.takeWhile isDigit ≠ [] := by
    intro empty
    rw [layoutAt, if_pos empty] at found
    cases found
  cases behind : text.drop (text.takeWhile isDigit).length with
  | nil =>
      rw [layoutAt, if_neg nonempty, behind] at found
      cases found
  | cons unit rest =>
      by_cases named : unit ∈ str "室房"
      · rw [behind] at split
        rw [← split, layoutAt_rooms nonempty digits named] at found
        split_ifs at found with halls room
        · cases found
          obtain ⟨tail, after⟩ := halls.2
          refine ⟨?_, tail, ?_⟩
          · rw [List.append_assoc, List.append_assoc, List.singleton_append]
            exact .halls nonempty digits named halls.1 fun c mem => List.mem_takeWhile_imp mem
          · have halved := List.prefix_iff_eq_append.mp (List.takeWhile_prefix isDigit (l := rest))
            rw [← after] at halved
            refine Eq.trans ?_ split
            conv_rhs => rw [← halved]
            simp only [List.append_assoc, List.cons_append, List.nil_append]
        · cases found
          have only : unit = 0x5BA4 := List.mem_singleton.mp room
          refine ⟨only ▸ .rooms nonempty digits, rest, ?_⟩
          rw [List.append_assoc, List.singleton_append, split]
      · have other : unit ∉ str "室" := by
          intro room
          exact named (List.mem_cons.mpr (Or.inl (List.mem_singleton.mp room)))
        rw [layoutAt, if_neg nonempty, behind] at found
        simp only [named, other, false_and, if_false, reduceCtorEq] at found

/-- Where a layout starts, one at least as long is found. -/
theorem exists_layoutAt {other : Str} (layout : IsLayout other) (starts : other <+: text) :
    ∃ found, layoutAt text = some found ∧ other.length ≤ found.length := by
  obtain ⟨behind, rfl⟩ := starts
  cases layout with
  | @rooms rooms nonempty digits =>
      rw [List.append_assoc, layoutUnits.2.1, List.singleton_append,
        layoutAt_rooms nonempty digits (by decide), if_pos (show (0x5BA4 : CodePoint) ∈ str "室" by decide)]
      split_ifs with more
      · exact ⟨_, rfl, by simp only [List.length_append]; omega⟩
      · exact ⟨_, rfl, le_rfl⟩
  | @halls rooms halls unit nonempty digits named nonempty' digits' =>
      rw [List.append_assoc, List.cons_append, List.append_assoc, layoutAt_rooms nonempty digits named,
        takeWhile_halls digits', List.drop_left, if_pos ⟨nonempty', List.prefix_append _ _⟩]
      exact ⟨_, rfl, by simp⟩

theorem layoutAt_eq_some_iff {layout : Str} : layoutAt text = some layout ↔ StartsLayout text layout := by
  constructor
  · intro found
    refine ⟨(isLayout_of_layoutAt found).1, (isLayout_of_layoutAt found).2, ?_⟩
    intro other isLayout starts
    obtain ⟨found', again, le⟩ := exists_layoutAt isLayout starts
    cases found.symm.trans again
    exact le
  · rintro ⟨isLayout, starts, longest⟩
    obtain ⟨found, again, le⟩ := exists_layoutAt isLayout starts
    obtain ⟨isLayout', starts'⟩ := isLayout_of_layoutAt again
    have same := longest found isLayout' starts'
    rw [again, List.prefix_of_prefix_length_le starts starts' le |>.eq_of_length (le_antisymm le same)]

theorem layoutAt_eq_none_iff : layoutAt text = none ↔ ∀ layout, IsLayout layout → ¬ layout <+: text := by
  constructor
  · intro nothing layout isLayout starts
    obtain ⟨found, again, -⟩ := exists_layoutAt isLayout starts
    cases nothing.symm.trans again
  · intro nothing
    cases found : layoutAt text with
    | none => rfl
    | some layout =>
        obtain ⟨isLayout, starts⟩ := isLayout_of_layoutAt found
        exact absurd starts (nothing layout isLayout)

omit [CharacterRuntime] in
theorem IsLayout.ne_nil [Runtime] {layout : Str} (h : IsLayout layout) : layout ≠ [] := by
  cases h <;> simp [str]

/-- **The search.** The layout of a title is its first, and at that place the longest. -/
theorem extractLayout_eq_some_iff {layout : Str} :
    extractLayout text = some layout ↔ FirstLayout text layout := by
  induction text with
  | nil =>
      refine iff_of_false (fun h => nomatch h) ?_
      rintro ⟨before, rest, split, ⟨isLayout, starts, -⟩, -⟩
      obtain ⟨rfl, rfl⟩ := List.append_eq_nil_iff.mp split.symm
      exact isLayout.ne_nil (List.prefix_nil.mp starts)
  | cons c text ih =>
      rw [extractLayout]
      cases here : layoutAt (c :: text) with
      | some first =>
          rw [Option.some_or, Option.some_inj]
          have starts := layoutAt_eq_some_iff.mp here
          constructor
          · rintro rfl
            exact ⟨[], _, rfl, starts, fun _ _ _ shorter => absurd shorter (Nat.not_lt_zero _)⟩
          · rintro ⟨before, rest, split, starts', earlier⟩
            cases before with
            | nil =>
                cases split
                exact Option.some_inj.mp (here.symm.trans (layoutAt_eq_some_iff.mpr starts'))
            | cons d before => exact absurd starts.2.1 (earlier [] _ rfl (Nat.succ_pos _) _ starts.1)
      | none =>
          have nothing := layoutAt_eq_none_iff.mp here
          rw [Option.none_or, ih]
          constructor
          · rintro ⟨before, rest, rfl, starts, earlier⟩
            refine ⟨c :: before, rest, rfl, starts, ?_⟩
            intro before' rest' split shorter other isLayout
            cases before' with
            | nil => exact (split ▸ nothing) other isLayout
            | cons d before' =>
                obtain ⟨-, split⟩ := List.cons.inj split
                exact earlier before' rest' split (Nat.lt_of_succ_lt_succ shorter) other isLayout
          · rintro ⟨before, rest, split, starts, earlier⟩
            cases before with
            | nil =>
                cases split
                exact absurd starts.2.1 (nothing layout starts.1)
            | cons d before =>
                obtain ⟨-, rfl⟩ := List.cons.inj split
                refine ⟨before, rest, rfl, starts, ?_⟩
                intro before' rest' split' shorter
                exact earlier (c :: before') rest' (congrArg (c :: ·) split') (Nat.succ_lt_succ shorter)

end

/-! ### Notations -/

section

variable [CharacterRuntime]

/-- A numeral between two runs of units, and its value as a float. -/
def WritesNumber (units : List Str) (text : Str) (x : Double) : Prop :=
  ∃ (before behind : Run units) (n : Numeral),
    Runtime.casefold text = before.text ++ (n.text ++ behind.text) ∧ x = Runtime.round n.value

/-- A number of ten thousands. -/
def WritesWan (text : Str) (x : Double) : Prop :=
  ∃ (before behind : Run wanUnits) (n : Numeral),
    text = before.text ++ (n.text ++ behind.text) ∧ x = (Runtime.round n.value).mul cnyPerWan

/-- A number without a fraction. -/
def WritesWhole (units : List Str) (text : Str) (k : Int) : Prop := WritesNumber units text (.finite k)

def WritesDate (text : Str) (date : Date) : Prop :=
  ∃ y m d, (Separated text y m d ∨ Named text y m d) ∧ Date.ofYmd y m d = .ok date

/-- A timestamp with its offset. -/
def WritesInstant (text : Str) (instant : AwareDatetime) : Prop :=
  Runtime.fromisoformat text = some (.aware instant)

variable {text : Str} {field : Option Str}

theorem parseNumber_ok_iff_writes {units : List Str} (known : units ∈ converterUnits) {x : Double} :
    parseNumber text units field = .ok x ↔ WritesNumber units text x := parseNumber_ok_iff_of_units known

theorem parseInt_ok_iff {units : List Str} (known : units ∈ converterUnits) {k : Int} :
    parseInt text units field = .ok k ↔ WritesWhole units text k := by
  have number : parseNumber text units field = .ok (.finite k) ↔ WritesNumber units text (.finite k) :=
    parseNumber_ok_iff_writes known
  rw [WritesWhole, ← number]
  unfold parseInt
  cases parseNumber text units field with
  | error e => simp [bind, Except.bind]
  | ok x =>
      cases x with
      | finite q =>
          simp only [bind, Except.bind, Except.ok.injEq, Double.finite.injEq]
          split_ifs with whole
          · have integral : q = q.num := ((Rat.den_eq_one_iff q).mp whole).symm
            constructor
            · rintro ⟨⟩
              exact integral
            · rintro rfl
              rfl
          · refine iff_of_false (fun h => nomatch h) ?_
            rintro rfl
            exact whole (Rat.den_intCast k)
      | nan => simp [bind, Except.bind, raiseFieldParseError]
      | posInf => simp [bind, Except.bind, raiseFieldParseError]
      | negInf => simp [bind, Except.bind, raiseFieldParseError]

theorem parseAwareDatetime_ok_iff {instant : AwareDatetime} :
    parseAwareDatetime text field = .ok instant ↔ WritesInstant text instant := by
  unfold parseAwareDatetime WritesInstant
  split
  · rename_i none_
    simp [none_, raiseFieldParseError]
  · rename_i naive
    simp [naive, raiseFieldParseError]
  · rename_i t aware
    simp [aware]

end

/-! ### Fields -/

section

variable [Runtime]

/-- The field holds what is made a text: no truth value, and nothing that is nested too deep. -/
def Printed (cells : Dict Str Json) (field : Field) : Prop :=
  (∀ b, rawValue cells field ≠ .bool b) ∧ Shallow cells field

/-- The field holds this text, in comparable form. -/
def States (cells : Dict Str Json) (field : Field) (text : Str) : Prop :=
  rawValue cells field ≠ .null ∧ Printed cells field ∧
    normalizeText (cellText (rawValue cells field)) = text ∧ Runtime.casefold text ∉ unknownMarkers

/-- The field is left out, or holds what the source writes for unknown values. -/
def Silent (cells : Dict Str Json) (field : Field) : Prop :=
  rawValue cells field = .null ∨ Printed cells field ∧
    Runtime.casefold (normalizeText (cellText (rawValue cells field))) ∈ unknownMarkers

/-- The field writes the value in its notation, or is silent about it. -/
def Says {α : Type} (cells : Dict Str Json) (field : Field) (writes : Str → α → Prop) : Option α → Prop
  | none => Silent cells field
  | some x => ∃ text, States cells field text ∧ writes text x

/-- The field of the layout, else the title. -/
def SaysLayout (cells : Dict Str Json) : Option Str → Prop
  | none => Silent cells layoutField ∧ (Silent cells titleField ∨
      ∃ title, States cells titleField title ∧ ∀ layout, ¬ FirstLayout title layout)
  | some layout => States cells layoutField layout ∨
      Silent cells layoutField ∧ ∃ title, States cells titleField title ∧ FirstLayout title layout

/-- What the row says about where it is from, else what the batch said. -/
def Provides (cells : Dict Str Json) (field : Field) (batch value : Option Str) : Prop :=
  (∃ text, States cells field text ∧ value = some text) ∨
    Shallow cells field ∧ (∀ text, ¬ States cells field text) ∧ value = batch

variable {cells : Dict Str Json} {field : Field}

theorem normalizeCell_of_printed {value : Json} (notNull : value ≠ .null) (notBool : ∀ b, value ≠ .bool b)
    (shallow : value.depth ≤ Runtime.reprLimit) :
    normalizeCell value = .ok (if Runtime.casefold (normalizeText (cellText value)) ∈ unknownMarkers then none
      else some (normalizeText (cellText value))) := by
  cases value with
  | null => exact absurd rfl notNull
  | bool b => exact absurd rfl (notBool b)
  | _ => simp only [normalizeCell, if_neg (Nat.not_lt_of_le shallow)]

/-- A cell is read exactly when it is absent or printed. -/
theorem cell_cases (cells : Dict Str Json) (field : Field) :
    rawValue cells field = .null ∧ cell cells field = .ok none ∨
      (rawValue cells field ≠ .null ∧ ¬ Printed cells field) ∧ (∀ text, cell cells field ≠ .ok text) ∨
      rawValue cells field ≠ .null ∧ Printed cells field ∧
        cell cells field = .ok (if Runtime.casefold (normalizeText (cellText (rawValue cells field))) ∈
            unknownMarkers then none else some (normalizeText (cellText (rawValue cells field)))) := by
  by_cases null : rawValue cells field = .null
  · refine Or.inl ⟨null, ?_⟩
    rw [cell_eq_ok, null, normalizeCell]
  · by_cases printed : Printed cells field
    · obtain ⟨notBool, shallow⟩ := printed
      exact Or.inr (Or.inr ⟨null, ⟨notBool, shallow⟩,
        cell_eq_ok.mpr (normalizeCell_of_printed null notBool shallow)⟩)
    · refine Or.inr (Or.inl ⟨⟨null, printed⟩, ?_⟩)
      intro text read
      apply printed
      refine ⟨?_, shallow_of_cell read⟩
      intro b bool
      rw [cell_eq_ok, bool, normalizeCell] at read
      cases read

theorem cell_eq_some_iff {text : Str} : cell cells field = .ok (some text) ↔ States cells field text := by
  rw [States]
  rcases cell_cases cells field with ⟨null, read⟩ | ⟨⟨notNull, unprinted⟩, unread⟩ | ⟨notNull, printed, read⟩
  · rw [read]
    simp [null]
  · exact iff_of_false (unread _) fun stated => unprinted stated.2.1
  · rw [read, Except.ok.injEq]
    by_cases unknown : Runtime.casefold (normalizeText (cellText (rawValue cells field))) ∈ unknownMarkers
    · rw [if_pos unknown]
      simp only [reduceCtorEq, false_iff]
      rintro ⟨-, -, rfl, known⟩
      exact known unknown
    · rw [if_neg unknown, Option.some_inj]
      constructor
      · rintro rfl
        exact ⟨notNull, printed, rfl, unknown⟩
      · exact fun stated => stated.2.2.1

theorem cell_eq_none_iff : cell cells field = .ok none ↔ Silent cells field := by
  rw [Silent]
  rcases cell_cases cells field with ⟨null, read⟩ | ⟨⟨notNull, unprinted⟩, unread⟩ | ⟨notNull, printed, read⟩
  · exact iff_of_true read (Or.inl null)
  · refine iff_of_false (unread _) ?_
    rintro (null | ⟨printed, -⟩)
    · exact notNull null
    · exact unprinted printed
  · rw [read, Except.ok.injEq]
    by_cases unknown : Runtime.casefold (normalizeText (cellText (rawValue cells field))) ∈ unknownMarkers
    · rw [if_pos unknown]
      exact iff_of_true rfl (Or.inr ⟨printed, unknown⟩)
    · simp [unknown, notNull]

theorem cell_eq_ok_iff {value : Option Str} : cell cells field = .ok value ↔ Says cells field Eq value := by
  cases value with
  | none => exact cell_eq_none_iff
  | some text => simp [Says, cell_eq_some_iff]

theorem convert_eq_ok_iff {α : Type} {converter : Str → Option Str → Except Failure α}
    {writes : Str → α → Prop}
    (reads : ∀ text x, converter text (some (str field.name)) = .ok x ↔ writes text x) {value : Option α} :
    convert cells field converter = .ok value ↔ Says cells field writes value := by
  constructor
  · intro converted
    cases value with
    | none =>
        obtain ⟨text, read, rest⟩ := eq_ok_of_bind converted
        cases text with
        | none => exact cell_eq_none_iff.mp read
        | some text =>
            obtain ⟨x, -, same⟩ := eq_ok_of_bind rest
            cases same
    | some x =>
        obtain ⟨text, read, converted⟩ := convert_eq_some converted
        exact ⟨text, cell_eq_some_iff.mp read, (reads text x).mp converted⟩
  · intro said
    unfold convert
    cases value with
    | none =>
        rw [cell_eq_none_iff.mpr said]
        rfl
    | some x =>
        obtain ⟨text, stated, written⟩ := said
        rw [cell_eq_some_iff.mpr stated]
        simp only [bind, Except.bind, (reads text x).mpr written]
        rfl

end

section

variable [CharacterRuntime] {cells : Dict Str Json}

theorem States.unique {field : Field} {text text' : Str} (stated : States cells field text)
    (stated' : States cells field text') : text = text' := stated.2.2.1.symm.trans stated'.2.2.1

/-- A text that is not a marker of the unknown is not empty. -/
theorem States.ne_nil {field : Field} {text : Str} (stated : States cells field text) : text ≠ [] := by
  rintro rfl
  apply stated.2.2.2
  rw [CharacterRuntime.casefold_eq]
  exact List.mem_cons_self

theorem layout_eq_ok_iff {value : Option Str} : layout cells = .ok value ↔ SaysLayout cells value := by
  constructor
  · intro found
    obtain ⟨own, read, found⟩ := eq_ok_of_bind found
    cases own with
    | some text =>
        cases found
        exact Or.inl (cell_eq_some_iff.mp read)
    | none =>
        have silent := cell_eq_none_iff.mp read
        obtain ⟨title, readTitle, found⟩ := eq_ok_of_bind found
        cases title with
        | none =>
            cases found
            exact ⟨silent, Or.inl (cell_eq_none_iff.mp readTitle)⟩
        | some title =>
            have stated := cell_eq_some_iff.mp readTitle
            have extracted : extractLayout title = value := Except.ok.inj found
            cases value with
            | some layout => exact Or.inr ⟨silent, title, stated, extractLayout_eq_some_iff.mp extracted⟩
            | none =>
                refine ⟨silent, Or.inr ⟨title, stated, ?_⟩⟩
                intro layout first
                cases extracted.symm.trans (extractLayout_eq_some_iff.mpr first)
  · intro said
    cases value with
    | some text =>
        rcases said with stated | ⟨silent, title, stated, first⟩
        · simp only [layout, cell_eq_some_iff.mpr stated, bind, Except.bind]
          rfl
        · simp only [layout, cell_eq_none_iff.mpr silent, cell_eq_some_iff.mpr stated,
            extractLayout_eq_some_iff.mpr first, bind, Except.bind]
          rfl
    | none =>
        obtain ⟨silent, silentTitle | ⟨title, stated, nothing⟩⟩ := said
        · simp only [layout, cell_eq_none_iff.mpr silent, cell_eq_none_iff.mpr silentTitle, bind,
            Except.bind]
          rfl
        · have extracted : extractLayout title = none := by
            cases first : extractLayout title with
            | none => rfl
            | some layout => exact absurd (extractLayout_eq_some_iff.mp first) (nothing layout)
          simp only [layout, cell_eq_none_iff.mpr silent, cell_eq_some_iff.mpr stated, extracted, bind,
            Except.bind]
          rfl

theorem rawText_eq_some_iff {field : Field} {text : Str} :
    rawText cells field = .ok (some text) ↔ States cells field text := by
  rw [← cell_eq_some_iff]
  constructor
  · intro read
    unfold rawText at read
    split at read
    · cases read
    · exact read
  · exact rawText_of_cell

/-- What the row provides is what is read of it, with the default of the batch. -/
theorem provides_iff {field : Field} {text batch value : Option Str} (read : rawText cells field = .ok text) :
    Provides cells field batch value ↔ value = orDefault text batch := by
  unfold Provides
  cases text with
  | some text =>
      have stated := rawText_eq_some_iff.mp read
      rw [orDefault, if_neg stated.ne_nil]
      constructor
      · rintro (⟨text', stated', rfl⟩ | ⟨-, silent, -⟩)
        · rw [stated.unique stated']
        · exact absurd stated (silent text)
      · exact fun same => Or.inl ⟨text, stated, same⟩
  | none =>
      have silent (text : Str) : ¬ States cells field text := by
        intro stated
        cases read.symm.trans (rawText_eq_some_iff.mpr stated)
      constructor
      · rintro (⟨text, stated, -⟩ | ⟨-, -, same⟩)
        · exact absurd stated (silent text)
        · exact same
      · exact fun same => Or.inr ⟨rawText_ok_iff.mp ⟨none, read⟩, silent, same⟩

/-- What provides something can be read. -/
theorem Provides.shallow {field : Field} {batch value : Option Str} (provides : Provides cells field batch value) :
    Shallow cells field := by
  rcases provides with ⟨text, stated, -⟩ | ⟨shallow, -⟩
  · exact stated.2.1.2
  · exact shallow

end

end CnPropertyAgent.Lianjia
