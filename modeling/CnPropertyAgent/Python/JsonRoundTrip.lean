import CnPropertyAgent.Python.JsonText

/-!
Loading what was dumped.

A scanner reads a text as a value (`Reads`) when it returns that value in front of
whatever may follow one. Every escape is read back to its character, every numeral to its
integer, and items between commas to their list; the values follow by induction.
-/

namespace Python

/-! ### Strings -/

theorem hexValue?_hexDigit (n : Nat) : hexValue? (hexDigit n) = some (n % 16) := by
  have digits : ∀ d < 16, hexValue? (CodePoint.ofChar (Nat.digitChar d)) = some d := by decide
  exact digits (n % 16) (Nat.mod_lt n (by decide))

/-- Four hexadecimal digits are read back. -/
theorem codeUnit?_hexStr {n : Nat} (small : n < 0x10000) (rest : Str) :
    codeUnit? (hexStr 4 n ++ rest) = some n := by
  simp only [hexStr, List.nil_append, List.cons_append, codeUnit?, hexValue?_hexDigit, bind, Option.bind_some,
    Option.some.injEq]
  omega

/-- The escape of a control character is read back, in front of the rest of its string. -/
theorem scanUnicode_hexStr {c : CodePoint} (control : c.val < 0x20) {rest : Str} (more : rest ≠ []) :
    scanUnicode (hexStr 4 c.val ++ rest) = .ok (c, rest) := by
  have length : (hexStr 4 c.val ++ rest).length = 4 + rest.length := by simp [hexStr]; omega
  have longer := List.length_pos_of_ne_nil more
  have single : Fin.ofNat 0x110000 c.val = c := Fin.ext (Nat.mod_eq_of_lt c.isLt)
  have behind : (hexStr 4 c.val ++ rest).drop 4 = rest := rfl
  rw [scanUnicode, if_neg (by omega), codeUnit?_hexStr (by omega), behind]
  dsimp only
  rw [if_neg (by omega), single]

theorem scanChars_plain {c : CodePoint} {bound opened : Nat} {rest : Str} (quote : c ≠ 0x22)
    (backslash : c ≠ 0x5C) (control : ¬ c.val < 0x20) : scanChars opened (bound + 1) (c :: rest) =
      (scanChars opened bound rest).map fun read => (c :: read.1, read.2) := by
  rw [scanChars, if_neg quote, if_neg backslash, if_neg (by omega)]
  cases scanChars opened bound rest <;> rfl

theorem scanChars_escaped {c : CodePoint} {bound opened : Nat} {text rest : Str}
    (escape : scanEscape opened text = .ok (c, rest)) : scanChars opened (bound + 1) (0x5C :: text) =
      (scanChars opened bound rest).map fun read => (c :: read.1, read.2) := by
  rw [scanChars, if_neg (by decide), if_pos rfl, escape]
  cases scanned : scanChars opened bound rest <;> simp [bind, Except.bind, Except.map, scanned]

/-- A printable character of ASCII. -/
def Json.Shown (c : CodePoint) : Prop := 0x20 ≤ c.val ∧ c.val < 0x7F

instance (c : CodePoint) : Decidable (Json.Shown c) := inferInstanceAs (Decidable (_ ∧ _))

/-- The letter of a simple escape is printable and does not start a code unit. It stands for a
character of ASCII. -/
theorem letter_of_simpleEscape {c d : CodePoint} (meaning : simpleEscape? d = some c) :
    d ≠ 0x75 ∧ Json.Shown d ∧ c.val < 0x80 := by
  unfold simpleEscape? at meaning
  split_ifs at meaning with itself backspace form feed carriage tab <;> obtain rfl := Option.some.inj meaning
  · rcases itself with rfl | rfl | rfl <;> decide
  all_goals
    subst d
    decide

/-- A character is escaped by a backslash and a letter, or as a code unit, or not at all. -/
theorem CodePoint.jsonEscape_cases (c : CodePoint) :
    (∃ d, simpleEscape? d = some c ∧ c.jsonEscape = [0x5C, d]) ∨
      (c.val < 0x20 ∧ c.jsonEscape = str "\\u" ++ hexStr 4 c.val) ∨
      c ≠ 0x22 ∧ c ≠ 0x5C ∧ ¬ c.val < 0x20 ∧ c.jsonEscape = [c] := by
  unfold jsonEscape
  split_ifs with quote backslash feed carriage tab form backspace control
  · exact Or.inl ⟨0x22, by rw [quote]; rfl, rfl⟩
  · exact Or.inl ⟨0x5C, by rw [backslash]; rfl, rfl⟩
  · exact Or.inl ⟨0x6E, feed ▸ rfl, rfl⟩
  · exact Or.inl ⟨0x72, carriage ▸ rfl, rfl⟩
  · exact Or.inl ⟨0x74, tab ▸ rfl, rfl⟩
  · exact Or.inl ⟨0x66, form ▸ rfl, rfl⟩
  · exact Or.inl ⟨0x62, backspace ▸ rfl, rfl⟩
  · exact Or.inr (Or.inl ⟨control, rfl⟩)
  · exact Or.inr (Or.inr ⟨quote, backslash, control, rfl⟩)

/-- One character that was escaped is read back. -/
theorem scanChars_jsonEscape (c : CodePoint) {bound opened : Nat} {rest : Str} (more : rest ≠ []) :
    scanChars opened (bound + 1) (c.jsonEscape ++ rest) =
      (scanChars opened bound rest).map fun read => (c :: read.1, read.2) := by
  rcases c.jsonEscape_cases with ⟨d, meaning, escaped⟩ | ⟨control, escaped⟩ | ⟨quote, backslash, control, plain⟩
  · rw [escaped]
    apply scanChars_escaped
    show scanEscape opened (d :: rest) = _
    rw [scanEscape, if_neg (letter_of_simpleEscape meaning).1, meaning]
  · have letters : str "\\u" = [0x5C, 0x75] := rfl
    rw [escaped, letters, List.append_assoc]
    apply scanChars_escaped
    show scanEscape opened (0x75 :: (hexStr 4 c.val ++ rest)) = _
    rw [scanEscape, if_pos rfl, scanUnicode_hexStr control more]
  · rw [plain]
    exact scanChars_plain quote backslash control

theorem CodePoint.length_jsonEscape_pos (c : CodePoint) : 0 < c.jsonEscape.length := by
  rcases c.jsonEscape_cases with ⟨d, -, escaped⟩ | ⟨-, escaped⟩ | ⟨-, -, -, plain⟩
  · rw [escaped]
    exact Nat.succ_pos _
  · rw [escaped]
    exact Nat.succ_pos _
  · rw [plain]
    exact Nat.succ_pos _

theorem scanChars_flatMap (s : Str) {bound opened : Nat} (enough : s.length < bound) (rest : Str) :
    scanChars opened bound (s.flatMap CodePoint.jsonEscape ++ 0x22 :: rest) = .ok (s, rest) := by
  induction s generalizing bound with
  | nil =>
      obtain ⟨bound, rfl⟩ := Nat.exists_eq_add_of_lt enough
      rfl
  | cons c s ih =>
      obtain ⟨bound, rfl⟩ := Nat.exists_eq_add_of_lt (Nat.zero_lt_of_lt enough)
      rw [List.length_cons] at enough
      rw [List.flatMap_cons, List.append_assoc, Nat.zero_add, scanChars_jsonEscape c (by simp), ih (by omega)]
      rfl

/-- **Strings.** A quoted text is read back, behind its quotation mark. -/
theorem scanString_jsonQuote (s rest : Str) : scanString ((s.jsonQuote ++ rest).drop 1) = .ok (s, rest) := by
  have inner : (s.jsonQuote ++ rest).drop 1 = s.flatMap CodePoint.jsonEscape ++ 0x22 :: rest := by
    simp [Str.jsonQuote]
  have longer : s.length ≤ (s.flatMap CodePoint.jsonEscape).length := by
    induction s with
    | nil => exact Nat.le_refl 0
    | cons c s ih =>
        have escaped := c.length_jsonEscape_pos
        have shorter := ih (by simp [Str.jsonQuote])
        rw [List.flatMap_cons, List.length_append, List.length_cons]
        omega
  rw [inner, scanString]
  apply scanChars_flatMap
  rw [List.length_append, List.length_cons]
  omega

/-! ### Integers -/

theorem natStr_eq_toDigits (n : Nat) : natStr n = (Nat.toDigits 10 n).map CodePoint.ofChar := by
  rw [natStr, str, Nat.toList_repr]

theorem isAsciiDigit_ofChar {c : Char} (digit : c.isDigit = true) :
    (CodePoint.ofChar c).isAsciiDigit = true := by
  simp only [Char.isDigit, Bool.and_eq_true, decide_eq_true_eq, ge_iff_le, UInt32.le_iff_toNat_le] at digit
  simp only [CodePoint.isAsciiDigit, CodePoint.ofChar, Bool.and_eq_true]
  exact ⟨decide_eq_true digit.1, decide_eq_true digit.2⟩

theorem isAsciiDigit_of_mem_natStr {n : Nat} {c : CodePoint} (mem : c ∈ natStr n) : c.isAsciiDigit = true := by
  rw [natStr_eq_toDigits] at mem
  obtain ⟨d, digit, rfl⟩ := List.mem_map.mp mem
  exact isAsciiDigit_ofChar (Nat.isDigit_of_mem_toDigits (by decide) (by decide) digit)

theorem digitsValue_natStr (n : Nat) : digitsValue (natStr n) = n := by
  have value : Nat.ofDigitChars 10 (Nat.toDigits 10 n) 0 = n := Nat.ofDigitChars_ten_toDigits
  rw [Nat.ofDigitChars_eq_foldl] at value
  rw [natStr_eq_toDigits, digitsValue, List.foldl_map]
  simp only [Nat.mul_comm 10] at value
  exact value

theorem natStr_ne_nil (n : Nat) : natStr n ≠ [] := by
  rw [natStr_eq_toDigits]
  simp [Nat.toDigits_ne_nil]

/-- Only zero is written with a leading zero. -/
theorem head?_natStr {n : Nat} (positive : 0 < n) : (natStr n).head? ≠ some 0x30 := by
  rw [natStr_eq_toDigits, List.head?_map]
  induction n using Nat.strongRecOn with
  | ind n ih =>
      by_cases small : n < 10
      · have digits : ∀ d < 10, 0 < d → CodePoint.ofChar (Nat.digitChar d) ≠ 0x30 := by decide
        rw [Nat.toDigits_of_lt_base small]
        simpa using digits n small positive
      · have fewer := ih (n / 10) (by omega) (by omega)
        rw [Nat.toDigits_of_base_le (by decide) (by omega), List.head?_append]
        cases first : (Nat.toDigits 10 (n / 10)).head? with
        | none => exact absurd (List.head?_eq_none_iff.mp first) Nat.toDigits_ne_nil
        | some d => simpa [first] using fewer

theorem intStr_eq (n : Int) : intStr n = (if n < 0 then [0x2D] else []) ++ natStr n.natAbs := by
  cases n with
  | ofNat n => rfl
  | negSucc n =>
      rw [if_pos (Int.negSucc_lt_zero n)]
      show str ("-" ++ Nat.repr (n + 1)) = [0x2D] ++ str (Nat.repr (n + 1))
      rw [str, String.toList_append, List.map_append]
      rfl

/-- What follows a value: neither does it go on with a number, nor make one a float. -/
def EndsValue (rest : Str) : Prop :=
  ∀ c ∈ rest.head?, c.isAsciiDigit = false ∧ c ≠ 0x2E ∧ c ≠ 0x65 ∧ c ≠ 0x45

theorem integerPart_intStr (n : Int) {rest : Str} (ends : EndsValue rest) :
    integerPart (intStr n ++ rest) = (if n < 0 then [0x2D] else [], natStr n.natAbs) := by
  have digits : (natStr n.natAbs ++ rest).takeWhile CodePoint.isAsciiDigit = natStr n.natAbs := by
    rw [List.takeWhile_append_of_pos fun c => isAsciiDigit_of_mem_natStr]
    cases rest with
    | nil => simp
    | cons c rest => simp [(ends c rfl).1]
  have whole : (if (natStr n.natAbs ++ rest).head? = some 0x30 then (natStr n.natAbs ++ rest).take 1
      else (natStr n.natAbs ++ rest).takeWhile CodePoint.isAsciiDigit) = natStr n.natAbs := by
    rw [List.head?_append_of_ne_nil _ (natStr_ne_nil _)]
    by_cases zero : n.natAbs = 0
    · rw [zero]
      rfl
    · rw [if_neg (head?_natStr (Nat.pos_of_ne_zero zero)), digits]
  rw [intStr_eq, integerPart]
  by_cases negative : n < 0
  · simpa [negative] using whole
  · have unsigned : (natStr n.natAbs ++ rest).head? ≠ some 0x2D := by
      intro minus
      rw [List.head?_append_of_ne_nil _ (natStr_ne_nil _)] at minus
      exact absurd (isAsciiDigit_of_mem_natStr (List.mem_of_mem_head? minus)) (by decide)
    simp only [if_neg negative, List.nil_append, if_neg unsigned, List.take_zero, List.length_nil,
      List.drop_zero, whole]

section

variable [Runtime]

/-- **Integers.** A numeral is read back. -/
theorem scanNumber_intStr (n : PrintableInt) {rest : Str} (ends : EndsValue rest) :
    scanNumber (intStr n ++ rest) = .ok (.int n, rest) := by
  have length : (intStr n.1).length = (if n.1 < 0 then [(0x2D : CodePoint)] else []).length +
      (natStr n.1.natAbs).length := by rw [intStr_eq, List.length_append]
  have value : signed (if n.1 < 0 then [0x2D] else []) n.1.natAbs = n.1 := by
    unfold signed
    split_ifs with negative sign
    · omega
    · exact absurd rfl sign
    · contradiction
    · omega
  have fraction : fractionPart rest = [] := by
    cases rest with
    | nil => rfl
    | cons c rest => exact if_neg (ends c rfl).2.1
  have exponent : exponentPart rest = ([], []) := by
    cases rest with
    | nil => rfl
    | cons c rest => exact if_neg (not_or.mpr (ends c rfl).2.2)
  rw [scanNumber, integerPart_intStr _ ends]
  dsimp only
  rw [if_neg (natStr_ne_nil _), ← length, List.drop_left, fraction, if_pos rfl, exponent]
  simp only [digitsValue_natStr, value, n.2, and_self, ↓reduceIte, ↓reduceDIte]

end

/-! ### Containers -/

/-- The scanner reads the text as the value, in front of whatever may follow one. The text
starts with neither whitespace, nor a closing bracket, nor a byte order mark. -/
structure Reads {α : Type} (item : Str → Except ScanError (α × Str)) (text : Str) (a : α) : Prop where
  starts : ∃ c rest, text = c :: rest ∧ c.isJsonSpace = false ∧ c ≠ 0x5D ∧ c ≠ 0x7D ∧
    c ≠ 0xFEFF
  scan : ∀ rest, EndsValue rest → item (text ++ rest) = .ok (a, rest)

theorem skipSpace_cons {c : CodePoint} (rest : Str) (visible : c.isJsonSpace = false) :
    skipSpace (c :: rest) = c :: rest := by
  simp [skipSpace, visible]

theorem Reads.skipSpace {α : Type} {item : Str → Except ScanError (α × Str)} {text : Str} {a : α}
    (reads : Reads item text a) (rest : Str) : skipSpace (text ++ rest) = text ++ rest := by
  obtain ⟨c, tail, rfl, visible, -⟩ := reads.starts
  exact skipSpace_cons _ visible

theorem Reads.ne_nil {α : Type} {item : Str → Except ScanError (α × Str)} {text : Str} {a : α}
    (reads : Reads item text a) : text ≠ [] := by
  obtain ⟨c, tail, rfl, -⟩ := reads.starts
  exact List.cons_ne_nil c tail

/-- A closing bracket. -/
def Closes (c : CodePoint) : Prop := c = 0x5D ∨ c = 0x7D

theorem Closes.facts {c : CodePoint} (closes : Closes c) : c.isJsonSpace = false ∧ c ≠ 0x2C ∧
    c.isAsciiDigit = false ∧ c ≠ 0x2E ∧ c ≠ 0x65 ∧ c ≠ 0x45 := by
  rcases closes with rfl | rfl
  · decide
  · decide

theorem Reads.ne_of_closes {α : Type} {item : Str → Except ScanError (α × Str)} {text : Str} {a : α}
    (reads : Reads item text a) {closing : CodePoint} (closes : Closes closing) (rest : Str) :
    (text ++ rest).head? ≠ some closing := by
  obtain ⟨c, tail, rfl, -, array, object, -⟩ := reads.starts
  rcases closes with rfl | rfl
  · exact fun same => array (Option.some.inj same)
  · exact fun same => object (Option.some.inj same)

theorem Str.join_cons_cons (separator first second : Str) (parts : List Str) :
    Str.join separator (first :: second :: parts) =
      first ++ (separator ++ Str.join separator (second :: parts)) :=
  List.append_assoc _ _ _

theorem Str.length_le_join (separator : Str) {parts : List Str} (nonempty : ∀ part ∈ parts, part ≠ []) :
    parts.length ≤ (Str.join separator parts).length := by
  induction parts with
  | nil => exact Nat.le_refl 0
  | cons part parts ih =>
      have first := List.length_pos_of_ne_nil (nonempty part List.mem_cons_self)
      cases parts with
      | nil => exact first
      | cons next parts =>
          have behind := ih fun other mem => nonempty other (List.mem_cons_of_mem _ mem)
          rw [Str.join_cons_cons, List.length_append, List.length_append, List.length_cons]
          omega

section

variable {α : Type} {item : Str → Except ScanError (α × Str)} {closing : CodePoint}

theorem ne_nil_of_reads {texts : List Str} {xs : List α} (items : List.Forall₂ (Reads item) texts xs) :
    ∀ text ∈ texts, text ≠ [] := by
  induction items with
  | nil => exact fun _ mem => nomatch mem
  | cons first _ ih => exact List.forall_mem_cons.mpr ⟨first.ne_nil, ih⟩

theorem scanItems_join (closes : Closes closing) {text : Str} {x : α} {texts : List Str} {xs : List α}
    (first : Reads item text x) (others : List.Forall₂ (Reads item) texts xs) {bound : Nat}
    (enough : xs.length < bound) (rest : Str) :
    scanItems item closing bound (Str.join (str ", ") (text :: texts) ++ closing :: rest) =
      .ok (x :: xs, rest) := by
  obtain ⟨visible, comma, ends⟩ := closes.facts
  induction others generalizing text x bound with
  | nil =>
      obtain ⟨bound, rfl⟩ := Nat.exists_eq_add_of_lt enough
      have follows : EndsValue (closing :: rest) := by
        rintro c ⟨⟩
        exact ends
      rw [Str.join, scanItems, first.scan _ follows]
      simp [bind, Except.bind, skipSpace_cons rest visible]
  | @cons next y texts xs second others ih =>
      obtain ⟨bound, rfl⟩ := Nat.exists_eq_add_of_lt (Nat.zero_lt_of_lt enough)
      have separator : str ", " = [0x2C, 0x20] := rfl
      have follows (more : Str) : EndsValue (0x2C :: more) := by
        rintro c ⟨⟩
        decide
      have fewer : xs.length < bound := by
        rw [List.length_cons] at enough
        omega
      have behind := ih second fewer
      have blank (more : Str) : skipSpace (0x20 :: more) = skipSpace more := rfl
      have visibleNext : skipSpace (Str.join (str ", ") (next :: texts) ++ closing :: rest) =
          Str.join (str ", ") (next :: texts) ++ closing :: rest := by
        cases texts with
        | nil => exact second.skipSpace _
        | cons third texts =>
            rw [Str.join_cons_cons, List.append_assoc]
            exact second.skipSpace _
      rw [Str.join_cons_cons, List.append_assoc, List.append_assoc, separator, List.cons_append,
        List.singleton_append, ← separator, Nat.zero_add, scanItems, first.scan _ (follows _)]
      simp only [bind, Except.bind]
      rw [skipSpace_cons _ (by decide)]
      dsimp only
      rw [if_neg (Ne.symm comma), if_pos rfl, blank, visibleNext, behind]

/-- **Containers.** Items joined by commas are read back as their list. -/
theorem scanContainer_join (closes : Closes closing) {texts : List Str} {xs : List α}
    (items : List.Forall₂ (Reads item) texts xs) (rest : Str) :
    scanContainer item closing (Str.join (str ", ") texts ++ closing :: rest) = .ok (xs, rest) := by
  obtain ⟨visible, -⟩ := closes.facts
  cases items with
  | nil =>
      rw [Str.join, List.nil_append, scanContainer, skipSpace_cons rest visible]
      exact if_pos rfl
  | @cons text x texts xs first others =>
      obtain ⟨behind, joined⟩ : ∃ behind, Str.join (str ", ") (text :: texts) ++ closing :: rest =
          text ++ behind := by
        cases texts with
        | nil => exact ⟨_, rfl⟩
        | cons next texts =>
            rw [Str.join_cons_cons, List.append_assoc]
            exact ⟨_, rfl⟩
      have length : xs.length < (Str.join (str ", ") (text :: texts) ++ closing :: rest).length := by
        have joined := Str.length_le_join (str ", ") (ne_nil_of_reads (.cons first others))
        rw [List.length_cons, others.length_eq] at joined
        rw [List.length_append]
        omega
      rw [scanContainer, joined, first.skipSpace, if_neg (first.ne_of_closes closes _), ← joined]
      exact scanItems_join closes first others length rest

end

/-! ### Values -/

/-- The first character of a constant or a number. -/
def startsScalar (c : CodePoint) : Bool :=
  !c.isJsonSpace && !(c = 0x22 || c = 0x5B || c = 0x5D || c = 0x7B || c = 0x7D || c = 0xFEFF)

theorem ne_of_isAsciiDigit {c d : CodePoint} (digit : c.isAsciiDigit = true) (other : d.isAsciiDigit = false) :
    c ≠ d := by
  rintro rfl
  rw [digit] at other
  cases other

theorem startsScalar_of_isAsciiDigit {c : CodePoint} (digit : c.isAsciiDigit = true) :
    startsScalar c = true := by
  have other {d : CodePoint} := ne_of_isAsciiDigit (d := d) digit
  simp only [startsScalar, CodePoint.isJsonSpace, Bool.and_eq_true, Bool.not_eq_true', Bool.or_eq_false_iff,
    decide_eq_false_iff_not]
  exact ⟨⟨⟨⟨other rfl, other rfl⟩, other rfl⟩, other rfl⟩,
    ⟨⟨⟨⟨other rfl, other rfl⟩, other rfl⟩, other rfl⟩, other rfl⟩, other rfl⟩

theorem not_prefix_of_head {word rest : Str} {c : CodePoint} (d : CodePoint) (first : word.head? = some d)
    (other : c ≠ d) : ¬ word <+: c :: rest := by
  obtain ⟨tail, rfl⟩ := List.head?_eq_some_iff.mp first
  exact fun occurs => other (List.cons_prefix_cons.mp occurs).1.symm

/-- Containers are nested at most so deep, no key of an object repeats, and the floats and the
texts, keys among them, are of the given kinds. -/
inductive Json.Fits (floats : Double → Prop) (texts : Str → Prop) : Nat → Json → Prop
  | null {limit} : Fits floats texts limit .null
  | bool {limit b} : Fits floats texts limit (.bool b)
  | int {limit n} : Fits floats texts limit (.int n)
  | float {limit x} (known : floats x) : Fits floats texts limit (.float x)
  | text {limit s} (known : texts s) : Fits floats texts limit (.text s)
  | array {limit items} (each : ∀ item ∈ items, Fits floats texts limit item) :
      Fits floats texts (limit + 1) (.array items)
  | object {limit entries} (distinct : (entries.map Prod.fst).Nodup)
      (keys : ∀ entry ∈ entries, texts entry.1) (each : ∀ entry ∈ entries, Fits floats texts limit entry.2) :
      Fits floats texts (limit + 1) (.object entries)

/-- Items without a repeated key are the items of their dictionary. -/
theorem Dict.rows_ofItems_of_nodup {κ ν : Type} [DecidableEq κ] {items : List (κ × ν)}
    (distinct : (items.map Prod.fst).Nodup) : (Dict.ofItems items).rows = items := by
  induction items using List.reverseRecOn with
  | nil => rfl
  | append_singleton items item ih =>
      rw [List.map_append, List.nodup_append] at distinct
      obtain ⟨before, -, apart⟩ := distinct
      have fresh : item.1 ∉ Dict.keys (Dict.ofItems items) := by
        intro mem
        rw [Dict.keys, ih before] at mem
        exact apart _ mem _ (List.mem_singleton_self item.1) rfl
      have last : Dict.ofItems (items ++ [item]) = Dict.set (Dict.ofItems items) item.1 item.2 := by
        simp [Dict.ofItems, Dict.set, Relational.Table.upsertAll, List.foldl_append]
      rw [last, Dict.rows_set_of_not_mem fresh, ih before]

namespace Json

/-- An object fits with its entries in any order. -/
theorem fits_object_perm {floats : Double → Prop} {texts : Str → Prop} {limit : Nat}
    {entries other : List (Str × Json)} (fits : (Json.object entries).Fits floats texts limit)
    (perm : entries.Perm other) : (Json.object other).Fits floats texts limit := by
  cases fits with
  | object distinct keys each =>
      refine .object ((perm.map Prod.fst).nodup_iff.mp distinct) ?_ ?_
      · exact fun entry mem => keys entry (perm.mem_iff.mpr mem)
      · exact fun entry mem => each entry (perm.mem_iff.mpr mem)

section

variable [Runtime]

theorem dumpsItems_eq (items : List Json) : dumpsItems items = items.map dumps := by
  induction items with
  | nil => rfl
  | cons item items ih => rw [dumpsItems, ih, List.map_cons]

theorem dumpsEntries_eq (entries : List (Str × Json)) :
    dumpsEntries entries = entries.map fun entry => entry.1.jsonQuote ++ str ": " ++ entry.2.dumps := by
  induction entries with
  | nil => rfl
  | cons entry entries ih => rw [dumpsEntries, ih, List.map_cons]

theorem reads_text (limit : Nat) (s : Str) : Reads (scanOnce limit) s.jsonQuote (.text s) where
  starts := ⟨0x22, _, rfl, by decide⟩
  scan rest _ := by
    have quoted : (s.jsonQuote ++ rest).head? = some 0x22 := rfl
    rw [scanOnce.eq_def, if_pos quoted, scanString_jsonQuote]
    rfl

theorem scanOnce_scalar {limit : Nat} {c : CodePoint} {rest : Str} (starts : startsScalar c = true) :
    scanOnce limit (c :: rest) = scanScalar (c :: rest) := by
  simp only [startsScalar, Bool.and_eq_true, Bool.not_eq_true', Bool.or_eq_false_iff,
    decide_eq_false_iff_not] at starts
  obtain ⟨-, ⟨⟨⟨⟨quote, bracket⟩, -⟩, brace⟩, -⟩, -⟩ := starts
  rw [scanOnce.eq_def]
  simp [quote, bracket, brace]

theorem reads_scalar {limit : Nat} {text : Str} {value : Json} (starts : ∃ c ∈ text.head?, startsScalar c = true)
    (scan : ∀ rest, EndsValue rest → scanScalar (text ++ rest) = .ok (value, rest)) :
    Reads (scanOnce limit) text value := by
  obtain ⟨c, first, starts⟩ := starts
  obtain ⟨tail, rfl⟩ := List.head?_eq_some_iff.mp first
  have visible := starts
  simp only [startsScalar, Bool.and_eq_true, Bool.not_eq_true', Bool.or_eq_false_iff,
    decide_eq_false_iff_not] at visible
  obtain ⟨visible, ⟨⟨⟨⟨-, -⟩, array⟩, -⟩, object⟩, mark⟩ := visible
  refine ⟨⟨c, tail, rfl, visible, array, object, mark⟩, ?_⟩
  intro rest ends
  rw [List.cons_append, scanOnce_scalar starts, ← List.cons_append, scan rest ends]

/-- No constant starts with a digit, or with a sign and a digit. -/
theorem scanScalar_number {text rest : Str} {c : CodePoint} (digit : c.isAsciiDigit = true)
    (starts : text = c :: rest ∨ text = 0x2D :: c :: rest) : scanScalar text = scanNumber text := by
  have other {d : CodePoint} := ne_of_isAsciiDigit (d := d) digit
  unfold scanScalar
  rcases starts with rfl | rfl
  · rw [if_neg (not_prefix_of_head 0x6E rfl (other rfl)), if_neg (not_prefix_of_head 0x74 rfl (other rfl)),
      if_neg (not_prefix_of_head 0x66 rfl (other rfl)), if_neg (not_prefix_of_head 0x4E rfl (other rfl)),
      if_neg (not_prefix_of_head 0x49 rfl (other rfl)), if_neg (not_prefix_of_head 0x2D rfl (other rfl))]
  · have infinity : ¬ str "-Infinity" <+: 0x2D :: c :: rest := by
      intro occurs
      exact not_prefix_of_head 0x49 rfl (other rfl) (List.cons_prefix_cons.mp occurs).2
    rw [if_neg (not_prefix_of_head 0x6E rfl (by decide)), if_neg (not_prefix_of_head 0x74 rfl (by decide)),
      if_neg (not_prefix_of_head 0x66 rfl (by decide)), if_neg (not_prefix_of_head 0x4E rfl (by decide)),
      if_neg (not_prefix_of_head 0x49 rfl (by decide)), if_neg infinity]

theorem reads_int (limit : Nat) (n : PrintableInt) : Reads (scanOnce limit) (intStr n) (.int n) := by
  obtain ⟨d, digits, written⟩ := List.exists_cons_of_ne_nil (natStr_ne_nil n.1.natAbs)
  have digit : d.isAsciiDigit = true := isAsciiDigit_of_mem_natStr (written ▸ List.mem_cons_self)
  have starts : intStr n.1 = d :: digits ∨ intStr n.1 = 0x2D :: d :: digits := by
    rw [intStr_eq, written]
    split_ifs
    · exact Or.inr rfl
    · exact Or.inl rfl
  apply reads_scalar
  · rcases starts with starts | starts
    · exact ⟨d, by rw [starts]; rfl, startsScalar_of_isAsciiDigit digit⟩
    · exact ⟨0x2D, by rw [starts]; rfl, by decide⟩
  · intro rest ends
    have follows : intStr n.1 ++ rest = d :: (digits ++ rest) ∨
        intStr n.1 ++ rest = 0x2D :: d :: (digits ++ rest) :=
      starts.imp (congrArg (· ++ rest)) (congrArg (· ++ rest))
    rw [scanScalar_number digit follows, scanNumber_intStr n ends]

/-- An entry is read back if its value is. -/
theorem reads_entry {limit : Nat} {value : Json} (reads : Reads (scanOnce limit) value.dumps value) (key : Str) :
    Reads (scanEntry (scanOnce limit)) (key.jsonQuote ++ str ": " ++ value.dumps) (key, value) where
  starts := ⟨0x22, _, rfl, by decide⟩
  scan rest ends := by
    have colon : str ": " = [0x3A, 0x20] := rfl
    have quoted : (key.jsonQuote ++ (str ": " ++ (value.dumps ++ rest))).head? = some 0x22 := rfl
    have after : skipSpace ([0x3A, 0x20] ++ (value.dumps ++ rest)) = 0x3A :: 0x20 :: (value.dumps ++ rest) :=
      skipSpace_cons _ (by decide)
    have blank : skipSpace (0x20 :: (value.dumps ++ rest)) = value.dumps ++ rest := reads.skipSpace rest
    rw [List.append_assoc, List.append_assoc, scanEntry, if_pos quoted, scanString_jsonQuote, colon]
    simp only [bind, Except.bind, after, List.head?_cons, ↓reduceIte, List.drop_one, List.tail_cons, blank,
      reads.scan rest ends]

/-- **Values.** What is dumped is read back, whatever follows it. -/
theorem reads_dumps {floats : Double → Prop} {texts : Str → Prop}
    (readable : ∀ x, floats x → ∀ limit, Reads (scanOnce limit) x.jsonText (.float x)) {limit : Nat} {value : Json}
    (fits : value.Fits floats texts limit) : Reads (scanOnce limit) value.dumps value := by
  induction fits with
  | null => exact reads_scalar ⟨0x6E, rfl, by decide⟩ fun rest _ => rfl
  | @bool limit b =>
      cases b with
      | false => exact reads_scalar ⟨0x66, rfl, by decide⟩ fun rest _ => rfl
      | true => exact reads_scalar ⟨0x74, rfl, by decide⟩ fun rest _ => rfl
  | @int limit n => exact reads_int limit n
  | float known => exact readable _ known _
  | text _ => exact reads_text _ _
  | @array limit items each ih =>
      refine ⟨⟨0x5B, _, rfl, by decide⟩, ?_⟩
      intro rest _
      have texts : List.Forall₂ (Reads (scanOnce limit)) (items.map dumps) items := by
        rw [List.forall₂_map_left_iff, List.forall₂_same]
        exact ih
      have bracket : (dumps (.array items) ++ rest).head? = some 0x5B := rfl
      have inside : (dumps (.array items) ++ rest).drop 1 =
          Str.join (str ", ") (items.map dumps) ++ 0x5D :: rest := by
        simp [dumps, dumpsItems_eq]
      rw [scanOnce.eq_def, if_neg (by rw [bracket]; decide), if_neg (by rw [bracket]; decide), if_pos bracket,
        inside]
      dsimp only
      rw [scanContainer_join (.inl rfl) texts]
      rfl
  | @object limit entries distinct keys each ih =>
      refine ⟨⟨0x7B, _, rfl, by decide⟩, ?_⟩
      intro rest _
      have texts : List.Forall₂ (Reads (scanEntry (scanOnce limit))) (dumpsEntries entries) entries := by
        rw [dumpsEntries_eq, List.forall₂_map_left_iff, List.forall₂_same]
        exact fun entry mem => reads_entry (ih entry mem) entry.1
      have bracket : (dumps (.object entries) ++ rest).head? = some 0x7B := rfl
      have inside : (dumps (.object entries) ++ rest).drop 1 =
          Str.join (str ", ") (dumpsEntries entries) ++ 0x7D :: rest := by
        simp [dumps]
      rw [scanOnce.eq_def, if_neg (by rw [bracket]; decide), if_pos bracket, inside]
      dsimp only
      rw [scanContainer_join (.inr rfl) texts]
      simp only [bind, Except.bind, Dict.rows_ofItems_of_nodup distinct]

/-- **Round trip.** What was dumped is loaded, with recursion enough for its depth. -/
theorem loads_dumps {floats : Double → Prop} {texts : Str → Prop}
    (readable : ∀ x, floats x → ∀ limit, Reads (scanOnce limit) x.jsonText (.float x)) {limit : Nat} {value : Json}
    (fits : value.Fits floats texts limit) : loads limit value.dumps = .ok value := by
  have reads := reads_dumps readable fits
  have visible := reads.skipSpace []
  have scanned := reads.scan [] (fun _ none => nomatch none)
  rw [List.append_nil] at visible scanned
  obtain ⟨c, tail, text, -, -, -, mark⟩ := reads.starts
  have unmarked : value.dumps.head? ≠ some 0xFEFF := by
    rw [text]
    exact fun same => mark (Option.some.inj same)
  rw [loads, if_neg unmarked, visible, scanned]
  rfl

end

/-! ### The characters of a dump -/

theorem shown_of_isAsciiDigit {c : CodePoint} (digit : c.isAsciiDigit = true) : Shown c := by
  simp only [CodePoint.isAsciiDigit, Bool.and_eq_true, decide_eq_true_eq] at digit
  exact ⟨by omega, by omega⟩

theorem shown_hexStr {width n : Nat} {c : CodePoint} (mem : c ∈ hexStr width n) : Shown c := by
  have digits : ∀ d < 16, Shown (CodePoint.ofChar (Nat.digitChar d)) := by decide
  induction width generalizing n with
  | zero => cases mem
  | succ width ih =>
      rw [hexStr, List.mem_append, List.mem_singleton] at mem
      rcases mem with mem | rfl
      · exact ih mem
      · exact digits (n % 16) (Nat.mod_lt n (by decide))

/-- An escape is printable, and what is not escaped is no control character. -/
theorem mem_jsonEscape {c d : CodePoint} (mem : d ∈ c.jsonEscape) : Shown d ∨ d = c ∧ 0x20 ≤ c.val := by
  rcases c.jsonEscape_cases with ⟨letter, meaning, escaped⟩ | ⟨-, escaped⟩ | ⟨-, -, control, plain⟩
  · rw [escaped, List.mem_pair] at mem
    rcases mem with rfl | rfl
    · exact Or.inl (by decide)
    · exact Or.inl (letter_of_simpleEscape meaning).2.1
  · rw [escaped, List.mem_append] at mem
    rcases mem with opening | digits
    · have shown : (str "\\u").all fun e => decide (Shown e) := by decide
      exact Or.inl (of_decide_eq_true (List.all_eq_true.mp shown d opening))
    · exact Or.inl (shown_hexStr digits)
  · rw [plain, List.mem_singleton] at mem
    exact Or.inr ⟨mem, Nat.le_of_not_lt control⟩

theorem mem_jsonQuote {s : Str} {c : CodePoint} (mem : c ∈ s.jsonQuote) : Shown c ∨ c ∈ s ∧ 0x20 ≤ c.val := by
  rw [Str.jsonQuote, List.mem_append, List.mem_cons, List.mem_flatMap, List.mem_singleton] at mem
  rcases mem with (rfl | ⟨d, inside, mem⟩) | rfl
  · exact Or.inl (by decide)
  · rcases mem_jsonEscape mem with shown | ⟨rfl, visible⟩
    · exact Or.inl shown
    · exact Or.inr ⟨inside, visible⟩
  · exact Or.inl (by decide)

theorem mem_join {separator : Str} {parts : List Str} {c : CodePoint} (mem : c ∈ Str.join separator parts) :
    c ∈ separator ∨ ∃ part ∈ parts, c ∈ part := by
  induction parts with
  | nil => cases mem
  | cons part parts ih =>
      cases parts with
      | nil => exact Or.inr ⟨part, List.mem_cons_self, mem⟩
      | cons next parts =>
          rw [Str.join_cons_cons, List.mem_append, List.mem_append] at mem
          rcases mem with mem | mem | mem
          · exact Or.inr ⟨part, List.mem_cons_self, mem⟩
          · exact Or.inl mem
          · rcases ih mem with mem | ⟨other, inside, mem⟩
            · exact Or.inl mem
            · exact Or.inr ⟨other, List.mem_cons_of_mem _ inside, mem⟩

theorem shown_intStr {n : Int} {c : CodePoint} (mem : c ∈ intStr n) : Shown c := by
  rw [intStr_eq, List.mem_append] at mem
  rcases mem with mem | mem
  · split_ifs at mem
    · rw [List.mem_singleton.mp mem]
      decide
    · cases mem
  · exact shown_of_isAsciiDigit (isAsciiDigit_of_mem_natStr mem)

/-- What holds of printable ASCII, and of the characters of the floats and of the texts that are
no control characters, holds of every character of the dump. -/
theorem of_mem_dumps [Runtime] {p : CodePoint → Prop} {floats : Double → Prop} {texts : Str → Prop}
    (ascii : ∀ c, Shown c → p c) (floating : ∀ x, floats x → ∀ c ∈ x.jsonText, p c)
    (spelled : ∀ s, texts s → ∀ c ∈ s, 0x20 ≤ c.val → p c) {limit : Nat} {value : Json}
    (fits : value.Fits floats texts limit) : ∀ c ∈ value.dumps, p c := by
  have word {w : Str} (all : w.all fun e => decide (Shown e)) : ∀ c ∈ w, p c :=
    fun c mem => ascii c (of_decide_eq_true (List.all_eq_true.mp all c mem))
  have quoted {s : Str} (known : texts s) : ∀ c ∈ s.jsonQuote, p c := by
    intro c mem
    rcases mem_jsonQuote mem with shown | ⟨mem, visible⟩
    · exact ascii c shown
    · exact spelled s known c mem visible
  have joined {parts : List Str} (each : ∀ part ∈ parts, ∀ c ∈ part, p c) :
      ∀ c ∈ Str.join (str ", ") parts, p c := by
    intro c mem
    rcases mem_join mem with mem | ⟨part, inside, mem⟩
    · exact word (by decide) c mem
    · exact each part inside c mem
  induction fits with
  | null => exact word (w := str "null") (by decide)
  | @bool limit b =>
      cases b with
      | false => exact word (w := str "false") (by decide)
      | true => exact word (w := str "true") (by decide)
  | int => exact fun c mem => ascii c (shown_intStr mem)
  | float known => exact floating _ known
  | text known => exact quoted known
  | @array limit items each ih =>
      rw [dumps, dumpsItems_eq, List.cons_append]
      have inside := joined (List.forall_mem_map.mpr ih)
      exact List.forall_mem_cons.mpr ⟨ascii _ (by decide), List.forall_mem_append.mpr
        ⟨inside, List.forall_mem_singleton.mpr (ascii _ (by decide))⟩⟩
  | @object limit entries distinct keys each ih =>
      rw [dumps, dumpsEntries_eq, List.cons_append]
      have entry : ∀ e ∈ entries, ∀ c ∈ e.1.jsonQuote ++ str ": " ++ e.2.dumps, p c := fun e mem =>
        List.forall_mem_append.mpr
          ⟨List.forall_mem_append.mpr ⟨quoted (keys e mem), word (by decide)⟩, ih e mem⟩
      have inside := joined (List.forall_mem_map.mpr entry)
      exact List.forall_mem_cons.mpr ⟨ascii _ (by decide), List.forall_mem_append.mpr
        ⟨inside, List.forall_mem_singleton.mpr (ascii _ (by decide))⟩⟩

/-! ### Unpaired surrogates in a dump -/

theorem Shown.isSurrogate {c : CodePoint} (shown : Shown c) : c.isSurrogate = false :=
  CodePoint.isSurrogate_eq_false_iff.mpr (Or.inl (Nat.lt_trans shown.2 (by decide)))

theorem jsonEscape_of_isSurrogate {c : CodePoint} (surrogate : c.isSurrogate = true) : c.jsonEscape = [c] := by
  have large : 0xD800 ≤ c.val := by
    simp only [CodePoint.isSurrogate, Bool.and_eq_true, decide_eq_true_eq] at surrogate
    exact surrogate.1
  rcases c.jsonEscape_cases with ⟨d, meaning, -⟩ | ⟨control, -⟩ | ⟨-, -, -, plain⟩
  · have small := (letter_of_simpleEscape meaning).2.2
    omega
  · omega
  · exact plain

/-- With `ensure_ascii=False` a surrogate is written as it is. -/
theorem encodable_jsonQuote_iff {s : Str} : s.jsonQuote.Encodable ↔ s.Encodable := by
  constructor
  · intro quoted c mem
    by_contra refused
    have surrogate : c.isSurrogate = true := Bool.eq_true_of_not_eq_false refused
    refine refused (quoted c ?_)
    have inside : c ∈ s.flatMap CodePoint.jsonEscape :=
      List.mem_flatMap.mpr ⟨c, mem, by rw [jsonEscape_of_isSurrogate surrogate]; exact List.mem_singleton_self c⟩
    exact List.mem_append_left _ (List.mem_cons_of_mem _ inside)
  · intro plain c mem
    rcases mem_jsonQuote mem with shown | ⟨inside, -⟩
    · exact shown.isSurrogate
    · exact plain c inside

section

variable [Runtime]

theorem encodable_dumps_array {items : List Json} :
    (array items).dumps.Encodable ↔ ∀ item ∈ items, item.dumps.Encodable := by
  have open' : CodePoint.isSurrogate 0x5B = false := by decide
  have close : Str.Encodable [0x5D] := by decide
  rw [dumps, dumpsItems_eq, List.cons_append, encodable_cons, encodable_append,
    encodable_join_iff (encodable_str ", "), List.forall_mem_map]
  exact ⟨fun all => all.2.1, fun each => ⟨open', each, close⟩⟩

theorem encodable_dumps_object {entries : List (Str × Json)} :
    (object entries).dumps.Encodable ↔ ∀ entry ∈ entries, entry.1.Encodable ∧ entry.2.dumps.Encodable := by
  have open' : CodePoint.isSurrogate 0x7B = false := by decide
  have close : Str.Encodable [0x7D] := by decide
  rw [dumps, dumpsEntries_eq, List.cons_append, encodable_cons, encodable_append,
    encodable_join_iff (encodable_str ", "), List.forall_mem_map]
  simp only [encodable_append, encodable_jsonQuote_iff, encodable_str, and_true]
  exact ⟨fun all => all.2.1, fun each => ⟨open', each, close⟩⟩

end

end Json

end Python
