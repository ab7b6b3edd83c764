import Mathlib.Data.List.DropRight
import Mathlib.Data.List.Infix
import Mathlib.Order.Fin.Basic
import Mathlib.Data.List.Lex
import Mathlib.Tactic.Common
import Mathlib.Tactic.SplitIfs

/-!
Python's `str`: a sequence of code points in which surrogates may stand alone.

Such a text is encodable exactly when it holds no surrogate, which is the one
thing UTF-8, a `VARCHAR` column and a string field with a constraint all ask of it.
The order of the texts is the order of Python's `<` and of a binary collation, since
UTF-8 preserves the order of code points.
-/

namespace Python

/-- A code point, surrogates included. -/
abbrev CodePoint := Fin 0x110000

abbrev Str := List CodePoint

-- Instances that literals and membership tests would otherwise derive one by one.

instance CodePoint.neZero : @NeZero Nat Zero.ofOfNat0 0x110000 := ⟨Nat.succ_ne_zero 0x10FFFF⟩

instance CodePoint.lawfulBEq : LawfulBEq CodePoint := inferInstance

instance Str.lawfulBEq : LawfulBEq Str := inferInstance

-- A test of one character, where the default would go through all of them.
instance (priority := high) CodePoint.decidableForallMem {p : CodePoint → Prop} [DecidablePred p]
    (o : Option CodePoint) : Decidable (∀ c ∈ o, p c) := Option.decidableForallMem o

def CodePoint.ofChar (c : Char) : CodePoint :=
  ⟨c.toNat, by
    have := c.valid
    unfold UInt32.isValidChar Nat.isValidChar at this
    unfold Char.toNat
    omega⟩

def CodePoint.isSurrogate (c : CodePoint) : Bool := 0xD800 ≤ c.val && c.val ≤ 0xDFFF

/-- A literal. -/
def str (s : String) : Str := s.toList.map CodePoint.ofChar

/-- No surrogate: the text can be encoded as UTF-8. -/
def Str.Encodable (s : Str) : Prop := ∀ c ∈ s, c.isSurrogate = false

instance (s : Str) : Decidable s.Encodable :=
  decidable_of_iff (s.all fun c => !c.isSurrogate) (by simp [Str.Encodable])

theorem CodePoint.isSurrogate_eq_false_iff {c : CodePoint} :
    c.isSurrogate = false ↔ c.val < 0xD800 ∨ 0xDFFF < c.val := by
  simp [isSurrogate, imp_iff_not_or]

theorem CodePoint.isSurrogate_ofChar (c : Char) : (ofChar c).isSurrogate = false := by
  have valid := c.valid
  unfold UInt32.isValidChar Nat.isValidChar at valid
  rw [isSurrogate_eq_false_iff]
  show c.toNat < _ ∨ _ < c.toNat
  unfold Char.toNat
  omega

@[simp] theorem encodable_str (s : String) : (str s).Encodable := by
  intro c hc
  obtain ⟨ch, _, rfl⟩ := List.mem_map.mp hc
  exact CodePoint.isSurrogate_ofChar ch

@[simp] theorem encodable_nil : Str.Encodable [] := fun _ h => nomatch h

@[simp] theorem encodable_append {s t : Str} :
    Str.Encodable (s ++ t) ↔ s.Encodable ∧ t.Encodable := by
  simp [Str.Encodable, or_imp, forall_and]

@[simp] theorem encodable_cons {c : CodePoint} {s : Str} :
    Str.Encodable (c :: s) ↔ c.isSurrogate = false ∧ s.Encodable := by
  simp [Str.Encodable]

/-- `separator.join(parts)`. -/
def Str.join (separator : Str) : List Str → Str
  | [] => []
  | [part] => part
  | part :: parts => part ++ separator ++ Str.join separator parts

theorem encodable_join {separator : Str} (hs : separator.Encodable) :
    ∀ {parts : List Str}, (∀ part ∈ parts, part.Encodable) → (Str.join separator parts).Encodable
  | [], _ => encodable_nil
  | [part], h => h part List.mem_cons_self
  | part :: next :: parts, h => by
      have rest := encodable_join hs fun p hp => h p (List.mem_cons_of_mem part hp)
      simp [Str.join, h part List.mem_cons_self, hs, rest]

theorem encodable_of_join {separator : Str} :
    ∀ {parts : List Str}, (Str.join separator parts).Encodable → ∀ part ∈ parts, part.Encodable
  | [], _, _, mem => nomatch mem
  | [_], h, _, mem => List.mem_singleton.mp mem ▸ h
  | first :: next :: parts, h, part, mem => by
      simp only [Str.join, encodable_append] at h
      rcases List.mem_cons.mp mem with rfl | later
      · exact h.1.1
      · exact encodable_of_join h.2 part later

theorem encodable_join_iff {separator : Str} {parts : List Str} (hs : separator.Encodable) :
    (Str.join separator parts).Encodable ↔ ∀ part ∈ parts, part.Encodable :=
  ⟨encodable_of_join, encodable_join hs⟩

/-! ### UTF-8 -/

def CodePoint.utf8 (c : CodePoint) : List UInt8 :=
  let n := c.val
  if n < 0x80 then [n.toUInt8]
  else if n < 0x800 then [(0xC0 + n / 64).toUInt8, (0x80 + n % 64).toUInt8]
  else if n < 0x10000 then
    [(0xE0 + n / 4096).toUInt8, (0x80 + n / 64 % 64).toUInt8, (0x80 + n % 64).toUInt8]
  else
    [(0xF0 + n / 262144).toUInt8, (0x80 + n / 4096 % 64).toUInt8, (0x80 + n / 64 % 64).toUInt8,
      (0x80 + n % 64).toUInt8]

/-- `text.encode("utf-8")`; `none` is `UnicodeEncodeError`. -/
def Str.encode? (s : Str) : Option (List UInt8) :=
  if s.Encodable then some (s.flatMap CodePoint.utf8) else none

/-! ### Whitespace, search and replacement -/

/-- `str.isspace` of one character. -/
def CodePoint.isSpace (c : CodePoint) : Bool :=
  let n := c.val
  (0x09 ≤ n && n ≤ 0x0D) || (0x1C ≤ n && n ≤ 0x20) || n = 0x85 || n = 0xA0 || n = 0x1680 ||
    (0x2000 ≤ n && n ≤ 0x200A) || n = 0x2028 || n = 0x2029 || n = 0x202F || n = 0x205F || n = 0x3000

/-- The Unicode property `White_Space`, which lacks the separators U+001C to U+001F. -/
def CodePoint.isWhiteSpace (c : CodePoint) : Bool :=
  c.isSpace && !(0x1C ≤ c.val && c.val ≤ 0x1F)

/-- `text.strip()`. -/
def Str.strip (s : Str) : Str := (s.dropWhile CodePoint.isSpace).rdropWhile CodePoint.isSpace

/-- `text.rstrip()`. -/
def Str.rstrip (s : Str) : Str := s.rdropWhile CodePoint.isSpace

/-- Strip by the property `White_Space`. -/
def Str.trim (s : Str) : Str :=
  (s.dropWhile CodePoint.isWhiteSpace).rdropWhile CodePoint.isWhiteSpace

/-- `"".join(text.split())`: the text without its whitespace. -/
def Str.joinSplit (s : Str) : Str := s.filter fun c => !c.isSpace

/-- `token in text`. -/
def Str.contains (text token : Str) : Bool := decide (token <:+: text)

/-- One pass of `text.replace(old, new)`; `skip` counts the characters of the last
occurrence that are still to be passed over. -/
def Str.replaceFrom (old new : Str) : Nat → Str → Str
  | _, [] => []
  | skip + 1, _ :: rest => replaceFrom old new skip rest
  | 0, c :: rest =>
      if old <+: c :: rest then new ++ replaceFrom old new (old.length - 1) rest
      else c :: replaceFrom old new 0 rest

/-- `text.replace(old, new)` for a nonempty `old`. -/
def Str.replace (text old new : Str) : Str := Str.replaceFrom old new 0 text

/-- The characters that `splitlines` ends a line at. -/
def CodePoint.isLineBreak (c : CodePoint) : Bool :=
  let n := c.val
  (0x0A ≤ n && n ≤ 0x0D) || (0x1C ≤ n && n ≤ 0x1E) || n = 0x85 || n = 0x2028 || n = 0x2029

/-- The lines of a text in which every line break is one character. -/
def Str.splitBreaks : Str → List Str
  | [] => []
  | c :: rest =>
      if c.isLineBreak then [] :: splitBreaks rest
      else match splitBreaks rest with
      | [] => [[c]]
      | line :: lines => (c :: line) :: lines

/-- `text.splitlines()`. -/
def Str.splitlines (s : Str) : List Str := (s.replace [0x0D, 0x0A] [0x0A]).splitBreaks

theorem encodable_dropWhile {s : Str} {p : CodePoint → Bool} (h : s.Encodable) :
    Str.Encodable (s.dropWhile p) := fun c hc => h c ((List.dropWhile_sublist p).subset hc)

theorem encodable_rdropWhile {s : Str} {p : CodePoint → Bool} (h : s.Encodable) :
    Str.Encodable (s.rdropWhile p) := fun c hc => h c ((List.rdropWhile_prefix p s).subset hc)

/-- Replacing one character rewrites each of its occurrences. -/
theorem Str.replace_singleton (s : Str) (x : CodePoint) (new : Str) :
    s.replace [x] new = s.flatMap fun c => if c = x then new else [c] := by
  unfold Str.replace
  induction s with
  | nil => rfl
  | cons c rest ih =>
      rw [List.flatMap_cons, ← ih, replaceFrom]
      by_cases same : c = x
      · subst same
        simp
      · have differ : ¬ [x] <+: c :: rest := by
          rintro ⟨tail, split⟩
          exact same (List.cons.inj split).1.symm
        rw [if_neg differ, if_neg same]
        rfl

theorem Str.replace_singleton_nil (s : Str) (x : CodePoint) : s.replace [x] [] = s.filter (· ≠ x) := by
  rw [replace_singleton]
  induction s with
  | nil => rfl
  | cons c rest ih => by_cases same : c = x <;> simp [same, ih]

theorem Str.replace_singleton_singleton (s : Str) (x y : CodePoint) :
    s.replace [x] [y] = s.map fun c => if c = x then y else c := by
  rw [replace_singleton]
  induction s with
  | nil => rfl
  | cons c rest ih => by_cases same : c = x <;> simp [same, ih]

/-- A text trimmed at both ends stays as it is under another trim. -/
theorem trim_trim_of {p : CodePoint → Bool} (s : Str) :
    (((s.dropWhile p).rdropWhile p).dropWhile p).rdropWhile p = (s.dropWhile p).rdropWhile p := by
  have left : ((s.dropWhile p).rdropWhile p).dropWhile p = (s.dropWhile p).rdropWhile p := by
    cases h : (s.dropWhile p).rdropWhile p with
    | nil => rfl
    | cons c rest =>
        have first : c :: rest <+: s.dropWhile p := h ▸ List.rdropWhile_prefix p _
        obtain ⟨tail, htail⟩ := first
        have kept : p c = false := by
          have head := List.head_dropWhile_not p (l := s) (by rw [← htail]; simp)
          simpa [← htail] using head
        simp [kept]
  rw [left, List.rdropWhile_idempotent]

theorem Str.trim_trim (s : Str) : s.trim.trim = s.trim := trim_trim_of s

theorem Str.strip_strip (s : Str) : s.strip.strip = s.strip := trim_trim_of s

theorem Str.strip_infix (s : Str) : s.strip <:+: s :=
  (List.rdropWhile_prefix _ _).isInfix.trans (List.dropWhile_suffix _).isInfix

theorem Str.trim_infix (s : Str) : s.trim <:+: s :=
  (List.rdropWhile_prefix _ _).isInfix.trans (List.dropWhile_suffix _).isInfix

/-- A text that a strip leaves alone has whitespace at neither end. -/
theorem Str.ends_of_strip_eq_self {s : Str} (stripped : s.strip = s) :
    s.dropWhile CodePoint.isSpace = s ∧ s.rdropWhile CodePoint.isSpace = s := by
  have front : s.dropWhile CodePoint.isSpace = s := by
    have shorter : s.strip.length ≤ (s.dropWhile CodePoint.isSpace).length :=
      (List.rdropWhile_prefix _ _).length_le
    rw [stripped] at shorter
    exact (List.dropWhile_suffix _).eq_of_length_le shorter
  rw [Str.strip, front] at stripped
  exact ⟨front, stripped⟩

/-- A strip leaves a text alone exactly when its ends are no whitespace. -/
theorem Str.strip_eq_self_iff {s : Str} :
    s.strip = s ↔ (∀ c ∈ s.head?, c.isSpace = false) ∧ ∀ c ∈ s.getLast?, c.isSpace = false := by
  have front (t : Str) : t.dropWhile CodePoint.isSpace = t ↔ ∀ c ∈ t.head?, c.isSpace = false := by
    cases t <;> simp [List.dropWhile_eq_self_iff]
  have back : s.rdropWhile CodePoint.isSpace = s ↔ ∀ c ∈ s.getLast?, c.isSpace = false := by
    rw [List.rdropWhile, List.reverse_eq_iff, front, List.head?_reverse]
  rw [← front, ← back]
  constructor
  · exact Str.ends_of_strip_eq_self
  · rintro ⟨first, last⟩
    rw [Str.strip, first, last]

/-- What strips leave alone, narrower strips do. -/
theorem Str.trim_eq_self {s : Str} (stripped : s.strip = s) : s.trim = s := by
  have wider (c : CodePoint) (blank : c.isWhiteSpace = true) : c.isSpace = true :=
    (Bool.and_eq_true_iff.mp blank).1
  obtain ⟨front, back⟩ := Str.ends_of_strip_eq_self stripped
  have front' : s.dropWhile CodePoint.isWhiteSpace = s :=
    List.dropWhile_eq_self_iff.mpr fun nonempty blank =>
      List.dropWhile_eq_self_iff.mp front nonempty (wider _ blank)
  rw [Str.trim, front', List.rdropWhile_eq_self_iff]
  exact fun nonempty blank => List.rdropWhile_eq_self_iff.mp back nonempty (wider _ blank)

/-- Whitespace is taken off only behind the last other character. -/
theorem Str.rstrip_append_cons {before behind : Str} {c : CodePoint} (other : c.isSpace = false) :
    (before ++ c :: behind).rstrip = before ++ c :: behind.rstrip := by
  have kept : ¬ c.isSpace = true := by rw [other]; exact Bool.false_ne_true
  unfold Str.rstrip
  induction behind using List.reverseRecOn with
  | nil => exact List.rdropWhile_concat_neg _ _ _ kept
  | append_singleton behind d ih =>
      rw [← List.cons_append, ← List.append_assoc]
      by_cases blank : d.isSpace = true
      · rw [List.rdropWhile_concat_pos _ _ _ blank, List.rdropWhile_concat_pos _ _ _ blank, ih]
      · rw [List.rdropWhile_concat_neg _ _ _ blank, List.rdropWhile_concat_neg _ _ _ blank, List.append_assoc,
          List.cons_append]

/-- Without whitespace at its end, a text is stripped at its start. -/
theorem Str.strip_rstrip (s : Str) : s.rstrip.strip = s.rstrip.dropWhile CodePoint.isSpace := by
  rw [Str.strip, List.rdropWhile_eq_self_iff]
  intro nonempty
  rw [(List.dropWhile_suffix CodePoint.isSpace).getLast nonempty]
  exact List.rdropWhile_last_not CodePoint.isSpace s _

theorem Str.strip_eq_nil_iff {s : Str} : s.strip = [] ↔ ∀ c ∈ s, c.isSpace = true := by
  rw [Str.strip, List.rdropWhile_eq_nil_iff]
  constructor
  · intro blank c mem
    rw [← List.takeWhile_append_dropWhile (p := CodePoint.isSpace) (l := s), List.mem_append] at mem
    exact mem.elim List.mem_takeWhile_imp (blank c)
  · exact fun blank c mem => blank c ((List.dropWhile_sublist _).subset mem)

theorem Str.strip_cons_of_isSpace {c : CodePoint} {s : Str} (h : c.isSpace = true) :
    Str.strip (c :: s) = s.strip := by
  rw [Str.strip, List.dropWhile_cons_of_pos h, Str.strip]

/-- A text without whitespace at its end ends in no blank text. -/
theorem Str.eq_nil_of_strip_eq_nil {s before behind : Str} (split : s.rstrip = before ++ behind)
    (blank : behind.strip = []) : behind = [] := by
  by_contra nonempty
  have suffix : behind <:+ s.rdropWhile CodePoint.isSpace := ⟨before, split.symm⟩
  refine List.rdropWhile_last_not CodePoint.isSpace s (suffix.ne_nil nonempty) ?_
  rw [← suffix.getLast nonempty]
  exact Str.strip_eq_nil_iff.mp blank _ (List.getLast_mem nonempty)

theorem Str.Encodable.strip {s : Str} (h : s.Encodable) : s.strip.Encodable :=
  encodable_rdropWhile (encodable_dropWhile h)

theorem Str.Encodable.trim {s : Str} (h : s.Encodable) : s.trim.Encodable :=
  encodable_rdropWhile (encodable_dropWhile h)

theorem Str.Encodable.take {s : Str} (h : s.Encodable) (n : Nat) : Str.Encodable (s.take n) :=
  fun c hc => h c (List.mem_of_mem_take hc)

/-! ### Numerals and `repr` -/

def natStr (n : Nat) : Str := str (Nat.repr n)

/-- The decimal numeral of an `int`. -/
def intStr (n : Int) : Str := str (toString n)

/-- A number padded with zeros to a width. -/
def paddedStr (width n : Nat) : Str :=
  List.replicate (width - (natStr n).length) (CodePoint.ofChar '0') ++ natStr n

def hexDigit (n : Nat) : CodePoint := CodePoint.ofChar (Nat.digitChar (n % 16))

/-- The last `width` hexadecimal digits of a number. -/
def hexStr : Nat → Nat → Str
  | 0, _ => []
  | width + 1, n => hexStr width (n / 16) ++ [hexDigit n]

@[simp] theorem encodable_natStr (n : Nat) : (natStr n).Encodable := encodable_str _

@[simp] theorem encodable_intStr (n : Int) : (intStr n).Encodable := encodable_str _

@[simp] theorem encodable_paddedStr (width n : Nat) : (paddedStr width n).Encodable := by
  rw [paddedStr, encodable_append]
  refine ⟨?_, encodable_natStr n⟩
  intro c hc
  rw [List.eq_of_mem_replicate hc]
  exact CodePoint.isSurrogate_ofChar _

theorem encodable_hexStr (width n : Nat) : (hexStr width n).Encodable := by
  induction width generalizing n with
  | zero => exact encodable_nil
  | succ width ih => simp [hexStr, ih, hexDigit, CodePoint.isSurrogate_ofChar]

/-- How `repr` writes one character between quotes `quote`. -/
def CodePoint.repr (isPrintable : CodePoint → Bool) (quote c : CodePoint) : Str :=
  if c = quote || c.val = 0x5C then [CodePoint.ofChar '\\', c]
  else if c.val = 0x09 then str "\\t"
  else if c.val = 0x0A then str "\\n"
  else if c.val = 0x0D then str "\\r"
  else if c.val < 0x20 || c.val = 0x7F then str "\\x" ++ hexStr 2 c.val
  else if c.val < 0x7F || isPrintable c then [c]
  else if c.val < 0x100 then str "\\x" ++ hexStr 2 c.val
  else if c.val < 0x10000 then str "\\u" ++ hexStr 4 c.val
  else str "\\U" ++ hexStr 8 c.val

/-- `repr(text)`: double quotes only around a text with single ones and no double ones. -/
def Str.repr (isPrintable : CodePoint → Bool) (s : Str) : Str :=
  let single := CodePoint.ofChar '\''
  let double := CodePoint.ofChar '"'
  let quote := if single ∈ s ∧ double ∉ s then double else single
  [quote] ++ s.flatMap (CodePoint.repr isPrintable quote) ++ [quote]

/-- `repr` escapes every surrogate, since none is printable. -/
theorem encodable_repr {isPrintable : CodePoint → Bool}
    (printable : ∀ c, isPrintable c = true → c.isSurrogate = false) (s : Str) :
    (s.repr isPrintable).Encodable := by
  have quoted : ∀ q : CodePoint, q.isSurrogate = false → ∀ c : CodePoint,
      (CodePoint.repr isPrintable q c).Encodable := by
    intro q hq c
    unfold CodePoint.repr
    split_ifs with special tab feed carriage control shown
    · have hc : c.isSurrogate = false := by
        rcases (Bool.or_eq_true _ _).mp special with h | h
        · rw [of_decide_eq_true h]; exact hq
        · rw [CodePoint.isSurrogate_eq_false_iff, of_decide_eq_true h]; decide
      simp [hc, CodePoint.isSurrogate_ofChar]
    · exact encodable_str _
    · exact encodable_str _
    · exact encodable_str _
    · simp [encodable_hexStr]
    · have hc : c.isSurrogate = false := by
        rcases (Bool.or_eq_true _ _).mp shown with h | h
        · have := of_decide_eq_true h
          rw [CodePoint.isSurrogate_eq_false_iff]; omega
        · exact printable c h
      simp [hc]
    all_goals simp [encodable_hexStr]
  have hquote : (if CodePoint.ofChar '\'' ∈ s ∧ CodePoint.ofChar '"' ∉ s then CodePoint.ofChar '"'
      else CodePoint.ofChar '\'').isSurrogate = false := by
    split <;> exact CodePoint.isSurrogate_ofChar _
  simp only [Str.repr, encodable_append, encodable_cons, encodable_nil, and_true]
  refine ⟨⟨hquote, ?_⟩, hquote⟩
  intro c hc
  obtain ⟨d, _, hd⟩ := List.mem_flatMap.mp hc
  exact quoted _ hquote d c hd

/-! ### Lines -/

/-- A text without a line break. -/
def Str.Unbroken (s : Str) : Prop := ∀ c ∈ s, c.isLineBreak = false

instance (s : Str) : Decidable s.Unbroken :=
  decidable_of_iff (s.all fun c => !c.isLineBreak) (by simp [Str.Unbroken])

/-- What ends a line: a line break, or a carriage return and a line feed. -/
def Str.IsSeparator (s : Str) : Prop := s = [0x0D, 0x0A] ∨ ∃ c, c.isLineBreak = true ∧ s = [c]

theorem Str.Unbroken.of_cons {c : CodePoint} {s : Str} (h : Str.Unbroken (c :: s)) :
    c.isLineBreak = false ∧ s.Unbroken :=
  ⟨h c List.mem_cons_self, fun d mem => h d (List.mem_cons_of_mem c mem)⟩

theorem Str.splitBreaks_append {line rest : Str} {c : CodePoint} (plain : line.Unbroken)
    (ends : c.isLineBreak = true) : (line ++ c :: rest).splitBreaks = line :: rest.splitBreaks := by
  induction line with
  | nil => rw [List.nil_append, splitBreaks, if_pos ends]
  | cons d line ih =>
      obtain ⟨inner, plain⟩ := plain.of_cons
      rw [List.cons_append, splitBreaks, if_neg (by rw [inner]; exact Bool.false_ne_true), ih plain]

theorem Str.splitBreaks_unbroken {line : Str} (plain : line.Unbroken) :
    line.splitBreaks = if line = [] then [] else [line] := by
  induction line with
  | nil => rfl
  | cons d line ih =>
      obtain ⟨inner, plain⟩ := plain.of_cons
      rw [splitBreaks, if_neg (by rw [inner]; exact Bool.false_ne_true), ih plain, if_neg (List.cons_ne_nil _ _)]
      split_ifs with empty
      · rw [empty]
      · rfl

/-- Where an occurrence cannot start, a text is kept. -/
theorem Str.replace_cons {old new rest : Str} {c : CodePoint} (differ : ¬ old <+: c :: rest) :
    Str.replace (c :: rest) old new = c :: rest.replace old new := by
  rw [replace, replaceFrom, if_neg differ, replace]

/-- Behind characters that start no occurrence, a text is replaced by itself. -/
theorem Str.replace_append {line rest old new : Str} (plain : ∀ c ∈ line, ∀ d ∈ old.head?, c ≠ d)
    (nonempty : old ≠ []) : (line ++ rest).replace old new = line ++ rest.replace old new := by
  induction line with
  | nil => rfl
  | cons c line ih =>
      have differ : ¬ old <+: c :: (line ++ rest) := by
        cases old with
        | nil => exact absurd rfl nonempty
        | cons d old =>
            intro occurrence
            exact plain c List.mem_cons_self d rfl (List.cons_prefix_cons.mp occurrence).1.symm
      rw [List.cons_append, replace_cons differ, ih fun e mem => plain e (List.mem_cons_of_mem c mem),
        List.cons_append]

theorem Str.Unbroken.ne_return {line : Str} (plain : line.Unbroken) :
    ∀ c ∈ line, ∀ d ∈ List.head? [(0x0D : CodePoint), 0x0A], c ≠ d := by
  rintro c mem _ ⟨⟩ rfl
  exact absurd (plain _ mem) (by decide)

/-- The lines of a text that starts with a line and its separator are the line and those of the
rest, of which an empty one is lost between a carriage return and a line feed. -/
theorem Str.splitlines_append {line separator rest : Str} (plain : line.Unbroken)
    (ends : separator.IsSeparator) :
    ∃ lines, (line ++ (separator ++ rest)).splitlines = line :: lines ∧
      (rest.splitlines = lines ∨ rest.splitlines = [] :: lines) := by
  have crlf (behind : Str) : Str.replace (0x0D :: 0x0A :: behind) [0x0D, 0x0A] [0x0A] =
      0x0A :: behind.replace [0x0D, 0x0A] [0x0A] := by
    have occurs : [0x0D, 0x0A] <+: (0x0D : CodePoint) :: 0x0A :: behind := ⟨behind, rfl⟩
    rw [replace, replaceFrom, if_pos occurs]
    rfl
  rw [splitlines, replace_append plain.ne_return (List.cons_ne_nil _ _)]
  rcases ends with rfl | ⟨c, breaks, rfl⟩
  · rw [List.cons_append, List.singleton_append, crlf, splitBreaks_append plain rfl]
    exact ⟨_, rfl, Or.inl rfl⟩
  · rw [List.singleton_append]
    by_cases occurrence : [0x0D, 0x0A] <+: c :: rest
    · obtain ⟨behind, split⟩ := occurrence
      obtain ⟨rfl, tail⟩ := List.cons.inj split
      obtain rfl : 0x0A :: behind = rest := tail
      have lineFeed : CodePoint.isLineBreak 0x0A = true := rfl
      have feed : ¬ [0x0D, 0x0A] <+: (0x0A : CodePoint) :: behind := by
        intro first
        exact absurd (List.cons_prefix_cons.mp first).1 (by decide)
      rw [crlf, splitBreaks_append plain rfl, splitlines, replace_cons feed, splitBreaks,
        if_pos lineFeed]
      exact ⟨_, rfl, Or.inr rfl⟩
    · rw [replace_cons occurrence, splitBreaks_append plain breaks]
      exact ⟨_, rfl, Or.inl rfl⟩

/-- A text without a line break is its only line, unless it is empty. -/
theorem Str.splitlines_unbroken {line : Str} (plain : line.Unbroken) :
    line.splitlines = if line = [] then [] else [line] := by
  have kept : (line ++ []).replace [0x0D, 0x0A] [0x0A] = line ++ Str.replace [] [0x0D, 0x0A] [0x0A] :=
    replace_append plain.ne_return (List.cons_ne_nil _ _)
  have empty : Str.replace [] [0x0D, 0x0A] [0x0A] = [] := rfl
  rw [List.append_nil, empty, List.append_nil] at kept
  rw [splitlines, kept, splitBreaks_unbroken plain]

/-- **Lines.** Lines joined by separators are the lines of the text, apart from empty ones. -/
theorem Str.filter_splitlines {p : Str → Bool} (empty : p [] = false) {pieces : List (Str × Str)} {last : Str}
    (plain : ∀ line ∈ pieces.map Prod.fst ++ [last], Str.Unbroken line)
    (separated : ∀ piece ∈ pieces, Str.IsSeparator piece.2) :
    (Str.splitlines ((pieces.flatMap fun piece => piece.1 ++ piece.2) ++ last)).filter p =
      (pieces.map Prod.fst ++ [last]).filter p := by
  induction pieces with
  | nil =>
      rw [List.flatMap_nil, List.nil_append, splitlines_unbroken (plain last (by simp))]
      split_ifs with nothing
      · simp [nothing, empty]
      · rfl
  | cons piece pieces ih =>
      have rest := ih (fun line mem => plain line (List.mem_cons_of_mem _ mem))
        fun other mem => separated other (List.mem_cons_of_mem _ mem)
      obtain ⟨lines, split, same⟩ : ∃ lines, (piece.1 ++ (piece.2 ++
          ((pieces.flatMap fun piece => piece.1 ++ piece.2) ++ last))).splitlines = piece.1 :: lines ∧ _ :=
        splitlines_append (plain piece.1 List.mem_cons_self) (separated piece List.mem_cons_self)
      have skipped : lines.filter p = (pieces.map Prod.fst ++ [last]).filter p := by
        rw [← rest]
        rcases same with same | same
        · rw [same]
        · rw [same, List.filter_cons_of_neg (by rw [empty]; exact Bool.false_ne_true)]
      rw [List.flatMap_cons, List.append_assoc, List.append_assoc, split, List.map_cons, List.cons_append,
        List.filter_cons, skipped, List.filter_cons]

end Python
