import CnPropertyAgent.Python.Calendar
import CnPropertyAgent.Python.Utf8

/-!
`path.read_text(encoding="utf-8")`: strict decoding, and the lines of text mode.

The decoder reads a first byte, which says how many continuation bytes follow and what
the first of them may be, and raises at the sequence that is none. What it returns is
exactly what is encoded as the bytes (`decodeUtf8_eq_ok_iff`).
-/

namespace Python

/-- Why a file has no bytes. -/
inductive OpenError where
  /-- An `OSError` with this text. -/
  | os (text : Str)
  /-- `open` refuses the path itself, for a NUL or a surrogate in it. -/
  | path (error : Exc)

/-- What reading a file gives: its bytes, or why there are none. -/
abbrev FileContent := Except OpenError (List UInt8)

/-- `UnicodeDecodeError`: where the bytes start that are no code, how many they are, the first of
them, and why. -/
structure UnicodeDecodeError where
  start : Nat
  count : Nat
  first : UInt8
  reason : Str
deriving DecidableEq

/-- `str(error)`. -/
def UnicodeDecodeError.text (error : UnicodeDecodeError) : Str :=
  if error.count = 1 then
    str "'utf-8' codec can't decode byte 0x" ++ hexStr 2 error.first.toNat ++ str " in position " ++
      natStr error.start ++ str ": " ++ error.reason
  else
    str "'utf-8' codec can't decode bytes in position " ++ natStr error.start ++ str "-" ++
      natStr (error.start + error.count - 1) ++ str ": " ++ error.reason

/-- What a first byte says: its bits, how many bytes continue it, and what the first of those lies
between. -/
structure Lead where
  bits : Nat
  more : Nat
  low : Nat
  high : Nat

/-- Overlong codes, surrogates and numbers that are no code point have no place. -/
def Lead.ofByte? (b : UInt8) : Option Lead :=
  let n := b.toNat
  if n < 0x80 then some ⟨n, 0, 0x80, 0xBF⟩
  else if n < 0xC2 then none
  else if n < 0xE0 then some ⟨n - 0xC0, 1, 0x80, 0xBF⟩
  else if n < 0xF0 then
    some ⟨n - 0xE0, 2, if n = 0xE0 then 0xA0 else 0x80, if n = 0xED then 0x9F else 0xBF⟩
  else if n < 0xF5 then
    some ⟨n - 0xF0, 3, if n = 0xF0 then 0x90 else 0x80, if n = 0xF4 then 0x8F else 0xBF⟩
  else none

/-- Reads continuation bytes. An error says how many bytes of the sequence were read, and why. -/
def continueWith : Nat → Nat → Nat → Nat → Nat → List UInt8 → Except (Nat × Str) Nat
  | 0, _, _, bits, _, _ => .ok bits
  | _ + 1, _, _, _, read, [] => .error (read, str "unexpected end of data")
  | more + 1, low, high, bits, read, b :: rest =>
      if low ≤ b.toNat ∧ b.toNat ≤ high then
        continueWith more 0x80 0xBF (bits * 64 + (b.toNat - 0x80)) (read + 1) rest
      else .error (read, str "invalid continuation byte")

/-- The code point at the start of the bytes, and how many bytes continue its first one. -/
def decodeFirst (b : UInt8) (rest : List UInt8) : Except (Nat × Str) (Nat × Nat) :=
  match Lead.ofByte? b with
  | none => .error (1, str "invalid start byte")
  | some lead => (continueWith lead.more lead.low lead.high lead.bits 1 rest).map fun n => (n, lead.more)

/-- `skip` counts the bytes of the last sequence that are still to be passed over. -/
def decodeFrom (position : Nat) : Nat → List UInt8 → Except UnicodeDecodeError Str
  | _, [] => .ok []
  | skip + 1, _ :: rest => decodeFrom (position + 1) skip rest
  | 0, b :: rest =>
      match decodeFirst b rest with
      | .error (count, reason) => .error ⟨position, count, b, reason⟩
      | .ok (n, more) => (decodeFrom (position + 1) more rest).map (Fin.ofNat _ n :: ·)

/-- `data.decode("utf-8")`. -/
def decodeUtf8 (data : List UInt8) : Except UnicodeDecodeError Str := decodeFrom 0 0 data

/-- What text mode makes of a text: every line ends with a line feed. -/
def universalNewlines (text : Str) : Str := (text.replace [0x0D, 0x0A] [0x0A]).replace [0x0D] [0x0A]

/-- `read_text` of a file that could be read. -/
def readText (data : List UInt8) : Except UnicodeDecodeError Str := (decodeUtf8 data).map universalNewlines

/-! ### What is decoded -/

theorem toUInt8_eq {n : Nat} {b : UInt8} (h : n = b.toNat) : n.toUInt8 = b := by
  subst h
  exact UInt8.toNat_inj.mp (toNat_toUInt8 b.toNat_lt)

theorem continueWith_cons {more low high bits read : Nat} {n : Nat} {rest : List UInt8} (least : low ≤ n)
    (most : n ≤ high) (byte : n < 256) : continueWith (more + 1) low high bits read (n.toUInt8 :: rest) =
      continueWith more 0x80 0xBF (bits * 64 + (n - 0x80)) (read + 1) rest := by
  rw [continueWith, toNat_toUInt8 byte, if_pos ⟨least, most⟩]

theorem map_eq_ok {ε α β : Type} {x : Except ε α} {f : α → β} {b : β} (h : x.map f = .ok b) :
    ∃ a, x = .ok a ∧ f a = b := by
  cases x with
  | error e => cases h
  | ok a => exact ⟨a, rfl, Except.ok.inj h⟩

theorem of_continueWith_succ {more low high bits read n : Nat} {rest : List UInt8}
    (h : continueWith (more + 1) low high bits read rest = .ok n) :
    ∃ b behind, rest = b :: behind ∧ (low ≤ b.toNat ∧ b.toNat ≤ high) ∧
      continueWith more 0x80 0xBF (bits * 64 + (b.toNat - 0x80)) (read + 1) behind = .ok n := by
  cases rest with
  | nil => cases h
  | cons b behind =>
      rw [continueWith] at h
      split_ifs at h with within
      exact ⟨b, behind, rfl, within, h⟩

/-- The code of a code point is decoded, whatever follows it. -/
theorem decodeFirst_utf8 {c : CodePoint} (plain : c.isSurrogate = false) (rest : List UInt8) :
    ∃ b more, c.utf8 = b :: more ∧ decodeFirst b (more ++ rest) = .ok (c.val, more.length) := by
  have bound := c.isLt
  rw [CodePoint.isSurrogate_eq_false_iff] at plain
  unfold CodePoint.utf8
  dsimp only
  split_ifs with one two three
  · refine ⟨_, _, rfl, ?_⟩
    simp only [decodeFirst, Lead.ofByte?, toNat_toUInt8 (show c.val < 256 by omega), if_pos one]
    rfl
  · refine ⟨_, _, rfl, ?_⟩
    simp only [decodeFirst, Lead.ofByte?, toNat_toUInt8 (show 0xC0 + c.val / 64 < 256 by omega)]
    rw [if_neg (by omega), if_neg (by omega), if_pos (by omega)]
    dsimp only
    rw [List.cons_append, continueWith_cons (by omega) (by omega) (by omega), continueWith]
    simp only [Except.map, List.length_singleton, Except.ok.injEq, Prod.mk.injEq, and_true]
    omega
  · refine ⟨_, _, rfl, ?_⟩
    simp only [decodeFirst, Lead.ofByte?, toNat_toUInt8 (show 0xE0 + c.val / 4096 < 256 by omega)]
    rw [if_neg (by omega), if_neg (by omega), if_neg (by omega), if_pos (by omega)]
    dsimp only
    rw [List.cons_append, List.cons_append, continueWith_cons (by split_ifs <;> omega) (by split_ifs <;> omega)
      (by omega), continueWith_cons (by omega) (by omega) (by omega), continueWith]
    simp only [Except.map, List.length_cons, List.length_nil, Except.ok.injEq, Prod.mk.injEq, and_true]
    have nested : c.val / 4096 = c.val / 64 / 64 := by rw [Nat.div_div_eq_div_mul]
    omega
  · refine ⟨_, _, rfl, ?_⟩
    simp only [decodeFirst, Lead.ofByte?, toNat_toUInt8 (show 0xF0 + c.val / 262144 < 256 by omega)]
    rw [if_neg (by omega), if_neg (by omega), if_neg (by omega), if_neg (by omega), if_pos (by omega)]
    dsimp only
    rw [List.cons_append, List.cons_append, List.cons_append, continueWith_cons (by split_ifs <;> omega)
      (by split_ifs <;> omega) (by omega), continueWith_cons (by omega) (by omega) (by omega),
      continueWith_cons (by omega) (by omega) (by omega), continueWith]
    simp only [Except.map, List.length_cons, List.length_nil, Except.ok.injEq, Prod.mk.injEq, and_true]
    have nested : c.val / 4096 = c.val / 64 / 64 := by rw [Nat.div_div_eq_div_mul]
    have nested' : c.val / 262144 = c.val / 64 / 64 / 64 := by
      rw [Nat.div_div_eq_div_mul, Nat.div_div_eq_div_mul]
    omega

section

variable {n : Nat} {bound : n < 0x110000}

theorem utf8_one (one : n < 0x80) : CodePoint.utf8 ⟨n, bound⟩ = [n.toUInt8] := if_pos one

theorem utf8_two (one : ¬ n < 0x80) (two : n < 0x800) :
    CodePoint.utf8 ⟨n, bound⟩ = [(0xC0 + n / 64).toUInt8, (0x80 + n % 64).toUInt8] := by
  rw [CodePoint.utf8, if_neg one, if_pos two]

theorem utf8_three (two : ¬ n < 0x800) (three : n < 0x10000) : CodePoint.utf8 ⟨n, bound⟩ =
    [(0xE0 + n / 4096).toUInt8, (0x80 + n / 64 % 64).toUInt8, (0x80 + n % 64).toUInt8] := by
  have one : ¬ n < 0x80 := by omega
  rw [CodePoint.utf8, if_neg one, if_neg two, if_pos three]

theorem utf8_four (three : ¬ n < 0x10000) : CodePoint.utf8 ⟨n, bound⟩ =
    [(0xF0 + n / 262144).toUInt8, (0x80 + n / 4096 % 64).toUInt8, (0x80 + n / 64 % 64).toUInt8,
      (0x80 + n % 64).toUInt8] := by
  have one : ¬ n < 0x80 := by omega
  have two : ¬ n < 0x800 := by omega
  rw [CodePoint.utf8, if_neg one, if_neg two, if_neg three]

end

/-- What is decoded is a code point that is no surrogate, and its code is what was read. -/
theorem of_decodeFirst {b : UInt8} {rest : List UInt8} {n more : Nat} (h : decodeFirst b rest = .ok (n, more)) :
    ∃ c : CodePoint, c.val = n ∧ c.isSurrogate = false ∧ more ≤ rest.length ∧
      c.utf8 = b :: rest.take more := by
  have plain {m : Nat} {bound : m < 0x110000} (apart : m < 0xD800 ∨ 0xDFFF < m) :
      CodePoint.isSurrogate ⟨m, bound⟩ = false := CodePoint.isSurrogate_eq_false_iff.mpr apart
  have byte := b.toNat_lt
  unfold decodeFirst at h
  split at h
  · cases h
  · rename_i lead found
    obtain ⟨m, read, same⟩ := map_eq_ok h
    obtain ⟨rfl, rfl⟩ := Prod.mk.inj same
    unfold Lead.ofByte? at found
    dsimp only at found
    by_cases one : b.toNat < 0x80
    · rw [if_pos one, Option.some.injEq] at found
      subst found
      cases read
      exact ⟨⟨b.toNat, by omega⟩, rfl, plain (by omega), Nat.zero_le _, by rw [utf8_one one, toUInt8_eq rfl]; rfl⟩
    rw [if_neg one] at found
    by_cases stray : b.toNat < 0xC2
    · rw [if_pos stray] at found
      cases found
    rw [if_neg stray] at found
    by_cases two : b.toNat < 0xE0
    · rw [if_pos two, Option.some.injEq] at found
      subst found
      obtain ⟨b₁, behind, rfl, within, read⟩ := of_continueWith_succ read
      obtain rfl := Except.ok.inj read
      dsimp only at within ⊢
      refine ⟨⟨(b.toNat - 0xC0) * 64 + (b₁.toNat - 0x80), by omega⟩, rfl, plain (by omega), by simp, ?_⟩
      rw [utf8_two (by omega) (by omega), toUInt8_eq (b := b) (by omega), toUInt8_eq (b := b₁) (by omega)]
      rfl
    rw [if_neg two] at found
    by_cases three : b.toNat < 0xF0
    · rw [if_pos three, Option.some.injEq] at found
      subst found
      obtain ⟨b₁, _, rfl, within, read⟩ := of_continueWith_succ read
      obtain ⟨b₂, behind, rfl, within', read⟩ := of_continueWith_succ read
      obtain rfl := Except.ok.inj read
      dsimp only at within within' ⊢
      have least : b.toNat = 0xE0 → 0xA0 ≤ b₁.toNat := by
        intro first
        rw [if_pos first] at within
        exact within.1
      have most : b.toNat = 0xED → b₁.toNat ≤ 0x9F := by
        intro first
        rw [if_pos first] at within
        exact within.2
      have tail : 0x80 ≤ b₁.toNat ∧ b₁.toNat ≤ 0xBF := by split_ifs at within <;> omega
      clear within
      refine ⟨⟨((b.toNat - 0xE0) * 64 + (b₁.toNat - 0x80)) * 64 + (b₂.toNat - 0x80), by omega⟩, rfl,
        plain (by omega), by simp, ?_⟩
      rw [utf8_three (by omega) (by omega), toUInt8_eq (b := b) (by omega), toUInt8_eq (b := b₁) (by omega),
        toUInt8_eq (b := b₂) (by omega)]
      rfl
    rw [if_neg three] at found
    by_cases four : b.toNat < 0xF5
    · rw [if_pos four, Option.some.injEq] at found
      subst found
      obtain ⟨b₁, _, rfl, within, read⟩ := of_continueWith_succ read
      obtain ⟨b₂, _, rfl, within', read⟩ := of_continueWith_succ read
      obtain ⟨b₃, behind, rfl, within'', read⟩ := of_continueWith_succ read
      obtain rfl := Except.ok.inj read
      dsimp only at within within' within'' ⊢
      have least : b.toNat = 0xF0 → 0x90 ≤ b₁.toNat := by
        intro first
        rw [if_pos first] at within
        exact within.1
      have most : b.toNat = 0xF4 → b₁.toNat ≤ 0x8F := by
        intro first
        rw [if_pos first] at within
        exact within.2
      have tail : 0x80 ≤ b₁.toNat ∧ b₁.toNat ≤ 0xBF := by split_ifs at within <;> omega
      clear within
      refine ⟨⟨(((b.toNat - 0xF0) * 64 + (b₁.toNat - 0x80)) * 64 + (b₂.toNat - 0x80)) * 64 + (b₃.toNat - 0x80),
        by omega⟩, rfl, plain (by omega), by simp, ?_⟩
      rw [utf8_four (by omega), toUInt8_eq (b := b) (by omega), toUInt8_eq (b := b₁) (by omega),
        toUInt8_eq (b := b₂) (by omega), toUInt8_eq (b := b₃) (by omega)]
      rfl
    · rw [if_neg four] at found
      cases found

theorem decodeFrom_drop {skip : Nat} {data : List UInt8} (inside : skip ≤ data.length) (position : Nat) :
    decodeFrom position skip data = decodeFrom (position + skip) 0 (data.drop skip) := by
  induction data generalizing skip position with
  | nil => cases skip <;> rfl
  | cons b rest ih =>
      cases skip with
      | zero => rfl
      | succ skip =>
          rw [decodeFrom, ih (Nat.le_of_succ_le_succ inside), List.drop_succ_cons, Nat.add_right_comm,
            Nat.add_assoc]

theorem decodeFrom_utf8 {s : Str} (plain : s.Encodable) (position : Nat) :
    decodeFrom position 0 (s.flatMap CodePoint.utf8) = .ok s := by
  induction s generalizing position with
  | nil => rfl
  | cons c s ih =>
      obtain ⟨first, others⟩ := encodable_cons.mp plain
      obtain ⟨b, more, code, decoded⟩ := decodeFirst_utf8 first (s.flatMap CodePoint.utf8)
      have inside : more.length ≤ (more ++ s.flatMap CodePoint.utf8).length := by simp
      have same : Fin.ofNat 0x110000 c.val = c := Fin.ext (Nat.mod_eq_of_lt c.isLt)
      rw [List.flatMap_cons, code, List.cons_append, decodeFrom, decoded]
      dsimp only
      rw [decodeFrom_drop inside, List.drop_left, ih others, same]
      rfl

theorem of_decodeFrom {data : List UInt8} {position : Nat} {s : Str} (h : decodeFrom position 0 data = .ok s) :
    s.Encodable ∧ s.flatMap CodePoint.utf8 = data := by
  induction length : data.length using Nat.strongRecOn generalizing data position s with
  | ind n ih =>
      subst length
      cases data with
      | nil =>
          obtain rfl := Except.ok.inj h
          exact ⟨encodable_nil, rfl⟩
      | cons b rest =>
          rw [decodeFrom] at h
          split at h
          · cases h
          · rename_i n more decoded
            obtain ⟨c, rfl, plain, inside, code⟩ := of_decodeFirst decoded
            have same : Fin.ofNat 0x110000 c.val = c := Fin.ext (Nat.mod_eq_of_lt c.isLt)
            obtain ⟨t, others, rfl⟩ := map_eq_ok h
            rw [decodeFrom_drop inside] at others
            have shorter : (rest.drop more).length < (b :: rest).length := by
              rw [List.length_drop, List.length_cons]
              omega
            obtain ⟨plain', behind⟩ := ih _ shorter others rfl
            rw [same, encodable_cons, List.flatMap_cons, code, behind, List.cons_append, List.take_append_drop]
            exact ⟨⟨plain, plain'⟩, rfl⟩

/-- **UTF-8.** Bytes are decoded exactly to the text that is encoded as them. -/
theorem decodeUtf8_eq_ok_iff {data : List UInt8} {s : Str} :
    decodeUtf8 data = .ok s ↔ s.encode? = some data := by
  rw [Str.encode?, decodeUtf8]
  constructor
  · intro decoded
    obtain ⟨plain, code⟩ := of_decodeFrom decoded
    rw [if_pos plain, code]
  · intro encoded
    split_ifs at encoded with plain
    rw [← Option.some.inj encoded, decodeFrom_utf8 plain]

/-- Text without carriage returns has none to replace. -/
theorem replace_eq_self {s old : Str} (new : Str) (first : old.head? = some 0x0D) (none : 0x0D ∉ s) :
    s.replace old new = s := by
  have plain : ∀ c ∈ s, ∀ d ∈ old.head?, c ≠ d := by
    intro c mem d head same
    rw [first, Option.mem_some_iff] at head
    exact none (head ▸ same ▸ mem)
  have nonempty : old ≠ [] := by
    rintro rfl
    cases first
  have replaced : (s ++ []).replace old new = s ++ Str.replace [] old new := Str.replace_append plain nonempty
  rw [List.append_nil] at replaced
  exact replaced.trans (List.append_nil s)

theorem universalNewlines_eq_self {s : Str} (none : 0x0D ∉ s) : universalNewlines s = s := by
  rw [universalNewlines, replace_eq_self _ rfl none, replace_eq_self _ rfl none]

/-- A single carriage return becomes a line feed. -/
theorem replace_return (s : Str) : s.replace [0x0D] [0x0A] = s.map fun c => if c = 0x0D then 0x0A else c := by
  unfold Str.replace
  induction s with
  | nil => rfl
  | cons c s ih =>
      rw [Str.replaceFrom, List.map_cons]
      by_cases return_ : c = 0x0D
      · subst return_
        rw [if_pos ⟨s, rfl⟩, if_pos rfl]
        exact congrArg _ ih
      · have other : ¬ [0x0D] <+: c :: s := fun occurs => return_ (List.cons_prefix_cons.mp occurs).1.symm
        rw [if_neg other, if_neg return_, ih]

/-- **Lines.** Text mode changes no line of a text. -/
theorem splitlines_universalNewlines (s : Str) : (universalNewlines s).splitlines = s.splitlines := by
  have breaks (t : Str) :
      Str.splitBreaks (t.map fun c => if c = 0x0D then 0x0A else c) = t.splitBreaks := by
    induction t with
    | nil => rfl
    | cons c t ih =>
        rw [List.map_cons, Str.splitBreaks, Str.splitBreaks, ih]
        by_cases return_ : c = 0x0D
        · subst return_
          rfl
        · rw [if_neg return_]
  have fed : 0x0D ∉ universalNewlines s := by
    rw [universalNewlines, replace_return, List.mem_map]
    rintro ⟨c, -, same⟩
    split_ifs at same with return_
    · exact absurd same (by decide)
    · exact return_ same
  rw [Str.splitlines, replace_eq_self _ rfl fed, universalNewlines, replace_return, breaks, Str.splitlines]

/-- **Text files.** A text without carriage returns is read back from its encoding. -/
theorem readText_encode {s : Str} {data : List UInt8} (none : 0x0D ∉ s) (encoded : s.encode? = some data) :
    readText data = .ok s := by
  rw [readText, decodeUtf8_eq_ok_iff.mpr encoded, Except.map, universalNewlines_eq_self none]

end Python
