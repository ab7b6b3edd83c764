import CnPropertyAgent.Python.Collections
import CnPropertyAgent.Python.Json

/-!
`json.dumps` with `ensure_ascii=False`, and `json.loads`.

The scanner works on what is left of the text; an error keeps how much that is, from
which its position is computed. Its loops are bounded by the length of the text they
start on, and a bound that is used up is the end of the text, which raises what the code
raises there. How deep arrays and objects may be nested is the interpreter's affair: the
recursion that is left to the caller is a parameter.

What is dumped is loaded again, whatever follows it (`reads_dumps`), if no key of an
object repeats and no float is in it. What is loaded never repeats a key.
-/

namespace Python

/-! ### Dumping -/

/-- `ESCAPE_DCT[c]`, or the character itself. -/
def CodePoint.jsonEscape (c : CodePoint) : Str :=
  if c = 0x22 then str "\\\""
  else if c = 0x5C then str "\\\\"
  else if c = 0x0A then str "\\n"
  else if c = 0x0D then str "\\r"
  else if c = 0x09 then str "\\t"
  else if c = 0x0C then str "\\f"
  else if c = 0x08 then str "\\b"
  else if c.val < 0x20 then str "\\u" ++ hexStr 4 c.val
  else [c]

/-- `encode_basestring(text)`. -/
def Str.jsonQuote (s : Str) : Str := 0x22 :: s.flatMap CodePoint.jsonEscape ++ [0x22]

/-- `floatstr(x)`. -/
def Double.jsonText [Runtime] : Double → Str
  | .nan => str "NaN"
  | .posInf => str "Infinity"
  | .negInf => str "-Infinity"
  | x => Runtime.floatRepr x

namespace Json

section

variable [Runtime]

mutual

/-- `json.dumps(value, ensure_ascii=False)`. -/
def dumps : Json → Str
  | null => str "null"
  | bool true => str "true"
  | bool false => str "false"
  | int n => intStr n
  | float x => x.jsonText
  | text s => s.jsonQuote
  | array items => 0x5B :: Str.join (str ", ") (dumpsItems items) ++ [0x5D]
  | object entries => 0x7B :: Str.join (str ", ") (dumpsEntries entries) ++ [0x7D]

def dumpsItems : List Json → List Str
  | [] => []
  | item :: items => dumps item :: dumpsItems items

def dumpsEntries : List (Str × Json) → List Str
  | [] => []
  | (key, value) :: entries => (key.jsonQuote ++ str ": " ++ dumps value) :: dumpsEntries entries

end

end

end Json

/-! ### Scanning -/

/-- Why a scan stops: an error where so many characters are left, an integer of too many
digits, or too many containers in one another. -/
inductive ScanError where
  | decode (message : Str) (left : Nat)
  | digits (count : Nat)
  | recursion (message : Str)
deriving DecidableEq

/-- `raise JSONDecodeError(message, doc, pos)`, where `rest` is `doc[pos:]`. -/
def raiseDecode {α : Type} (message : String) (rest : Str) : Except ScanError α :=
  .error (.decode (str message) rest.length)

/-- `WHITESPACE`. -/
def CodePoint.isJsonSpace (c : CodePoint) : Bool := c = 0x20 || c = 0x09 || c = 0x0A || c = 0x0D

def skipSpace (text : Str) : Str := text.dropWhile CodePoint.isJsonSpace

/-- A digit of `[0-9a-fA-F]`. -/
def hexValue? (c : CodePoint) : Option Nat :=
  if 0x30 ≤ c.val ∧ c.val ≤ 0x39 then some (c.val - 0x30)
  else if 0x61 ≤ c.val ∧ c.val ≤ 0x66 then some (c.val - 0x57)
  else if 0x41 ≤ c.val ∧ c.val ≤ 0x46 then some (c.val - 0x37)
  else none

/-- The number that the first four characters write in hexadecimal. -/
def codeUnit? (text : Str) : Option Nat :=
  match text with
  | a :: b :: c :: d :: _ => do
      let a ← hexValue? a
      let b ← hexValue? b
      let c ← hexValue? c
      let d ← hexValue? d
      some (a * 4096 + b * 256 + c * 16 + d)
  | _ => none

/-- What a backslash and one character stand for. -/
def simpleEscape? (c : CodePoint) : Option CodePoint :=
  if c = 0x22 ∨ c = 0x5C ∨ c = 0x2F then some c
  else if c = 0x62 then some 0x08
  else if c = 0x66 then some 0x0C
  else if c = 0x6E then some 0x0A
  else if c = 0x72 then some 0x0D
  else if c = 0x74 then some 0x09
  else none

/-- The escape `\uXXXX` behind its `\u`. A high surrogate is joined with the low one that is
escaped behind it. The string does not end with the digits of an escape. -/
def scanUnicode (text : Str) : Except ScanError (CodePoint × Str) :=
  if text.length ≤ 4 then .error (.decode (str "Invalid \\uXXXX escape") (text.length + 1))
  else match codeUnit? text with
    | none => .error (.decode (str "Invalid \\uXXXX escape") (text.length + 1))
    | some unit =>
        let rest := text.drop 4
        if 0xD800 ≤ unit ∧ unit ≤ 0xDBFF ∧ str "\\u" <+: rest ∧ 6 < rest.length then
          match codeUnit? (rest.drop 2) with
          | none => .error (.decode (str "Invalid \\uXXXX escape") (rest.length - 1))
          | some low =>
              if 0xDC00 ≤ low ∧ low ≤ 0xDFFF then
                .ok (Fin.ofNat _ (0x10000 + (unit - 0xD800) * 1024 + (low - 0xDC00)), rest.drop 6)
              else .ok (Fin.ofNat _ unit, rest)
        else .ok (Fin.ofNat _ unit, rest)

/-- What follows the backslash of an escape. -/
def scanEscape (opened : Nat) : Str → Except ScanError (CodePoint × Str)
  | [] => .error (.decode (str "Unterminated string starting at") opened)
  | c :: rest =>
      if c = 0x75 then scanUnicode rest
      else match simpleEscape? c with
        | some d => .ok (d, rest)
        | none => .error (.decode (str "Invalid \\escape") (rest.length + 2))

/-- The characters of a string, behind its first quotation mark. -/
def scanChars (opened : Nat) : Nat → Str → Except ScanError (Str × Str)
  | 0, _ => .error (.decode (str "Unterminated string starting at") opened)
  | _ + 1, [] => .error (.decode (str "Unterminated string starting at") opened)
  | bound + 1, c :: rest =>
      if c = 0x22 then .ok ([], rest)
      else if c = 0x5C then do
        let (d, rest) ← scanEscape opened rest
        let (s, rest) ← scanChars opened bound rest
        .ok (d :: s, rest)
      else if c.val ≤ 0x1F then raiseDecode "Invalid control character at" (c :: rest)
      else do
        let (s, rest) ← scanChars opened bound rest
        .ok (c :: s, rest)

/-- `scanstring(text, end)` behind the first quotation mark. -/
def scanString (text : Str) : Except ScanError (Str × Str) := scanChars (text.length + 1) text.length text

def CodePoint.isAsciiDigit (c : CodePoint) : Bool := 0x30 ≤ c.val && c.val ≤ 0x39

def digitsValue (digits : Str) : Nat := digits.foldl (fun n c => n * 10 + (c.val - 0x30)) 0

/-- `-?(0|[1-9]\d*)`: the sign and the digits. -/
def integerPart (text : Str) : Str × Str :=
  let sign := text.take (if text.head? = some 0x2D then 1 else 0)
  let body := text.drop sign.length
  (sign, if body.head? = some 0x30 then body.take 1 else body.takeWhile CodePoint.isAsciiDigit)

/-- `(\.\d+)?`: the digits. -/
def fractionPart : Str → Str
  | [] => []
  | c :: rest => if c = 0x2E then rest.takeWhile CodePoint.isAsciiDigit else []

/-- `([eE][-+]?\d+)?`: the sign and the digits. -/
def exponentPart : Str → Str × Str
  | [] => ([], [])
  | c :: rest =>
      let sign := rest.take (if rest.head? = some 0x2D ∨ rest.head? = some 0x2B then 1 else 0)
      if c = 0x65 ∨ c = 0x45 then (sign, (rest.drop sign.length).takeWhile CodePoint.isAsciiDigit)
      else ([], [])

def signed (sign : Str) (n : Nat) : Int := if sign = [0x2D] then -n else n

section

variable [Runtime]

/-- `_match_number`: an integer, or a float as soon as there is a fraction or an exponent. -/
def scanNumber (text : Str) : Except ScanError (Json × Str) :=
  let (sign, whole) := integerPart text
  if whole = [] then raiseDecode "Expecting value" text
  else
    let rest := text.drop (sign.length + whole.length)
    let fraction := fractionPart rest
    let rest := if fraction = [] then rest else rest.drop (fraction.length + 1)
    let (exponentSign, exponent) := exponentPart rest
    let rest := if exponent = [] then rest else rest.drop (exponentSign.length + exponent.length + 1)
    if fraction = [] ∧ exponent = [] then
      if h : (signed sign (digitsValue whole)).natAbs < 10 ^ maxStrDigits then
        .ok (.int ⟨signed sign (digitsValue whole), h⟩, rest)
      else .error (.digits whole.length)
    else
      let scale := signed exponentSign (digitsValue exponent) - fraction.length
      .ok (.float (Runtime.round (signed sign (digitsValue (whole ++ fraction)) * (10 : ℚ) ^ scale)), rest)

/-- The items between commas, up to the closing bracket. -/
def scanItems {α : Type} (item : Str → Except ScanError (α × Str)) (closing : CodePoint) :
    Nat → Str → Except ScanError (List α × Str)
  | 0, text => do
      let (_, rest) ← item text
      raiseDecode "Expecting ',' delimiter" rest
  | bound + 1, text => do
      let (x, rest) ← item text
      match skipSpace rest with
      | [] => raiseDecode "Expecting ',' delimiter" []
      | c :: rest =>
          if c = closing then .ok ([x], rest)
          else if c = 0x2C then do
            let (xs, rest) ← scanItems item closing bound (skipSpace rest)
            .ok (x :: xs, rest)
          else raiseDecode "Expecting ',' delimiter" (c :: rest)

/-- The inside of an array or of an object, behind the opening bracket. -/
def scanContainer {α : Type} (item : Str → Except ScanError (α × Str)) (closing : CodePoint) (text : Str) :
    Except ScanError (List α × Str) :=
  let text := skipSpace text
  if text.head? = some closing then .ok ([], text.drop 1) else scanItems item closing text.length text

/-- A key, a colon and a value. -/
def scanEntry (scan : Str → Except ScanError (Json × Str)) (text : Str) :
    Except ScanError ((Str × Json) × Str) :=
  if text.head? = some 0x22 then do
    let (key, rest) ← scanString (text.drop 1)
    let rest := skipSpace rest
    if rest.head? = some 0x3A then do
      let (value, rest) ← scan (skipSpace (rest.drop 1))
      .ok ((key, value), rest)
    else raiseDecode "Expecting ':' delimiter" rest
  else raiseDecode "Expecting property name enclosed in double quotes" text

/-- A constant or a number. -/
def scanScalar (text : Str) : Except ScanError (Json × Str) :=
  if str "null" <+: text then .ok (.null, text.drop 4)
  else if str "true" <+: text then .ok (.bool true, text.drop 4)
  else if str "false" <+: text then .ok (.bool false, text.drop 5)
  else if str "NaN" <+: text then .ok (.float .nan, text.drop 3)
  else if str "Infinity" <+: text then .ok (.float .posInf, text.drop 8)
  else if str "-Infinity" <+: text then .ok (.float .negInf, text.drop 9)
  else scanNumber text

/-- `scan_once(text, idx)`, with so much recursion left. A key that repeats keeps its place
and takes the later value. -/
def scanOnce (limit : Nat) (text : Str) : Except ScanError (Json × Str) :=
  if text.head? = some 0x22 then do
    let (s, rest) ← scanString (text.drop 1)
    .ok (.text s, rest)
  else if text.head? = some 0x7B then
    match limit with
    | 0 => .error (.recursion
        (str "maximum recursion depth exceeded while decoding a JSON object from a unicode string"))
    | limit + 1 => do
        let (entries, rest) ← scanContainer (scanEntry (scanOnce limit)) 0x7D (text.drop 1)
        .ok (.object (Dict.ofItems entries).rows, rest)
  else if text.head? = some 0x5B then
    match limit with
    | 0 => .error (.recursion
        (str "maximum recursion depth exceeded while decoding a JSON array from a unicode string"))
    | limit + 1 => do
        let (items, rest) ← scanContainer (scanOnce limit) 0x5D (text.drop 1)
        .ok (.array items, rest)
  else scanScalar text

/-- What `json.loads` raises. -/
inductive JsonError where
  /-- `JSONDecodeError`, by its text. -/
  | decode (message : Str)
  /-- The `ValueError` of `int`, which is no `JSONDecodeError`. -/
  | value (message : Str)
  | recursion (message : Str)
deriving DecidableEq

/-- The text of a `JSONDecodeError`. -/
def decodeErrorText (message doc : Str) (pos : Nat) : Str :=
  let before := doc.take pos
  let lineno := before.count 0x0A + 1
  let colno := (before.rtakeWhile (· ≠ 0x0A)).length + 1
  message ++ str ": line " ++ natStr lineno ++ str " column " ++ natStr colno ++ str " (char " ++
    natStr pos ++ str ")"

/-- The exception that a stopped scan of the text raises. -/
def ScanError.raised (doc : Str) : ScanError → JsonError
  | .decode message left => .decode (decodeErrorText message doc (doc.length - left))
  | .digits count => .value (str "Exceeds the limit (4300 digits) for integer string conversion: value has " ++
      natStr count ++ str " digits; use sys.set_int_max_str_digits() to increase the limit")
  | .recursion message => .recursion message

/-- `json.loads(text)`. -/
def Json.loads (limit : Nat) (text : Str) : Except JsonError Json :=
  if text.head? = some 0xFEFF then
    .error (.decode (decodeErrorText (str "Unexpected UTF-8 BOM (decode using utf-8-sig)") text 0))
  else match scanOnce limit (skipSpace text) with
    | .error error => .error (error.raised text)
    | .ok (value, rest) =>
        let rest := skipSpace rest
        if rest = [] then .ok value
        else .error ((ScanError.decode (str "Extra data") rest.length).raised text)

end

end Python
