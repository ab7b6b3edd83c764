import CnPropertyAgent.Providers.Parsing
import CnPropertyAgent.Python.Json

/-!
Scalar converters for Lianjia-style source values.

A value that cannot be interpreted raises a field parse error; a value that the
source itself marks as unknown is absent. The regular expressions are scanners: a
text is cut into its numerals and the characters between them, and a date is read
by its pattern from the left.
-/

namespace CnPropertyAgent.Lianjia

open Python

/-- The provider name recorded on every record. -/
def lianjiaSource : Str := str "lianjia"

theorem lianjiaSource_valid : lianjiaSource.Encodable ∧ lianjiaSource ≠ [] :=
  ⟨encodable_str _, by decide⟩

/-- A 万 is ten thousand CNY. -/
def cnyPerWan : Double := 10000

/-- What the source writes for values it does not publish. -/
def unknownMarkers : List Str :=
  [[], str "-", str "--", str "—", str "暂无数据", str "暂无", str "未知", str "无", str "null",
    str "none", str "nan", str "n/a"]

def areaUnits : List Str :=
  [str "平方米", str "平方公尺", str "平米", str "平方", str "m2", str "㎡", str "平"]

def wanUnits : List Str := [str "万元", str "万"]

def unitPriceUnits : List Str :=
  [str "元/平方米", str "元/平米", str "元/m2", str "元/㎡", str "元每平米", str "元", str "/"] ++ areaUnits

def dayUnits : List Str := [str "天", str "日", str "days", str "day"]

def yearUnits : List Str := [str "年建成", str "年建", str "年代", str "年份", str "年"]

/-- `raise FieldParseError(message, field=field)`. -/
def raiseFieldParseError {α : Type} (message : Str) (field : Option Str) : Except Failure α :=
  .error (.fieldParse message field .malformedField)

variable [Runtime]

/-! ### Cells and keys -/

/-- The text of a scalar cell; a whole float is written as an integer. -/
def cellText : Json → Str
  | .float (.finite q) => if q.den = 1 then intStr q.num else Json.toStr (.float (.finite q))
  | value => value.toStr

/-- The text of a cell in comparable form. -/
def normalizeText (text : Str) : Str :=
  ((Runtime.nfkc text).strip.replace (str ",") []).replace [0x3000] (str " ")

/-- Normalizes one raw cell, or is absent when unknown. A container that is nested too deep has no text. -/
def normalizeCell : Json → Except Failure (Option Str)
  | .null => .ok none
  | .bool b => raiseFieldParseError (str "expected a scalar value, got " ++ Json.repr (.bool b)) none
  | value =>
      if Runtime.reprLimit < value.depth then .error (.builtin .recursionError)
      else
        let text := normalizeText (cellText value)
        .ok (if Runtime.casefold text ∈ unknownMarkers then none else some text)

/-- A text is normalized as it is. -/
theorem normalizeCell_text (s : Str) : normalizeCell (.text s) =
    .ok (if Runtime.casefold (normalizeText s) ∈ unknownMarkers then none else some (normalizeText s)) := by
  simp only [normalizeCell, Json.depth, Nat.not_lt_zero, if_false]
  rfl

def normalizeKey (key : Str) : Str := Runtime.casefold (Runtime.nfkc key).joinSplit

/-! ### Numbers -/

/-- `\d`. -/
def isDigit (c : CodePoint) : Bool := (Runtime.decimal? c).isSome

/-- The number that digits spell. -/
def digitsValue (digits : Str) : Nat :=
  digits.foldl (fun n c => 10 * n + ((Runtime.decimal? c).map Fin.val).getD 0) 0

/-- `[+-]?`: the sign a text starts with. -/
def signAt : Str → Str
  | c :: _ => if c ∈ str "+-" then [c] else []
  | [] => []

/-- `(?:\.\d+)?`: the fraction a text starts with. -/
def fractionAt : Str → Str
  | c :: rest =>
      if c ∈ str "." ∧ rest.takeWhile isDigit ≠ [] then c :: rest.takeWhile isDigit else []
  | [] => []

/-- `[+-]?\d+(?:\.\d+)?`: the numeral a text starts with. -/
def numeralAt (text : Str) : Option Str :=
  let sign := signAt text
  let digits := (text.drop sign.length).takeWhile isDigit
  if digits = [] then none
  else some (sign ++ digits ++ fractionAt (text.drop (sign ++ digits).length))

/-- `float(numeral)`. -/
def floatOfNumeral (numeral : Str) : Double :=
  let sign := signAt numeral
  let whole := (numeral.drop sign.length).takeWhile isDigit
  let fraction := (numeral.drop (sign ++ whole).length).drop 1
  let magnitude : ℚ := digitsValue whole + digitsValue fraction / 10 ^ fraction.length
  Runtime.round (if sign = str "-" then -magnitude else magnitude)

/-- A numeral, or a character outside every numeral. -/
inductive Token where
  | numeral (text : Str)
  | other (c : CodePoint)
deriving DecidableEq

/-- The tokens from the left; `skip` counts the characters of the last numeral that
are still to be passed over. -/
def tokensFrom : Nat → Str → List Token
  | _, [] => []
  | skip + 1, _ :: rest => tokensFrom skip rest
  | 0, c :: rest =>
      match numeralAt (c :: rest) with
      | some numeral => .numeral numeral :: tokensFrom (numeral.length - 1) rest
      | none => .other c :: tokensFrom 0 rest

/-- `_NUMBER.findall(text)`. -/
def findNumerals (text : Str) : List Str :=
  (tokensFrom 0 text).filterMap fun
    | .numeral numeral => some numeral
    | .other _ => none

/-- `_NUMBER.sub(" ", text)`. -/
def blankNumerals (text : Str) : Str :=
  (tokensFrom 0 text).flatMap fun
    | .numeral _ => str " "
    | .other c => [c]

/-- A text without the unit tokens. -/
def withoutUnits (units : List Str) (text : Str) : Str :=
  units.foldl (fun residual unit => residual.replace (Runtime.casefold unit) (str " "))
    (Runtime.casefold text)

def parseNumber (text : Str) (units : List Str) (field : Option Str) : Except Failure Double :=
  let residual := withoutUnits units text
  match findNumerals residual with
  | [numeral] =>
      let leftover := (blankNumerals residual).strip
      if leftover ≠ [] then
        raiseFieldParseError (str "unexpected text " ++ leftover.pyRepr ++
          str " around the number in " ++ text.pyRepr) field
      else .ok (floatOfNumeral numeral)
  | numerals =>
      raiseFieldParseError (str "expected exactly one number in " ++ text.pyRepr ++ str ", found " ++
        natStr numerals.length) field

def parseInt (text : Str) (units : List Str) (field : Option Str) : Except Failure Int := do
  match ← parseNumber text units field with
  | .finite q =>
      if q.den = 1 then return q.num
      else raiseFieldParseError (str "expected a whole number, got " ++ text.pyRepr) field
  | _ => raiseFieldParseError (str "expected a whole number, got " ++ text.pyRepr) field

/-- `"120.5平米"` and `"120.5㎡"` to square metres. -/
def parseAreaSqm (text : Str) (field : Option Str) : Except Failure Double :=
  parseNumber text areaUnits field

/-- A field whose unit is 万元 to CNY. -/
def parseWanToCny (text : Str) (field : Option Str) : Except Failure Double :=
  (parseNumber text wanUnits field).map fun number => number.mul cnyPerWan

/-- `"94606元/平米"` to CNY per square metre. -/
def parseUnitPriceCnySqm (text : Str) (field : Option Str) : Except Failure Double :=
  parseNumber text unitPriceUnits field

def parseDays (text : Str) (field : Option Str) : Except Failure Int := parseInt text dayUnits field

def parseYear (text : Str) (field : Option Str) : Except Failure Int := parseInt text yearUnits field

/-! ### Dates -/

/-- At most `count` digits at the start of a text. -/
def digitsAt (count : Nat) (text : Str) : Str := (text.take count).takeWhile isDigit

/-- `$`: the end, or the line feed before it. -/
def atEnd (text : Str) : Bool := text = [] || text = [0x0A]

/-- One character out of a class. -/
def skipOne (characters : Str) : Str → Option Str
  | c :: rest => if c ∈ characters then some rest else none
  | [] => none

/-- `^\d{4}[yearEnd]\d{1,2}[monthEnd]\d{1,2}[dayEnd]?$` as year, month and day. -/
def matchDate (yearEnd monthEnd dayEnd text : Str) : Option (Nat × Nat × Nat) := do
  let year := digitsAt 4 text
  guard (year.length = 4)
  let rest ← skipOne yearEnd (text.drop year.length)
  let month := digitsAt 2 rest
  guard (month ≠ [])
  let rest ← skipOne monthEnd (rest.drop month.length)
  let day := digitsAt 2 rest
  guard (day ≠ [])
  let rest := rest.drop day.length
  guard (atEnd rest || (skipOne dayEnd rest).any atEnd)
  return (digitsValue year, digitsValue month, digitsValue day)

/-- The full calendar dates the source publishes. -/
def parseDealDate (text : Str) (field : Option Str) : Except Failure Date :=
  match (matchDate (str "-/.") (str "-/.") [] text).or (matchDate (str "年") (str "月") (str "日") text) with
  | some (year, month, day) =>
      match Date.ofYmd year month day with
      | .ok date => .ok date
      | .error error => raiseFieldParseError (text.pyRepr ++ str " is not a calendar date: " ++
          error.message) field
  | none => raiseFieldParseError (str "unrecognized date format " ++ text.pyRepr) field

/-- A timestamp that states its own UTC offset. -/
def parseAwareDatetime (text : Str) (field : Option Str) : Except Failure AwareDatetime :=
  match Runtime.fromisoformat text with
  | none => raiseFieldParseError (str "unrecognized timestamp " ++ text.pyRepr) field
  | some .naive => raiseFieldParseError (str "timestamp " ++ text.pyRepr ++ str " has no UTC offset") field
  | some (.aware t) => .ok t

/-! ### Words -/

def floorBuckets : List (List Str × FloorBucket) :=
  [([str "低楼层", str "低区"], .low), ([str "中楼层", str "中区"], .mid), ([str "高楼层", str "高区"], .high)]

def listingStatuses : List (List Str × ListingStatus) :=
  [([str "在售", str "出售中", str "挂牌中"], .active),
    ([str "已成交", str "成交", str "已售", str "售出"], .sold),
    ([str "已下架", str "下架", str "已撤牌", str "撤牌", str "已撤单"], .withdrawn),
    ([str "已停售", str "停售", str "暂不可售", str "暂停出售"], .offMarket)]

/-- The one value whose wording a text contains, if it is only one. -/
def onlyMatch {α : Type} (table : List (List Str × α)) (unknown : α) (text : Str) : α :=
  match table.filter fun entry => entry.1.any text.contains with
  | [entry] => entry.2
  | _ => unknown

/-- Floor text to a bucket; a text that names none or several is unknown. -/
def parseFloorBucket (text : Str) : FloorBucket := onlyMatch floorBuckets .unknown text

/-- Status wording to a status; a text that names none or several is unknown. -/
def parseListingStatus (text : Str) : ListingStatus := onlyMatch listingStatuses .unknown text

/-- `\d+室\d+厅|\d+房\d+厅|\d+室` at the start of a text. -/
def layoutAt (text : Str) : Option Str :=
  let rooms := text.takeWhile isDigit
  if rooms = [] then none
  else match text.drop rooms.length with
  | [] => none
  | c :: rest =>
      let halls := rest.takeWhile isDigit
      let withHalls := halls ≠ [] ∧ (str "厅") <+: rest.drop halls.length
      if c ∈ str "室房" ∧ withHalls then some (rooms ++ [c] ++ halls ++ str "厅")
      else if c ∈ str "室" then some (rooms ++ [c])
      else none

/-- The first layout in a title. -/
def extractLayout : Str → Option Str
  | [] => none
  | c :: rest => (layoutAt (c :: rest)).or (extractLayout rest)

/-! ### Errors -/

/-- A parse error of this field, with a text that can be reported. -/
def IsFieldError (field : Option Str) (e : Failure) : Prop :=
  ∃ message, e = .fieldParse message field .malformedField ∧ message.Encodable ∧ message ≠ []

section

variable {text : Str} {units : List Str} {field : Option Str} {e : Failure}

omit [Runtime] in
theorem isFieldError_of_raise {α : Type} {message : Str} (plain : message.Encodable)
    (nonempty : message ≠ []) (h : (raiseFieldParseError message field : Except Failure α) = .error e) :
    IsFieldError field e := by
  cases h
  exact ⟨message, rfl, plain, nonempty⟩

theorem parseNumber_error (h : parseNumber text units field = .error e) : IsFieldError field e := by
  unfold parseNumber at h
  dsimp only at h
  split at h
  · split at h
    · exact isFieldError_of_raise (by simp) (by simp [str]) h
    · cases h
  · exact isFieldError_of_raise (by simp) (by simp [str]) h

/-- A text is read as the one numeral it holds among units and spaces. -/
theorem parseNumber_ok {x : Double} (h : parseNumber text units field = .ok x) :
    ∃ numeral, findNumerals (withoutUnits units text) = [numeral] ∧ floatOfNumeral numeral = x := by
  unfold parseNumber at h
  dsimp only at h
  split at h
  · rename_i numeral found
    split at h
    · cases h
    · exact ⟨numeral, found, Except.ok.inj h⟩
  · cases h

theorem parseInt_error (h : parseInt text units field = .error e) : IsFieldError field e := by
  unfold parseInt at h
  cases number : parseNumber text units field with
  | error e' =>
      rw [number] at h
      cases h
      exact parseNumber_error number
  | ok x =>
      rw [number] at h
      simp only [bind, Except.bind] at h
      split at h
      · split at h
        · cases h
        · exact isFieldError_of_raise (by simp) (by simp [str]) h
      · exact isFieldError_of_raise (by simp) (by simp [str]) h

theorem parseWanToCny_error (h : parseWanToCny text field = .error e) : IsFieldError field e := by
  unfold parseWanToCny at h
  cases number : parseNumber text wanUnits field with
  | error e' =>
      rw [number] at h
      cases h
      exact parseNumber_error number
  | ok x => rw [number] at h; cases h

omit [Runtime] in
theorem encodable_ofYmd_error {year month day : Nat} {error : Exc}
    (h : Date.ofYmd year month day = .error error) : error.message.Encodable := by
  unfold Date.ofYmd at h
  split at h
  · cases h; simp [Exc.message]
  · split at h
    · cases h; simp [Exc.message]
    · split at h
      · cases h; simp [Exc.message]
      · split at h <;> cases h
        simp [Exc.message]

theorem parseDealDate_error (h : parseDealDate text field = .error e) : IsFieldError field e := by
  unfold parseDealDate at h
  split at h
  · split at h
    · cases h
    · rename_i error refused
      exact isFieldError_of_raise (by simp [encodable_ofYmd_error refused]) (by simp [str]) h
  · exact isFieldError_of_raise (by simp) (by simp [str]) h

theorem parseAwareDatetime_error (h : parseAwareDatetime text field = .error e) :
    IsFieldError field e := by
  unfold parseAwareDatetime at h
  split at h
  · exact isFieldError_of_raise (by simp) (by simp [str]) h
  · exact isFieldError_of_raise (by simp) (by simp [str]) h
  · cases h

theorem normalizeCell_error {value : Json} (h : normalizeCell value = .error e) :
    (IsFieldError none e ∧ ∃ b, value = .bool b) ∨
      (e = .builtin .recursionError ∧ Runtime.reprLimit < value.depth) := by
  unfold normalizeCell at h
  split at h
  · cases h
  · exact Or.inl ⟨isFieldError_of_raise (by simp [Json.encodable_repr]) (by simp [str]) h, _, rfl⟩
  · split_ifs at h with deep
    cases h
    exact Or.inr ⟨rfl, deep⟩

/-- What is normalized is not too deep. -/
theorem depth_le_of_normalizeCell {value : Json} {cell : Option Str} (h : normalizeCell value = .ok cell) :
    value.depth ≤ Runtime.reprLimit := by
  unfold normalizeCell at h
  split at h
  · exact Nat.zero_le _
  · cases h
  · split_ifs at h with deep
    exact Nat.le_of_not_lt deep

end

end CnPropertyAgent.Lianjia
