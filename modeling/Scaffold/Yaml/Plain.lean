import Scaffold.Yaml.Cursor

/-!
What plain scalars of YAML mean: truth values, numbers in several bases, dates and null by the way
they are written, and texts otherwise. Numbers may have underscores between their digits, and groups
of base sixty behind colons.
-/

namespace Scaffold.Yaml

/-- What a scalar is by the way it is written. -/
inductive ScalarKind
  | null
  | bool
  | int
  | float
  | date
  | text
  /-- The sign that takes the entries of another mapping in. -/
  | merge
  /-- The sign that stands for a value; it has no value of its own. -/
  | default
  deriving DecidableEq, Repr

def trueWords : List String :=
  ["yes", "Yes", "YES", "true", "True", "TRUE", "on", "On", "ON"]

def falseWords : List String :=
  ["no", "No", "NO", "false", "False", "FALSE", "off", "Off", "OFF"]

/-- The words for nothing. -/
def nullWords : List String := ["", "~", "null", "Null", "NULL"]

/-- A text without a sign before it, and whether the sign is a minus. -/
def unsigned : List Char → Bool × List Char
  | '-' :: rest => (true, rest)
  | '+' :: rest => (false, rest)
  | rest => (false, rest)

/-- A digit or an underscore. -/
def isDigitOr (digits : Char → Bool) (c : Char) : Bool :=
  digits c || c == '_'

/-- A nonempty run of digits and underscores. -/
def isRun (digits : Char → Bool) (text : List Char) : Bool :=
  !text.isEmpty && text.all (isDigitOr digits)

/-- A digit in base sixteen. -/
def isHexDigit (c : Char) : Bool :=
  (Json.hexValue? c).isSome

/-- A group in base sixty: one digit, or two of which the first is below six. -/
def isSixtieth : List Char → Bool
  | [c] => c.isDigit
  | [c, d] => '0' ≤ c && c ≤ '5' && d.isDigit
  | _ => false

/-- The parts between colons, if there are several and all but the first are groups in base sixty. -/
def sixties? (text : List Char) : Option (List (List Char)) :=
  match Text.splitOn ':' text with
  | first :: second :: rest =>
    if (second :: rest).all isSixtieth then some (first :: second :: rest) else none
  | _ => none

/-- A run of digits and underscores that begins with a digit of a class. -/
def beginsWith (first : Char → Bool) (text : List Char) : Bool :=
  text.head?.any first && text.all (isDigitOr Char.isDigit)

def isPositiveDigit (c : Char) : Bool :=
  c.isDigit && c != '0'

/-- A text writes an integer, without its sign. -/
def isIntBody (text : List Char) : Bool :=
  match text with
  | ['0'] => true
  | '0' :: 'b' :: rest => isRun (fun c => c == '0' || c == '1') rest
  | '0' :: 'x' :: rest => isRun isHexDigit rest
  | '0' :: rest => isRun (fun c => '0' ≤ c && c ≤ '7') rest
  | _ =>
    match sixties? text with
    | some (first :: _) => beginsWith isPositiveDigit first
    | _ => beginsWith isPositiveDigit text

/-- An exponent, which always has a sign, or nothing. -/
def isExponent : List Char → Bool
  | [] => true
  | e :: sign :: rest =>
    (e == 'e' || e == 'E') && (sign == '-' || sign == '+') && !rest.isEmpty && rest.all Char.isDigit
  | _ => false

/-- A text after its decimal point: places, and an exponent where one may stand. -/
def isAfterPoint (text : List Char) : Bool :=
  isExponent (text.dropWhile (isDigitOr Char.isDigit))

/-- A text writes a decimal, without its sign. -/
def isFloatBody (signed : Bool) (text : List Char) : Bool :=
  let whole := text.takeWhile (· != '.')
  match text.dropWhile (· != '.') with
  | [] => false
  | _ :: places =>
    if whole.isEmpty then
      [".inf".toList, ".Inf".toList, ".INF".toList].contains text ||
        (!signed && ([".nan".toList, ".NaN".toList, ".NAN".toList].contains text ||
          (places.head?.any Char.isDigit && isAfterPoint places)))
    else
      match sixties? whole with
      | some (first :: _) => beginsWith Char.isDigit first && places.all (isDigitOr Char.isDigit)
      | _ => beginsWith Char.isDigit whole && isAfterPoint places

/-- The parts of a date: a year of four digits, a month and a day of two. -/
def dateParts? (text : List Char) : Option (Nat × Nat × Nat) :=
  match Text.splitOn '-' text with
  | [year, month, day] =>
    if year.length == 4 && month.length == 2 && day.length == 2 &&
        (year ++ month ++ day).all Char.isDigit then
      some (Json.digitsValue year, Json.digitsValue month, Json.digitsValue day)
    else none
  | _ => none

/-- What a plain scalar is. -/
def kindOf (text : List Char) : ScalarKind :=
  let word := String.ofList text
  let signed := text.head?.any fun c => c == '-' || c == '+'
  if nullWords.contains word then .null
  else if trueWords.contains word || falseWords.contains word then .bool
  else if isIntBody (unsigned text).2 then .int
  else if isFloatBody signed (unsigned text).2 then .float
  else if (dateParts? text).isSome then .date
  else if word = "<<" then .merge
  else if word = "=" then .default
  else .text

/-- The number that digits of a base write. There has to be a digit. -/
def digitsIn (base : Nat) (digits : List Char) : Result Nat :=
  if digits.isEmpty then .error (.badValue "no digits")
  else if base == 10 && Json.digitLimit < digits.length then .error (.badValue "too many digits")
  else .ok (digits.foldl (fun value c => value * base + (Json.hexValue? c).getD 0) 0)

/-- The number that a written integer is, without its sign and underscores. -/
def intBody (text : List Char) : Result Nat :=
  match text with
  | ['0'] => .ok 0
  | '0' :: 'b' :: rest => digitsIn 2 rest
  | '0' :: 'x' :: rest => digitsIn 16 rest
  | '0' :: rest => digitsIn 8 rest
  | _ => do
    let parts ← (Text.splitOn ':' text).mapM (digitsIn 10)
    return parts.foldl (fun value part => value * 60 + part) 0

/-- The integer that a plain scalar writes. -/
def intOf (text : List Char) : Result Value := do
  let (negative, body) := unsigned (text.filter (· != '_'))
  let size ← intBody body
  return .int (if negative then -(size : Int) else size)

/-- The decimal that digits around a point write, with an exponent. -/
def decimalOf (text : List Char) : Binary64 :=
  let whole := text.takeWhile Char.isDigit
  let rest := text.dropWhile Char.isDigit
  let places := (rest.drop 1).takeWhile Char.isDigit
  let exponent := (rest.drop 1).dropWhile Char.isDigit
  let (negative, digits) := unsigned (exponent.drop 1)
  let size : Int := Json.digitsValue digits
  let power : Int := if negative then -size else size
  .ofDecimal false (Json.digitsValue (whole ++ places)) (power - places.length)

/-- The sum of groups in base sixty, the last one first. -/
def sumOfSixties (scale : Nat) (sum : Binary64) : List (List Char) → Binary64
  | [] => sum
  | part :: rest => sumOfSixties (scale * 60) (sum.add ((decimalOf part).timesNat scale)) rest

/-- The decimal that a plain scalar writes. -/
def floatOf (text : List Char) : Value :=
  let (negative, body) := unsigned (text.filter (· != '_'))
  let size : Binary64 :=
    match body with
    | '.' :: 'i' :: _ | '.' :: 'I' :: _ => .infinite false
    | '.' :: 'n' :: _ | '.' :: 'N' :: _ => .notANumber
    | _ =>
      match Text.splitOn ':' body with
      | [only] => decimalOf only
      | parts => sumOfSixties 1 (.ofInt 0) parts.reverse
  .scalar (.float (if negative then size.negate else size))

def daysIn (year month : Nat) : Nat :=
  if month == 2 then
    if year % 4 == 0 && (year % 100 != 0 || year % 400 == 0) then 29 else 28
  else if [4, 6, 9, 11].contains month then 30
  else 31

/-- The date that a plain scalar writes, which has to exist. -/
def dateOf (text : List Char) : Result Value :=
  match dateParts? text with
  | none => .error .malformed
  | some (year, month, day) =>
    if 1 ≤ year && 1 ≤ month && month ≤ 12 && 1 ≤ day && day ≤ daysIn year month then
      .ok (.scalar (.date year month day))
    else .error (.badValue "no such day")

def valueAs (kind : ScalarKind) (text : List Char) : Result Value :=
  match kind with
  | .null => .ok .null
  | .bool =>
    let word := String.ofList text
    if trueWords.contains word then .ok (.bool true)
    else if falseWords.contains word then .ok (.bool false)
    else .error .malformed
  | .int => intOf text
  | .float => .ok (floatOf text)
  | .date => dateOf text
  | .text => .ok (.text (String.ofList text))
  | .merge => .ok (.text (String.ofList text))
  | .default => .error .malformed

end Scaffold.Yaml
