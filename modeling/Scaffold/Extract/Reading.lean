import Scaffold.Extract.Matcher
import Scaffold.Json.Reader
import Scaffold.Text.Case

/-!
Reading values off a text with a matcher.
-/

namespace Scaffold.Extract

open Text

/-- The number that decimal digits of any script write. -/
def decimalValue (digits : List Char) : Nat :=
  digits.foldl (fun value digit => value * 10 + (digitValue? digit).getD 0) 0

/-- The number that a captured text writes: an integer, or a decimal when it has a point or more
digits than integers may have. -/
def numberValue (text : List Char) : Value :=
  let (negative, unsigned) :=
    match text with
    | '-' :: rest => (true, rest)
    | rest => (false, rest)
  let whole := unsigned.takeWhile isDecimal
  match unsigned.dropWhile isDecimal with
  | [] =>
    if whole.isEmpty then .text (String.ofList text)
    else
      let size := decimalValue whole
      -- An integer of more digits is refused, so it is read as a decimal.
      if Json.digitLimit < whole.length then .scalar (.float (.ofDecimal negative size 0))
      else .int (if negative then -(size : Int) else size)
  | point :: places =>
    if point = '.' && !whole.isEmpty && !places.isEmpty && places.all isDecimal then
      .scalar (.float (.ofDecimal negative (decimalValue (whole ++ places)) (-(places.length : Int))))
    else .text (String.ofList text)

/-- The truth value that a captured word writes. -/
def booleanValue (text : List Char) : Value :=
  .bool (lower text == "true".toList)

/-- The text captured under a name, without blanks around it. -/
def captured (found : Pattern.Match) (name : String) : Except Error (List Char) :=
  match found.capture? name with
  | some text => .ok (trim text)
  | none => .error .missingCapture

/-- The value of one field of a loop's item. -/
def fieldValue (numeric boolean : List String) (field : String) (text : List Char) : Value :=
  if numeric.contains field then numberValue text
  else if boolean.contains field then booleanValue text
  else .text (String.ofList text)

/-- The item that one repetition of a loop's body writes. -/
def itemOf (fields numeric boolean : List String) (found : Pattern.Match) :
    Except Error Value := do
  let entries ← fields.mapM fun field => do
    let text ← captured found field
    return (Scalar.text field, fieldValue numeric boolean field text)
  return .map (Keyed.ofEntries entries)

/-- An item of a scalar loop: the trimmed line without the separators at its end, unless nothing is
left or the line holds a brace. -/
def lineItem? (line : List Char) : Option Value :=
  let line := trim line
  if line.isEmpty || line.contains '{' || line.contains '}' then none
  else
    let item := trimRight (dropRightWhile (fun c => c == ';' || c == ',') line)
    if item.isEmpty then none else some (.text (String.ofList item))

/-- The value that a matcher reads off a text. A parameter that is not found has none, and a loop that
is not found has no items. -/
def Matcher.extract (matcher : Matcher) (source : List Char) : Except Error (Option Value) :=
  match matcher with
  | .param _ pattern kind =>
    match pattern.search? source with
    | none => .ok none
    | some found => do
      let text ← captured found valueName
      match kind with
      | .number => return some (numberValue text)
      | .boolean => return some (booleanValue text)
      | _ => return some (.text (String.ofList text))
  | .loop _ pattern fields numeric boolean => do
    let items ← (pattern.findMatches source).mapM (itemOf fields numeric boolean)
    return some (.list items)
  | .scalarLoop _ pattern =>
    match pattern.search? source with
    | none => .ok (some (.list []))
    | some found =>
      match found.capture? "body" with
      | none => .error .missingCapture
      | some inside => .ok (some (.list ((lines inside).filterMap lineItem?)))

end Scaffold.Extract
