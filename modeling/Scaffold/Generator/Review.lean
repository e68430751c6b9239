import Scaffold.Generator.Param
import Scaffold.Pattern.Grammar
import Scaffold.Text.Case

/-!
The review of declared parameters. A parameter is meant to be a piece of data, such as a name, a flag
or a choice: a type that does not exist is a fault, and a name that sounds like a slot for code is a
doubt.
-/

namespace Scaffold

open Text

/-- What is wrong with the declaration of a parameter. -/
inductive ParamFault
  | unknownType (name type : String)
  | unknownFieldType (name field type : String)
  | malformedPattern (name pattern : String)
  deriving DecidableEq, Repr

/-- What is doubtful about the declaration of a parameter. -/
inductive ParamDoubt
  | codeSlot (name : String)
  | codeList (name : String)
  | longText (name length : String)
  deriving DecidableEq, Repr

/-- The types of parameters, in alphabetical order. -/
def paramTypes : List String :=
  ["array", "boolean", "boolean[]", "number", "number[]", "string", "string[]"]

def fieldTypes : List String := ["string", "number", "boolean"]

/-- The beginning of a type that lists choices. -/
def choiceMark : String := "enum:"

/-- A type of parameters: one with a name of its own, or a list of choices. -/
def isParamType (type : String) : Bool :=
  paramTypes.contains type ||
    (match afterPrefix? choiceMark.toList type.toList with
      | some rest => !rest.isEmpty
      | none => false)

/-- The words that name slots for code. -/
def codeWords : List String :=
  ["body", "content", "code", "implementation", "logic", "function", "method", "callback", "handler",
   "template", "jsx", "html", "render", "component"]

/-- The words that name lists whose items tend to be code. -/
def codeListWords : List String :=
  ["props", "properties", "params", "parameters", "arguments", "args", "fields", "members",
   "attributes", "signals", "methods", "functions"]

def dataEndings : List String := ["Names", "Types", "Values", "Defaults"]

def endsInWord (words : List String) (name : List Char) : Bool :=
  words.any fun word => endsWith word.toList name

/-- A name that sounds like a slot for code, in whatever case. -/
def isCodeName (name : String) : Bool :=
  endsInWord codeWords (lower name.toList)

/-- A name of a list that sounds like a list of code, in whatever case. -/
def isCodeListName (name : String) : Bool :=
  endsInWord codeListWords (lower name.toList) && !endsInWord dataEndings name.toList

/-- The largest length of a text that is no doubt. -/
def usualLength : Int := 200

/-- A largest length is beyond the usual one. Only numbers can be compared. -/
def isLong (length : Value) : Except Error Bool :=
  match length with
  | .scalar (.float number) => .ok (number.compareInt? usualLength == some .gt)
  | .scalar other =>
    match other.asInt? with
    | some number => .ok (decide (usualLength < number))
    | none => incomparable length
  | _ => incomparable length
where
  /-- The failure to compare a value with a number. -/
  incomparable (value : Value) : Except Error Bool :=
    .error (.wrongKind
      ("'>' not supported between instances of '" ++ value.kindName ++ "' and 'int'"))

namespace ParamFault

/-- The wording of a fault. -/
def message : ParamFault → String
  | unknownType name type =>
    s!"Parameter '{name}': type '{type}' not allowed (valid: " ++ ", ".intercalate paramTypes ++
      ", enum:a|b)"
  | unknownFieldType name field type =>
    s!"Parameter '{name}': field '{field}' has invalid type '{type}'"
  | malformedPattern name pattern =>
    s!"Parameter '{name}': invalid regex pattern {Error.quote pattern}"

end ParamFault

namespace ParamDoubt

/-- The wording of a doubt. -/
def message : ParamDoubt → String
  | codeSlot name =>
    s!"Parameter '{name}' might be a code abstraction; prefer boolean flags or enums"
  | codeList name =>
    s!"Parameter '{name}' (string[]) likely contains code syntax; split it into {name}Names" ++
      s!" / {name}Types"
  | longText name length => s!"Parameter '{name}' maxLength={length} is suspiciously large"

end ParamDoubt

/-- The result of a review. -/
structure Review where
  faults : List ParamFault
  doubts : List ParamDoubt
  deriving DecidableEq, Repr

namespace Review

/-- A review without faults and doubts. -/
def empty : Review := ⟨[], []⟩

/-- Two reviews as one. -/
def append (first second : Review) : Review :=
  ⟨first.faults ++ second.faults, first.doubts ++ second.doubts⟩

/-- A review passes when it finds no fault. -/
def passed (review : Review) : Bool :=
  review.faults.isEmpty

/-- Lines under a title with their number, unless there are none. -/
def listing (title : String) (lines : List String) : List String :=
  if lines.isEmpty then []
  else (title ++ " (" ++ toString lines.length ++ "):") :: lines.map fun line => "  " ++ line

/-- The result of a review in words. -/
def summary (review : Review) : String :=
  let lines := listing "ERRORS" (review.faults.map ParamFault.message) ++
    listing "WARNINGS" (review.doubts.map ParamDoubt.message)
  if lines.isEmpty then "All parameters valid." else "\n".intercalate lines

/-- The faults of a parameter's pattern. A pattern has to be a text, whose numbers and flags fit. -/
def patternFaults (name : String) (pattern : Value) : Except Error (List ParamFault) :=
  if !pattern.truthy then .ok []
  else
    match pattern with
    | .scalar (.text text) =>
      match Pattern.Grammar.judge text.toList with
      | .ok () => .ok []
      | .error .broken => .ok [.malformedPattern name text]
      | .error (.unfit detail) => .error (.badValue detail)
    | _ => .error (.wrongKind "first argument must be string or compiled pattern")

/-- The review of one parameter. Its name has to be a text. -/
def ofParam (name : Scalar) (param : Param) : Except Error Review := do
  let title := String.ofList name.shown
  let typeFaults := if isParamType param.type then [] else [.unknownType title param.type]
  let fieldFaults := param.fields.filterMap fun field =>
    if fieldTypes.contains field.2 then none
    else some (ParamFault.unknownFieldType title (String.ofList field.1.shown) field.2)
  let patternFaults ← patternFaults title param.pattern
  match name with
  | .text text =>
    let slots := if isCodeName text then [ParamDoubt.codeSlot text] else []
    let lists :=
      if param.type = "string[]" && isCodeListName text then [ParamDoubt.codeList text] else []
    let long ← if param.maxLength.isNull then pure false else isLong param.maxLength
    let lengths := if long then [ParamDoubt.longText text param.maxLength.string] else []
    return ⟨typeFaults ++ fieldFaults ++ patternFaults, slots ++ lists ++ lengths⟩
  | other => .error (.noOperation s!"'{other.kindName}' object has no attribute 'lower'")

/-- The review of declared parameters. -/
def ofParams : Keyed Param → Except Error Review
  | [] => .ok empty
  | (name, param) :: rest => do
    let first ← ofParam name param
    return first.append (← ofParams rest)

end Review

end Scaffold
