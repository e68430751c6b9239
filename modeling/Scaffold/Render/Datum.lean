import Scaffold.Render.Check
import Scaffold.Text.Case
import Scaffold.Value.Parts

/-!
What expressions of a template stand for: values, and what is no value. Something missing is empty
where it is shown or gone through, and a failure only where a member of it is taken.
-/

namespace Scaffold.Render

/-- What an expression stands for. -/
inductive Datum
  | value (value : Value)
  /-- Nothing, and the failure that taking a member of it is. -/
  | missing (cause : Error)
  /-- The place in a loop: how many items came before, and how many there are. -/
  | position (index count : Nat)
  | operation (owner : Value) (name : String)
  /-- A thing of the template language, by its text and the name of its kind. -/
  | builtin (shown kind : String)
  deriving Inhabited

/-- A value as messages about its members call it. -/
def ownerName (value : Value) : String :=
  if value.isNull then "None" else value.typeName ++ " object"

/-- The operations that values of a kind have. They hide the keys of a map. -/
def operationNames : Value → List String
  | .map _ =>
    ["clear", "copy", "fromkeys", "get", "items", "keys", "pop", "popitem", "setdefault", "update",
     "values"]
  | .list _ =>
    ["append", "clear", "copy", "count", "extend", "index", "insert", "pop", "remove", "reverse",
     "sort"]
  | .scalar (.text _) =>
    ["capitalize", "casefold", "center", "count", "encode", "endswith", "expandtabs", "find",
     "format", "format_map", "index", "isalnum", "isalpha", "isascii", "isdecimal", "isdigit",
     "isidentifier", "islower", "isnumeric", "isprintable", "isspace", "istitle", "isupper", "join",
     "ljust", "lower", "lstrip", "maketrans", "partition", "removeprefix", "removesuffix", "replace",
     "rfind", "rindex", "rjust", "rpartition", "rsplit", "rstrip", "split", "splitlines",
     "startswith", "strip", "swapcase", "title", "translate", "upper", "zfill"]
  | .scalar (.int _) | .scalar (.bool _) =>
    ["as_integer_ratio", "bit_count", "bit_length", "conjugate", "from_bytes", "to_bytes"]
  | .scalar (.float _) => ["as_integer_ratio", "conjugate", "fromhex", "hex", "is_integer"]
  | .scalar (.date ..) =>
    ["ctime", "fromisocalendar", "fromisoformat", "fromordinal", "fromtimestamp", "isocalendar",
     "isoformat", "isoweekday", "replace", "strftime", "timetuple", "today", "toordinal", "weekday"]
  | .scalar .null => []

def integerPart? (value : Int) (name : String) : Option Value :=
  if name = "real" || name = "numerator" then some (.int value)
  else if name = "imag" then some (.int 0)
  else if name = "denominator" then some (.int 1)
  else none

/-- The parts that values of a kind have under names of their own. -/
def part? (value : Value) (name : String) : Option Value :=
  match value with
  | .scalar (.date year month day) =>
    if name = "year" then some (.int year)
    else if name = "month" then some (.int month)
    else if name = "day" then some (.int day)
    else none
  | .scalar (.float number) =>
    if name = "real" then some (.scalar (.float number))
    else if name = "imag" then some (.scalar (.float (.ofInt 0)))
    else none
  | .scalar other => other.asInt?.bind (integerPart? · name)
  | _ => none

namespace Datum

def text : Datum → List Char
  | value inner => inner.shown
  | missing _ => []
  | position index count =>
    ("<LoopContext " ++ toString (index + 1) ++ "/" ++ toString count ++ ">").toList
  | operation owner name =>
    ("<built-in method " ++ name ++ " of " ++ owner.typeName ++ " object>").toList
  | builtin shown _ => shown.toList

/-- What counts as true in a condition. -/
def truthy : Datum → Bool
  | value inner => inner.truthy
  | missing _ => false
  | _ => true

/-- Equality. Two missing things are equal. -/
def same : Datum → Datum → Bool
  | value first, value second => first.same second
  | missing _, missing _ => true
  | position index count, position index' count' => index == index' && count == count'
  | operation owner name, operation owner' name' => owner.same owner' && name == name'
  | builtin shown _, builtin shown' _ => shown == shown'
  | _, _ => false

/-- The failure to go through something of a kind. -/
def notIterable {α : Type} (kind : String) : Except Error α :=
  .error (.wrongKind s!"'{kind}' object is not iterable")

/-- What is gone through: the items of a list, the characters of a text, the keys of a map. -/
def items : Datum → Except Error (List Value)
  | value inner => inner.parts
  | missing _ => .ok []
  | position .. => notIterable "LoopContext"
  | operation .. => notIterable "builtin_function_or_method"
  | builtin _ kind => notIterable kind

/-- What a place in a loop tells about itself. -/
def positionPart? (index count : Nat) (name : String) : Option Value :=
  if name = "index" then some (.int (index + 1))
  else if name = "index0" then some (.int index)
  else if name = "first" then some (.bool (index == 0))
  else if name = "last" then some (.bool (index + 1 == count))
  else if name = "length" then some (.int count)
  else if name = "revindex" then some (.int (count - index : Nat))
  else if name = "revindex0" then some (.int (count - index - 1 : Nat))
  else if name = "depth" then some (.int 1)
  else if name = "depth0" then some (.int 0)
  else none

def memberOf (owner : Value) (name : String) : Datum :=
  if (operationNames owner).contains name then operation owner name
  else
    match (part? owner name).or (owner.field? name) with
    | some found => value found
    | none => missing (.undefinedAttribute (ownerName owner) name)

def member (owner : Datum) (name : String) : Except Error Datum :=
  match owner with
  | value inner => .ok (memberOf inner name)
  | missing cause => .error cause
  | position index count =>
    match positionPart? index count name with
    | some found => .ok (value found)
    | none => .ok (missing (.undefinedAttribute "jinja2.runtime.LoopContext object" name))
  | operation .. => .ok (missing (.undefinedAttribute "builtin_function_or_method object" name))
  | builtin _ kind => .ok (missing (.undefinedAttribute (kind ++ " object") name))

/-- What a value has at a place, or under a whole number as key. -/
def itemOf? (owner : Value) (index : Int) : Option Value :=
  match owner with
  | .list items => items[index.toNat]?
  | .map entries => Keyed.get? entries (.int index)
  | .scalar (.text text) => text.toList[index.toNat]?.map fun c => .text (String.ofList [c])
  | _ => none

/-- What a datum has at a place, counted from zero. -/
def item (owner : Datum) (index : Int) : Except Error Datum :=
  match owner with
  | value inner =>
    match itemOf? inner index with
    | some found => .ok (value found)
    | none => .ok (missing (.undefinedItem (ownerName inner) index))
  | missing cause => .error cause
  | position .. => .ok (missing (.undefinedItem "jinja2.runtime.LoopContext object" index))
  | operation .. => .ok (missing (.undefinedItem "builtin_function_or_method object" index))
  | builtin _ kind => .ok (missing (.undefinedItem (kind ++ " object") index))

def ofText (text : List Char) : Datum :=
  value (.text (String.ofList text))

end Datum

namespace Filter

/-- The failure of a filter that gets more arguments than it takes. -/
def tooMany (name : String) : Except Error Datum :=
  .error (.wrongKind s!"{name} takes fewer arguments")

/-- What a filter makes of a datum and its arguments. -/
def apply : Filter → Datum → List Datum → Except Error Datum
  | upper, subject, [] => .ok (.ofText (Text.upper subject.text))
  | upper, _, _ => tooMany "upper"
  | lower, subject, [] => .ok (.ofText (Text.lower subject.text))
  | lower, _, _ => tooMany "lower"
  | list, subject, [] => return .value (.list (← subject.items))
  | list, _, _ => tooMany "list"
  | join, subject, arguments =>
    match arguments with
    | [] => joined subject []
    | [separator] => joined subject separator.text
    | _ => tooMany "join"
  | default, subject, arguments =>
    match arguments with
    | [] => .ok (replaced subject (.ofText []) false)
    | [other] => .ok (replaced subject other false)
    | [other, falsy] => .ok (replaced subject other falsy.truthy)
    | _ => tooMany "default"
where
  /-- The texts of the items of a datum with a separator between any two neighbours. -/
  joined (subject : Datum) (separator : List Char) : Except Error Datum := do
    return .ofText (Text.joinWith separator ((← subject.items).map Value.shown))
  /-- A datum, or another one in place of something missing; or also of something false. -/
  replaced (subject other : Datum) (alsoFalse : Bool) : Datum :=
    match subject with
    | .missing _ => other
    | present => if alsoFalse && !present.truthy then other else present

end Filter

end Scaffold.Render
