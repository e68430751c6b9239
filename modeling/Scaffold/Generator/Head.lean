import Scaffold.Error
import Scaffold.Json.Reader
import Scaffold.Yaml.Reader

/-!
The head of a template file: a mapping between two fence lines at the very start. Fences of one form
hold YAML, those of the other JSON. What follows is the body.
-/

namespace Scaffold

open Text

inductive HeadFormat
  | yaml
  | json
  deriving DecidableEq, Repr

namespace HeadFormat

/-- The name of a format, as messages give it. -/
def name : HeadFormat → String
  | yaml => "YAML"
  | json => "JSON"

/-- The fence before a head. -/
def opening : HeadFormat → List Char
  | yaml => ['-', '-', '-']
  | json => ['/', '*', '-', '-', '-']

/-- The fence after a head. -/
def closing : HeadFormat → List Char
  | yaml => ['-', '-', '-']
  | json => ['-', '-', '-', '*', '/']

def read (format : HeadFormat) (text : List Char) : Except Error Value :=
  match format with
  | yaml =>
    match Yaml.read text with
    | .ok value => .ok value
    | .error .malformed => .error (.unreadableHead format.name "<yaml>")
    | .error (.badValue detail) => .error (.badValue detail)
  | json =>
    match Json.read text with
    | .ok value => .ok value
    | .error .malformed => .error (.unreadableHead format.name "<json>")
    | .error .longInteger => .error (.badValue "too many digits")

end HeadFormat

/-- What follows a line break at the start of a text. -/
def afterBreak? : List Char → Option (List Char)
  | '\n' :: rest => some rest
  | '\r' :: '\n' :: rest => some rest
  | _ => none

/-- What follows a closing fence on a line of its own, with the line breaks around it. -/
def afterFence? (fence text : List Char) : Option (List Char) := do
  let text ← afterBreak? text
  let text ← afterPrefix? fence text
  afterBreak? text

/-- The text before the first closing fence, and what follows the fence. -/
def untilFence? (fence : List Char) : List Char → Option (List Char × List Char)
  | [] => none
  | c :: rest =>
    match afterFence? fence (c :: rest) with
    | some after => some ([], after)
    | none => (untilFence? fence rest).map fun (before, after) => (c :: before, after)

def splitHead? (format : HeadFormat) (text : List Char) : Option (List Char × List Char) := do
  let text ← afterPrefix? format.opening text
  let text ← afterBreak? text
  untilFence? format.closing text

/-- The entries of a head. A head of nothing has none. -/
def headEntries (format : HeadFormat) (value : Value) : Except Error Record :=
  match value with
  | .scalar .null => .ok []
  | .map entries => .ok entries
  | _ => .error (.headNotMapping format.name)

/-- The head of a text in a format that its fences fit, and the body without blanks before it. A text
without a head is all body. -/
def readHead (text : List Char) : Except Error (Record × List Char) :=
  match splitHead? .yaml text with
  | some (head, body) => do
    return (← headEntries .yaml (← HeadFormat.yaml.read head), trimLeft body)
  | none =>
    match splitHead? .json text with
    | some (head, body) => do
      return (← headEntries .json (← HeadFormat.json.read head), trimLeft body)
    | none => .ok ([], text)

end Scaffold
