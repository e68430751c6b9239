import Scaffold.Json.Reader
import Scaffold.Text.Quoted
import Scaffold.Value.Shown

/-!
Writing JSON text, in ASCII. A value that has no JSON form stops the writing where it stands, and the
text before it remains written. An integer with more digits than are converted has none.
-/

namespace Scaffold.Json

/-- Why a value is not written. -/
inductive Refusal
  | value (kind : String)
  /-- A key of this kind has no JSON form. -/
  | key (kind : String)
  /-- An integer has more digits than are converted. -/
  | longInteger
  deriving DecidableEq, Repr

/-- A text written so far, and why the writing stopped, if it did. -/
structure Written where
  text : List Char
  refusal : Option Refusal := none
  deriving Repr

namespace Written

/-- The writing goes on, unless it has stopped. -/
def followedBy (first : Written) (next : Written) : Written :=
  match first.refusal with
  | some _ => first
  | none => ⟨first.text ++ next.text, next.refusal⟩

/-- The whole text, when the writing did not stop. -/
def complete (written : Written) : Except Refusal (List Char) :=
  match written.refusal with
  | some refusal => .error refusal
  | none => .ok written.text

end Written

def unitEscape (code : Nat) : List Char :=
  ['\\', 'u'] ++ Text.hexDigits 4 code

/-- A character inside a string. -/
def escapedChar (c : Char) : List Char :=
  if c = '"' then ['\\', '"']
  else if c = '\\' then ['\\', '\\']
  else if c = '\n' then ['\\', 'n']
  else if c = '\r' then ['\\', 'r']
  else if c = '\t' then ['\\', 't']
  else if c = '\x0c' then ['\\', 'f']
  else if c = '\x08' then ['\\', 'b']
  else if 32 ≤ c.toNat && c.toNat < 127 then [c]
  else if c.toNat < 0x10000 then unitEscape c.toNat
  else
    let code := c.toNat - 0x10000
    unitEscape (0xd800 + code / 0x400) ++ unitEscape (0xdc00 + code % 0x400)

/-- A string between its quotes. -/
def stringText (text : List Char) : List Char :=
  '"' :: text.flatMap escapedChar ++ ['"']

/-- A floating-point number; those that are not finite are words. -/
def floatText : Binary64 → List Char
  | .notANumber => "NaN".toList
  | .infinite negative => if negative then "-Infinity".toList else "Infinity".toList
  | number => number.text

/-- The integer has more digits than are converted. -/
def isLong (value : Int) : Bool :=
  digitLimit < (Nat.toDigits 10 value.natAbs).length

/-- A scalar, when it has a JSON form. -/
def scalarText : Scalar → Except Refusal (List Char)
  | .null => .ok "null".toList
  | .bool value => .ok (if value then "true".toList else "false".toList)
  | .int value => if isLong value then .error .longInteger else .ok (intText value)
  | .float value => .ok (floatText value)
  | .text value => .ok (stringText value.toList)
  | .date year month day => .error (.value (Scalar.date year month day).kindName)

/-- The name that a key takes, when it has one: scalars other than dates take their JSON form. -/
def keyName : Scalar → Except Refusal (List Char)
  | .text value => .ok value.toList
  | .date year month day => .error (.key (Scalar.date year month day).kindName)
  | other => scalarText other

/-- The spacing of lists and objects: on one line, or one item a line with two spaces a level. -/
inductive Layout
  | compact
  | indented
  deriving DecidableEq, Repr

/-- A line break and the indentation of a level; nothing on one line. -/
def Layout.lineBreak (layout : Layout) (level : Nat) : List Char :=
  match layout with
  | .compact => []
  | .indented => '\n' :: List.replicate (2 * level) ' '

/-- What stands between two items. -/
def Layout.separator (layout : Layout) (level : Nat) : List Char :=
  match layout with
  | .compact => [',', ' ']
  | .indented => ',' :: Layout.indented.lineBreak level

/-- The text before an item of a list. An integer that is too long stops before that text. -/
def beforeItem (before : List Char) : Value → Written
  | .scalar (.int value) => if isLong value then ⟨[], some .longInteger⟩ else ⟨before, none⟩
  | _ => ⟨before, none⟩

mutual

def write (layout : Layout) (level : Nat) : Value → Written
  | .scalar value =>
    match scalarText value with
    | .ok text => ⟨text, none⟩
    | .error refusal => ⟨[], some refusal⟩
  | .list [] => ⟨"[]".toList, none⟩
  | .list (item :: rest) =>
    let opened := beforeItem ('[' :: layout.lineBreak (level + 1)) item
    ((opened.followedBy (write layout (level + 1) item)).followedBy
      (writeItems layout (level + 1) rest)).followedBy ⟨layout.lineBreak level ++ [']'], none⟩
  | .map [] => ⟨"\x7b\x7d".toList, none⟩
  | .map (entry :: rest) =>
    let opened : Written := ⟨'{' :: layout.lineBreak (level + 1), none⟩
    ((opened.followedBy (writeEntry layout (level + 1) [] entry)).followedBy
      (writeEntries layout (level + 1) rest)).followedBy ⟨layout.lineBreak level ++ ['}'], none⟩

/-- The items of a list after the first, each after a separator. -/
def writeItems (layout : Layout) (level : Nat) : List Value → Written
  | [] => ⟨[], none⟩
  | item :: rest =>
    ((beforeItem (layout.separator level) item).followedBy (write layout level item)).followedBy
      (writeItems layout level rest)

/-- One entry of an object, after the given text. A key without a JSON form stops before that text. -/
def writeEntry (layout : Layout) (level : Nat) (before : List Char) : Scalar × Value → Written
  | (key, value) =>
    match keyName key with
    | .ok name =>
      (⟨before ++ stringText name ++ [':', ' '], none⟩ : Written).followedBy
        (write layout level value)
    | .error refusal => ⟨[], some refusal⟩

/-- The entries of an object after the first. -/
def writeEntries (layout : Layout) (level : Nat) : List (Scalar × Value) → Written
  | [] => ⟨[], none⟩
  | entry :: rest =>
    (writeEntry layout level (layout.separator level) entry).followedBy
      (writeEntries layout level rest)

end

/-- The value on one line. -/
def compact (value : Value) : Except Refusal (List Char) :=
  (write .compact 0 value).complete

/-- The value with one item a line. -/
def indented (value : Value) : Written :=
  write .indented 0 value

end Scaffold.Json
