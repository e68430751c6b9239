import Scaffold.Text.Scan

/-!
The tags that a template is analysed by: comments, placeholders and the two ends of a loop. Each is a
scanner that looks at the start of a text only. A dash beside a brace trims blanks when the template
is rendered and is passed over here.
-/

namespace Scaffold.Template

open Text

/-- The opening tag of a loop over a named collection. -/
structure ForTag where
  item : String
  collection : String
  deriving DecidableEq, Repr

/-- What may stand between an opening brace pair and the first word: a dash and blanks. -/
def afterOpening? (opening : List Char) (text : List Char) : Option (List Char) :=
  (afterPrefix? opening text).map fun rest => trimLeft (dropOptional '-' rest)

/-- What follows a closing pair, with blanks and a dash before it. -/
def afterClosing? (closing : List Char) (text : List Char) : Option (List Char) :=
  afterPrefix? closing (dropOptional '-' (trimLeft text))

/-- The beginning of a loop's opening tag, up to the name of its collection. -/
def forHead? (text : List Char) : Option (ForTag × List Char) := do
  let text ← afterOpening? ['{', '%'] text
  let text ← afterPrefix? ['f', 'o', 'r'] text
  let text ← afterBlanks? text
  let (item, text) ← word? text
  let text ← afterBlanks? text
  let text ← afterPrefix? ['i', 'n'] text
  let text ← afterBlanks? text
  let (collection, text) ← word? text
  some (⟨item, collection⟩, text)

/-- The whole opening tag of a loop. -/
def forTag? (text : List Char) : Option (ForTag × List Char) := do
  let (tag, text) ← forHead? text
  let text ← afterClosing? ['%', '}'] text
  some (tag, text)

/-- The closing tag of a loop. -/
def endTag? (text : List Char) : Option (Unit × List Char) := do
  let text ← afterOpening? ['{', '%'] text
  let text ← afterPrefix? ['e', 'n', 'd', 'f', 'o', 'r'] text
  let text ← afterClosing? ['%', '}'] text
  some ((), text)

/-- A placeholder that holds one word. -/
def placeholder? (text : List Char) : Option (String × List Char) := do
  let text ← afterOpening? ['{', '{'] text
  let (name, text) ← word? text
  let text ← afterClosing? ['}', '}'] text
  some (name, text)

/-- The word that an expression begins with. -/
def expressionHead? (text : List Char) : Option (String × List Char) := do
  let text ← afterOpening? ['{', '{'] text
  word? text

/-- A placeholder for a field of a loop's item. -/
def fieldReference? (item : String) (text : List Char) : Option (String × List Char) := do
  let text ← afterOpening? ['{', '{'] text
  let text ← afterPrefix? (item.toList ++ ['.']) text
  let (field, text) ← word? text
  let text ← afterClosing? ['}', '}'] text
  some (field, text)

/-- A placeholder for a loop's item itself. -/
def itemReference? (item : String) (text : List Char) : Option (Unit × List Char) := do
  let text ← afterOpening? ['{', '{'] text
  let text ← afterPrefix? item.toList text
  let text ← afterClosing? ['}', '}'] text
  some ((), text)

/-- A comment, up to its first closing mark. -/
def comment? (text : List Char) : Option (Unit × List Char) := do
  let text ← afterPrefix? ['{', '#'] text
  let text ← after? ['#', '}'] text
  some ((), text)

/-- Any expression or statement, up to its first closing pair. -/
def markup? (text : List Char) : Option (Unit × List Char) :=
  match text with
  | '{' :: '{' :: rest => (after? ['}', '}'] rest).map ((), ·)
  | '{' :: '%' :: rest => (after? ['%', '}'] rest).map ((), ·)
  | _ => none

def withoutComments (template : List Char) : List Char :=
  eraseAll comment? template

end Scaffold.Template
