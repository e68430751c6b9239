import Scaffold.Sentinel.Dialect
import Scaffold.Text.Scan

/-!
Finding the sentinels of a text. Start and end sentinels are looked for independently of each other,
so that one of each kind may overlap.
-/

namespace Scaffold.Sentinel

open Text

/-- A space or a tab. -/
def isGap (c : Char) : Bool :=
  c == ' ' || c == '\t'

/-- A character that ends a line. -/
def isBreak (c : Char) : Bool :=
  c == '\r' || c == '\n'

/-- What follows a mark, if it stands in a comment at the start of a text and no word character comes
after it. -/
def afterMark? (dialect : Dialect) (mark : List Char) (text : List Char) : Option (List Char) := do
  let text ← afterPrefix? dialect.opener text
  let text ← afterPrefix? mark (text.dropWhile isGap)
  match text with
  | c :: _ => if isWord c then none else some text
  | [] => some []

/-- What follows the closer of a comment, if it stands at the start of a text behind spaces and
tabs. -/
def afterCloser? (dialect : Dialect) (text : List Char) : Option (List Char) :=
  afterPrefix? dialect.closer (text.dropWhile isGap)

/-- The attributes of a start sentinel that has a closer: the text of the line up to the first one. -/
def attributesUntil? (dialect : Dialect) : List Char → Option (List Char × List Char)
  | [] => none
  | c :: rest =>
    match afterCloser? dialect (c :: rest) with
    | some after => some ([], after)
    | none =>
      if isBreak c then none
      else (attributesUntil? dialect rest).map fun (chars, after) => (c :: chars, after)

/-- A start sentinel at the start of a text, with its attributes. Without a closer they take the rest
of the line. -/
def startMark? (dialect : Dialect) (text : List Char) : Option (List Char × List Char) :=
  (afterMark? dialect startTag text).bind fun rest =>
    if dialect.closer.isEmpty then
      some (rest.takeWhile (!isBreak ·), rest.dropWhile (!isBreak ·))
    else attributesUntil? dialect rest

/-- An end sentinel at the start of a text. -/
def endMark? (dialect : Dialect) (text : List Char) : Option (Unit × List Char) :=
  (afterMark? dialect endTag text).bind fun rest =>
    if dialect.closer.isEmpty then some ((), rest)
    else (afterCloser? dialect rest).map ((), ·)

/-- Something found in a text, with the offsets where it begins and ends. -/
structure Located (α : Type) where
  value : α
  start : Nat
  finish : Nat
  deriving DecidableEq, Repr

def locatedFrom {α : Type} (offset : Nat) : List (Piece α) → List (Located α)
  | [] => []
  | .char _ :: rest => locatedFrom (offset + 1) rest
  | .found value source :: rest =>
    ⟨value, offset, offset + source.length⟩ :: locatedFrom (offset + source.length) rest

/-- All that a scanner finds in a text, with its offsets. -/
def locate {α : Type} (scan : Scan α) (text : List Char) : List (Located α) :=
  locatedFrom 0 (pieces scan text)

/-- The start sentinels of a text, with their attributes. -/
def startMarks (dialect : Dialect) (text : List Char) : List (Located (List Char)) :=
  locate (startMark? dialect) text

def endMarks (dialect : Dialect) (text : List Char) : List (Located Unit) :=
  locate (endMark? dialect) text

/-- A sentinel of either kind. A start sentinel has attributes. -/
inductive Mark
  | start (mark : Located (List Char))
  | finish (mark : Located Unit)
  deriving DecidableEq, Repr

/-- The offset where a sentinel begins. -/
def Mark.offset : Mark → Nat
  | start mark => mark.start
  | finish mark => mark.start

/-- All sentinels of a text by their offsets. -/
def marks (dialect : Dialect) (text : List Char) : List Mark :=
  List.merge ((startMarks dialect text).map .start) ((endMarks dialect text).map .finish)
    fun first second => first.offset ≤ second.offset

/-- An attribute at the start of a text: a word and a value between double quotes. -/
def attribute? (text : List Char) : Option ((String × String) × List Char) := do
  let (name, rest) ← word? text
  let rest ← afterPrefix? ['=', '"'] rest
  let value := rest.takeWhile (· != '"')
  match rest.dropWhile (· != '"') with
  | _ :: after => some ((name, String.ofList value), after)
  | [] => none

def attributeValue? (name : String) (attributes : List Char) : Option String :=
  (findAll attribute? attributes).reverse.lookup name

end Scaffold.Sentinel
