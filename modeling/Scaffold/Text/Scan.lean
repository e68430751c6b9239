import Scaffold.Text.Blank
import Scaffold.Text.Line
import Scaffold.Text.Word

/-!
Scanners: functions that recognise something at the start of a text and return it with what follows.
A text is cut by a scanner, from the left, into what it recognises and the characters between.
-/

namespace Scaffold.Text

/-- A scanner recognises something at the start of a text and returns it with the rest. -/
abbrev Scan (α : Type) := List Char → Option (α × List Char)

/-- A piece of a text: a character on its own, or something recognised and the text it stands for. -/
inductive Piece (α : Type)
  | char (c : Char)
  | found (value : α) (source : List Char)
  deriving Repr

namespace Piece

/-- The text of a piece. -/
def source {α : Type} : Piece α → List Char
  | char c => [c]
  | found _ source => source

/-- What was recognised. -/
def value? {α : Type} : Piece α → Option α
  | char _ => none
  | found value _ => some value

/-- The character that stands on its own. -/
def char? {α : Type} : Piece α → Option Char
  | char c => some c
  | found .. => none

end Piece

/-- The pieces of a text, where `skip` characters belong to the piece before. -/
def piecesAfter {α : Type} (scan : Scan α) : Nat → List Char → List (Piece α)
  | _, [] => []
  | skip + 1, _ :: rest => piecesAfter scan skip rest
  | 0, c :: rest =>
    match scan (c :: rest) with
    | some (value, after) =>
      let skip := rest.length - after.length
      .found value (c :: rest.take skip) :: piecesAfter scan skip rest
    | none => .char c :: piecesAfter scan 0 rest

def pieces {α : Type} (scan : Scan α) (text : List Char) : List (Piece α) :=
  piecesAfter scan 0 text

/-- All that a scanner recognises in a text, from the left and without overlap. -/
def findAll {α : Type} (scan : Scan α) (text : List Char) : List α :=
  (pieces scan text).filterMap Piece.value?

/-- The text without what a scanner recognises. -/
def eraseAll {α : Type} (scan : Scan α) (text : List Char) : List Char :=
  (pieces scan text).filterMap Piece.char?

/-- The text without one character at its start, if it has it. -/
def dropOptional (c : Char) : List Char → List Char
  | [] => []
  | d :: rest => if d = c then rest else d :: rest

/-- A nonempty run of word characters. -/
def word? (text : List Char) : Option (String × List Char) :=
  let run := text.takeWhile isWord
  if run.isEmpty then none else some (String.ofList run, text.dropWhile isWord)

/-- A nonempty run of blanks; what follows it. -/
def afterBlanks? (text : List Char) : Option (List Char) :=
  match text with
  | c :: rest => if isBlank c then some (trimLeft rest) else none
  | [] => none

theorem piecesAfter_source {α : Type} (scan : Scan α) (skip : Nat) (text : List Char) :
    (piecesAfter scan skip text).flatMap Piece.source = text.drop skip := by
  induction text generalizing skip with
  | nil => cases skip <;> simp [piecesAfter]
  | cons c rest ih =>
    cases skip with
    | succ skip => simp [piecesAfter, ih]
    | zero =>
      simp only [piecesAfter]
      split
      · simp [ih, Piece.source]
      · simp [ih, Piece.source]

/-- Cutting a text loses nothing. -/
theorem pieces_source {α : Type} (scan : Scan α) (text : List Char) :
    (pieces scan text).flatMap Piece.source = text := by
  simpa [pieces] using piecesAfter_source scan 0 text

end Scaffold.Text
