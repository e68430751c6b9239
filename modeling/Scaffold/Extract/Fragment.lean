import Scaffold.Pattern.Basic
import Scaffold.Template.Tag

/-!
Template text as a pattern. Literal characters stand for themselves, a run of blanks for any other
run, a statement for anything within a line, and an expression for whatever it is given.
-/

namespace Scaffold.Extract

open Text Template

/-- A part of a line of a template. -/
inductive Fragment
  | char (c : Char)
  | expression (inner : List Char)
  | statement
  | blanks
  deriving DecidableEq, Repr

/-- The rest of an expression within one line: its text, up to the first closing pair, and what
follows that. -/
def expressionBody? : List Char → Option (List Char × List Char)
  | [] => none
  | c :: rest =>
    match afterClosing? ['}', '}'] (c :: rest) with
    | some after => some ([], after)
    | none =>
      if c = '\n' then none
      else (expressionBody? rest).map fun (inner, after) => (c :: inner, after)

/-- The rest of a statement within one line; what follows its closing pair. -/
def statementBody? : List Char → Option (List Char)
  | [] => none
  | c :: rest =>
    match afterPrefix? ['%', '}'] (c :: rest) with
    | some after => some after
    | none => if c = '\n' then none else statementBody? rest

/-- An expression, a statement or a run of blanks at the start of a text. -/
def fragment? (text : List Char) : Option (Fragment × List Char) :=
  match afterOpening? ['{', '{'] text with
  | some rest =>
    (expressionBody? rest).map fun (inner, after) => (.expression (trim inner), after)
  | none =>
    match afterPrefix? ['{', '%'] text with
    | some rest => (statementBody? rest).map fun after => (.statement, after)
    | none => (afterBlanks? text).map fun after => (.blanks, after)

def fragments (text : List Char) : List Fragment :=
  (pieces fragment? text).map fun
    | .char c => .char c
    | .found fragment _ => fragment

/-- The written form of the pattern of a text, where an expression is written as given. -/
def translate (text : List Char) (expression : List Char → List Char) : List Char :=
  (fragments text).flatMap fun
    | .char c => Pattern.escapedChar c
    | .expression inner => expression inner
    | .statement => (Pattern.few .inLine).source
    | .blanks => (Pattern.many .blank).source

/-- The pattern of fragments, where the pattern of an expression may depend on the expressions before
it. -/
def patternsFrom {σ : Type} (expression : σ → List Char → Pattern × σ) (state : σ) :
    List Fragment → List Pattern
  | [] => []
  | .char c :: rest => .char c :: patternsFrom expression state rest
  | .expression inner :: rest =>
    let (pattern, next) := expression state inner
    pattern :: patternsFrom expression next rest
  | .statement :: rest => .few .inLine :: patternsFrom expression state rest
  | .blanks :: rest => .many .blank :: patternsFrom expression state rest

/-- The pattern of a text, where the pattern of an expression may depend on those before it. -/
def patternOf {σ : Type} (expression : σ → List Char → Pattern × σ) (state : σ)
    (text : List Char) : Pattern :=
  .sequence (patternsFrom expression state (fragments text))

end Scaffold.Extract
