import Scaffold.Error
import Scaffold.Extract.Fragment
import Scaffold.Pattern.Match
import Scaffold.Template.Block

/-!
Matchers: patterns made from the blocks of a template, which find the values of the blocks in a
rendered or edited text.
-/

namespace Scaffold.Extract

open Text Template

/-- What is known beforehand of the values of a parameter: their kind, or the kinds of the fields of
its items. -/
inductive Hint
  | kind (kind : Kind)
  | fields (kinds : List (String × Kind))
  deriving DecidableEq, Repr

/-- The hints for the parameters of a template. -/
abbrev Hints := List (String × Hint)

/-- The hints of parameters by the values that give them: a text names a kind, and a map gives the
kinds of fields. Anything else says nothing. -/
def Hints.ofValue (value : Value) : Hints :=
  (value.entries?.getD []).filterMap fun entry => do
    let name ← match entry.1 with
      | .text name => some name
      | _ => none
    match entry.2 with
    | .scalar (.text kind) => some (name, .kind (.ofName kind))
    | .map kinds =>
      some (name, .fields (kinds.filterMap fun
        | (.text field, .scalar (.text kind)) => some (field, .ofName kind)
        | (.text field, other) => some (field, .other other.kindName)
        | _ => none))
    | _ => none

/-- A pattern made from a block, with what is needed to read values off its captures. -/
inductive Matcher
  | param (name : String) (pattern : Pattern) (kind : Kind)
  | loop (name : String) (pattern : Pattern) (fields numeric boolean : List String)
  | scalarLoop (name : String) (pattern : Pattern)
  deriving DecidableEq, Repr

namespace Matcher

/-- The name of the parameter that a matcher finds the values of. -/
def name : Matcher → String
  | param name .. => name
  | loop name .. => name
  | scalarLoop name _ => name

def pattern : Matcher → Pattern
  | param _ pattern _ => pattern
  | loop _ pattern .. => pattern
  | scalarLoop _ pattern => pattern

end Matcher

/-- The four words for truth values. -/
def booleanPattern : Pattern :=
  .choice (["true", "false", "True", "False"].map fun word => .literal word.toList)

/-- The pattern of the values of a kind. Of a kind without a shape of its own a value is a run without
blanks. -/
def kindPattern : Kind → Pattern
  | .identifier => .append (.one .nameStart) (.any .namePart)
  | .stringLiteral => .many .unquoted
  | .number =>
    .append (.optional (.one .minus))
      (.append (.many .digit) (.optional (.group (.append (.char '.') (.many .digit)))))
  | .boolean => booleanPattern
  | .other _ => .many .solid

/-- The pattern of the values of a loop's field. -/
def fieldPattern : Kind → Pattern
  | .number => .append (.optional (.one .minus)) (.many .digit)
  | .boolean => booleanPattern
  | _ => .many .bare

/-- Any text within a line. -/
def wildcard : Pattern := .few .inLine

/-- A name's first occurrence is captured, by the given pattern, and later ones refer back to it. -/
def captureOnce (captured : List String) (name : String) (body : Pattern) :
    Pattern × List String :=
  if captured.contains name then (.again name, captured)
  else (.capture name body, name :: captured)

/-- The name of the capture that holds the value of a parameter. -/
def valueName : String := "value"

/-- The matcher of a parameter. A hint of a kind with a shape of its own goes before the kind of the
block. -/
def paramMatcher (block : ParamBlock) (hint : Option Hint) : Matcher :=
  let kind : Kind :=
    match hint with
    | some (.kind (.other _)) => block.kind
    | some (.kind kind) => kind
    | _ => block.kind
  let expression (captured : List String) (inner : List Char) :=
    if inner = block.name.toList then captureOnce captured valueName (kindPattern kind)
    else (wildcard, captured)
  .param block.name (patternOf expression [] block.line) kind

/-- The field of a loop's item that an expression names. -/
def fieldNamed? (item : String) (inner : List Char) : Option String := do
  let rest ← afterPrefix? (item.toList ++ ['.']) inner
  let (field, rest) ← word? rest
  if rest.isEmpty then some field else none

/-- The kinds of a loop's fields, where hints go before what the block says. -/
def fieldKinds (block : LoopBlock) (hints : List (String × Kind)) : List (String × Kind) :=
  block.fields.map fun (field, kind) => (field, (hints.lookup field).getD kind)

/-- The kind of a field. Of a field that is listed twice the later kind counts, and one that is not
listed is a string. -/
def kindOf (kinds : List (String × Kind)) (field : String) : Kind :=
  (kinds.reverse.lookup field).getD .string

/-- The matcher of a loop with fields: one match for each repetition of its body. -/
def loopMatcher (block : LoopBlock) (hints : List (String × Kind)) : Matcher :=
  let kinds := fieldKinds block hints
  let expression (captured : List String) (inner : List Char) :=
    match fieldNamed? block.item inner with
    | some field => captureOnce captured field (fieldPattern (kindOf kinds field))
    | none => (wildcard, captured)
  let fields := block.fields.map (·.1)
  .loop block.name (patternOf expression [] block.body) fields
    (fields.filter fun field => kindOf kinds field == .number)
    (fields.filter fun field => kindOf kinds field == .boolean)

/-- The usual head of a block for properties. -/
def usualHeader : Pattern :=
  .sequence
    [.group (.choice (["interface", "type", "class", "struct"].map fun word => .literal word.toList)),
     .many .blank, .any .word, .literal "Props".toList, .any .blank, .optional (.char '='),
     .any .blank, .char '{']

/-- The inside of a block and the brace that closes it. -/
def blockInside : Pattern :=
  .append (.capture "body" (.any .braceless)) (.char '}')

/-- The matcher of a scalar loop: the inside of the block around it. -/
def scalarLoopMatcher (block : LoopBlock) : Matcher :=
  let header :=
    match block.container with
    | some (c :: line) => patternOf (fun state _ => (.any .word, state)) () (c :: line)
    | _ => usualHeader
  .scalarLoop block.name (.append header blockInside)

/-- The matcher of a block, before its pattern is looked at. -/
def matcherOf (block : Block) (hints : Hints) : Matcher :=
  match block with
  | .param block => paramMatcher block (hints.lookup block.name)
  | .loop block =>
    if block.scalar then scalarLoopMatcher block
    else
      match hints.lookup block.name with
      | some (.fields kinds) => loopMatcher block kinds
      | _ => loopMatcher block []

def compile (block : Block) (hints : Hints) : Except Error Matcher :=
  let matcher := matcherOf block hints
  if matcher.pattern.isWellFormed then .ok matcher else .error (.invalidPattern block.name)

end Scaffold.Extract
