import Scaffold.Error
import Scaffold.Template.Block
import Scaffold.Template.Outline

/-!
The analysis of a template: the blocks that values can be read back from, in the order of the
template. A loop that cannot be read back is an obstacle; strict analysis stops there and lenient
analysis leaves the loop out.
-/

namespace Scaffold.Template

open Text

/-- Why a loop cannot be read back. -/
inductive Obstacle
  | nested
  | noContainer
  | noReference
  deriving DecidableEq, Repr

/-- The wording of an obstacle. -/
def Obstacle.reason : Obstacle → String
  | nested => "nested loops are not supported"
  | noContainer => "scalar loop has no enclosing ...Props block"
  | noReference => "loop body references neither item fields nor the item"

/-- What the analysis makes of a loop: its block, unless there is none, and what stands in the way of
reading it back, if anything. -/
structure LoopReading where
  name : String
  block : Option LoopBlock
  obstacle : Option Obstacle
  deriving DecidableEq, Repr

/-- The words that open the block around a scalar loop. -/
def containerWords : List (List Char) :=
  ["interface".toList, "type".toList, "class".toList, "struct".toList]

def startsContainerWord (text : List Char) : Bool :=
  containerWords.any fun word =>
    match afterPrefix? word text with
    | some (c :: _) => !isWord c
    | some [] => true
    | none => false

/-- A container word stands in a text as a word of its own, given whether a word character came just
before. -/
def holdsContainerWord (afterWord : Bool) : List Char → Bool
  | [] => false
  | c :: rest =>
    (!afterWord && startsContainerWord (c :: rest)) || holdsContainerWord (isWord c) rest

/-- A line opens a block for properties: it ends in a brace, speaks of `Props` and has a container
word. -/
def isContainerHeader (line : List Char) : Bool :=
  endsWith ['{'] line && holds ['P', 'r', 'o', 'p', 's'] line && holdsContainerWord false line

/-- More braces are closed than opened in lines, expressions and tags left out. -/
def closesMore (lines : List (List Char)) : Bool :=
  let text := eraseAll markup? (joinWith ['\n'] lines)
  text.count '{' < text.count '}'

/-- The container of a loop, found from the lines before it, the latest first; the second argument
holds the lines between. Only the latest header counts, and only while its block is open. -/
def containerFrom : List (List Char) → List (List Char) → Option (List Char)
  | [], _ => none
  | line :: earlier, between =>
    if isContainerHeader (trim line) then
      if closesMore between then none else some (trim line)
    else containerFrom earlier (line :: between)

/-- The container of a loop: the trimmed line that opens the nearest block for properties before it,
if that block is still open. -/
def container? (preceding : List Char) : Option (List Char) :=
  containerFrom (lines preceding).reverse []

/-- The fields of an item that a loop's body uses, in the order of their first use. -/
def fieldsUsed (item : String) (body : List Char) : List String :=
  (findAll (fieldReference? item) body).eraseDups

/-- What the analysis makes of a loop, given the text before it. -/
def readLoop (preceding : List Char) (span : LoopSpan) : LoopReading :=
  let name := span.tag.collection
  let item := span.tag.item
  let body := trim span.inner
  if span.nested then ⟨name, none, some .nested⟩
  else
    let fields := fieldsUsed item body
    -- Fields come first: a body with both a field and the bare item is read by its fields.
    if !fields.isEmpty then
      ⟨name, some { name, body, item, fields := fields.map (·, Kind.string) }, none⟩
    else if !(findAll (itemReference? item) body).isEmpty then
      let container := container? preceding
      ⟨name, some { name, body, item, scalar := true, container },
        if container.isNone then some .noContainer else none⟩
    else ⟨name, none, some .noReference⟩

/-- The placeholders of a line, as blocks. In a line with a quote they stand for string literals. -/
def lineParams (line : List Char) : List ParamBlock :=
  let trimmed := trim line
  let kind : Kind :=
    if trimmed.contains '\'' || trimmed.contains '"' then .stringLiteral else .identifier
  (findAll placeholder? line).map fun name => ⟨name, trimmed, kind⟩

/-- The placeholders of a text, line by line. -/
def textParams (text : List Char) : List ParamBlock :=
  (lines text).flatMap lineParams

/-- A thing that the analysis finds in a template. -/
inductive Finding
  | param (block : ParamBlock)
  | loop (reading : LoopReading)
  deriving DecidableEq, Repr

/-- The findings of an analysis in the order of the template. When a loop is never closed they are
those before it, and its collection is recorded. -/
structure Analysis where
  findings : List Finding
  unclosed : Option String
  deriving DecidableEq, Repr

namespace Analysis

/-- The analysis with more findings in front. -/
def precede (findings : List Finding) (analysis : Analysis) : Analysis :=
  { analysis with findings := findings ++ analysis.findings }

/-- The placeholders outside loops whose names are new, each name once. -/
def newParams (seen : List String) : List ParamBlock → List ParamBlock
  | [] => []
  | block :: rest =>
    if seen.contains block.name then newParams seen rest
    else block :: newParams (block.name :: seen) rest

/-- The analysis of an outline, given the text before it and the names of the placeholders found
there. -/
def ofOutline (preceding : List Char) (seen : List String) : Outline → Analysis
  | .done text => ⟨(newParams seen (textParams text)).map .param, none⟩
  | .unclosed text tag _ =>
    ⟨(newParams seen (textParams text)).map .param, some tag.collection⟩
  | .loop text span rest =>
    let params := newParams seen (textParams text)
    let before := preceding ++ text
    (ofOutline (before ++ span.source) (params.map ParamBlock.name ++ seen) rest).precede
      (params.map .param ++ [.loop (readLoop before span)])

def ofTemplate (template : List Char) : Analysis :=
  ofOutline [] [] (outline (withoutComments template))

def blockOf? : Finding → Option Block
  | .param block => some (.param block)
  | .loop reading => reading.block.map .loop

/-- The first loop that cannot be read back, with the reason. -/
def obstacle? (analysis : Analysis) : Option (String × Obstacle) :=
  analysis.findings.findSome? fun
    | .param _ => none
    | .loop reading => reading.obstacle.map (reading.name, ·)

/-- The loops that lenient analysis leaves out, with the reasons. -/
def skipped (analysis : Analysis) : List (String × Obstacle) :=
  analysis.findings.filterMap fun
    | .param _ => none
    | .loop reading =>
      if reading.block.isNone then reading.obstacle.map (reading.name, ·) else none

/-- The warnings of lenient analysis, one for each loop that is left out. -/
def warnings (analysis : Analysis) : List Warning :=
  analysis.skipped.map fun (name, obstacle) => .skippedLoop name obstacle.reason

/-- The blocks, unless a loop is never closed. -/
def lenient (analysis : Analysis) : Except Error (List Block) :=
  match analysis.unclosed with
  | some collection => .error (.unclosedLoop collection)
  | none => .ok (analysis.findings.filterMap blockOf?)

/-- The blocks, unless some loop cannot be read back or is never closed. -/
def strict (analysis : Analysis) : Except Error (List Block) :=
  match analysis.obstacle? with
  | some (name, obstacle) => .error (.unsupportedPattern name obstacle.reason)
  | none => analysis.lenient

end Analysis

/-- The blocks of a template, with the warnings of finding them. Strict analysis gives no warnings:
it stops at what lenient analysis warns of. -/
def analyze (isStrict : Bool) (template : List Char) :
    List Warning × Except Error (List Block) :=
  let analysis := Analysis.ofTemplate template
  if isStrict then ([], analysis.strict) else (analysis.warnings, analysis.lenient)

end Scaffold.Template
