/-!
Blocks: the places of a template where values are put into the text, and the kinds of those values.
-/

namespace Scaffold.Template

/-- The kind of a value that stands in a text. Kinds other than the four with a shape of their own
are known by name only. -/
inductive Kind
  | identifier
  | stringLiteral
  | number
  | boolean
  | other (name : String)
  deriving DecidableEq, Repr

namespace Kind

def name : Kind → String
  | identifier => "identifier"
  | stringLiteral => "string-literal"
  | number => "number"
  | boolean => "boolean"
  | other name => name

def ofName (name : String) : Kind :=
  if name = "identifier" then identifier
  else if name = "string-literal" then stringLiteral
  else if name = "number" then number
  else if name = "boolean" then boolean
  else other name

/-- The kind of loop fields that nothing more is known of. -/
def string : Kind := other "string"

theorem name_ofName (name : String) : (ofName name).name = name := by
  unfold ofName
  repeat' split
  all_goals simp_all [Kind.name]

end Kind

/-- A placeholder outside any loop, with the line of the template that holds it. -/
structure ParamBlock where
  name : String
  line : List Char
  kind : Kind := .identifier
  deriving DecidableEq, Repr

/-- A loop over a named collection. Its fields are those that the body takes from the item, in the
order of their first use. A scalar loop uses the item itself; its container is the line that opens
the block around it. -/
structure LoopBlock where
  name : String
  body : List Char
  item : String
  fields : List (String × Kind) := []
  scalar : Bool := false
  container : Option (List Char) := none
  deriving DecidableEq, Repr

/-- A place of a template where values are put in. -/
inductive Block
  | param (block : ParamBlock)
  | loop (block : LoopBlock)
  deriving DecidableEq, Repr

/-- The name of the parameter that a block takes its values from. -/
def Block.name : Block → String
  | param block => block.name
  | loop block => block.name

end Scaffold.Template
