import Scaffold.Render.Datum

/-!
Rendering: the text that a document stands for under given parameters.
-/

namespace Scaffold.Render

/-- What names stand for; of two entries of a name the first counts. -/
abbrev Scope := List (String × Datum)

namespace Scope

/-- The names that mean something in every template unless a parameter has them. -/
def globals : Scope :=
  [("range", .builtin "<class 'range'>" "type"), ("dict", .builtin "<class 'dict'>" "type"),
   ("cycler", .builtin "<class 'jinja2.utils.Cycler'>" "type"),
   ("joiner", .builtin "<class 'jinja2.utils.Joiner'>" "type"),
   ("namespace", .builtin "<class 'jinja2.utils.Namespace'>" "type")]

/-- The names that no parameter can have. -/
def reserved : Scope :=
  [("self", .builtin "<TemplateReference None>" "jinja2.runtime.TemplateReference")]

/-- The scope of a whole document under parameters. -/
def ofParams (params : Record) : Scope :=
  reserved ++ params.filterMap (fun entry => (Value.scalar entry.1).text?.map (·, .value entry.2)) ++
    globals

/-- What a name stands for. -/
def find (scope : Scope) (name : String) : Datum :=
  (scope.lookup name).getD (.missing (.undefinedName name))

end Scope

namespace Comparison

/-- A comparison holds between two things. -/
def holds : Comparison → Datum → Datum → Bool
  | equal, left, right => left.same right
  | unequal, left, right => !left.same right

end Comparison

namespace Expr

mutual

/-- What an expression stands for. The second operand of `and` and `or` counts only when the first
does not decide. -/
def eval (scope : Scope) : Expr → Except Error Datum
  | .literal value => .ok (.value value)
  | .name called => .ok (scope.find called)
  | .member owner called => do (← eval scope owner).member called
  | .item owner index => do (← eval scope owner).item index
  | .filter subject called arguments _ => do
    let first ← eval scope subject
    let others ← evalAll scope arguments
    match Filter.ofName? called with
    | some known => known.apply first others
    | none => .error (.unknownFilter called)
  | .negation operand => do return .value (.bool !(← eval scope operand).truthy)
  | .conjunction left right => do
    let first ← eval scope left
    if first.truthy then eval scope right else return first
  | .disjunction left right => do
    let first ← eval scope left
    if first.truthy then return first else eval scope right
  | .comparison first others => do
    let left ← eval scope first
    return .value (.bool (← holdsAll scope left others))

/-- What several expressions stand for. -/
def evalAll (scope : Scope) : List Expr → Except Error (List Datum)
  | [] => .ok []
  | expression :: rest => do
    let first ← eval scope expression
    return first :: (← evalAll scope rest)

/-- Comparisons in a row hold, up to the first that does not. -/
def holdsAll (scope : Scope) (left : Datum) : List (Comparison × Expr) → Except Error Bool
  | [] => .ok true
  | (sign, operand) :: rest => do
    let right ← eval scope operand
    if sign.holds left right then holdsAll scope right rest else return false

end

/-- The condition of a loop holds for an item; without a condition it always does. -/
def admits (scope : Scope) (target : String) (condition : Option Expr) (value : Value) :
    Except Error Bool :=
  match condition with
  | none => .ok true
  | some test => do return (← test.eval ((target, .value value) :: scope)).truthy

end Expr

/-- The texts of the items of a loop, one after the other, by their places. -/
def inTurn (textOf : Nat → Value → Except Error (List Char)) (index : Nat) :
    List Value → Except Error (List Char)
  | [] => .ok []
  | item :: rest => do
    let first ← textOf index item
    return first ++ (← inTurn textOf (index + 1) rest)

namespace Node

mutual

def render (scope : Scope) : Node → Except Error (List Char)
  | .text chars => .ok chars
  | .output expression => do return (← expression.eval scope).text
  | .loop target _ items condition body otherwise => do
    let all ← (← items.eval scope).items
    let chosen ← all.filterM (Expr.admits scope target condition)
    if chosen.isEmpty then renderAll scope otherwise
    else
      inTurn (fun index item =>
        renderAll ((target, .value item) :: (loopName, .position index chosen.length) :: scope) body)
        0 chosen
  | .branch cases otherwise => do
    match ← renderCase scope cases with
    | some chosen => return chosen
    | none => renderAll scope otherwise

/-- The text of nodes, one after the other. -/
def renderAll (scope : Scope) : List Node → Except Error (List Char)
  | [] => .ok []
  | node :: rest => do
    let first ← render scope node
    return first ++ (← renderAll scope rest)

/-- The text of the first case whose condition holds. -/
def renderCase (scope : Scope) : List (Expr × List Node) → Except Error (Option (List Char))
  | [] => .ok none
  | (condition, body) :: rest => do
    if (← condition.eval scope).truthy then return some (← renderAll scope body)
    else renderCase scope rest

end

end Node

namespace Document

/-- The text of a document under parameters. -/
def render (document : Document) (params : Record) : Except Error (List Char) :=
  Node.renderAll (.ofParams params) document

end Document

/-- The document of a template, or the failure that names the line where it is wrong. -/
def compile (template : List Char) : Except Error Document :=
  match Document.ofTemplate template with
  | .ok document => .ok document
  | .error line => .error (.templateSyntax line)

end Scaffold.Render
