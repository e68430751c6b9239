import Scaffold.Render.Reading

/-!
What a document has to satisfy beyond the grammar: its filters exist, and no loop calls its item
`loop`. Filters inside a branch are not checked, because the branch may never be taken; a loop inside
a branch is checked again.
-/

namespace Scaffold.Render

/-- The filters of the template language. -/
inductive Filter
  | upper
  | lower
  | default
  | join
  | list
  deriving DecidableEq, Repr

def Filter.ofName? (name : String) : Option Filter :=
  if name = "upper" then some .upper
  else if name = "lower" then some .lower
  else if name = "default" || name = "d" then some .default
  else if name = "join" then some .join
  else if name = "list" then some .list
  else none

namespace Expr

mutual

/-- The line of the first filter of an expression that does not exist. Of two filters in a row the
later one counts as the first. -/
def fault? : Expr → Option Nat
  | .literal _ => none
  | .name _ => none
  | .member owner _ => fault? owner
  | .item owner _ => fault? owner
  | .filter subject called arguments line =>
    if (Filter.ofName? called).isNone then some line
    else (fault? subject).or (faultOfAll? arguments)
  | .negation operand => fault? operand
  | .conjunction left right => (fault? left).or (fault? right)
  | .disjunction left right => (fault? left).or (fault? right)
  | .comparison first others => (fault? first).or (faultOfOthers? others)

/-- The line of the first filter of several expressions that does not exist. -/
def faultOfAll? : List Expr → Option Nat
  | [] => none
  | expression :: rest => (fault? expression).or (faultOfAll? rest)

/-- The line of the first filter of the operands of comparisons that does not exist. -/
def faultOfOthers? : List (Comparison × Expr) → Option Nat
  | [] => none
  | (_, operand) :: rest => (fault? operand).or (faultOfOthers? rest)

end

end Expr

def loopName : String := "loop"

namespace Node

mutual

/-- The line of the first loop in a node that calls its item `loop`. -/
def misnamed? : Node → Option Nat
  | .text _ => none
  | .output _ => none
  | .loop target line _ _ body otherwise =>
    if target = loopName then some line
    else (misnamedAmong? body).or (misnamedAmong? otherwise)
  | .branch cases otherwise => (misnamedInCases? cases).or (misnamedAmong? otherwise)

/-- The line of the first loop in nodes that calls its item `loop`. -/
def misnamedAmong? : List Node → Option Nat
  | [] => none
  | node :: rest => (misnamed? node).or (misnamedAmong? rest)

/-- The line of the first loop in the cases of a branch that calls its item `loop`. -/
def misnamedInCases? : List (Expr × List Node) → Option Nat
  | [] => none
  | (_, body) :: rest => (misnamedAmong? body).or (misnamedInCases? rest)

end

mutual

/-- The line of the first fault of a node, given whether its own filters are left unchecked. -/
def fault? (unchecked : Bool) : Node → Option Nat
  | .text _ => none
  | .output expression => if unchecked then none else expression.fault?
  | .loop target line items condition body otherwise =>
    (condition.bind Expr.fault?).or <|
      (misnamed? (.loop target line items condition body otherwise)).or <|
        (if unchecked then none else items.fault?).or <|
          (faultAmong? false body).or (faultAmong? false otherwise)
  | .branch cases otherwise => (faultInCases? cases).or (faultAmong? true otherwise)

/-- The line of the first fault of nodes. -/
def faultAmong? (unchecked : Bool) : List Node → Option Nat
  | [] => none
  | node :: rest => (fault? unchecked node).or (faultAmong? unchecked rest)

/-- The line of the first fault in the bodies of a branch. -/
def faultInCases? : List (Expr × List Node) → Option Nat
  | [] => none
  | (_, body) :: rest => (faultAmong? true body).or (faultInCases? rest)

end

end Node

namespace Document

/-- The document that a template writes, or the line where it is wrong. -/
def ofTemplate (template : List Char) : Except Nat Document :=
  match ofTokens (tokens template) with
  | .error line => .error line
  | .ok document =>
    match Node.faultAmong? false document with
    | some line => .error line
    | none => .ok document

end Document

end Scaffold.Render
