import Scaffold.Value.Basic

/-!
Documents: templates as trees of text, expressions, loops and branches.
-/

namespace Scaffold.Render

/-- A comparison of two values. -/
inductive Comparison
  | equal
  | unequal
  deriving DecidableEq, Repr

/-- An expression of the template language. -/
inductive Expr
  | literal (value : Value)
  | name (name : String)
  | member (owner : Expr) (name : String)
  /-- What an expression has at a place. -/
  | item (owner : Expr) (index : Int)
  /-- A filter applied to a value with further arguments, and the line of its name. -/
  | filter (subject : Expr) (name : String) (arguments : List Expr) (line : Nat)
  | negation (operand : Expr)
  | conjunction (left right : Expr)
  | disjunction (left right : Expr)
  /-- Comparisons of neighbours in a row, all of which have to hold. -/
  | comparison (first : Expr) (others : List (Comparison × Expr))
  deriving Repr, Inhabited

/-- A part of a document. -/
inductive Node
  | text (chars : List Char)
  | output (expression : Expr)
  /-- A loop: the name of its item with its line, what is gone through, the condition on items, the
  body, and what stands in for it when there is no item. -/
  | loop (target : String) (line : Nat) (items : Expr) (condition : Option Expr) (body : List Node)
    (otherwise : List Node)
  /-- The first of several bodies whose condition holds, or else another. -/
  | branch (cases : List (Expr × List Node)) (otherwise : List Node)
  deriving Repr, Inhabited

/-- A template as a tree. -/
abbrev Document := List Node

end Scaffold.Render
