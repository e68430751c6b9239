import Scaffold.Template.Tag

/-!
The variables of a template: the names that a rendering of it has to supply.
-/

namespace Scaffold.Template

open Text

/-- The names that mean something in every template and are no variables. -/
def builtinNames : List String :=
  ["loop", "range", "super", "self", "true", "false", "none", "True", "False", "None"]

/-- A name that is used at the top level: a collection that is looped over, or the head of an
expression. -/
def usedName? (text : List Char) : Option (String × List Char) :=
  match forHead? text with
  | some (tag, rest) => some (tag.collection, rest)
  | none => expressionHead? text

def itemNames (text : List Char) : List String :=
  (findAll forTag? text).map ForTag.item

/-- The names of the collections that the loops in a text go over. -/
def collectionNames (text : List Char) : List String :=
  (findAll forTag? text).map ForTag.collection

/-- The variables of a template in the order of their first use. -/
def variableNames (template : List Char) : List String :=
  let text := withoutComments template
  let items := itemNames text
  ((findAll usedName? text).filter fun name =>
    !items.contains name && !builtinNames.contains name).eraseDups

end Scaffold.Template
