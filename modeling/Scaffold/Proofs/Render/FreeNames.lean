import Scaffold.Generator.Basic
import Scaffold.Proofs.Value.Fields

/-!
What a document reads of its parameters. Its text depends only on what the names stand for that it
uses outside of the loops which bind them.
-/

namespace Scaffold.Render

def Scope.AgreeOn (names : List String) (scope other : Scope) : Prop :=
  ∀ name ∈ names, scope.find name = other.find name

namespace Scope.AgreeOn

variable {names others : List String} {scope other : Scope} {target : String} {datum : Datum}

theorem left (agree : AgreeOn (names ++ others) scope other) : AgreeOn names scope other :=
  fun name member => agree name (List.mem_append_left others member)

theorem right (agree : AgreeOn (names ++ others) scope other) : AgreeOn others scope other :=
  fun name member => agree name (List.mem_append_right names member)

/-- A name that is bound anew need not have stood for the same before. -/
theorem bind (agree : AgreeOn (names.filter (· != target)) scope other) (datum : Datum) :
    AgreeOn names ((target, datum) :: scope) ((target, datum) :: other) := by
  intro name member
  unfold find
  rw [List.lookup_cons, List.lookup_cons]
  cases same : name == target with
  | true => rfl
  | false => exact agree name (List.mem_filter.mpr ⟨member, by simp [bne, same]⟩)

end Scope.AgreeOn

namespace Expr

mutual

/-- The names in an expression. -/
def names : Expr → List String
  | .literal _ => []
  | .name called => [called]
  | .member owner _ => names owner
  | .item owner _ => names owner
  | .filter subject _ arguments _ => names subject ++ namesOfAll arguments
  | .negation operand => names operand
  | .conjunction left right => names left ++ names right
  | .disjunction left right => names left ++ names right
  | .comparison first others => names first ++ namesOfOthers others

/-- The names in several expressions. -/
def namesOfAll : List Expr → List String
  | [] => []
  | expression :: rest => names expression ++ namesOfAll rest

def namesOfOthers : List (Comparison × Expr) → List String
  | [] => []
  | (_, operand) :: rest => names operand ++ namesOfOthers rest

end

variable {scope other : Scope}

mutual

/-- What an expression stands for depends on its names only. -/
theorem eval_congr :
    ∀ expression : Expr, Scope.AgreeOn (names expression) scope other →
      eval scope expression = eval other expression
  | .literal _, _ => rfl
  | .name called, agree => by
    rw [eval, eval, agree called (List.mem_singleton.mpr rfl)]
  | .member owner _, agree => by
    rw [eval, eval, eval_congr owner agree]
  | .item owner _, agree => by
    rw [eval, eval, eval_congr owner agree]
  | .filter subject _ arguments _, agree => by
    rw [names] at agree
    rw [eval, eval, eval_congr subject agree.left, evalAll_congr arguments agree.right]
  | .negation operand, agree => by
    rw [eval, eval, eval_congr operand agree]
  | .conjunction left right, agree => by
    rw [names] at agree
    rw [eval, eval, eval_congr left agree.left, eval_congr right agree.right]
  | .disjunction left right, agree => by
    rw [names] at agree
    rw [eval, eval, eval_congr left agree.left, eval_congr right agree.right]
  | .comparison first others, agree => by
    rw [names] at agree
    simp only [eval, eval_congr first agree.left, holdsAll_congr others agree.right]

theorem evalAll_congr :
    ∀ expressions : List Expr, Scope.AgreeOn (namesOfAll expressions) scope other →
      evalAll scope expressions = evalAll other expressions
  | [], _ => rfl
  | expression :: rest, agree => by
    rw [namesOfAll] at agree
    rw [evalAll, evalAll, eval_congr expression agree.left, evalAll_congr rest agree.right]

theorem holdsAll_congr :
    ∀ others : List (Comparison × Expr), Scope.AgreeOn (namesOfOthers others) scope other →
      ∀ left, holdsAll scope left others = holdsAll other left others
  | [], _, _ => rfl
  | (_, operand) :: rest, agree, left => by
    rw [namesOfOthers] at agree
    simp only [holdsAll, eval_congr operand agree.left, holdsAll_congr rest agree.right]

end

/-- Whether an item comes into a loop depends on the names of the condition but for that of the item. -/
theorem admits_congr {target : String} {condition : Option Expr}
    (agree : Scope.AgreeOn ((condition.elim [] names).filter (· != target)) scope other) :
    admits scope target condition = admits other target condition := by
  funext value
  cases condition with
  | none => rfl
  | some test => rw [admits, admits, eval_congr test (agree.bind _)]

end Expr

namespace Node

mutual

/-- The names that a node uses and does not bind itself. -/
def freeNames : Node → List String
  | .text _ => []
  | .output expression => expression.names
  | .loop target _ items condition body otherwise =>
    items.names ++ (condition.elim [] Expr.names).filter (· != target) ++
      ((freeNamesOfAll body).filter (· != target)).filter (· != loopName) ++
        freeNamesOfAll otherwise
  | .branch cases otherwise => freeNamesOfCases cases ++ freeNamesOfAll otherwise

/-- The names that nodes use and do not bind themselves. -/
def freeNamesOfAll : List Node → List String
  | [] => []
  | node :: rest => freeNames node ++ freeNamesOfAll rest

/-- The names that the cases of a branch use and do not bind themselves. -/
def freeNamesOfCases : List (Expr × List Node) → List String
  | [] => []
  | (condition, body) :: rest => condition.names ++ freeNamesOfAll body ++ freeNamesOfCases rest

end

mutual

/-- The text of a node depends only on the names that the node uses and does not bind itself. -/
theorem render_congr :
    ∀ (node : Node) {scope other : Scope}, Scope.AgreeOn (freeNames node) scope other →
      render scope node = render other node
  | .text _, _, _, _ => rfl
  | .output expression, _, _, agree => by
    rw [render, render, expression.eval_congr agree]
  | .loop target _ items condition body otherwise, scope, other, agree => by
    rw [freeNames] at agree
    have inner : ∀ place item,
        renderAll ((target, .value item) :: (loopName, place) :: scope) body =
          renderAll ((target, .value item) :: (loopName, place) :: other) body :=
      fun place item => renderAll_congr body ((agree.left.right.bind place).bind (.value item))
    simp only [render, items.eval_congr agree.left.left.left,
      Expr.admits_congr agree.left.left.right, inner, renderAll_congr otherwise agree.right]
  | .branch cases otherwise, _, _, agree => by
    rw [freeNames] at agree
    simp only [render, renderCase_congr cases agree.left, renderAll_congr otherwise agree.right]

theorem renderAll_congr :
    ∀ (nodes : List Node) {scope other : Scope}, Scope.AgreeOn (freeNamesOfAll nodes) scope other →
      renderAll scope nodes = renderAll other nodes
  | [], _, _, _ => rfl
  | node :: rest, _, _, agree => by
    rw [freeNamesOfAll] at agree
    rw [renderAll, renderAll, render_congr node agree.left, renderAll_congr rest agree.right]

theorem renderCase_congr :
    ∀ (cases : List (Expr × List Node)) {scope other : Scope},
      Scope.AgreeOn (freeNamesOfCases cases) scope other →
        renderCase scope cases = renderCase other cases
  | [], _, _, _ => rfl
  | (condition, body) :: rest, _, _, agree => by
    rw [freeNamesOfCases] at agree
    simp only [renderCase, condition.eval_congr agree.left.left,
      renderAll_congr body agree.left.right, renderCase_congr rest agree.right]

end

end Node

/-- The names that a document takes from its parameters, or from what every template knows. -/
def Document.freeNames (document : Document) : List String :=
  Node.freeNamesOfAll document

variable {params others : Record}

theorem lookup_texts (params : Record) (name : String) :
    (params.filterMap fun entry => (Value.scalar entry.1).text?.map (·, Datum.value entry.2)).lookup
        name = (Keyed.field? params name).map .value := by
  induction params with
  | nil => rfl
  | cons entry params ih =>
    obtain ⟨key, value⟩ := entry
    rw [Keyed.field?, Keyed.get?, List.find?_cons]
    cases key with
    | text called =>
      rw [Keyed.same_text]
      change List.lookup name ((called, Datum.value value) :: _) = _
      rw [List.lookup_cons, BEq.comm, ih]
      cases called == name <;> rfl
    | null | bool _ | int _ | float _ | date _ _ _ => exact ih

/-- What a name stands for in a document comes from the entry of the name alone. -/
theorem Scope.find_ofParams_congr {name : String}
    (same : Keyed.field? params name = Keyed.field? others name) :
    (Scope.ofParams params).find name = (Scope.ofParams others).find name := by
  simp only [find, ofParams, List.lookup_append, lookup_texts, same]

theorem Document.render_congr {document : Document}
    (same : ∀ name ∈ document.freeNames, Keyed.field? params name = Keyed.field? others name) :
    document.render params = document.render others :=
  Node.renderAll_congr document fun name member => Scope.find_ofParams_congr (same name member)

end Scaffold.Render

namespace Scaffold.Generator

/-- Two records have the same values, their own or the usual ones, for all names that the template of
a generator uses. -/
def SameInputs (generator : Generator) (params others : Record) : Prop :=
  ∀ template document, generator.template? = some template →
    Render.compile template = .ok document →
      ∀ name ∈ document.freeNames,
        Keyed.field? (Param.withDefaults generator.params params) name =
          Keyed.field? (Param.withDefaults generator.params others) name

/-- A generator with a template makes the same text of records with the same values for all names that
the template uses. -/
theorem SameInputs.render {generator : Generator} {template : List Char} {params others : Record}
    (recipe : generator.template? = some template) (same : generator.SameInputs params others) :
    generator.render params = generator.render others := by
  unfold template? at recipe
  unfold Generator.render
  split at recipe
  · next text path written =>
    cases recipe
    simp only
    cases compiled : Render.compile template with
    | error error => rfl
    | ok document =>
      refine Render.Document.render_congr (same template document ?_ compiled)
      rw [template?, written]
  · cases recipe

end Scaffold.Generator
