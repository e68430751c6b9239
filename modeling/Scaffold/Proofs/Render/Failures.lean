import Scaffold.Proofs.Escapes
import Scaffold.Render.Evaluation

/-!
How rendering fails. A document that compiles fails only where something is used in a way that its kind
does not allow, where a part of something missing is taken, or where a filter in a branch does not
exist.
-/

namespace Scaffold

/-- A value is gone through unless its kind does not allow it. -/
theorem Value.parts_fails (value : Value) : FailsWithin [.misuse] value.parts := by
  unfold parts
  split
  · exact .ok _
  · exact .ok _
  · exact .ok _
  · exact .escaping rfl (by decide)

namespace Render

/-- The kinds of failures that rendering may end by. -/
def escapes : List Escape := [.misuse, .undefined, .filter]

/-- Something missing tells that something is undefined. -/
def Datum.Sound : Datum → Prop
  | .missing cause => cause.escape? = some .undefined
  | _ => True

/-- All that names stand for is sound. -/
def Scope.Sound (scope : Scope) : Prop :=
  ∀ entry ∈ scope, entry.2.Sound

/-- A step gives something sound, or fails as rendering may. -/
def Yields (result : Except Error Datum) : Prop :=
  FailsWithin escapes result ∧ ∀ datum, result = .ok datum → datum.Sound

namespace Yields

theorem ok {datum : Datum} (sound : datum.Sound) : Yields (.ok datum) :=
  ⟨.ok _, fun _ same => Except.ok.inj same ▸ sound⟩

theorem error {cause : Error} {kind : Escape} (known : cause.escape? = some kind)
    (listed : kind ∈ escapes) : Yields (.error cause) :=
  ⟨.escaping known listed, fun _ impossible => by cases impossible⟩

theorem bind {α : Type} {first : Except Error α} {next : α → Except Error Datum}
    (fails : FailsWithin escapes first) (later : ∀ value, first = .ok value → Yields (next value)) :
    Yields (first >>= next) := by
  cases first with
  | error cause => exact ⟨.error (fails cause rfl), fun _ impossible => by cases impossible⟩
  | ok value => exact later value rfl

end Yields

theorem items_fails (datum : Datum) : FailsWithin escapes datum.items := by
  unfold Datum.items
  split
  · exact (Value.parts_fails _).widen (by decide)
  · exact .ok _
  · exact .escaping rfl (by decide)
  · exact .escaping rfl (by decide)
  · exact .escaping rfl (by decide)

theorem member_yields {owner : Datum} (sound : owner.Sound) (name : String) : Yields (owner.member name) := by
  unfold Datum.member
  split
  · refine .ok ?_
    unfold Datum.memberOf
    split
    · trivial
    · split
      · trivial
      · exact rfl
  · exact .error sound (by decide)
  · split
    · exact .ok trivial
    · exact .ok rfl
  · exact .ok rfl
  · exact .ok rfl

theorem item_yields {owner : Datum} (sound : owner.Sound) (index : Int) : Yields (owner.item index) := by
  unfold Datum.item
  split
  · split
    · exact .ok trivial
    · exact .ok rfl
  · exact .error sound (by decide)
  · exact .ok rfl
  · exact .ok rfl
  · exact .ok rfl

theorem apply_yields (filter : Filter) {subject : Datum} {arguments : List Datum} (sound : subject.Sound)
    (others : ∀ argument ∈ arguments, argument.Sound) : Yields (filter.apply subject arguments) := by
  have tooMany (name : String) : Yields (Filter.tooMany name) := .error rfl (by decide)
  have joined (separator : List Char) : Yields (Filter.apply.joined subject separator) :=
    .bind (items_fails subject) fun _ _ => .ok trivial
  have replaced {other : Datum} (known : other.Sound) (alsoFalse : Bool) :
      (Filter.apply.replaced subject other alsoFalse).Sound := by
    unfold Filter.apply.replaced
    split
    · exact known
    · split
      · exact known
      · exact sound
  unfold Filter.apply
  split
  · exact .ok trivial
  · exact tooMany _
  · exact .ok trivial
  · exact tooMany _
  · exact .bind (items_fails subject) fun _ _ => .ok trivial
  · exact tooMany _
  · split
    · exact joined _
    · exact joined _
    · exact tooMany _
  · split
    · exact .ok (replaced (show (Datum.ofText []).Sound from trivial) _)
    · exact .ok (replaced (others _ (by simp)) _)
    · exact .ok (replaced (others _ (by simp)) _)
    · exact tooMany _

namespace Scope.Sound

variable {scope : Scope}

theorem find (sound : scope.Sound) (name : String) : (scope.find name).Sound := by
  unfold Scope.find
  cases found : scope.lookup name with
  | none => exact rfl
  | some datum =>
    obtain ⟨front, back, split, _⟩ := List.lookup_eq_some_iff.mp found
    exact sound (name, datum) (split ▸ List.mem_append_right _ List.mem_cons_self)

theorem cons (sound : scope.Sound) {datum : Datum} (known : datum.Sound) (name : String) :
    Scope.Sound ((name, datum) :: scope) :=
  List.forall_mem_cons.mpr ⟨known, sound⟩

end Scope.Sound

namespace Expr

mutual

/-- What an expression stands for is sound, or it fails as rendering may. -/
theorem eval_yields {scope : Scope} (sound : scope.Sound) :
    (expression : Expr) → Yields (eval scope expression)
  | .literal _ => .ok trivial
  | .name called => .ok (sound.find called)
  | .member owner called => by
    have yields := eval_yields sound owner
    exact .bind yields.1 fun datum given => member_yields (yields.2 datum given) called
  | .item owner index => by
    have yields := eval_yields sound owner
    exact .bind yields.1 fun datum given => item_yields (yields.2 datum given) index
  | .filter subject called arguments _ => by
    have yields := eval_yields sound subject
    obtain ⟨fails, others⟩ := evalAll_yields sound arguments
    refine .bind yields.1 fun first given => .bind fails fun rest listed => ?_
    split
    · exact apply_yields _ (yields.2 first given) (others rest listed)
    · exact .error rfl (by decide)
  | .negation operand => .bind (eval_yields sound operand).1 fun _ _ => .ok trivial
  | .conjunction left right => by
    have yields := eval_yields sound left
    refine .bind yields.1 fun first given => ?_
    split
    · exact eval_yields sound right
    · exact .ok (yields.2 first given)
  | .disjunction left right => by
    have yields := eval_yields sound left
    refine .bind yields.1 fun first given => ?_
    split
    · exact .ok (yields.2 first given)
    · exact eval_yields sound right
  | .comparison first others =>
    .bind (eval_yields sound first).1 fun left _ => .bind (holdsAll_fails sound others left) fun _ _ => .ok trivial

theorem evalAll_yields {scope : Scope} (sound : scope.Sound) : (expressions : List Expr) →
    FailsWithin escapes (evalAll scope expressions) ∧
      ∀ data, evalAll scope expressions = .ok data → ∀ datum ∈ data, datum.Sound
  | [] => by
    refine ⟨.ok _, fun data same => ?_⟩
    obtain rfl := Except.ok.inj same
    simp
  | expression :: rest => by
    have here := eval_yields sound expression
    have later := evalAll_yields sound rest
    refine ⟨.bind here.1 fun _ _ => .bind later.1 fun _ _ => .ok _, fun data run => ?_⟩
    obtain ⟨first, given, run⟩ := bind_eq_ok.mp run
    obtain ⟨others, listed, run⟩ := bind_eq_ok.mp run
    obtain rfl := Except.ok.inj run
    exact List.forall_mem_cons.mpr ⟨here.2 first given, later.2 others listed⟩

theorem holdsAll_fails {scope : Scope} (sound : scope.Sound) :
    (others : List (Comparison × Expr)) → (left : Datum) → FailsWithin escapes (holdsAll scope left others)
  | [], _ => .ok _
  | (sign, operand) :: rest, left => by
    refine .bind (eval_yields sound operand).1 fun right _ => ?_
    split
    · exact holdsAll_fails sound rest right
    · exact .ok _

end

theorem admits_fails {scope : Scope} (sound : scope.Sound) (target : String) (condition : Option Expr)
    (value : Value) :
    FailsWithin escapes (admits scope target condition value) := by
  cases condition with
  | none => exact .ok _
  | some test =>
    exact .bind (eval_yields (sound.cons (show (Datum.value value).Sound from trivial) target) test).1
      fun _ _ => .ok _

end Expr

theorem inTurn_fails {textOf : Nat → Value → Except Error (List Char)}
    (each : ∀ index item, FailsWithin escapes (textOf index item)) (items : List Value) (index : Nat) :
    FailsWithin escapes (inTurn textOf index items) := by
  induction items generalizing index with
  | nil => exact .ok _
  | cons item rest ih => exact .bind (each index item) fun _ _ => .bind (ih _) fun _ _ => .ok _

namespace Node

mutual

/-- The text of a node is made, or it fails as rendering may. -/
theorem render_fails {scope : Scope} (sound : scope.Sound) :
    (node : Node) → FailsWithin escapes (render scope node)
  | .text _ => .ok _
  | .output expression => .bind (Expr.eval_yields sound expression).1 fun _ _ => .ok _
  | .loop target _ items condition body otherwise => by
    refine .bind (Expr.eval_yields sound items).1 fun source _ => ?_
    refine .bind (items_fails source) fun all _ => ?_
    refine .bind (FailsOnly.filterM fun item _ => Expr.admits_fails sound target condition item) fun chosen _ => ?_
    split
    · exact renderAll_fails sound otherwise
    · refine inTurn_fails (fun index item => renderAll_fails ?_ body) _ _
      have inner := sound.cons (show (Datum.position index chosen.length).Sound from trivial) loopName
      exact inner.cons (show (Datum.value item).Sound from trivial) target
  | .branch cases otherwise => by
    refine .bind (renderCase_fails sound cases) fun found _ => ?_
    split
    · exact .ok _
    · exact renderAll_fails sound otherwise

theorem renderAll_fails {scope : Scope} (sound : scope.Sound) :
    (nodes : List Node) → FailsWithin escapes (renderAll scope nodes)
  | [] => .ok _
  | node :: rest =>
    .bind (render_fails sound node) fun _ _ => .bind (renderAll_fails sound rest) fun _ _ => .ok _

theorem renderCase_fails {scope : Scope} (sound : scope.Sound) :
    (cases : List (Expr × List Node)) → FailsWithin escapes (renderCase scope cases)
  | [] => .ok _
  | (condition, body) :: rest => by
    refine .bind (Expr.eval_yields sound condition).1 fun _ _ => ?_
    split
    · exact .bind (renderAll_fails sound body) fun _ _ => .ok _
    · exact renderCase_fails sound rest

end

end Node

theorem sound_ofParams (params : Record) : (Scope.ofParams params).Sound := by
  unfold Scope.ofParams Scope.Sound
  simp only [List.forall_mem_append]
  refine ⟨⟨by simp [Scope.reserved, Datum.Sound], ?_⟩, by simp [Scope.globals, Datum.Sound]⟩
  intro entry listed
  obtain ⟨given, _, known⟩ := List.mem_filterMap.mp listed
  obtain ⟨name, _, rfl⟩ := Option.map_eq_some_iff.mp known
  trivial

/-- A template that does not compile is reported with the line where it is wrong. -/
theorem compile_fails (kinds : List Escape) (template : List Char) :
    FailsWithin kinds (compile template) := by
  unfold compile
  split
  · exact .ok _
  · exact .reported rfl

theorem document_fails (document : Document) (params : Record) :
    FailsWithin escapes (document.render params) :=
  Node.renderAll_fails (sound_ofParams params) document

end Render

end Scaffold
