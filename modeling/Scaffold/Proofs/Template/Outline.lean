import Scaffold.Template.Analysis

/-!
Outlines one behind the other. What the analysis finds in a closed outline does not depend on what
follows it; what it finds behind a loop depends on the text before, and on which placeholders were
found there.
-/

namespace Scaffold.Template

open Text

namespace Outline

def Closed : Outline → Prop
  | done _ => True
  | loop _ _ rest => rest.Closed
  | unclosed .. => False

/-- One outline behind another, if all loops of that are closed. -/
def append : Outline → Outline → Outline
  | done text, back => back.precede text
  | loop text span rest, back => loop text span (rest.append back)
  | unclosed text tag remainder, _ => unclosed text tag remainder

def closedPart : Outline → Outline
  | done text => done text
  | loop text span rest => loop text span rest.closedPart
  | unclosed text _ _ => done text

variable {o front back back' : Outline}

theorem precede_precede (first second : List Char) (o : Outline) :
    (o.precede second).precede first = o.precede (first ++ second) := by
  cases o <;> simp [precede]

theorem precede_append (chars : List Char) (front back : Outline) :
    (front.append back).precede chars = (front.precede chars).append back := by
  cases front with
  | done => exact precede_precede _ _ _
  | loop => rfl
  | unclosed => rfl

theorem append_assoc (first second third : Outline) :
    (first.append second).append third = first.append (second.append third) := by
  induction first with
  | done text => exact (precede_append text second third).symm
  | loop text span rest ih => exact congrArg (loop text span) ih
  | unclosed => rfl

theorem precede_nil (o : Outline) : o.precede [] = o := by
  cases o <;> rfl

theorem append_done_nil (o : Outline) : o.append (done []) = o := by
  induction o with
  | done text => exact congrArg done (List.append_nil text)
  | loop text span rest ih => exact congrArg (loop text span) ih
  | unclosed => rfl

theorem Closed.precede (closed : o.Closed) (chars : List Char) : (o.precede chars).Closed := by
  cases o <;> exact closed

theorem Closed.append (closed : front.Closed) (closed' : back.Closed) :
    (front.append back).Closed := by
  induction front with
  | done text => exact closed'.precede text
  | loop text span rest ih => exact ih closed
  | unclosed => exact closed

theorem closedPart_closed (o : Outline) : o.closedPart.Closed := by
  induction o with
  | done => trivial
  | loop text span rest ih => exact ih
  | unclosed => trivial

theorem Closed.closedPart_eq (closed : o.Closed) : o.closedPart = o := by
  induction o with
  | done => rfl
  | loop text span rest ih => exact congrArg (loop text span) (ih closed)
  | unclosed => exact closed.elim

theorem closedPart_precede (chars : List Char) (o : Outline) :
    (o.precede chars).closedPart = o.closedPart.precede chars := by
  cases o <;> rfl

theorem precede_injective {chars : List Char} (same : back.precede chars = back'.precede chars) :
    back = back' := by
  cases back <;> cases back' <;> simp_all [Outline.precede]

/-- What stands behind a closed outline can be told from the whole. -/
theorem Closed.append_cancel (closed : front.Closed) (same : front.append back = front.append back') :
    back = back' := by
  induction front with
  | done text => exact precede_injective same
  | loop text span rest ih => exact ih closed (loop.inj same).2.2
  | unclosed => exact closed.elim

end Outline

/-- Characters alone are text. -/
theorem outlineOf_map_char (chars : List Char) (items : List (Piece LoopTag)) :
    outlineOf (chars.map .char ++ items) = (outlineOf items).precede chars := by
  induction chars with
  | nil => exact (Outline.precede_nil _).symm
  | cons c chars ih =>
    rw [List.map_cons, List.cons_append, outlineOf, ih, Outline.precede_precede]
    rfl

/-! ### The analysis of an outline and what follows it -/

namespace Analysis

/-- The blocks that are found. -/
def blocks (analysis : Analysis) : List Block :=
  analysis.findings.filterMap blockOf?

/-- The names of the placeholders that are found outside of loops. -/
def placeholders (analysis : Analysis) : List String :=
  analysis.findings.filterMap fun
    | .param block => some block.name
    | .loop _ => none

variable {seen seen' : List String} {preceding : List Char}

theorem newParams_congr (same : ∀ name, name ∈ seen ↔ name ∈ seen') (blocks : List ParamBlock) :
    newParams seen blocks = newParams seen' blocks := by
  induction blocks generalizing seen seen' with
  | nil => rfl
  | cons block rest ih =>
    have known : seen.contains block.name = seen'.contains block.name := by
      rw [Bool.eq_iff_iff, List.contains_iff_mem, List.contains_iff_mem, same]
    have longer : ∀ name, name ∈ block.name :: seen ↔ name ∈ block.name :: seen' := by
      simp [same]
    rw [newParams, newParams, known, ih same, ih longer]

/-- Of the names found before, only which they are matters. -/
theorem ofOutline_congr (same : ∀ name, name ∈ seen ↔ name ∈ seen') (preceding : List Char)
    (o : Outline) : ofOutline preceding seen o = ofOutline preceding seen' o := by
  induction o generalizing preceding seen seen' with
  | done text => rw [ofOutline, ofOutline, newParams_congr same]
  | unclosed text tag remainder => rw [ofOutline, ofOutline, newParams_congr same]
  | loop text span rest ih =>
    simp only [ofOutline, newParams_congr same]
    rw [ih fun name => ?_]
    simp [same]

theorem placeholders_params (blocks : List ParamBlock) (reading : List LoopReading)
    (unclosed : Option String) :
    (⟨blocks.map .param ++ reading.map .loop, unclosed⟩ : Analysis).placeholders =
      blocks.map ParamBlock.name := by
  simp [placeholders, List.filterMap_append, List.filterMap_map, Function.comp_def]

theorem placeholders_precede (findings : List Finding) (analysis : Analysis) :
    (analysis.precede findings).placeholders =
      (⟨findings, none⟩ : Analysis).placeholders ++ analysis.placeholders :=
  List.filterMap_append

theorem precede_precede (first second : List Finding) (analysis : Analysis) :
    (analysis.precede second).precede first = analysis.precede (first ++ second) := by
  simp [precede]

/-- The analysis of a closed outline with a loop behind it: the findings of the outline, the loop, and
the findings of what follows. -/
theorem ofOutline_append_loop {o : Outline} (closed : o.Closed) (preceding : List Char)
    (seen : List String) (span : LoopSpan) (rest : Outline) :
    ofOutline preceding seen (o.append (.loop [] span rest)) =
      (ofOutline (preceding ++ o.source ++ span.source)
        ((ofOutline preceding seen o).placeholders ++ seen) rest).precede
        ((ofOutline preceding seen o).findings ++ [.loop (readLoop (preceding ++ o.source) span)]) := by
  induction o generalizing preceding seen with
  | done text =>
    have names := placeholders_params (newParams seen (textParams text)) [] none
    rw [List.map_nil, List.append_nil] at names
    rw [Outline.append, Outline.precede, List.append_nil, ofOutline, ofOutline, names]
    rfl
  | loop text first more ih =>
    have names := placeholders_params (newParams seen (textParams text))
      [readLoop (preceding ++ text) first] none
    rw [List.map_singleton] at names
    rw [Outline.append, ofOutline, ih closed, precede_precede, ofOutline, placeholders_precede, names]
    have place : preceding ++ (Outline.loop text first more).source =
        preceding ++ text ++ first.source ++ more.source := by
      simp [Outline.source]
    have findings : ∀ findings (analysis : Analysis),
        (analysis.precede findings).findings = findings ++ analysis.findings := fun _ _ => rfl
    rw [place, findings, List.append_assoc _ _ [_]]
    refine congrArg (precede _) (ofOutline_congr (fun name => ?_) _ _)
    simp only [List.mem_append]
    rw [or_left_comm, or_assoc]
  | unclosed => exact closed.elim

theorem unclosed_of_closed {o : Outline} (closed : o.Closed) (preceding : List Char)
    (seen : List String) : (ofOutline preceding seen o).unclosed = none := by
  induction o generalizing preceding seen with
  | done => rfl
  | loop text span rest ih => exact ih closed _ _
  | unclosed => exact closed.elim

/-- What comes of an analysis in which some loop has neither a block nor a way to read it back:
lenient analysis leaves it out, and strict analysis stops there unless it has stopped before. -/
theorem leaves_out (before behind : Analysis) (name : String) (obstacle : Obstacle) :
    let analysis := behind.precede (before.findings ++ [.loop ⟨name, none, some obstacle⟩])
    analysis.warnings =
        before.warnings ++ .skippedLoop name obstacle.reason :: behind.warnings ∧
      analysis.blocks = before.blocks ++ behind.blocks ∧
      analysis.obstacle? = some (before.obstacle?.getD (name, obstacle)) := by
  refine ⟨?_, ?_, ?_⟩
  · simp [warnings, skipped, precede, List.filterMap_append]
  · have none : blockOf? (.loop ⟨name, none, some obstacle⟩) = none := rfl
    simp [blocks, precede, List.filterMap_append, none]
  · cases found : before.obstacle? <;>
      · simp only [obstacle?] at found
        simp [obstacle?, precede, List.findSome?_append, found]

/-- When every loop is closed and nothing stands in the way of reading it back, strict and lenient
analysis give the same blocks, without warnings. -/
theorem analyze_of_clear {template : List Char} (closed : (ofTemplate template).unclosed = none)
    (clear : ∀ reading, .loop reading ∈ (ofTemplate template).findings → reading.obstacle = none)
    (strict : Bool) : analyze strict template = ([], .ok (ofTemplate template).blocks) := by
  have unobstructed : (ofTemplate template).obstacle? = none := by
    refine List.findSome?_eq_none_iff.mpr fun finding listed => ?_
    cases finding with
    | param => rfl
    | loop reading => simp only [clear reading listed, Option.map_none]
  have none : (ofTemplate template).skipped = [] := by
    refine List.filterMap_eq_nil_iff.mpr fun finding listed => ?_
    cases finding with
    | param => rfl
    | loop reading => simp only [clear reading listed, Option.map_none, ite_self]
  have lenient : (ofTemplate template).lenient = .ok (ofTemplate template).blocks := by
    rw [lenient, closed, blocks]
  rw [analyze]
  cases strict with
  | false => rw [if_neg Bool.false_ne_true, warnings, none, lenient, List.map_nil]
  | true => rw [if_pos rfl, Analysis.strict, unobstructed, lenient]

end Analysis

end Scaffold.Template
