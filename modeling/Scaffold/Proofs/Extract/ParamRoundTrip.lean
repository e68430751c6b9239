import Scaffold.Proofs.Extract.ParamValues
import Scaffold.Proofs.Render.ParamDocument

/-!
A line with placeholders that is rendered with values of the parameters' kinds gives these values back,
also when the blanks in its texts have been changed.
-/

namespace Scaffold.Extract

open Text Template

variable {line : ParamLine} {hints : Hints} {value : String → Value}

/-- A line with placeholders compiles, for extraction and for rendering. With values of the kinds that
the hints say it is rendered as the line with their texts; and from that line, with any runs of blanks
in place of those in its texts, just these values are extracted, one for each parameter, in the order
of their first use. -/
theorem extract_render_params (shaped : line.Shaped) (hints : Hints) (strict : Bool)
    (assigned : Assigned line hints value) :
    ∃ extractor document,
      Extractor.build line.template hints strict = ([], .ok extractor) ∧
      Render.compile line.template = .ok document ∧
      (∀ params : Record, (∀ name ∈ line.names, Keyed.field? params name = some (value name)) →
        document.render params = .ok (line.fill fun name => (value name).shown)) ∧
      ∀ line' : ParamLine, line.Respaced line' →
        extractor.extract (line'.fill fun name => (value name).shown) =
          .ok (line.params.map fun name => (name, value name)) :=
  ⟨_, _, build_params shaped hints strict, Render.compile_paramLine shaped,
    fun _ held => Render.render_paramDocument shaped held,
    fun _ spaced => extract_fill shaped assigned spaced line.template⟩

/-- A line that shows a name twice, with a number and a truth value between. -/
def constantLine : ParamLine where
  first := "const ".toList
  name := "name"
  more := [("=".toList, "size"), (", ".toList, "on"), (";// ".toList, "name")]
  last := [' ']

/-- The line with other blanks. -/
def respacedLine : ParamLine where
  first := "const\t ".toList
  name := "name"
  more := [("=".toList, "size"), (",\n".toList, "on"), (";//  ".toList, "name")]
  last := ['\n']

/-- The kinds of the parameters that are no identifiers. -/
def constantHints : Hints :=
  [("size", .kind .number), ("on", .kind .boolean)]

/-- Values for the line. -/
def constantValue (name : String) : Value :=
  if name = "size" then .int (-12) else if name = "on" then .bool true else .text "$depth"

theorem respaced_constantLine : constantLine.Respaced respacedLine := by
  have blanks {run run' : List Char} (filled : run ≠ [] ∧ run' ≠ [])
      (blank : (run ++ run').all isBlank = true) : Respaced run run' := by
    rw [List.all_eq_true, List.forall_mem_append] at blank
    simpa using Respaced.blanks filled.1 filled.2 blank.1 blank.2 (by simp) .nil
  refine ⟨.cons ⟨?_, rfl⟩ <| .cons ⟨.refl _, rfl⟩ <| .cons ⟨?_, rfl⟩ <| .cons ⟨?_, rfl⟩ .nil, ?_⟩
  · exact .solid 'c' rfl <| .solid 'o' rfl <| .solid 'n' rfl <| .solid 's' rfl <| .solid 't' rfl <|
      blanks (by decide) (by decide)
  · exact .solid ',' rfl <| blanks (by decide) (by decide)
  · exact .solid ';' rfl <| .solid '/' rfl <| .solid '/' rfl <| blanks (by decide) (by decide)
  · exact blanks (by decide) (by decide)

theorem extract_render_params_of_constant :
    constantLine.Shaped ∧ Assigned constantLine constantHints constantValue ∧
    ∃ extractor document,
      Extractor.build constantLine.template constantHints true = ([], .ok extractor) ∧
      Render.compile constantLine.template = .ok document ∧
      document.render
          [(.text "on", .bool true), (.text "name", .text "$depth"), (.text "size", .int (-12))] =
        .ok "const $depth=-12, True;// $depth ".toList ∧
      extractor.extract "const\t $depth=-12,\nTrue;//  $depth\n".toList =
        .ok [("name", .text "$depth"), ("size", .int (-12)), ("on", .bool true)] := by
  have shaped : constantLine.Shaped := by
    refine ⟨by decide, ?_, by decide, by decide, by decide⟩
    simp [constantLine, ParamLine.literals, isBare, isLiteral]
  have assigned : Assigned constantLine constantHints constantValue := by
    have name : Suited .identifier (.text "$depth") := .identifier "$depth" (by decide)
    have short : 12 < 10 ^ 2 := by decide
    change ∀ name ∈ ["name", "size", "on", "name"], _
    simp only [List.forall_mem_cons]
    refine ⟨name, ?_, .boolean true, name, by simp⟩
    exact .number (-12) (short.trans_le (Nat.pow_le_pow_right (by decide) (by decide)))
  obtain ⟨extractor, document, built, compiled, rendered, extracted⟩ :=
    extract_render_params shaped constantHints true assigned
  refine ⟨shaped, assigned, extractor, document, built, compiled, rendered _ ?_,
    extracted respacedLine respaced_constantLine⟩
  change ∀ name ∈ ["name", "size", "on", "name"], _
  simp only [List.forall_mem_cons]
  exact ⟨rfl, rfl, rfl, rfl, by simp⟩

end Scaffold.Extract
