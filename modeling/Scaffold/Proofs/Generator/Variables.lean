import Scaffold.Proofs.Outcome
import Scaffold.Proofs.Render.FirstWords
import Scaffold.Proofs.Render.FreeNames

/-!
What a generator's text depends on. The analysis of a template lists its variables by the first words of
its tags. Parameters that agree on them, and on what the template uses but the analysis does not see or
leaves out, give the same text.
-/

namespace Scaffold.Generator

open Text Template Render

variable {name description : String} {template : List Char} {declared examples path : Value}
  {generator : Generator} {document : Document} {params others : Record}

/-- Two records give a name the same value, or none. Of two entries with one key the later counts. -/
def SameFor (params others : Record) (name : String) : Prop :=
  Keyed.field? (Keyed.ofEntries params) name = Keyed.field? (Keyed.ofEntries others) name

theorem SameFor.withDefaults (same : SameFor params others name) (declared : Keyed Param) :
    Keyed.field? (Param.withDefaults declared params) name =
      Keyed.field? (Param.withDefaults declared others) name := by
  rw [Param.withDefaults, Param.withDefaults, Keyed.field?_merge, Keyed.field?_merge, same]

section Bare

/-- The generator of a template without declarations. -/
def bare (template : List Char) : Generator :=
  ⟨"g", "D", .template template .null, allParams [] template, []⟩

/-- A template with a comment, a loop, a condition and a filter. -/
def rowsTemplate : List Char :=
  "{# rows #}{% for x in xs %}{{ x.id }}{% endfor %}{% if flag %}{{ title|upper }}{% endif %}".toList

end Bare

end Scaffold.Generator
