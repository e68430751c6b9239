import Scaffold.Extract.Reading
import Scaffold.Template.Analysis

/-!
Extractors: all matchers of a template. They are applied to the whole text one by one and share
nothing, so that two of them may find the same place.
-/

namespace Scaffold.Extract

open Template

/-- The matchers of a template in the order of its blocks. -/
structure Extractor where
  template : List Char
  matchers : List Matcher
  deriving DecidableEq, Repr

/-- Values by the names of their parameters. -/
abbrev Values := List (String × Value)

namespace Extractor

/-- The extractor of a template, with the warnings of analysing it. -/
def build (template : List Char) (hints : Hints) (strict : Bool) :
    List Warning × Except Error Extractor :=
  let (warnings, blocks) := analyze strict template
  (warnings, do return ⟨template, ← (← blocks).mapM fun block => compile block hints⟩)

/-- The values that matchers find in a text, where the names in `claimed` belong to matchers before.
The first matcher of a name decides, also when it finds nothing. -/
def extractFrom (source : List Char) (claimed : List String) : List Matcher → Except Error Values
  | [] => .ok []
  | matcher :: rest =>
    if claimed.contains matcher.name then extractFrom source claimed rest
    else do
      let value ← matcher.extract source
      let others ← extractFrom source (matcher.name :: claimed) rest
      return (value.map fun value => (matcher.name, value)).toList ++ others

/-- The values of a template's parameters in a text. -/
def extract (extractor : Extractor) (source : List Char) : Except Error Values :=
  extractFrom source [] extractor.matchers

end Extractor

end Scaffold.Extract
