import Scaffold.Generator.Basic
import Scaffold.Generator.Review

/-!
Registries: generators by their names, in the order in which they were registered. What is registered
has been reviewed.
-/

namespace Scaffold

/-- A collection of generators. -/
structure Registry where
  generators : List Generator := []

namespace Registry

/-- A character that a name may begin with. -/
def isNameStart (c : Char) : Bool :=
  c.isAlpha || c == '_'

/-- A character that a name may have. -/
def isNamePart (c : Char) : Bool :=
  c.isAlphanum || c == '_' || c == '.' || c == '-'

/-- A text is the name of a generator; a line feed may follow it. -/
def isName (text : List Char) : Bool :=
  match text with
  | [] => false
  | first :: rest =>
    let tail := rest.dropWhile isNamePart
    isNameStart first && (tail.isEmpty || tail == ['\n'])

def get? (registry : Registry) (name : String) : Option Generator :=
  registry.generators.find? fun generator => generator.name == name

def resolve (registry : Registry) (name : String) : Except Error Generator :=
  match registry.get? name with
  | some generator => .ok generator
  | none => .error (.generatorNotFound name)

/-- The names of the generators. -/
def names (registry : Registry) : List String :=
  registry.generators.map Generator.name

/-- What is known of every generator. -/
def catalog (registry : Registry) : List Value :=
  registry.generators.map Generator.metadata

/-- Checks that a template can be rendered and analysed, with the warnings of the analysis. -/
def checkTemplate (template : List Char) : List Warning × Except Error Unit :=
  match Render.compile template with
  | .error error => ([], .error error)
  | .ok _ =>
    let (warnings, blocks) := Template.analyze false template
    (warnings, blocks.map fun _ => ())

/-- Checks that a generator's declarations and its template are sound, with warnings. -/
def check (generator : Generator) : List Warning × Except Error Unit :=
  match Review.ofParams generator.params with
  | .error error => ([], .error error)
  | .ok review =>
    if !review.passed then ([], .error (.invalidParams generator.name review.summary))
    else
      let doubts := review.doubts.map fun doubt =>
        Warning.doubtfulParam generator.name doubt.message
      match generator.template? with
      | none => (doubts, .ok ())
      | some template =>
        let (warnings, result) := checkTemplate template
        (doubts ++ warnings, result)

/-- The registry with one more generator. Its name has to be a name that is not taken. -/
def register (registry : Registry) (generator : Generator) : List Warning × Except Error Registry :=
  if !isName generator.name.toList then ([], .error (.invalidName generator.name))
  else if (registry.get? generator.name).isSome then
    ([], .error (.alreadyExists s!"generator '{generator.name}'"
      "Generator is already registered"))
  else
    let (warnings, result) := check generator
    (warnings, result.map fun _ => ⟨registry.generators ++ [generator]⟩)

end Registry

end Scaffold
