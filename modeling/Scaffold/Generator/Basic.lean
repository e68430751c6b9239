import Scaffold.Extract.Extractor
import Scaffold.Generator.Param
import Scaffold.Render.Evaluation
import Scaffold.Template.Variables

/-!
Generators: named recipes for texts. A generator with a template can also read values back from its
texts; one with a function cannot.
-/

namespace Scaffold

/-- What a generator makes its text from. -/
inductive Recipe
  /-- A template, and the template of the path that its texts usually go to. -/
  | template (text : List Char) (outputPath : Value)
  /-- A function of the parameters. -/
  | function (apply : Record → Except Error Value)

/-- A named recipe with its declared parameters and examples of them. -/
structure Generator where
  name : String
  description : String
  recipe : Recipe
  params : Keyed Param := []
  examples : List Value := []

namespace Generator

def template? (generator : Generator) : Option (List Char) :=
  match generator.recipe with
  | .template text _ => some text
  | .function _ => none

/-- The text of a generator for given parameters, with defaults for others. A function has to give a
text. -/
def render (generator : Generator) (params : Record) : Except Error (List Char) :=
  let values := Param.withDefaults generator.params params
  match generator.recipe with
  | .template text _ => do (← Render.compile text).render values
  | .function apply => do
    match ← apply values with
    | .scalar (.text text) => return text.toList
    | other => .error (.notText generator.name other.kindName)

/-- The path that the text for given parameters usually goes to, if the generator tells. -/
def renderOutputPath (generator : Generator) (params : Record) :
    Except Error (Option (List Char)) :=
  match generator.recipe with
  | .function _ => .ok none
  | .template _ outputPath =>
    if !outputPath.truthy then .ok none
    else
      match outputPath with
      | .scalar (.text text) => do
        let values := Param.withDefaults generator.params params
        return some (← (← Render.compile text.toList).render values)
      | _ => .error (.wrongKind "Can't compile non template nodes")

/-- What is known of the kinds of a generator's values. -/
def hints (generator : Generator) : Extract.Hints :=
  .ofValue (Param.hints generator.params)

/-- The name of a generator's sort. -/
def kind (generator : Generator) : String :=
  match generator.recipe with
  | .template .. => "template"
  | .function _ => "function"

/-- The template of a generator's output path, if it has one. -/
def outputPath (generator : Generator) : Value :=
  match generator.recipe with
  | .template _ outputPath => outputPath
  | .function _ => .null

/-- What a catalogue says of a generator. -/
def metadata (generator : Generator) : Value :=
  .object
    [("name", .text generator.name), ("description", .text generator.description),
      ("kind", .text generator.kind),
      ("params", .map (generator.params.map fun entry => (entry.1, entry.2.toValue))),
      ("examples", .list generator.examples), ("output_path", generator.outputPath),
      ("syncable", .bool generator.template?.isSome)]

/-- The declarations of a template's variables: the declared one, or else an array for a variable that
is looped over and a text for any other. -/
def variableParams (declared : Keyed Param) (collections : List String) :
    List String → Keyed Param
  | [] => []
  | name :: rest =>
    let param : Param :=
      (Keyed.field? declared name).getD <|
        if collections.contains name then { type := "array", description := "Items for " ++ name }
        else { description := "Value for " ++ name }
    (.text name, param) :: variableParams declared collections rest

/-- All parameters of a template: its variables in the order of their first use, then the other
declared parameters. -/
def allParams (declared : Keyed Param) (template : List Char) : Keyed Param :=
  let names := Template.variableNames template
  let others := names.foldl (fun rest name => Keyed.erase rest (.text name)) declared
  Keyed.merge (variableParams declared (Template.collectionNames template) names) others

def examplesOf (value : Value) : Except Error (List Value) :=
  if value.truthy then value.parts else .ok []

/-- The record that declares parameters; anything that counts as false declares none. -/
def declarationsOf (value : Value) : Except Error Record :=
  if !value.truthy then .ok []
  else
    match value with
    | .map entries => .ok entries
    | other => .error (.noOperation s!"'{other.typeName}' object has no attribute 'items'")

/-- The generator of a template, where variables that are not declared become required parameters. -/
def define (name description : String) (template : List Char) (params examples : Value)
    (outputPath : Value) : Except Error Generator := do
  let declared ← Param.ofRecord (← declarationsOf params)
  let examples ← examplesOf examples
  return { name, description, recipe := .template template outputPath
           params := allParams declared template, examples }

end Generator

end Scaffold
