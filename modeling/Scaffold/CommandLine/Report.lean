import Scaffold.CommandLine.Job
import Scaffold.Text.Column

/-!
Reports: what commands print of generators, units and calls.
-/

namespace Scaffold.CommandLine

open Text

/-- A column of a table and the space after it. -/
def cell (width : Nat) (text : String) : String :=
  leftAligned width text ++ " "

def yesNo (value : Bool) : String :=
  if value then "yes" else "no"

/-- The head of a section: a title with a rule below it. -/
def sectionHead (title : String) : List String :=
  ["", "  " ++ title, "  " ++ rule (max title.length 40)]

def jsonLine (value : Value) : Except Error String :=
  match Json.compact value with
  | .ok text => .ok (String.ofList text)
  | .error refusal => .error (Manifest.refusalError refusal)

/-- The JSON text of a value, one item a line. -/
def jsonText (value : Value) : Except Error String :=
  match (Json.indented value).complete with
  | .ok text => .ok (String.ofList text)
  | .error refusal => .error (Manifest.refusalError refusal)

/-- The table of the generators of a registry. -/
def catalogue (registry : Registry) : List String :=
  let row (name kind reads description : String) : String :=
    "  " ++ cell 30 name ++ cell 10 kind ++ cell 6 reads ++ description
  if registry.generators.isEmpty then ["No generators found."]
  else
    ["", row "Name" "Kind" "Sync" "Description", "  " ++ rule 76] ++
      (registry.generators.map fun generator =>
        row generator.name generator.kind (yesNo generator.template?.isSome)
          generator.description) ++
      ["", s!"  {registry.generators.length} generator(s)"]

/-- A labelled line about a generator. -/
def labelled (label text : String) : String :=
  "  " ++ leftAligned 14 label ++ text

/-- The line of a parameter. -/
def paramLine (name : Scalar) (param : Param) : String :=
  "    " ++ leftAligned 20 (Value.string (.scalar name) ++ ":") ++ param.type ++
    (if param.required then "" else " (optional)") ++
    (if param.description = "" then "" else " — " ++ param.description)

/-- What is known of a generator, but for its examples. -/
def description (generator : Generator) : List String :=
  sectionHead generator.name ++
    [labelled "Kind:" generator.kind, labelled "Description:" generator.description] ++
    (if generator.outputPath.truthy then [labelled "Output path:" generator.outputPath.string]
      else []) ++
    [labelled "Syncable:" (yesNo generator.template?.isSome)] ++
    (if generator.params.isEmpty then []
      else
        ["", "  Parameters:"] ++ generator.params.map fun entry => paramLine entry.1 entry.2)

/-- Prints what is known of a generator. -/
def sayGenerator (generator : Generator) : Job Unit := do
  Job.sayAll (description generator)
  if !generator.examples.isEmpty then
    Job.sayAll ["", "  Examples:"]
    generator.examples.forM fun params => do
      Job.say ("    " ++ (← Job.ofResult (jsonLine params)))
  Job.say ""

/-- The parameters that stand in a unit as a value. -/
def paramsValue (values : Extract.Values) : Value :=
  .map (Project.paramsOf values)

def inspectionValue (unit : Project.Inspection) : Value :=
  .object
    [("generator", .text unit.generator), ("id", (unit.unitId.map Value.text).getD .null),
     ("syncable", .bool unit.params.isSome), ("params", (unit.params.map paramsValue).getD .null)]

/-- The title of a unit: its generator, and its own id if it has one. -/
def unitTitle (unit : Project.Inspection) : String :=
  match Setting.nonempty? unit.unitId with
  | some id => unit.generator ++ " (id: " ++ id ++ ")"
  | none => unit.generator

/-- Prints what is known of a unit. -/
def sayUnit (unit : Project.Inspection) : Job Unit := do
  Job.sayAll (sectionHead (unitTitle unit))
  match unit.params with
  | none => Job.say "  (function generator, not syncable)"
  | some values =>
    values.forM fun entry => do
      Job.say ("  " ++ leftAligned 20 (entry.1 ++ ":") ++ (← Job.ofResult (jsonLine entry.2)))

def callTable (calls : List Call) : List String :=
  let row (id generator outputPath dependencies : String) : String :=
    "  " ++ cell 25 id ++ cell 20 generator ++ cell 35 outputPath ++ dependencies
  if calls.isEmpty then ["No calls in manifest."]
  else
    ["", row "Id" "Generator" "Output" "Depends on", "  " ++ rule 92] ++
      (calls.map fun call =>
        let dependencies := Error.listed call.dependsOn
        row call.id call.generator.string call.outputPath.string
          (if dependencies = "" then "-" else dependencies)) ++
      ["", s!"  {calls.length} call(s)"]

/-- The ids of calls with their places in a sequence, from one on. -/
def numbered (calls : List Call) : List String :=
  calls.zipIdx.map fun entry => "  " ++ rightAligned 3 (toString (entry.2 + 1)) ++ ". " ++ entry.1.id

end Scaffold.CommandLine
