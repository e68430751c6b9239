import Scaffold.Error
import Scaffold.Instant

/-!
Calls: recorded invocations of generators, with the ids of the calls that have to be produced first.
-/

namespace Scaffold

/-- A recorded invocation of a generator. Its dependencies are distinct, in the order given. What an
edit may set is kept as it came, whatever its kind. -/
structure Call where
  id : String
  generator : Value
  params : Value
  outputPath : Value
  dependsOn : List String
  createdAt : String
  generatorVersion : Value
  deriving Repr

namespace Call

/-- The members that a stored call must have. -/
def requiredMembers : List String := ["id", "generator", "outputPath"]

/-- A member of a record that counts as true. -/
def given? (record : Record) (name : String) : Option Value :=
  (Keyed.field? record name).filter Value.truthy

/-- The call that a value stores. A call without a time of creation gets the present one. -/
def ofValue (now : Instant) (value : Value) : Except Error Call :=
  match value with
  | .map record =>
    let missing := requiredMembers.filter fun name => (given? record name).isNone
    if !missing.isEmpty then
      let id := (Keyed.field? record "id").getD (.text "?")
      .error (.entryIncomplete (String.ofList id.shownInside) missing)
    else
      let text (name : String) := ((given? record name).getD .null).string
      let id := text "id"
      match (given? record "params").getD (.map []) with
      | .map params =>
        match (given? record "dependsOn").getD (.list []) with
        | .list dependencies =>
          .ok {
            id
            generator := .text (text "generator")
            params := .map params
            outputPath := .text (text "outputPath")
            dependsOn := (dependencies.map Value.string).eraseDups
            createdAt := ((given? record "createdAt").map Value.string).getD now.text
            generatorVersion := (Keyed.field? record "generatorVersion").getD .null }
        | _ => .error (.dependsNotList id)
      | _ => .error (.paramsNotObject id)
  | other => .error (.entryNotObject other.kindName)

/-- The stored form of a call. An empty version and an empty list of dependencies are left out. -/
def toValue (call : Call) : Value :=
  .object (
    [("id", .text call.id), ("generator", call.generator), ("params", call.params),
     ("outputPath", call.outputPath), ("createdAt", .text call.createdAt)] ++
    (if call.generatorVersion.truthy then [("generatorVersion", call.generatorVersion)] else []) ++
    (if call.dependsOn.isEmpty then [] else [("dependsOn", .list (call.dependsOn.map .text))]))

def withId? (calls : List Call) (id : String) : Option Call :=
  calls.find? fun call => call.id == id

end Call

end Scaffold
