import Scaffold.Generator.File
import Scaffold.Registry

/-!
Registering the template files of a directory. A generator that is refused is reported and does not
stop those after it.
-/

namespace Scaffold.Registry

/-- Registers generators with their files in turn. What went wrong is added to what went wrong before;
a failure that no generator is to blame for stops everything. -/
def registerAll (errors : List String) (registry : Registry) :
    List (Path × Generator) → List Warning × Registry × Except Error (List String)
  | [] => ([], registry, .ok errors)
  | (path, generator) :: rest =>
    let (warnings, result) := registry.register generator
    match result with
    | .ok larger =>
      let (more, final, outcome) := registerAll errors larger rest
      (warnings ++ more, final, outcome)
    | .error error =>
      if error.errorClass = .misuse then (warnings, registry, .error error)
      else
        let line := path.toString ++ ": " ++ error.message
        let (more, final, outcome) := registerAll (errors ++ [line]) registry rest
        (warnings ++ .generatorRefused path.toString error.message :: more, final, outcome)

/-- Registers the template files of a directory and tells what went wrong. -/
def registerDirectory (registry : Registry) (store : Store) (directory : Path) (recursive : Bool) :
    List Warning × Registry × Except Error (List String) :=
  let (warnings, result) := Generator.loadDirectory store directory recursive
  match result with
  | .error error => (warnings, registry, .error error)
  | .ok loaded =>
    let (more, final, outcome) := registerAll loaded.errors registry loaded.generators
    (warnings ++ more, final, outcome)

end Scaffold.Registry
