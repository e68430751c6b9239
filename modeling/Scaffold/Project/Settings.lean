import Scaffold.Store
import Scaffold.Yaml.Reader

/-!
Where a project keeps its things. A variable of the environment counts first, then the settings in the
file `codefactory.yaml` of the project's directory, then the usual place.
-/

namespace Scaffold

/-- The variables that a program is started with, and its current directory. -/
structure Environment where
  bindings : List (String × String)
  here : Path

namespace Environment

/-- The value of a variable that is set. -/
def get? (environment : Environment) (name : String) : Option String :=
  environment.bindings.lookup name

/-- The value of a variable that is set to something. -/
def given? (environment : Environment) (name : String) : Option String :=
  (environment.get? name).filter (· != "")

/-- The home directory as a path begins with it. -/
def home? (environment : Environment) : Option Path :=
  (environment.get? "HOME").map fun home =>
    let trimmed := String.ofList (Text.dropRightWhile (· == '/') home.toList)
    .ofString (if trimmed = "" then "/" else trimmed)

/-- A path with a tilde at its start replaced by the home directory. -/
def expandHome (environment : Environment) (path : Path) : Except Error Path :=
  match path.names with
  | first :: rest =>
    if path.anchor = .relative && first.toList.head? == some '~' then
      match environment.home? with
      | some home => if first = "~" then .ok (home.join ⟨.relative, rest⟩) else unknown first
      | none => unknown first
    else .ok path
  | [] => .ok path
where
  /-- The failure to find a home directory. -/
  unknown (name : String) : Except Error Path := .error (.unknownHome name)

/-- The directory of the project: the one that the environment names, or the current one. -/
def projectDirectory (environment : Environment) : Path :=
  ((environment.get? "CODEFACTORY_PROJECT_DIR").map Path.ofString).getD environment.here

end Environment

namespace Settings

/-- The name of the file with a project's settings. -/
def fileName : String := "codefactory.yaml"

/-- The settings that a text writes. A text of nothing has none. -/
def ofText (path : Path) (text : List Char) : Except Error Record :=
  match Yaml.read (Text.unifyBreaks text) with
  | .error .malformed => .error (.configUnreadable path.toString)
  | .error (.badValue detail) => .error (.badValue detail)
  | .ok (.scalar .null) => .ok []
  | .ok (.map entries) => .ok entries
  | .ok _ => .error (.configNotMapping path.toString)

/-- The settings of the project in a directory. Without a file there are none. -/
def load (store : Store) (directory : Path) : Except Error Record := do
  let path := directory.child fileName
  if store.hasFile path then ofText path (← store.read path) else return []

/-- A place of a project: by a variable, by a setting, or the usual one. A setting is seen from the
project's directory. -/
def placeOf (store : Store) (environment : Environment) (directory : Path)
    (override setting usual : String) : Except Error Path :=
  match environment.given? override with
  | some path => .ok (.ofString path)
  | none => do
    let value := (Keyed.field? (← load store directory) setting).getD .null
    if value.truthy then
      return directory.join (← environment.expandHome (.ofString value.string))
    else return directory.child usual

/-- The directory of a project's template files. -/
def generatorsDirectory (store : Store) (environment : Environment) (directory : Path) :
    Except Error Path :=
  placeOf store environment directory "CODEFACTORY_GENERATORS_DIR" "generators_dir" "generators"

/-- The file of a project's manifest. -/
def manifestPath (store : Store) (environment : Environment) (directory : Path) :
    Except Error Path :=
  placeOf store environment directory "CODEFACTORY_MANIFEST" "manifest"
    "codefactory.manifest.json"

end Settings

end Scaffold
