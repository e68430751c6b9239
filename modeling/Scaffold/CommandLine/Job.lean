import Scaffold.CommandLine.Request
import Scaffold.Project.Build
import Scaffold.Project.Settings
import Scaffold.Project.Sync
import Scaffold.Registry.Directory

/-!
Jobs: what commands do. A job works on the files of a project, prints lines as it goes on, and may
fail at any point; what it printed before then stays printed.
-/

namespace Scaffold.CommandLine

/-- What a job goes on with: the bench of the project, and the lines printed so far. -/
structure Session where
  bench : Bench
  printed : List String := []

/-- What a command does. -/
abbrev Job := ExceptT Error (StateM Session)

/-- What a command is carried out with. -/
structure Setting where
  environment : Environment
  now : Instant
  request : Request

namespace Job

/-- A result that needs no work. -/
def ofResult {α : Type} (result : Except Error α) : Job α :=
  fun session => (result, session)

/-- Work on the files of a project. -/
def ofWork {α : Type} (work : Work α) : Job α := fun session =>
  let (result, bench) := work session.bench
  (result, { session with bench })

/-- Prints a line. -/
def say (line : String) : Job Unit :=
  fun session => (.ok (), { session with printed := session.printed ++ [line] })

/-- Prints lines. -/
def sayAll (lines : List String) : Job Unit :=
  lines.forM say

/-- The files as they are now. -/
def files : Job Store :=
  fun session => (.ok session.bench.store, session)

/-- Something that the files tell. -/
def fromFiles {α : Type} (look : Store → Except Error α) : Job α := do
  ofResult (look (← files))

end Job

namespace Setting

/-- The text of an option that counts only if it is not empty. -/
def nonempty? (text : Option String) : Option String :=
  text.filter (· != "")

/-- The directory of the project, as it is seen from the root. -/
def directory (setting : Setting) : Except Error Path := do
  let environment := setting.environment
  let path := ((nonempty? setting.request.project).map Path.ofString).getD
    environment.projectDirectory
  return (← environment.expandHome path).settle environment.here

/-- The directory of the template files. -/
def generatorsDirectory (setting : Setting) (store : Store) : Except Error Path := do
  let directory ← setting.directory
  match nonempty? setting.request.generators with
  | some path => return .ofString path
  | none => Settings.generatorsDirectory store setting.environment directory

/-- The file of the manifest. -/
def manifestPath (setting : Setting) (store : Store) : Except Error Path := do
  let directory ← setting.directory
  match nonempty? setting.request.manifest with
  | some path => return .ofString path
  | none => Settings.manifestPath store setting.environment directory

end Setting

namespace Job

/-- The registry of the project. What cannot be registered is printed as a warning. -/
def registry (setting : Setting) : Job Registry := do
  let directory ← fromFiles setting.generatorsDirectory
  let (warnings, registry, result) := Registry.registerDirectory {} (← files) directory true
  ofWork (Work.warn warnings)
  sayAll ((← ofResult result).map fun error => "WARNING: " ++ error)
  return registry

def project (setting : Setting) : Job Project := do
  return ⟨← registry setting, ← ofResult setting.directory⟩

/-- The manifest of the project. -/
def manifest (setting : Setting) (validate : Bool) : Job Manifest :=
  fromFiles fun store => do
    Manifest.load store (← setting.manifestPath store) validate setting.now

/-- Writes the manifest to its file. -/
def save (manifest : Manifest) : Job Unit := fun session =>
  let (store, result) := manifest.save session.bench.store
  (result, { session with bench := { session.bench with store } })

end Job

namespace ParamSource

/-- A text that can only be a mapping or a list, and not the name of a file. -/
def isBracketed (text : String) : Bool :=
  match Text.trimLeft text.toList with
  | c :: _ => c == '{' || c == '['
  | [] => false

/-- The text that writes the mapping: what is in the file of that name, or else the given text. -/
def mappingText (store : Store) (given : String) : Except Error (List Char) :=
  let path : Path := .ofString given
  if !isBracketed given && store.hasFile path then (store.read path).map Text.unifyBreaks
  else .ok given.toList

/-- The parameters that a mapping gives. -/
def ofMapping (text : List Char) : Except Error Record :=
  match Yaml.read text with
  | .error .malformed => .error .paramsUnreadable
  | .error (.badValue detail) => .error (.badValue detail)
  | .ok (.map entries) => .ok entries
  | .ok _ => .error .paramsNotMapping

/-- A parameter that is given on its own. Its value is the text behind the first equals sign. -/
def ofItem (item : String) : Except Error (Scalar × Value) :=
  match Mark.splitEquals item.toList with
  | (name, some value) =>
    if name.isEmpty then .error (.badParam item)
    else .ok (.text (String.ofList (Text.trim name)), .text (String.ofList value.text))
  | (_, none) => .error (.badParam item)

/-- The parameters of a source. Those that are given on their own win. -/
def params (source : ParamSource) (store : Store) : Except Error Record := do
  let mapped ← match Setting.nonempty? source.mapping with
    | some given => ofMapping (← mappingText store given)
    | none => pure []
  return Keyed.merge mapped (← source.items.mapM ofItem)

end ParamSource

end Scaffold.CommandLine
