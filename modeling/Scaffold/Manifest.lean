import Scaffold.Call.Order
import Scaffold.Json.Printer
import Scaffold.Json.Reader
import Scaffold.Store
import Scaffold.Value.Parts

/-!
The manifest: the calls of a project in the order in which they were recorded. Every edit checks its
result before it takes effect, so that the calls always have an order of execution.
-/

namespace Scaffold

/-- The calls of a project, with the version of the format and the stamp of the last build. -/
structure Manifest where
  path : Path
  version : Value
  generated : Value
  calls : List Call
  deriving Repr

/-- What a call is to be made of. -/
structure Call.Draft where
  id : String
  generator : Value
  params : Value := .map []
  outputPath : Value := .text ""
  dependsOn : Value := .list []
  generatorVersion : Value := .null
  deriving Repr

namespace Manifest

def formatVersion : String := "1.0.0"

/-- A manifest without calls. -/
def empty (path : Path) (now : Instant) : Manifest :=
  ⟨path, .text formatVersion, .text now.text, []⟩

def get? (manifest : Manifest) (id : String) : Option Call :=
  Call.withId? manifest.calls id

def order (manifest : Manifest) : Except Error (List Call) :=
  Call.order manifest.calls

/-- The manifest stamped with the present time. -/
def touch (manifest : Manifest) (now : Instant) : Manifest :=
  { manifest with generated := .text now.text }

/-- The dependencies that a value gives: scalars of any kind, of which only texts can be ids. -/
def dependenciesOf (value : Value) : Except Error (List Scalar) := do
  (← value.parts).mapM Value.asKey

/-- The dependencies of a call, each the id of another call of the manifest. -/
def checkDependencies (manifest : Manifest) (id : String) :
    List Scalar → Except Error (List String)
  | [] => .ok []
  | .text dependency :: rest =>
    if dependency = id then .error (.selfDependency id)
    else if (manifest.get? dependency).isNone then .error (.dependencyNotFound dependency id)
    else do return dependency :: (← checkDependencies manifest id rest)
  | other :: _ => .error (.dependencyNotId other id)

/-- A record that is given, or the empty one. -/
def recordOf (value : Value) : Except Error Value :=
  if value.truthy then value.record.map .map else .ok (.map [])

/-- The manifest with a new call at the end. -/
def add (manifest : Manifest) (draft : Call.Draft) (now : Instant) :
    Except Error (Call × Manifest) :=
  if (manifest.get? draft.id).isSome then
    .error (.alreadyExists s!"call '{draft.id}'" "Call ids must be unique")
  else do
    let params ← recordOf draft.params
    let given ← dependenciesOf (if draft.dependsOn.truthy then draft.dependsOn else .list [])
    let dependencies ← checkDependencies manifest draft.id given
    let call : Call := {
      id := draft.id
      generator := draft.generator
      params
      outputPath := draft.outputPath
      dependsOn := dependencies.eraseDups
      createdAt := now.text
      generatorVersion := draft.generatorVersion }
    return (call, { manifest with calls := manifest.calls ++ [call] })

/-- The fields of a call that may be changed. -/
def changeable : List String :=
  ["generator", "params", "output_path", "depends_on", "generator_version"]

/-- The names of changes that no call has, in alphabetical order. -/
def unknownNames (changes : List (String × Value)) : List String :=
  ((changes.map (·.1)).filter fun name => !changeable.contains name).mergeSort
    fun first second => decide (first ≤ second)

/-- The manifest with fields of a call changed. The changed graph has to have an order. -/
def update (manifest : Manifest) (id : String) (changes : List (String × Value)) :
    Except Error (Call × Manifest) :=
  match manifest.get? id with
  | none => .error (.callNotFound id)
  | some current =>
    let unknown := unknownNames changes
    if !unknown.isEmpty then .error (.unknownFields unknown)
    else do
      let field (name : String) (present : Value) := (changes.lookup name).getD present
      let given ← dependenciesOf (field "depends_on" (.list (current.dependsOn.map .text)))
      let dependencies ← checkDependencies manifest id given
      let call : Call := {
        current with
        generator := field "generator" current.generator
        params := field "params" current.params
        outputPath := field "output_path" current.outputPath
        dependsOn := dependencies.eraseDups
        generatorVersion := field "generator_version" current.generatorVersion }
      let calls := manifest.calls.map fun other => if other.id = id then call else other
      -- New dependencies can close a cycle, unlike those of a call that is added.
      let _ ← Call.order calls
      return (call, { manifest with calls })

/-- The manifest without a call that no other depends on. -/
def remove (manifest : Manifest) (id : String) : Except Error (Call × Manifest) :=
  match manifest.get? id with
  | none => .error (.callNotFound id)
  | some call =>
    let dependents := (manifest.calls.filter fun other => other.dependsOn.contains id).map Call.id
    if !dependents.isEmpty then .error (.dependentsExist id dependents)
    else
      .ok (call, { manifest with calls := manifest.calls.eraseP fun other => other.id == id })

/-- The stored form of a manifest. -/
def toValue (manifest : Manifest) : Value :=
  .object
    [("version", manifest.version), ("generated", manifest.generated),
     ("calls", .list (manifest.calls.map Call.toValue))]

/-- The failure of writing a value that has no stored form. -/
def refusalError : Json.Refusal → Error
  | .value kind => .wrongKind s!"Object of type {kind} is not JSON serializable"
  | .key kind => .wrongKind s!"keys must be str, int, float, bool or None, not {kind}"
  | .longInteger => .badValue "integer is too long to be written"

/-- Writes the manifest to its file, making the directory if needed. When some value has no stored
form, the file holds what was written before it. -/
def save (manifest : Manifest) (store : Store) : Store × Except Error Unit :=
  match store.makeDirectories manifest.path.parent with
  | .error error => (store, .error error)
  | .ok store =>
    let written := Json.indented manifest.toValue
    let text := written.text ++ (if written.refusal.isNone then ['\n'] else [])
    match store.write manifest.path text with
    | .error error => (store, .error error)
    | .ok store =>
      match written.refusal with
      | some refusal => (store, .error (refusalError refusal))
      | none => (store, .ok ())

def ofValue (path : Path) (now : Instant) (value : Value) : Except Error Manifest := do
  let record := value.entries?.getD []
  let malformed : Error := .manifestMalformed path.toString
  match Call.given? record "version", Call.given? record "generated",
      Keyed.field? record "calls" with
  | some version, some generated, some (.list entries) =>
    return ⟨path, version, generated, ← entries.mapM (Call.ofValue now)⟩
  | _, _, _ => throw malformed

/-- The manifest in a file; without a file it is empty. The calls have to have an order if that is to
be checked. -/
def load (store : Store) (path : Path) (validate : Bool) (now : Instant) :
    Except Error Manifest :=
  if !store.holds path then .ok (empty path now)
  else do
    let text ← store.read path
    match Json.read (Text.unifyBreaks text) with
    | .error .malformed => throw (.manifestNotJson path.toString)
    | .error .longInteger => throw (.badValue "integer text is too long")
    | .ok value =>
      let manifest ← ofValue path now value
      if validate then
        let _ ← manifest.order
      return manifest

end Manifest

end Scaffold
