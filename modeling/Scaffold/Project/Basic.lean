import Scaffold.Registry
import Scaffold.Sentinel.Span
import Scaffold.Store

/-!
Projects: a registry and a directory whose files hold generated units. Work on a project reads and
writes files, keeps the extractors that it has built, and leaves warnings; it may fail at any point,
and what it did before then stays.
-/

namespace Scaffold

open Sentinel

/-- A registry, and the directory that relative paths start from. -/
structure Project where
  registry : Registry
  directory : Path

/-- What work goes on with: the files, the extractors by the names of their generators, and the
warnings so far. -/
structure Bench where
  store : Store
  extractors : List (String × Extract.Extractor) := []
  log : List Warning := []

/-- Work on a project: it changes the bench, and gives a result or fails. -/
abbrev Work := ExceptT Error (StateM Bench)

/-- What became of a file. -/
inductive Action
  | created
  | updated
  | unchanged
  deriving DecidableEq, Repr

/-- The word for what became of a file. -/
def Action.word : Action → String
  | created => "created"
  | updated => "updated"
  | unchanged => "unchanged"

namespace Work

def ofResult {α : Type} (result : Except Error α) : Work α :=
  fun bench => (result, bench)

/-- A failure. -/
def fail {α : Type} (error : Error) : Work α :=
  ofResult (.error error)

/-- Leaves warnings. -/
def warn (warnings : List Warning) : Work Unit :=
  fun bench => (.ok (), { bench with log := bench.log ++ warnings })

/-- Work whose failure is a result like any other. -/
def attempt {α : Type} (work : Work α) : Work (Except Error α) := fun bench =>
  let (result, after) := work bench
  (.ok result, after)

/-- The text of a file. -/
def readFile (path : Path) : Work (List Char) :=
  fun bench => (bench.store.read path, bench)

/-- Puts the files in a state that a change gives, if it does not fail. -/
def changeFiles (change : Store → Except Error Store) : Work Unit := fun bench =>
  match change bench.store with
  | .ok store => (.ok (), { bench with store })
  | .error error => (.error error, bench)

def writeFile (path : Path) (text : List Char) : Work Unit :=
  changeFiles fun store => store.write path text

/-- Writes a file that may be the first of its directory. -/
def writeNewFile (path : Path) (text : List Char) : Work Unit := do
  changeFiles fun store => store.makeDirectories path.parent
  writeFile path text

end Work

namespace Project

/-- A path seen from the directory of a project. -/
def resolvePath (project : Project) (path : Path) : Path :=
  project.directory.join path

/-- The extractor of a template that a generator has, built once. -/
def extractorOf (generator : Generator) (template : List Char) : Work Extract.Extractor := do
  match (← get).extractors.lookup generator.name with
  | some extractor => if extractor.template = template then return extractor else build
  | none => build
where
  build : Work Extract.Extractor := do
    let (warnings, result) := Extract.Extractor.build template generator.hints false
    Work.warn warnings
    let extractor ← Work.ofResult result
    modify fun bench =>
      { bench with extractors := (generator.name, extractor) :: bench.extractors }
    return extractor

/-- Values as parameters. -/
def paramsOf (values : Extract.Values) : Record :=
  values.map fun entry => (.text entry.1, entry.2)

/-- The parameters that stand in the generated text of a unit. -/
def readParams (generator : Generator) (template text : List Char) (span : Span) :
    Work Extract.Values := do
  let extractor ← extractorOf generator template
  Work.ofResult (extractor.extract (span.body text))

/-- The units of a file, of which there has to be one at least. -/
def unitsOf (target : Path) (text : List Char) : Except Error (List Span) := do
  let spans ← findSpans (Dialect.ofPath target) (some target.toString) text
  if spans.isEmpty then .error (.noMarker target.toString) else return spans

/-- Puts a changed text in place of the old one, unless this is a preview. -/
def commit (target : Path) (old new : List Char) (preview : Bool) : Work Action := do
  if new = old then return .unchanged
  else
    if !preview then Work.writeFile target new
    return .updated

end Project

end Scaffold
