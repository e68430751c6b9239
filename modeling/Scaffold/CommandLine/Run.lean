import Scaffold.Call.Audit
import Scaffold.CommandLine.Report

/-!
Running command lines. A failure that callers expect is printed; any other ends the program as it is.
-/

namespace Scaffold.CommandLine

/-- What stands before the word for what became of a file, when no file changes. -/
def previewMark (preview : Bool) : String :=
  if preview then "[DRY RUN] " else ""

/-- Prints what became of a file. -/
def sayAction (preview : Bool) (action : Action) (path : String) : Job Unit :=
  Job.say (previewMark preview ++ action.word ++ ": " ++ path)

/-- The path that a generator's text goes to when the line names none. -/
def usualPath (project : Project) (name : String) (params : Record) : Except Error (Option String) := do
  let path ← (← project.registry.resolve name).renderOutputPath params
  return Setting.nonempty? (path.map String.ofList)

def create (setting : Setting) (generator : String) (path : Option String) (source : ParamSource)
    (unitId : Option String) (preview : Bool) : Job Bool := do
  let project ← Job.project setting
  let params ← Job.fromFiles source.params
  let target ← match Setting.nonempty? path with
    | some path => pure (some path)
    | none => Job.ofResult (usualPath project generator params)
  match target with
  | none =>
    Job.say s!"ERROR: Generator '{generator}' has no output path; pass one explicitly"
    return false
  | some target =>
    let action ← Job.ofWork (project.create generator params (.ofString target) unitId preview)
    sayAction preview action target
    return true

/-- Brings the units of a file up to date. -/
def sync (setting : Setting) (file : String) (preview : Bool) : Job Bool := do
  let project ← Job.project setting
  let action ← Job.ofWork (project.sync (.ofString file) preview)
  sayAction preview action file
  return true

/-- Brings the marked files of a directory up to date. -/
def syncAll (setting : Setting) (directory : Option String) (preview : Bool) : Job Bool := do
  let project ← Job.project setting
  let below := (Setting.nonempty? directory).map Path.ofString
  let report ← Job.ofWork (project.syncAll below preview)
  Job.say (report.summary preview)
  return report.passed

/-- Prints what is known of the units of a file. -/
def inspect (setting : Setting) (file : String) (asJson : Bool) : Job Bool := do
  let project ← Job.project setting
  let units ← Job.ofWork (project.inspect (.ofString file))
  if asJson then
    Job.say (← Job.ofResult (jsonText (.list (units.map inspectionValue))))
  else
    units.forM sayUnit
    Job.say ""
  return true

/-- Prints what is known of one generator. -/
def showGenerator (setting : Setting) (name : String) : Job Bool := do
  let registry ← Job.registry setting
  match registry.get? name with
  | none =>
    Job.say s!"ERROR: Generator '{name}' not found"
    return false
  | some generator =>
    sayGenerator generator
    return true

/-- Records a call. -/
def addCall (setting : Setting) (id generator outputPath : String) (source : ParamSource)
    (dependsOn : List String) : Job Bool := do
  let manifest ← Job.manifest setting true
  let params ← Job.fromFiles source.params
  let draft : Call.Draft :=
    { id, generator := .text generator, params := .map params, outputPath := .text outputPath
      dependsOn := .list (dependsOn.map .text) }
  let (call, larger) ← Job.ofResult (manifest.add draft setting.now)
  Job.save larger
  Job.say s!"Added call '{call.id}' ({call.generator.string} -> {call.outputPath.string})"
  return true

def removeCall (setting : Setting) (id : String) : Job Bool := do
  let manifest ← Job.manifest setting true
  let (_, smaller) ← Job.ofResult (manifest.remove id)
  Job.save smaller
  Job.say s!"Removed call '{id}'"
  return true

/-- Produces the calls of the manifest, and stamps it if all of them were produced. -/
def build (setting : Setting) (preview : Bool) : Job Bool := do
  let manifest ← Job.manifest setting true
  let project ← Job.project setting
  let report ← Job.ofWork (project.build manifest preview)
  if !preview && report.succeeded then Job.save (manifest.touch setting.now)
  Job.say (report.summary preview)
  return report.succeeded

/-- Carries out a command, and tells whether all went well. -/
def perform (setting : Setting) : Command → Job Bool
  | .listGenerators => do
    Job.sayAll (catalogue (← Job.registry setting))
    return true
  | .showGenerator name => showGenerator setting name
  | .create generator path params unitId preview =>
    create setting generator path params unitId preview
  | .sync file preview => sync setting file preview
  | .syncAll directory preview => syncAll setting directory preview
  | .inspect file asJson => inspect setting file asJson
  | .addCall id generator outputPath params dependsOn =>
    addCall setting id generator outputPath params dependsOn
  | .removeCall id => removeCall setting id
  | .listCalls => do
    Job.sayAll (callTable (← Job.manifest setting false).calls)
    return true
  | .orderCalls => do
    let manifest ← Job.manifest setting true
    Job.sayAll (numbered (← Job.ofResult manifest.order))
    return true
  | .validateCalls => do
    let audit := Call.audit (← Job.manifest setting false).calls
    Job.say audit.summary
    return audit.passed
  | .build preview => build setting preview

/-- How the program ends. -/
inductive Ending
  /-- The command was carried out, and tells whether all went well. -/
  | finished (succeeded : Bool)
  /-- The line is not carried out. -/
  | stopped (stop : Stop)
  /-- A failure that is not expected. -/
  | crashed (error : Error)
  deriving Repr

/-- What a command line leaves: how the program ends, what it printed, and the files. -/
structure Outcome where
  ending : Ending
  printed : List String
  bench : Bench

/-- The exit code of an ending, if the program ends by itself. -/
def Ending.exitCode? : Ending → Option Nat
  | finished succeeded => some (if succeeded then 0 else 1)
  | stopped .help => some 0
  | stopped .misuse => some 2
  | crashed _ => none

/-- The text of the lines that were printed. -/
def Outcome.text (outcome : Outcome) : String :=
  String.join (outcome.printed.map fun line => line ++ "\n")

/-- A failure that is printed instead of ending the program as it is. -/
def isExpected (error : Error) : Bool :=
  match error.errorClass with
  | .misuse | .decoding => false
  | _ => true

/-- What is left when a command has been carried out. -/
def Outcome.ofResult (result : Except Error Bool) (session : Session) : Outcome :=
  match result with
  | .ok succeeded => ⟨.finished succeeded, session.printed, session.bench⟩
  | .error error =>
    if isExpected error then
      ⟨.finished false, session.printed ++ ["ERROR: " ++ error.message], session.bench⟩
    else ⟨.crashed error, session.printed, session.bench⟩

/-- Carries out a request. -/
def runRequest (environment : Environment) (now : Instant) (store : Store) (request : Request) :
    Outcome :=
  let (result, session) := perform ⟨environment, now, request⟩ request.command ⟨⟨store, [], []⟩, []⟩
  Outcome.ofResult result session

/-- Carries out a command line. -/
def run (environment : Environment) (now : Instant) (store : Store) (words : List String) : Outcome :=
  match Request.ofWords words with
  | .error stop => ⟨.stopped stop, [], ⟨store, [], []⟩⟩
  | .ok request => runRequest environment now store request

end Scaffold.CommandLine
