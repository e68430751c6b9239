import Scaffold.Manifest
import Scaffold.Project.Create
import Scaffold.Text.Column

/-!
Building a manifest: its calls are produced in the order of their dependencies. A call whose
dependency failed is skipped.
-/

namespace Scaffold.Project

/-- A call that is not produced: its id, where its text was to go, and why. -/
structure BuildFailure where
  id : String
  path : Value
  reason : String

/-- What became of the calls of a manifest. -/
structure BuildReport where
  /-- Where the texts of the calls went. -/
  generated : List Value := []
  actions : List (String × Action) := []
  errors : List BuildFailure := []

namespace BuildReport

/-- Every call was produced. -/
def succeeded (report : BuildReport) : Bool :=
  report.errors.isEmpty

/-- With one more call that was produced. -/
def withAction (report : BuildReport) (call : Call) (action : Action) : BuildReport :=
  { report with
    generated := report.generated ++ [call.outputPath]
    actions := report.actions ++ [(call.id, action)] }

/-- With one more call that was not produced. -/
def withError (report : BuildReport) (call : Call) (reason : String) : BuildReport :=
  { report with errors := report.errors ++ [⟨call.id, call.outputPath, reason⟩] }

/-- The ids of the calls that were not produced. -/
def failed (report : BuildReport) : List String :=
  report.errors.map BuildFailure.id

/-- A report in words. -/
def summary (report : BuildReport) (preview : Bool) : String :=
  let counts := "Build: " ++ toString report.generated.length ++ " calls produced in 0.00s"
  let actions := report.actions.map fun entry =>
    "  " ++ Text.leftAligned 9 entry.2.word ++ " " ++ entry.1
  let errors :=
    if report.errors.isEmpty then []
    else
      ("ERRORS (" ++ toString report.errors.length ++ "):") ::
        report.errors.map fun error =>
          "  " ++ error.id ++ " (" ++ error.path.string ++ "): " ++ error.reason
  let ending := if preview then ["[DRY RUN] No files were modified."] else []
  "\n".intercalate (counts :: actions ++ errors ++ ending)

end BuildReport

/-- The generator that a call names. Only texts are names. -/
def generatorOf (project : Project) (name : Value) : Except Error Generator := do
  match ← name.asKey with
  | .text name => project.registry.resolve name
  | other => .error (.generatorNotFound (String.ofList other.shown))

/-- The path that a call names. Only texts are paths. -/
def pathOf (value : Value) : Except Error Path :=
  match value with
  | .scalar (.text path) => .ok (.ofString path)
  | other =>
    .error (.wrongKind s!"expected str, bytes or os.PathLike object, not {other.typeName}")

/-- Produces a call: the unit that it describes, under its id. -/
def produce (project : Project) (call : Call) (preview : Bool) : Work Action := do
  let generator ← Work.ofResult (project.generatorOf call.generator)
  let path ← Work.ofResult (pathOf call.outputPath)
  let params ← Work.ofResult call.params.record
  createWith generator params (project.resolvePath path) (some call.id) preview

def produceAll (project : Project) (preview : Bool) (report : BuildReport) :
    List Call → Work BuildReport
  | [] => return report
  | call :: rest => do
    let blocked := call.dependsOn.filter report.failed.contains
    if !blocked.isEmpty then
      let reason := "Skipped: dependency failed (" ++ Error.listed blocked ++ ")"
      produceAll project preview (report.withError call reason) rest
    else
      match ← Work.attempt (project.produce call preview) with
      | .ok action => produceAll project preview (report.withAction call action) rest
      | .error error =>
        Work.warn [.buildFailed call.id error.message]
        produceAll project preview (report.withError call error.message) rest

/-- Produces the calls of a manifest in the order of their dependencies. -/
def build (project : Project) (manifest : Manifest) (preview : Bool) : Work BuildReport := do
  produceAll project preview {} (← Work.ofResult manifest.order)

end Scaffold.Project
