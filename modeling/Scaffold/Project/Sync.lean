import Scaffold.Project.Basic

/-!
Bringing units up to date: the parameters of every unit of a file are read off its text, and the unit
is generated again. What stands outside the units stays as it is, and a file that fails at any unit is
left alone.
-/

namespace Scaffold.Project

open Sentinel

/-- A unit generated again from the parameters that stand in it. -/
def regenerate (project : Project) (dialect : Dialect) (text : List Char) (span : Span) :
    Work (List Char) := do
  let generator ← Work.ofResult (project.registry.resolve span.generator)
  match generator.template? with
  | none => Work.fail (.noTemplate span.generator)
  | some template =>
    let values ← readParams generator template text span
    let body ← Work.ofResult (generator.render (paramsOf values))
    return dialect.wrap body span.generator span.unitId

/-- A text from an offset on, with texts in place of the spans that are left. -/
def assemble (text : List Char) (offset : Nat) : List (Span × List Char) → List Char
  | [] => text.drop offset
  | (span, unit) :: rest =>
    (text.take span.start).drop offset ++ unit ++ assemble text span.finish rest

/-- Brings the units of a file up to date. -/
def sync (project : Project) (path : Path) (preview : Bool) : Work Action := do
  let target := project.resolvePath path
  let text ← Work.readFile target
  let spans ← Work.ofResult (unitsOf target text)
  let units ← spans.mapM (regenerate project (Dialect.ofPath target) text)
  commit target text (assemble text 0 (spans.zip units)) preview

/-- What is known of a unit of a file. -/
structure Inspection where
  generator : String
  unitId : Option String
  /-- The parameters that stand in the unit, when its generator can read them. -/
  params : Option Extract.Values

/-- Looks at a unit. -/
def inspectUnit (project : Project) (text : List Char) (span : Span) : Work Inspection := do
  let generator ← Work.ofResult (project.registry.resolve span.generator)
  match generator.template? with
  | none => return ⟨span.generator, span.unitId, none⟩
  | some template =>
    let values ← readParams generator template text span
    return ⟨span.generator, span.unitId, some values⟩

/-- Looks at the units of a file. -/
def inspect (project : Project) (path : Path) : Work (List Inspection) := do
  let target := project.resolvePath path
  let text ← Work.readFile target
  let spans ← Work.ofResult (unitsOf target text)
  spans.mapM (inspectUnit project text)

/-- The names of directories that hold no sources. -/
def skippedNames : List String :=
  [".git", "node_modules", ".vscode", ".idea", "dist", "build", "coverage", ".github",
   "__pycache__", ".venv", "venv", ".tox", ".mypy_cache", ".pytest_cache"]

/-- The source files below a directory that hold a start sentinel, in order. Files that cannot be read
are passed over. -/
def markedFiles (store : Store) (directory : Path) : List Path :=
  let keys := (store.descendants directory).filter fun key =>
    !key.dropLast.any skippedNames.contains
  (keys.map (Store.pathBelow directory)).filter fun path =>
    store.hasFile path && Dialect.isSource path &&
      (match store.read path with
        | .ok text => hasStart text
        | .error _ => false)

/-- What became of the marked files of a directory. -/
structure SyncReport where
  updated : List String := []
  unchanged : List String := []
  /-- The paths of files that failed, with the reasons. -/
  errors : List (String × String) := []

namespace SyncReport

/-- The files that are up to date now. -/
def synced (report : SyncReport) : List String :=
  report.updated ++ report.unchanged

/-- Nothing failed. -/
def passed (report : SyncReport) : Bool :=
  report.errors.isEmpty

/-- With what became of one more file. -/
def note (report : SyncReport) (path : String) : Except Error Action → SyncReport
  | .ok .updated => { report with updated := report.updated ++ [path] }
  | .ok _ => { report with unchanged := report.unchanged ++ [path] }
  | .error error => { report with errors := report.errors ++ [(path, error.message)] }

/-- A report in words. -/
def summary (report : SyncReport) (preview : Bool) : String :=
  let counts :=
    "Sync: " ++ toString report.synced.length ++ " files synced (" ++
      toString report.updated.length ++ " updated, " ++ toString report.unchanged.length ++
      " unchanged)"
  let errors :=
    if report.errors.isEmpty then []
    else
      ("ERRORS (" ++ toString report.errors.length ++ "):") ::
        report.errors.map fun error => "  " ++ error.1 ++ ": " ++ error.2
  let ending := if preview then ["[DRY RUN] No files were modified."] else []
  "\n".intercalate (counts :: errors ++ ending)

end SyncReport

/-- Brings files up to date one after the other. A file that fails does not stop the others. -/
def syncFiles (project : Project) (preview : Bool) (report : SyncReport) :
    List Path → Work SyncReport
  | [] => return report
  | path :: rest => do
    let result ← Work.attempt (project.sync path preview)
    match result with
    | .ok _ => pure ()
    | .error error => Work.warn [.syncFailed path.toString error.message]
    syncFiles project preview (report.note path.toString result) rest

/-- Brings the marked files below a directory up to date, or those of the whole project. -/
def syncAll (project : Project) (directory : Option Path) (preview : Bool) : Work SyncReport := do
  let top := (directory.map project.resolvePath).getD project.directory
  syncFiles project preview {} (markedFiles (← get).store top)

end Scaffold.Project
