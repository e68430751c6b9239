import Scaffold.Proofs.CommandLine.Edits
import Scaffold.Proofs.Manifest.Failures
import Scaffold.Proofs.Project.Failures

/-!
How command lines end. A command succeeds, or it prints what went wrong as its last line, or it ends by
a failure that no one expects. By which kinds of failures it may end depends on what it works with: a
command on the manifest reads fewer things than one that loads the generators or renders a template.
-/

namespace Scaffold.CommandLine

/-- The kinds of failures that loading the generators of a project may end by. -/
def projectEscapes : List Escape := ambientEscapes ++ Generator.loadEscapes

/-- The kinds of failures, other than those that are reported, that a command may end by. -/
def Command.escapes : Command → List Escape
  | .removeCall _ | .listCalls | .orderCalls | .validateCalls => ambientEscapes
  | .addCall .. => ambientEscapes ++ [.misuse]
  | .listGenerators | .showGenerator _ | .syncAll .. | .build _ => projectEscapes
  | .inspect .. => projectEscapes ++ [.capture]
  | .create .. => projectEscapes ++ Render.escapes
  | .sync .. => projectEscapes ++ [.capture] ++ Render.escapes

/-- A line that tells of a failure of a command: an error, or a report on what failed. -/
inductive Complaint : Command → String → Prop
  | error (command : Command) (text : String) : Complaint command ("ERROR: " ++ text)
  | files {directory : Option String} {preview : Bool} {report : Project.SyncReport}
      (failed : report.passed = false) : Complaint (.syncAll directory preview) (report.summary preview)
  | calls {preview : Bool} {report : Project.BuildReport} (failed : report.succeeded = false) :
      Complaint (.build preview) (report.summary preview)
  | graph {audit : Call.Audit} (failed : audit.passed = false) : Complaint .validateCalls audit.summary

variable {setting : Setting} {session after : Session} {kinds : List Escape} {command : Command}
  {α : Type}

/-! ### Failures of jobs -/

namespace Job

theorem ofResult_escapes {result : Except Error α} (fails : FailsWithin kinds result) :
    EscapesWithin kinds (ofResult result) :=
  fun _ => fails

theorem ofWork_escapes {work : Work α} (escapes : EscapesWithin kinds work) :
    EscapesWithin kinds (ofWork work) :=
  fun session => escapes session.bench

theorem fromFiles_escapes {look : Store → Except Error α} (fails : ∀ store, FailsWithin kinds (look store)) :
    EscapesWithin kinds (fromFiles look) :=
  fun session => fails session.bench.store

theorem say_escapes (line : String) : EscapesWithin kinds (say line) :=
  fun _ => .ok ()

theorem sayAll_escapes (lines : List String) : EscapesWithin kinds (sayAll lines) :=
  .forM fun line _ => say_escapes line

end Job

theorem directory_fails (setting : Setting) : FailsWithin [.home] setting.directory :=
  .bind (Environment.expandHome_fails _ _) fun _ _ => .ok _

theorem generatorsDirectory_fails (setting : Setting) (store : Store) :
    FailsWithin ambientEscapes (setting.generatorsDirectory store) := by
  refine .bind ((directory_fails setting).widen (by decide)) fun directory _ => ?_
  split
  · exact .ok _
  · exact Settings.placeOf_fails _ _ _ _ _ _

namespace Job

theorem registry_escapes (setting : Setting) : EscapesWithin projectEscapes (registry setting) := by
  unfold registry
  refine .bind (fromFiles_escapes fun store => (generatorsDirectory_fails setting store).widen (by decide))
    fun directory => .bind (fun _ => .ok _) fun store => ?_
  have fails := Registry.registerDirectory_fails store directory true
  generalize Registry.registerDirectory {} store directory true = registered at fails ⊢
  obtain ⟨warnings, registry, result⟩ := registered
  exact .bind (ofWork_escapes (Work.warn_escapes _)) fun _ =>
    .bind (ofResult_escapes (FailsWithin.widen fails (by decide))) fun _ =>
      .bind (sayAll_escapes _) fun _ => .pure _

theorem registry_templates {known : Registry} (run : registry setting session = (.ok known, after)) :
    known.Templates := by
  unfold registry at run
  obtain ⟨directory, _, _, run⟩ := run_bind_eq_ok.mp run
  obtain ⟨store, _, _, run⟩ := run_bind_eq_ok.mp run
  have templates := Registry.registerDirectory_templates store directory true
  generalize Registry.registerDirectory {} store directory true = registered at templates run
  obtain ⟨warnings, registry, result⟩ := registered
  obtain ⟨_, _, _, run⟩ := run_bind_eq_ok.mp run
  obtain ⟨_, _, _, run⟩ := run_bind_eq_ok.mp run
  obtain ⟨_, _, _, run⟩ := run_bind_eq_ok.mp run
  obtain rfl := Except.ok.inj (Prod.mk.inj run).1
  exact templates

theorem project_escapes (setting : Setting) : EscapesWithin projectEscapes (project setting) :=
  .bind (registry_escapes setting) fun _ =>
    .bind (ofResult_escapes ((directory_fails setting).widen (by decide))) fun _ => .pure _

theorem project_templates {known : Project} (run : project setting session = (.ok known, after)) :
    known.registry.Templates := by
  obtain ⟨registry, _, registered, run⟩ := run_bind_eq_ok.mp run
  obtain ⟨_, _, _, run⟩ := run_bind_eq_ok.mp run
  obtain rfl := Except.ok.inj (Prod.mk.inj run).1
  exact registry_templates registered

end Job

theorem params_fails (source : ParamSource) (store : Store) :
    FailsWithin [.bytes, .range] (source.params store) := by
  have mapping (text : List Char) : FailsWithin [.bytes, .range] (ParamSource.ofMapping text) := by
    unfold ParamSource.ofMapping
    split
    · exact .reported rfl
    · exact .escaping rfl (by decide)
    · exact .ok _
    · exact .reported rfl
  have given (text : String) : FailsWithin [.bytes, .range] (ParamSource.mappingText store text) := by
    unfold ParamSource.mappingText
    dsimp only
    split
    · exact ((Store.read_escapes _ _).widen (by decide)).map
    · exact .ok _
  have item (item : String) : FailsWithin [.bytes, .range] (ParamSource.ofItem item) := by
    unfold ParamSource.ofItem
    split
    · split
      · exact .reported rfl
      · exact .ok _
    · exact .reported rfl
  unfold ParamSource.params
  split
  · exact .bind (given _) fun _ _ => .bind (mapping _) fun _ _ =>
      .bind (.mapM fun one _ => item one) fun _ _ => .ok _
  · exact .bind (.ok _) fun _ _ => .bind (.mapM fun one _ => item one) fun _ _ => .ok _

theorem usualPath_fails (project : Project) (name : String) (params : Record) :
    FailsWithin Render.escapes (usualPath project name params) :=
  .bind (Registry.resolve_fails _ _ _) fun generator _ =>
    .bind (generator.renderOutputPath_fails params) fun _ _ => .ok _

/-- The end of creating a unit, when the path is known that it goes to, if there is one. -/
def createAt (project : Project) (generator : String) (params : Record) (target : Option String)
    (unitId : Option String) (preview : Bool) : Job Bool :=
  match target with
  | none => do
    Job.say s!"ERROR: Generator '{generator}' has no output path; pass one explicitly"
    return false
  | some target => do
    let action ← Job.ofWork (project.create generator params (.ofString target) unitId preview)
    sayAction preview action target
    return true

theorem create_eq (generator : String) (path : Option String) (source : ParamSource)
    (unitId : Option String) (preview : Bool) :
    create setting generator path source unitId preview = (do
      let project ← Job.project setting
      let params ← Job.fromFiles source.params
      let target ← match Setting.nonempty? path with
        | some path => pure (some path)
        | none => Job.ofResult (usualPath project generator params)
      createAt project generator params target unitId preview) :=
  rfl

theorem createAt_escapes {project : Project} (templates : project.registry.Templates) (generator : String)
    (params : Record) (target : Option String) (unitId : Option String) (preview : Bool) :
    EscapesWithin (projectEscapes ++ Render.escapes)
      (createAt project generator params target unitId preview) := by
  unfold createAt
  split
  · exact .bind (Job.say_escapes _) fun _ => .pure _
  · exact .bind (Job.ofWork_escapes ((Project.create_escapes templates _ _ _ _ _).widen (by decide))) fun _ =>
      .bind (Job.say_escapes _) fun _ => .pure _

theorem create_escapes (generator : String) (path : Option String) (source : ParamSource)
    (unitId : Option String) (preview : Bool) :
    EscapesWithin (projectEscapes ++ Render.escapes)
      (create setting generator path source unitId preview) := by
  rw [create_eq]
  refine .bind_of ((Job.project_escapes setting).widen (by decide)) fun project ⟨_, _, made⟩ => ?_
  have templates := Job.project_templates made
  refine .bind (Job.fromFiles_escapes fun store => (params_fails source store).widen (by decide)) fun params => ?_
  have onward (target : Option String) := createAt_escapes templates generator params target unitId preview
  split
  · exact .bind (.pure _) fun _ => onward _
  · exact .bind (Job.ofResult_escapes ((usualPath_fails _ _ _).widen (by decide))) fun _ => onward _

/-- A job that does not go well prints a complaint as its last line. -/
def Tells (command : Command) (job : Job Bool) : Prop :=
  ∀ session after, job session = (.ok false, after) →
    ∃ line, after.printed.getLast? = some line ∧ Complaint command line

namespace Tells

theorem bind {first : Job α} {next : α → Job Bool} (later : ∀ value, Tells command (next value)) :
    Tells command (first >>= next) := by
  intro session after run
  obtain ⟨value, middle, _, run⟩ := run_bind_eq_ok.mp run
  exact later value middle after run

theorem say {line : String} {result : Bool} (told : result = false → Complaint command line) :
    Tells command (do Job.say line; return result) := by
  intro session after run
  obtain ⟨value, middle, said, run⟩ := run_bind_eq_ok.mp run
  cases said
  cases run
  exact ⟨line, List.getLast?_concat, told rfl⟩

end Tells

section Undefined

end Undefined

end Scaffold.CommandLine
