import Scaffold.Proofs.Escapes
import Scaffold.Proofs.Registry.Loading
import Scaffold.Project.Build
import Scaffold.Project.Settings
import Scaffold.Project.Sync

/-!
How work on projects fails. Work on one file fails as reading, rendering or extracting does; work on many
files notes what fails and goes on.
-/

namespace Scaffold

variable {kinds : List Escape} {σ α : Type}

/-! ### Settings -/

/-- The kinds of failures that any look into a project may end by. -/
def ambientEscapes : List Escape := [.home, .bytes, .range]

/-- What the file system refuses is reported. -/
theorem Error.Within.of_refused {error : Error} (refused : Store.Refused error) : error.Within kinds := by
  refine .reported (Error.escape?_eq_none.mpr ?_)
  rw [show error.errorClass = .system from refused]
  decide

theorem Store.read_escapes (store : Store) (path : Path) : FailsWithin [.bytes] (store.read path) := by
  refine (Store.read_fails store path).mono fun error known => ?_
  rcases known with refused | rfl
  · exact .of_refused refused
  · exact .of_kind rfl (by decide)

theorem Environment.expandHome_fails (environment : Environment) (path : Path) :
    FailsWithin [.home] (environment.expandHome path) := by
  have unknown (name : String) : FailsWithin [.home] (expandHome.unknown name) :=
    .escaping rfl (by decide)
  unfold expandHome
  split
  · split
    · split
      · split
        · exact .ok _
        · exact unknown _
      · exact unknown _
    · exact .ok _
  · exact .ok _

namespace Settings

theorem load_fails (store : Store) (directory : Path) : FailsWithin ambientEscapes (load store directory) := by
  unfold load
  dsimp only
  split
  · refine .bind ((Store.read_escapes _ _).widen (by decide)) fun text _ => ?_
    unfold ofText
    split
    · exact FailsWithin.reported rfl
    · exact FailsWithin.escaping rfl (by decide)
    · exact .ok _
    · exact .ok _
    · exact FailsWithin.reported rfl
  · exact .ok _

theorem placeOf_fails (store : Store) (environment : Environment) (directory : Path)
    (override setting usual : String) :
    FailsWithin ambientEscapes (placeOf store environment directory override setting usual) := by
  unfold placeOf
  split
  · exact .ok _
  · refine .bind (load_fails _ _) fun settings _ => ?_
    dsimp only
    split
    · exact .bind ((Environment.expandHome_fails _ _).widen (by decide)) fun _ _ => .ok _
    · exact .ok _

end Settings

/-! ### Steps of work -/

namespace Work

theorem ofResult_escapes {result : Except Error α} (fails : FailsWithin kinds result) :
    EscapesWithin kinds (ofResult result) :=
  fun _ => fails

theorem warn_escapes (warnings : List Warning) : EscapesWithin kinds (warn warnings) :=
  fun _ => .ok ()

theorem readFile_escapes (path : Path) : EscapesWithin [.bytes] (readFile path) :=
  fun bench => Store.read_escapes bench.store path

theorem changeFiles_escapes {change : Store → Except Error Store}
    (refused : ∀ store, FailsOnly Store.Refused (change store)) :
    EscapesWithin kinds (changeFiles change) := by
  intro bench
  unfold changeFiles
  cases run : change bench.store with
  | ok store => exact .ok ()
  | error error => exact FailsOnly.error (.of_refused (refused _ error run))

theorem writeFile_escapes (path : Path) (text : List Char) : EscapesWithin kinds (writeFile path text) :=
  changeFiles_escapes fun _ => Store.write_fails _ _ _

theorem writeNewFile_escapes (path : Path) (text : List Char) :
    EscapesWithin kinds (writeNewFile path text) :=
  .bind (changeFiles_escapes fun _ => Store.makeDirectories_fails _ _) fun _ => writeFile_escapes _ _

end Work

/-- The units of a text are found, or it is reported how its sentinels are malformed. -/
theorem Sentinel.findSpans_fails (kinds : List Escape) (dialect : Dialect) (path : Option String)
    (text : List Char) : FailsWithin kinds (findSpans dialect path text) := by
  have missing (opening : Located (List Char)) (id : Option String) :
      FailsWithin kinds (spanOf.missing path opening id) := by
    unfold spanOf.missing
    split
    · exact .reported rfl
    · exact .reported rfl
  have span (opening : Located (List Char)) (closing : Located Unit) :
      FailsWithin kinds (spanOf text path opening closing) := by
    unfold spanOf
    dsimp only
    split
    · split
      · exact missing _ _
      · exact .ok _
    · exact missing _ _
  have spans (opened : Option (Located (List Char))) (marks : List Mark) :
      FailsWithin kinds (spansFrom text path opened marks) := by
    fun_induction spansFrom text path opened marks with
    | case1 => exact .ok _
    | case2 => exact .reported rfl
    | case3 _ _ ih => exact ih
    | case4 => exact .reported rfl
    | case5 => exact .reported rfl
    | case6 opening mark rest ih => exact .bind (span _ _) fun _ _ => .bind ih fun _ _ => .ok _
  exact spans none _

namespace Extract

end Extract

/-! ### Work on one file -/

theorem Registry.resolve_fails (kinds : List Escape) (registry : Registry) (name : String) :
    FailsWithin kinds (registry.resolve name) := by
  unfold resolve
  split
  · exact .ok _
  · exact .reported rfl

theorem Registry.Templates.resolve {registry : Registry} (templates : registry.Templates) {name : String}
    {generator : Generator} (run : registry.resolve name = .ok generator) : generator.IsTemplate := by
  unfold Registry.resolve at run
  split at run
  · next found =>
    obtain rfl := Except.ok.inj run
    exact templates _ (List.mem_of_find?_eq_some found)
  · cases run

namespace Generator

variable {generator : Generator}

theorem IsTemplate.render_fails (known : generator.IsTemplate) (params : Record) :
    FailsWithin Render.escapes (generator.render params) := by
  obtain ⟨text, outputPath, made⟩ := known
  unfold render
  rw [made]
  exact .bind (Render.compile_fails _ _) fun _ _ => Render.document_fails _ _

theorem renderOutputPath_fails (generator : Generator) (params : Record) :
    FailsWithin Render.escapes (generator.renderOutputPath params) := by
  unfold renderOutputPath
  split
  · exact .ok _
  · split
    · exact .ok _
    · split
      · exact .bind (Render.compile_fails _ _) fun _ _ => .bind (Render.document_fails _ _) fun _ _ => .ok _
      · exact .escaping rfl (by decide)

end Generator

namespace Project

variable {project : Project}

/-- The kinds of failures that creating a unit may end by. -/
def createEscapes : List Escape := [.bytes] ++ Render.escapes

theorem commit_escapes (target : Path) (old new : List Char) (preview : Bool) :
    EscapesWithin kinds (commit target old new preview) := by
  unfold commit
  split
  · exact .pure _
  · dsimp only
    split
    · exact .bind (Work.writeFile_escapes _ _) fun _ => .pure _
    · exact .pure _

theorem place_escapes (target : Path) (identity : String) (unit : List Char) (preview : Bool) :
    EscapesWithin [.bytes] (place target identity unit preview) := by
  have vacant : EscapesWithin [.bytes] (isVacant target) := by
    unfold isVacant
    refine .bind (fun _ => .ok _) fun bench => ?_
    split
    · exact .bind (Work.readFile_escapes _) fun _ => .pure _
    · exact .pure _
  have replaceable (spans : List Sentinel.Span) : FailsWithin [.bytes] (unitToReplace target identity spans) := by
    unfold unitToReplace
    split
    · exact .reported rfl
    · split
      · exact .ok _
      · exact .reported rfl
  unfold place
  refine .bind vacant fun free => ?_
  split
  · dsimp only
    split
    · exact .bind (Work.writeNewFile_escapes _ _) fun _ => .pure _
    · exact .pure _
  · exact .bind (Work.readFile_escapes _) fun _ =>
      .bind (Work.ofResult_escapes (Sentinel.findSpans_fails _ _ _ _)) fun _ =>
        .bind (Work.ofResult_escapes (replaceable _)) fun _ => commit_escapes _ _ _ _

theorem create_escapes (templates : project.registry.Templates) (generator : String) (params : Record)
    (path : Path) (unitId : Option String) (preview : Bool) :
    EscapesWithin createEscapes (project.create generator params path unitId preview) := by
  unfold create
  refine .bind_of (Work.ofResult_escapes (Registry.resolve_fails _ _ _)) fun known run => ?_
  obtain ⟨bench, middle, run⟩ := run
  have template := templates.resolve (Prod.mk.inj run).1
  refine .bind (Work.ofResult_escapes ((template.render_fails params).widen (by decide))) fun text => ?_
  exact (place_escapes _ _ _ _).widen (by decide)

end Project

end Scaffold
