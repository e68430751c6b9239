import Mathlib.Data.List.Basic
import Scaffold.Proofs.Project.Extractors
import Scaffold.Proofs.Store.Write

/-!
What bringing units up to date computes. The new text of a unit is a function of the dialect and of its
generator, identity and body, and the new text of a file is a function of the old one: neither depends
on what the project did before.
-/

namespace Scaffold

open Extract Sentinel

namespace Registry

/-- The text that the generator of a name makes of the values that are read off a body. -/
def rerender (registry : Registry) (name : String) (body : List Char) : Except Error (List Char) := do
  let generator ← registry.resolve name
  match generator.template? with
  | none => .error (.noTemplate name)
  | some template =>
    let values ← generator.readOff template body
    generator.render (Project.paramsOf values)

/-- A unit generated again from its body. -/
def renew (registry : Registry) (dialect : Dialect) (name : String) (unitId : Option String)
    (body : List Char) : Except Error (List Char) := do
  let rendered ← registry.rerender name body
  return dialect.wrap rendered name unitId

/-- What is known of a unit with a given body. -/
def examine (registry : Registry) (name : String) (unitId : Option String) (body : List Char) :
    Except Error Project.Inspection := do
  let generator ← registry.resolve name
  match generator.template? with
  | none => return ⟨name, unitId, none⟩
  | some template =>
    let values ← generator.readOff template body
    return ⟨name, unitId, some values⟩

/-- A text with all its units generated again. -/
def rewrite (registry : Registry) (target : Path) (text : List Char) : Except Error (List Char) := do
  let spans ← Project.unitsOf target text
  let units ← spans.mapM fun span =>
    registry.renew (Dialect.ofPath target) span.generator span.unitId (span.body text)
  return Project.assemble text 0 (spans.zip units)

variable {registry larger : Registry} {generator : Generator} {name : String}

theorem resolve_eq_ok : registry.resolve name = .ok generator ↔ registry.get? name = some generator := by
  unfold resolve
  cases registry.get? name with
  | none => simp
  | some other => simp

theorem get?_name (found : registry.get? name = some generator) : generator.name = name := by
  have named := List.find?_some (show registry.generators.find? _ = some generator from found)
  exact eq_of_beq named

/-- What is registered stays registered. -/
theorem get?_register {warnings : List Warning}
    (run : registry.register generator = (warnings, .ok larger)) {other : Generator}
    (found : registry.get? name = some other) : larger.get? name = some other := by
  have grown : larger = ⟨registry.generators ++ [generator]⟩ := by
    have result := congrArg Prod.snd run
    unfold register at result
    split at result
    · cases result
    split at result
    · cases result
    obtain ⟨_, _, same⟩ := map_eq_ok.mp result
    exact same.symm
  rw [grown, get?, List.find?_append, show registry.generators.find? _ = some other from found]
  rfl

theorem rewrite_of_units {target : Path} {text : List Char} {spans : List Span}
    (found : Project.unitsOf target text = .ok spans) :
    registry.rewrite target text =
      (spans.mapM fun span => registry.renew (Dialect.ofPath target) span.generator span.unitId
        (span.body text)).map fun units => Project.assemble text 0 (spans.zip units) := by
  have step : ∀ next : List Span → Except Error (List Char), (Except.ok spans >>= next) = next spans :=
    fun _ => rfl
  rw [rewrite, found, step]
  generalize (spans.mapM fun span => registry.renew (Dialect.ofPath target) span.generator span.unitId
    (span.body text)) = outcome
  cases outcome <;> rfl

theorem rerender_eq_ok {body rendered : List Char} :
    registry.rerender name body = .ok rendered ↔
      ∃ generator template values, registry.resolve name = .ok generator ∧
        generator.template? = some template ∧ generator.readOff template body = .ok values ∧
        generator.render (Project.paramsOf values) = .ok rendered := by
  unfold rerender
  rw [bind_eq_ok]
  constructor
  · rintro ⟨generator, found, run⟩
    cases recipe : generator.template? with
    | none =>
      rw [recipe] at run
      cases run
    | some template =>
      rw [recipe] at run
      obtain ⟨values, extracted, written⟩ := bind_eq_ok.mp run
      exact ⟨generator, template, values, found, recipe, extracted, written⟩
  · rintro ⟨generator, template, values, found, recipe, extracted, written⟩
    refine ⟨generator, found, ?_⟩
    rw [recipe]
    exact bind_eq_ok.mpr ⟨values, extracted, written⟩

/-- A unit that is generated again is wrapped around what its generator makes of its body. -/
theorem renew_eq_ok {dialect : Dialect} {unitId : Option String} {body unit : List Char} :
    registry.renew dialect name unitId body = .ok unit ↔
      ∃ rendered, registry.rerender name body = .ok rendered ∧
        unit = dialect.wrap rendered name unitId := by
  rw [renew, bind_eq_ok]
  constructor
  · rintro ⟨rendered, written, same⟩
    exact ⟨rendered, written, (Except.ok.inj same).symm⟩
  · rintro ⟨rendered, written, rfl⟩
    exact ⟨rendered, written, rfl⟩

end Registry

namespace Project

variable {project : Project}

theorem regenerate_computes (dialect : Dialect) (text : List Char) (span : Span) :
    Computes project.registry (project.regenerate dialect text span)
      (project.registry.renew dialect span.generator span.unitId (span.body text)) := by
  rw [Registry.renew, Registry.rerender, bind_assoc]
  refine (Computes.ofResult _).bind fun generator resolved => ?_
  have registered := Registry.resolve_eq_ok.mp resolved
  cases recipe : generator.template? with
  | none => exact .ofResult _
  | some template =>
    rw [← Registry.get?_name registered] at registered
    simp only [bind_assoc]
    refine (readParams_computes registered recipe text span).bind fun values _ => ?_
    exact (Computes.ofResult _).bind fun rendered _ => .pure _

theorem inspectUnit_computes (text : List Char) (span : Span) :
    Computes project.registry (project.inspectUnit text span)
      (project.registry.examine span.generator span.unitId (span.body text)) := by
  refine (Computes.ofResult _).bind fun generator resolved => ?_
  have registered := Registry.resolve_eq_ok.mp resolved
  cases recipe : generator.template? with
  | none => exact .pure _
  | some template =>
    rw [← Registry.get?_name registered] at registered
    exact (readParams_computes registered recipe text span).bind fun values _ => .pure _

/-- Looking at a file tells what is known of each of its units. -/
theorem inspect_run {bench : Bench} (faithful : Faithful project.registry bench.extractors)
    {path : Path} {text : List Char} {spans : List Span}
    (held : bench.store.read (project.resolvePath path) = .ok text)
    (found : unitsOf (project.resolvePath path) text = .ok spans) :
    ∃ after, project.inspect path bench =
      (spans.mapM fun span =>
        project.registry.examine span.generator span.unitId (span.body text), after) := by
  unfold inspect
  simp only [Work.bind_run, Work.readFile, held, Work.ofResult, found]
  obtain ⟨after, run, _⟩ := Computes.mapM (fun span _ => inspectUnit_computes text span) bench faithful
  exact ⟨after, run⟩

/-- A sync puts the text that is computed from that of the file in its place. -/
theorem sync_run {bench : Bench} (faithful : Faithful project.registry bench.extractors) (path : Path)
    (preview : Bool) :
    ∃ middle, middle.store = bench.store ∧ Faithful project.registry middle.extractors ∧
      project.sync path preview bench =
        match bench.store.read (project.resolvePath path) with
        | .error error => (.error error, middle)
        | .ok text =>
          match project.registry.rewrite (project.resolvePath path) text with
          | .error error => (.error error, middle)
          | .ok new => commit (project.resolvePath path) text new preview middle := by
  unfold sync
  simp only [Work.bind_run, Work.readFile]
  cases held : bench.store.read (project.resolvePath path) with
  | error error => exact ⟨bench, rfl, faithful, rfl⟩
  | ok text =>
    simp only [Work.ofResult]
    cases found : unitsOf (project.resolvePath path) text with
    | error error =>
      refine ⟨bench, rfl, faithful, ?_⟩
      rw [Registry.rewrite, found]
      rfl
    | ok spans =>
      obtain ⟨middle, run, store, kept⟩ := Computes.mapM (fun span (_ : span ∈ spans) =>
        regenerate_computes (Dialect.ofPath (project.resolvePath path)) text span) bench faithful
      refine ⟨middle, store, kept, ?_⟩
      simp only [run, Registry.rewrite_of_units found]
      cases spans.mapM fun span => project.registry.renew
        (Dialect.ofPath (project.resolvePath path)) span.generator span.unitId (span.body text) <;> rfl

theorem regenerate_impartial (dialect : Dialect) (text : List Char) (span : Span) :
    Impartial project.registry (project.regenerate dialect text span) := by
  refine .bind_ofResult fun generator resolved => ?_
  have registered := Registry.resolve_eq_ok.mp resolved
  cases recipe : generator.template? with
  | none => exact .ofResult _
  | some template =>
    rw [← Registry.get?_name registered] at registered
    exact (readParams_impartial registered recipe text span).bind fun _ =>
      .bind (.ofResult _) fun _ => .pure _

theorem inspectUnit_impartial (text : List Char) (span : Span) :
    Impartial project.registry (project.inspectUnit text span) := by
  refine .bind_ofResult fun generator resolved => ?_
  have registered := Registry.resolve_eq_ok.mp resolved
  cases recipe : generator.template? with
  | none => exact .pure _
  | some template =>
    rw [← Registry.get?_name registered] at registered
    exact (readParams_impartial registered recipe text span).bind fun _ => .pure _

theorem sync_impartial (path : Path) (preview : Bool) :
    Impartial project.registry (project.sync path preview) :=
  .bind (.readFile _) fun _ => .bind (.ofResult _) fun _ =>
    .bind (.mapM (regenerate_impartial _ _)) fun _ => commit_impartial _ _ _ _

theorem inspect_impartial (path : Path) : Impartial project.registry (project.inspect path) :=
  .bind (.readFile _) fun _ => .bind (.ofResult _) fun _ => .mapM (inspectUnit_impartial _)

theorem syncFiles_impartial (preview : Bool) (report : SyncReport) (paths : List Path) :
    Impartial project.registry (project.syncFiles preview report paths) := by
  induction paths generalizing report with
  | nil => exact .pure report
  | cons path rest ih =>
    refine .bind (.attempt (sync_impartial path preview)) fun result => ?_
    cases result with
    | ok action => exact ih _
    | error error => exact .bind (.warn _) fun _ => ih _

theorem syncAll_impartial (directory : Option Path) (preview : Bool) :
    Impartial project.registry (project.syncAll directory preview) :=
  .bind_get (fun _ _ same => by rw [same]) fun _ => syncFiles_impartial _ _ _

/-- What is registered later leaves the kept extractors faithful. -/
theorem Faithful.register {registry larger : Registry} {generator : Generator} {warnings : List Warning}
    {extractors : List (String × Extractor)} (faithful : Faithful registry extractors)
    (run : registry.register generator = (warnings, .ok larger)) : Faithful larger extractors := by
  intro name extractor kept
  obtain ⟨other, template, found, recipe, built⟩ := faithful name extractor kept
  exact ⟨other, template, Registry.get?_register run found, recipe, built⟩

/-- The states that a project can be in: it starts without extractors; its files and its log may be
changed from outside; generators may be registered; and it may do work of any kind, which may fail. -/
inductive Reached : Project → Bench → Prop
  | fresh (project : Project) (store : Store) (log : List Warning) : Reached project ⟨store, [], log⟩
  | edited {project : Project} {bench : Bench} (store : Store) (log : List Warning) :
    Reached project bench → Reached project { bench with store, log }
  | registered {project : Project} {bench : Bench} {generator : Generator} {warnings : List Warning}
    {larger : Registry} :
    Reached project bench → project.registry.register generator = (warnings, .ok larger) →
      Reached { project with registry := larger } bench
  | created {project : Project} {bench : Bench} (generator : String) (params : Record) (path : Path)
    (unitId : Option String) (preview : Bool) :
    Reached project bench →
      Reached project (project.create generator params path unitId preview bench).2
  | synced {project : Project} {bench : Bench} (path : Path) (preview : Bool) :
    Reached project bench → Reached project (project.sync path preview bench).2
  | inspected {project : Project} {bench : Bench} (path : Path) :
    Reached project bench → Reached project (project.inspect path bench).2
  | syncedAll {project : Project} {bench : Bench} (directory : Option Path) (preview : Bool) :
    Reached project bench → Reached project (project.syncAll directory preview bench).2
  | built {project : Project} {bench : Bench} (manifest : Manifest) (preview : Bool) :
    Reached project bench → Reached project (project.build manifest preview bench).2

theorem Reached.faithful {bench : Bench} (reached : Reached project bench) :
    Faithful project.registry bench.extractors := by
  induction reached with
  | fresh project store log => exact .nil _
  | edited store log _ ih => exact ih
  | registered _ run ih => exact ih.register run
  | created generator params path unitId preview _ ih =>
    exact (create_impartial _ _ _ _ _ _).keeps _ ih
  | synced path preview _ ih => exact (sync_impartial _ _).keeps _ ih
  | inspected path _ ih => exact (inspect_impartial _).keeps _ ih
  | syncedAll directory preview _ ih => exact (syncAll_impartial _ _).keeps _ ih
  | built manifest preview _ ih => exact (build_impartial _ _ _).keeps _ ih

end Project

end Scaffold
