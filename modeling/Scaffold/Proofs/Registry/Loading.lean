import Scaffold.Proofs.Escapes
import Scaffold.Proofs.Render.Failures
import Scaffold.Proofs.Store.Failures
import Scaffold.Registry.Directory

/-!
How loading template files fails. A file that declares its parameters or its examples wrongly can stop
the loading of all of them, but only for a number out of range, a value of a wrong kind or a missing
operation. What has been loaded is made of templates.
-/

namespace Scaffold

variable {kinds : List Escape}

namespace Template

/-- A template that cannot be analysed is reported. -/
theorem analyze_fails (kinds : List Escape) (strict : Bool) (template : List Char) :
    FailsWithin kinds (analyze strict template).2 := by
  have lenient (analysis : Analysis) : FailsWithin kinds analysis.lenient := by
    unfold Analysis.lenient
    split
    · exact .reported rfl
    · exact .ok _
  unfold analyze
  cases strict with
  | false => exact lenient _
  | true =>
    change FailsWithin kinds (Analysis.strict _)
    unfold Analysis.strict
    split
    · exact .reported rfl
    · exact lenient _

end Template

/-! ### Template files -/

theorem HeadFormat.read_fails (format : HeadFormat) (text : List Char) :
    FailsWithin [.range] (format.read text) := by
  unfold read
  split
  · split
    · exact .ok _
    · exact .reported rfl
    · exact .escaping rfl (by decide)
  · split
    · exact .ok _
    · exact .reported rfl
    · exact .escaping rfl (by decide)

theorem headEntries_fails (kinds : List Escape) (format : HeadFormat) (value : Value) :
    FailsWithin kinds (headEntries format value) := by
  unfold headEntries
  split
  · exact .ok _
  · exact .ok _
  · exact .reported rfl

theorem readHead_fails (text : List Char) : FailsWithin [.range] (readHead text) := by
  have headed (format : HeadFormat) (head body : List Char) : FailsWithin [.range] (do
      return (← headEntries format (← format.read head), Text.trimLeft body) : Except Error _) :=
    .bind (HeadFormat.read_fails format head) fun value _ =>
      .bind (headEntries_fails _ format value) fun _ _ => .ok _
  unfold readHead
  split
  · exact headed .yaml _ _
  · split
    · exact headed .json _ _
    · exact .ok _

namespace Param

theorem ofValue_fails (kinds : List Escape) (name : Scalar) (value : Value) :
    FailsWithin kinds (ofValue name value) := by
  have fields (given : Value) : FailsWithin kinds (fieldsOf name given) := by
    unfold fieldsOf
    split
    · exact .ok _
    · split
      · exact .ok _
      · exact .reported rfl
  unfold ofValue
  split
  · exact .ok _
  · exact .bind (fields _) fun _ _ => .ok _
  · exact .reported rfl

theorem ofRecord_fails (kinds : List Escape) (record : Record) : FailsWithin kinds (ofRecord record) := by
  induction record with
  | nil => exact .ok _
  | cons entry rest ih => exact .bind (ofValue_fails kinds _ _) fun _ _ => .bind ih fun _ _ => .ok _

end Param

namespace Generator

/-- A generator is made of a template. -/
def IsTemplate (generator : Generator) : Prop :=
  ∃ text outputPath, generator.recipe = .template text outputPath

/-- The kinds of failures that stop the loading of all files. -/
def loadEscapes : List Escape := [.range, .misuse, .operation]

variable {name description : String} {template : List Char} {params examples outputPath : Value}

theorem define_fails : FailsWithin loadEscapes (define name description template params examples outputPath) := by
  have declared : FailsWithin loadEscapes (declarationsOf params) := by
    unfold declarationsOf
    split
    · exact .ok _
    · split
      · exact .ok _
      · exact .escaping rfl (by decide)
  have listed : FailsWithin loadEscapes (examplesOf examples) := by
    unfold examplesOf
    split
    · exact (Value.parts_fails _).widen (by decide)
    · exact .ok _
  exact .bind declared fun _ _ => .bind (Param.ofRecord_fails _ _) fun _ _ => .bind listed fun _ _ => .ok _

theorem define_isTemplate {generator : Generator}
    (run : define name description template params examples outputPath = .ok generator) :
    generator.IsTemplate := by
  obtain ⟨_, _, run⟩ := bind_eq_ok.mp run
  obtain ⟨_, _, run⟩ := bind_eq_ok.mp run
  obtain ⟨_, _, run⟩ := bind_eq_ok.mp run
  obtain rfl := Except.ok.inj run
  exact ⟨_, _, rfl⟩

theorem required_fails (kinds : List Escape) (path : Path) (head : Record) (field : String) :
    FailsWithin kinds (required path head field) := by
  unfold required
  dsimp only
  split
  · exact .ok _
  · exact .reported rfl

theorem ofText_fails (path : Path) (text : List Char) : FailsWithin loadEscapes (ofText path text) :=
  .bind ((readHead_fails _).widen (by decide)) fun _ _ => .bind (required_fails _ _ _ _) fun _ _ =>
    .bind (required_fails _ _ _ _) fun _ _ => define_fails

theorem load_fails (store : Store) (path : Path) :
    FailsOnly (fun error => error.errorClass = .misuse → error.Within loadEscapes) (load store path) := by
  refine .bind ?_ fun text _ => (ofText_fails path text).mono fun _ within _ => within
  refine (Store.read_fails store path).mono fun error known misuse => ?_
  rcases known with refused | rfl
  · exact absurd (refused.symm.trans misuse) (by decide)
  · cases misuse

theorem load_isTemplate {store : Store} {path : Path} {generator : Generator}
    (run : load store path = .ok generator) : generator.IsTemplate := by
  obtain ⟨text, _, run⟩ := bind_eq_ok.mp run
  obtain ⟨_, _, run⟩ := bind_eq_ok.mp run
  obtain ⟨_, _, run⟩ := bind_eq_ok.mp run
  obtain ⟨_, _, run⟩ := bind_eq_ok.mp run
  exact define_isTemplate run

theorem loadAll_fails (store : Store) (paths : List Path) :
    FailsWithin loadEscapes (loadAll store paths).2 := by
  induction paths with
  | nil => exact .ok _
  | cons path rest ih =>
    unfold loadAll
    split
    · exact ih.map
    · next error failed =>
      split
      · next misuse => exact FailsOnly.error (load_fails store path error failed misuse)
      · exact ih.map

theorem loadAll_isTemplate {store : Store} {paths : List Path} {loaded : Loaded}
    (run : (loadAll store paths).2 = .ok loaded) : ∀ entry ∈ loaded.generators, entry.2.IsTemplate := by
  induction paths generalizing loaded with
  | nil =>
    obtain rfl := Except.ok.inj run
    simp
  | cons path rest ih =>
    unfold loadAll at run
    split at run
    · next generator known =>
      obtain ⟨others, later, rfl⟩ := map_eq_ok.mp run
      exact List.forall_mem_cons.mpr ⟨load_isTemplate known, ih later⟩
    · split at run
      · cases run
      · obtain ⟨others, later, rfl⟩ := map_eq_ok.mp run
        have each := ih later
        exact each

end Generator

/-! ### Registering what has been loaded -/

namespace Review

theorem ofParam_fails (name : Scalar) (param : Param) :
    FailsWithin Generator.loadEscapes (ofParam name param) := by
  have patterns (title : String) : FailsWithin Generator.loadEscapes (patternFaults title param.pattern) := by
    unfold patternFaults
    split
    · exact .ok _
    · split
      · split
        · exact .ok _
        · exact .ok _
        · exact .escaping rfl (by decide)
      · exact .escaping rfl (by decide)
  have long : FailsWithin Generator.loadEscapes (isLong param.maxLength) := by
    unfold isLong
    split
    · exact .ok _
    · split
      · exact .ok _
      · exact .escaping rfl (by decide)
    · exact .escaping rfl (by decide)
  unfold ofParam
  refine .bind (patterns _) fun _ _ => ?_
  split
  · dsimp only
    split
    · exact .bind (.ok _) fun _ _ => .ok _
    · exact .bind long fun _ _ => .ok _
  · exact FailsWithin.escaping rfl (by decide)

theorem ofParams_fails (params : Keyed Param) : FailsWithin Generator.loadEscapes (ofParams params) := by
  induction params with
  | nil => exact .ok _
  | cons entry rest ih => exact .bind (ofParam_fails _ _) fun _ _ => .bind ih fun _ _ => .ok _

end Review

namespace Registry

variable {registry : Registry} {entries : List (Path × Generator)}

/-- All generators of a registry are made of templates. -/
def Templates (registry : Registry) : Prop :=
  ∀ generator ∈ registry.generators, generator.IsTemplate

/-- A template that does not compile or cannot be analysed is reported. -/
theorem checkTemplate_fails (kinds : List Escape) (template : List Char) :
    FailsWithin kinds (checkTemplate template).2 := by
  unfold checkTemplate
  split
  · next error failed => exact FailsOnly.error (Render.compile_fails _ _ error failed)
  · exact (Template.analyze_fails _ _ _).map

theorem check_fails (generator : Generator) : FailsWithin Generator.loadEscapes (check generator).2 := by
  unfold check
  split
  · next error failed => exact FailsOnly.error (Review.ofParams_fails _ error failed)
  · split
    · exact .reported rfl
    · dsimp only
      split
      · exact .ok _
      · exact checkTemplate_fails _ _

theorem register_fails (registry : Registry) (generator : Generator) :
    FailsWithin Generator.loadEscapes (registry.register generator).2 := by
  unfold register
  split
  · exact .reported rfl
  · split
    · exact .reported rfl
    · exact (check_fails generator).map

/-- Who is registered comes last. -/
theorem register_grown {generator : Generator} {larger : Registry}
    (run : (registry.register generator).2 = .ok larger) : larger = ⟨registry.generators ++ [generator]⟩ := by
  unfold register at run
  split at run
  · cases run
  · split at run
    · cases run
    · obtain ⟨_, _, same⟩ := map_eq_ok.mp run
      exact same.symm

theorem register_templates {generator : Generator} {larger : Registry} (templates : registry.Templates)
    (known : generator.IsTemplate) (run : (registry.register generator).2 = .ok larger) :
    larger.Templates := by
  rw [register_grown run]
  exact List.forall_mem_append.mpr ⟨templates, by simpa using known⟩

theorem registerAll_fails (errors : List String) (registry : Registry) :
    FailsWithin Generator.loadEscapes (registerAll errors registry entries).2.2 := by
  induction entries generalizing errors registry with
  | nil => exact .ok _
  | cons entry rest ih =>
    have fails := register_fails registry entry.2
    unfold registerAll
    generalize registry.register entry.2 = registered at fails ⊢
    obtain ⟨warnings, error | larger⟩ := registered
    · dsimp only
      split
      · exact FailsOnly.error (fails error rfl)
      · exact ih _ _
    · exact ih _ _

theorem registerAll_templates (errors : List String) (templates : registry.Templates)
    (each : ∀ entry ∈ entries, entry.2.IsTemplate) :
    (registerAll errors registry entries).2.1.Templates := by
  induction entries generalizing errors registry with
  | nil => exact templates
  | cons entry rest ih =>
    obtain ⟨known, each⟩ := List.forall_mem_cons.mp each
    have kept : ∀ larger, (registry.register entry.2).2 = .ok larger → larger.Templates :=
      fun _ => register_templates templates known
    unfold registerAll
    generalize registry.register entry.2 = registered at kept ⊢
    obtain ⟨warnings, error | larger⟩ := registered
    · dsimp only
      split
      · exact templates
      · exact ih _ templates each
    · exact ih _ (kept _ rfl) each

theorem registerDirectory_fails (store : Store) (directory : Path) (recursive : Bool) :
    FailsWithin Generator.loadEscapes (registerDirectory {} store directory recursive).2.2 := by
  have fails := Generator.loadAll_fails store (Generator.templateFiles store directory recursive)
  unfold registerDirectory Generator.loadDirectory
  generalize Generator.loadAll store _ = loaded at fails ⊢
  obtain ⟨warnings, error | loaded⟩ := loaded
  · exact FailsOnly.error (fails error rfl)
  · exact registerAll_fails _ _

/-- A directory gives templates only. -/
theorem registerDirectory_templates (store : Store) (directory : Path) (recursive : Bool) :
    (registerDirectory {} store directory recursive).2.1.Templates := by
  have vacant : Templates {} := fun _ impossible => by cases impossible
  have each : ∀ loaded,
      (Generator.loadAll store (Generator.templateFiles store directory recursive)).2 = .ok loaded →
      ∀ entry ∈ loaded.generators, entry.2.IsTemplate := fun _ => Generator.loadAll_isTemplate
  unfold registerDirectory Generator.loadDirectory
  generalize Generator.loadAll store _ = loaded at each ⊢
  obtain ⟨warnings, error | loaded⟩ := loaded
  · exact vacant
  · exact registerAll_templates _ vacant (each _ rfl)

end Registry

end Scaffold
