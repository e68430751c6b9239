import Mathlib.Data.List.Forall2
import Scaffold.Project.Build
import Scaffold.Project.Sync
import Scaffold.Proofs.Outcome

/-!
The extractors that a project keeps. Each of them is the one that would be built anew for the generator
of its name, so that work on a project gives the same results whichever extractors are kept.
-/

namespace Scaffold

open Extract Sentinel

namespace Work

variable {α β : Type}

theorem bind_run (work : Work α) (next : α → Work β) (bench : Bench) :
    (work >>= next) bench =
      match work bench with
      | (.ok value, middle) => next value middle
      | (.error error, middle) => (.error error, middle) := by
  rw [run_bind]
  obtain ⟨result, middle⟩ := work bench
  cases result <;> rfl

theorem bind_eq_ok {work : Work α} {next : α → Work β} {bench after : Bench} {result : β} :
    (work >>= next) bench = (.ok result, after) ↔
      ∃ value middle, work bench = (.ok value, middle) ∧ next value middle = (.ok result, after) :=
  run_bind_eq_ok

theorem ofResult_eq_ok {result : Except Error α} {bench after : Bench} {value : α} :
    ofResult result bench = (.ok value, after) ↔ result = .ok value ∧ bench = after := by
  constructor
  · rintro ⟨⟩
    exact ⟨rfl, rfl⟩
  · rintro ⟨rfl, rfl⟩
    rfl

theorem get_run (bench : Bench) : (get : Work Bench) bench = (.ok bench, bench) :=
  rfl

end Work

namespace Generator

def readOff (generator : Generator) (template body : List Char) : Except Error Values := do
  let extractor ← (Extractor.build template generator.hints false).2
  extractor.extract body

end Generator

namespace Project

variable {α β : Type} {registry : Registry}

/-- Every kept extractor is that of the generator registered under its name. -/
def Faithful (registry : Registry) (extractors : List (String × Extractor)) : Prop :=
  ∀ name extractor, extractors.lookup name = some extractor →
    ∃ generator template, registry.get? name = some generator ∧
      generator.template? = some template ∧
      (Extractor.build template generator.hints false).2 = .ok extractor

theorem Faithful.nil (registry : Registry) : Faithful registry [] := by
  intro name extractor kept
  cases kept

theorem Faithful.cons {extractors : List (String × Extractor)} {extractor : Extractor} {name : String}
    {generator : Generator} {template : List Char} (faithful : Faithful registry extractors)
    (registered : registry.get? name = some generator) (recipe : generator.template? = some template)
    (built : (Extractor.build template generator.hints false).2 = .ok extractor) :
    Faithful registry ((name, extractor) :: extractors) := by
  intro other kept found
  rw [List.lookup_cons] at found
  by_cases same : other = name
  · subst same
    rw [beq_self_eq_true] at found
    cases found
    exact ⟨generator, template, registered, recipe, built⟩
  · rw [beq_eq_false_iff_ne.mpr same] at found
    exact faithful other kept found

/-- Work gives a result whichever faithful extractors are kept; it leaves the files as they are and
the extractors faithful. -/
def Computes (registry : Registry) (work : Work α) (result : Except Error α) : Prop :=
  ∀ bench, Faithful registry bench.extractors → ∃ after, work bench = (result, after) ∧
    after.store = bench.store ∧ Faithful registry after.extractors

namespace Computes

theorem ofResult (result : Except Error α) : Computes registry (Work.ofResult result) result :=
  fun bench faithful => ⟨bench, rfl, rfl, faithful⟩

theorem pure (value : α) : Computes registry (Pure.pure value) (.ok value) :=
  fun bench faithful => ⟨bench, rfl, rfl, faithful⟩

theorem bind {work : Work α} {next : α → Work β} {result : Except Error α}
    {nextResult : α → Except Error β} (first : Computes registry work result)
    (then_ : ∀ value, result = .ok value → Computes registry (next value) (nextResult value)) :
    Computes registry (work >>= next) (result >>= nextResult) := by
  intro bench faithful
  obtain ⟨middle, run, store, kept⟩ := first bench faithful
  rw [Work.bind_run, run]
  cases result with
  | error error => exact ⟨middle, rfl, store, kept⟩
  | ok value =>
    obtain ⟨after, run, same, kept⟩ := then_ value rfl middle kept
    exact ⟨after, run, same.trans store, kept⟩

theorem mapM {items : List α} {work : α → Work β} {result : α → Except Error β}
    (each : ∀ item ∈ items, Computes registry (work item) (result item)) :
    Computes registry (items.mapM work) (items.mapM result) := by
  induction items with
  | nil => exact pure []
  | cons item rest ih =>
    rw [List.mapM_cons, List.mapM_cons]
    refine bind (each item List.mem_cons_self) fun value _ => ?_
    refine bind (ih fun other later => each other (List.mem_cons_of_mem _ later)) fun values _ => ?_
    exact pure (value :: values)

end Computes

/-- Where an extractor is kept none is built. -/
theorem extractorOf_of_kept {generator : Generator} {template : List Char} {bench : Bench}
    {extractor : Extractor} (registered : registry.get? generator.name = some generator)
    (recipe : generator.template? = some template)
    (faithful : Faithful registry bench.extractors)
    (kept : bench.extractors.lookup generator.name = some extractor) :
    extractorOf generator template bench = (.ok extractor, bench) ∧
      (Extractor.build template generator.hints false).2 = .ok extractor := by
  obtain ⟨other, text, found, has, built⟩ := faithful _ _ kept
  obtain rfl := Option.some.inj (registered.symm.trans found)
  obtain rfl := Option.some.inj (recipe.symm.trans has)
  have same : extractor.template = template := by
    obtain ⟨blocks, _, compiled⟩ := bind_eq_ok.mp built
    obtain ⟨matchers, _, made⟩ := bind_eq_ok.mp compiled
    exact congrArg Extractor.template (Except.ok.inj made).symm
  refine ⟨?_, built⟩
  rw [extractorOf, Work.bind_run, Work.get_run]
  simp only [kept, if_pos same]
  rfl

theorem extractorOf_of_none {generator : Generator} {bench : Bench} (template : List Char)
    (none : bench.extractors.lookup generator.name = none) :
    extractorOf generator template bench = extractorOf.build generator template bench := by
  rw [extractorOf, Work.bind_run, Work.get_run]
  simp only [none]

/-- An extractor is built once and kept, and what is kept is what would be built. -/
theorem extractorOf_computes {generator : Generator} {template : List Char}
    (registered : registry.get? generator.name = some generator)
    (recipe : generator.template? = some template) :
    Computes registry (extractorOf generator template)
      (Extractor.build template generator.hints false).2 := by
  intro bench faithful
  cases kept : bench.extractors.lookup generator.name with
  | some extractor =>
    obtain ⟨run, built⟩ := extractorOf_of_kept registered recipe faithful kept
    exact ⟨bench, by rw [run, built], rfl, faithful⟩
  | none =>
    rw [extractorOf_of_none template kept, extractorOf.build]
    rcases outcome : Extractor.build template generator.hints false with ⟨warnings, result⟩
    have built := congrArg Prod.snd outcome
    simp only [Work.bind_run, Work.warn, Work.ofResult]
    cases result with
    | error error => exact ⟨_, rfl, rfl, faithful⟩
    | ok extractor => exact ⟨_, rfl, rfl, faithful.cons registered recipe built⟩

theorem readParams_computes {generator : Generator} {template : List Char}
    (registered : registry.get? generator.name = some generator)
    (recipe : generator.template? = some template) (text : List Char) (span : Span) :
    Computes registry (readParams generator template text span)
      (generator.readOff template (span.body text)) :=
  (extractorOf_computes registered recipe).bind fun _ _ => .ofResult _

/-- Work keeps extractors faithful, whether it succeeds or fails. -/
def Keeps (registry : Registry) (work : Work α) : Prop :=
  ∀ bench, Faithful registry bench.extractors → Faithful registry (work bench).2.extractors

/-- Of two benches with the same files and faithful extractors the first keeps an extractor wherever
the second does, and has no warnings but those of the second, in their order. -/
structure Ahead (registry : Registry) (bench other : Bench) : Prop where
  store : bench.store = other.store
  faithful : Faithful registry bench.extractors
  faithful' : Faithful registry other.extractors
  kept : ∀ name, (other.extractors.lookup name).isSome → (bench.extractors.lookup name).isSome
  log : bench.log.Sublist other.log

/-- Work gives the same result on a bench that is ahead of another as on that one, and leaves it
ahead, whether it succeeds or fails. -/
def Impartial (registry : Registry) (work : Work α) : Prop :=
  ∀ bench other, Ahead registry bench other →
    (work bench).1 = (work other).1 ∧ Ahead registry (work bench).2 (work other).2

theorem Ahead.refl {bench : Bench} (faithful : Faithful registry bench.extractors) :
    Ahead registry bench bench :=
  ⟨rfl, faithful, faithful, fun _ => id, .refl _⟩

namespace Impartial

theorem keeps {work : Work α} (impartial : Impartial registry work) : Keeps registry work :=
  fun _ faithful => (impartial _ _ (.refl faithful)).2.faithful

theorem bind {work : Work α} {next : α → Work β} (first : Impartial registry work)
    (then_ : ∀ value, Impartial registry (next value)) : Impartial registry (work >>= next) := by
  intro bench other ahead
  obtain ⟨same, ahead⟩ := first bench other ahead
  rw [Work.bind_run, Work.bind_run]
  rcases run : work bench with ⟨result, middle⟩
  rcases run' : work other with ⟨result', middle'⟩
  rw [run, run'] at same ahead
  obtain rfl : result = result' := same
  cases result with
  | error error => exact ⟨rfl, ahead⟩
  | ok value => exact then_ value middle middle' ahead

theorem ofResult (result : Except Error α) : Impartial registry (Work.ofResult result) :=
  fun _ _ ahead => ⟨rfl, ahead⟩

theorem pure (value : α) : Impartial registry (Pure.pure value) :=
  fun _ _ ahead => ⟨rfl, ahead⟩

/-- A result that is known before has to be reckoned with only when it is a value. -/
theorem bind_ofResult {result : Except Error α} {next : α → Work β}
    (then_ : ∀ value, result = .ok value → Impartial registry (next value)) :
    Impartial registry (Work.ofResult result >>= next) := by
  cases result with
  | error error => exact ofResult (.error error)
  | ok value => exact then_ value rfl

/-- Work may look at the files of the bench, but at nothing else of it. -/
theorem bind_get {next : Bench → Work β}
    (files : ∀ bench other : Bench, bench.store = other.store → next bench = next other)
    (then_ : ∀ bench, Impartial registry (next bench)) :
    Impartial registry (MonadState.get >>= next) := by
  intro bench other ahead
  rw [Work.bind_run, Work.bind_run, Work.get_run, Work.get_run]
  change (next bench bench).1 = (next other other).1 ∧
    Ahead registry (next bench bench).2 (next other other).2
  rw [files bench other ahead.store]
  exact then_ other bench other ahead

theorem warn (warnings : List Warning) : Impartial registry (Work.warn warnings) :=
  fun _ _ ahead => ⟨rfl, { ahead with log := ahead.log.append (.refl warnings) }⟩

theorem readFile (path : Path) : Impartial registry (Work.readFile path) :=
  fun _ _ ahead => ⟨congrArg (Store.read · path) ahead.store, ahead⟩

theorem changeFiles (change : Store → Except Error Store) :
    Impartial registry (Work.changeFiles change) := by
  intro bench other ahead
  unfold Work.changeFiles
  rw [ahead.store]
  cases change other.store with
  | error error => exact ⟨rfl, ahead⟩
  | ok store => exact ⟨rfl, { ahead with store := rfl }⟩

theorem attempt {work : Work α} (impartial : Impartial registry work) :
    Impartial registry (Work.attempt work) := by
  intro bench other ahead
  obtain ⟨same, ahead⟩ := impartial bench other ahead
  exact ⟨congrArg Except.ok same, ahead⟩

theorem ite {condition : Prop} {_ : Decidable condition} {yes no : Work α}
    (one : Impartial registry yes) (other : Impartial registry no) :
    Impartial registry (if condition then yes else no) := by
  split
  · exact one
  · exact other

theorem mapM {items : List α} {work : α → Work β} (each : ∀ item, Impartial registry (work item)) :
    Impartial registry (items.mapM work) := by
  induction items with
  | nil => exact pure []
  | cons item rest ih =>
    rw [List.mapM_cons]
    exact (each item).bind fun _ => ih.bind fun _ => pure _

end Impartial

theorem buildExtractor_impartial {generator : Generator} {template : List Char}
    (registered : registry.get? generator.name = some generator)
    (recipe : generator.template? = some template) :
    Impartial registry (extractorOf.build generator template) := by
  refine .bind (.warn _) fun _ => .bind_ofResult fun extractor built => .bind ?_ fun _ => .pure _
  intro bench other ahead
  refine ⟨rfl, ahead.store, ahead.faithful.cons registered recipe built,
    ahead.faithful'.cons registered recipe built, fun name => ?_, ahead.log⟩
  change ((_ :: other.extractors).lookup name).isSome → ((_ :: bench.extractors).lookup name).isSome
  rw [List.lookup_cons, List.lookup_cons]
  cases name == generator.name with
  | true => exact id
  | false => exact ahead.kept name

theorem buildExtractor_run {generator : Generator} {template : List Char} {extractor : Extractor}
    (built : (Extractor.build template generator.hints false).2 = .ok extractor) (bench : Bench) :
    extractorOf.build generator template bench =
      (.ok extractor, { bench with
        extractors := (generator.name, extractor) :: bench.extractors
        log := bench.log ++ (Extractor.build template generator.hints false).1 }) := by
  rw [extractorOf.build]
  simp only [Work.bind_run, Work.warn, Work.ofResult, built]
  rfl

/-- A bench that is ahead has the extractor, or both benches build it. -/
theorem extractorOf_impartial {generator : Generator} {template : List Char}
    (registered : registry.get? generator.name = some generator)
    (recipe : generator.template? = some template) :
    Impartial registry (extractorOf generator template) := by
  intro bench other ahead
  cases kept : bench.extractors.lookup generator.name with
  | none =>
    have none : other.extractors.lookup generator.name = none := by
      by_contra present
      have early := ahead.kept _ (Option.isSome_iff_ne_none.mpr present)
      rw [kept] at early
      cases early
    rw [extractorOf_of_none template kept, extractorOf_of_none template none]
    exact buildExtractor_impartial registered recipe bench other ahead
  | some extractor =>
    obtain ⟨run, built⟩ := extractorOf_of_kept registered recipe ahead.faithful kept
    rw [run]
    cases kept' : other.extractors.lookup generator.name with
    | some extractor' =>
      obtain ⟨run', built'⟩ := extractorOf_of_kept registered recipe ahead.faithful' kept'
      rw [run', ← built, built']
      exact ⟨rfl, ahead⟩
    | none =>
      rw [extractorOf_of_none template kept', buildExtractor_run built]
      refine ⟨rfl, ahead.store, ahead.faithful, ahead.faithful'.cons registered recipe built,
        fun name held => ?_, ahead.log.trans (List.sublist_append_left _ _)⟩
      change ((_ :: other.extractors).lookup name).isSome at held
      rw [List.lookup_cons] at held
      cases same : name == generator.name with
      | true => rw [eq_of_beq same, kept]; rfl
      | false =>
        rw [same] at held
        exact ahead.kept name held

theorem readParams_impartial {generator : Generator} {template : List Char}
    (registered : registry.get? generator.name = some generator)
    (recipe : generator.template? = some template) (text : List Char) (span : Span) :
    Impartial registry (readParams generator template text span) :=
  (extractorOf_impartial registered recipe).bind fun _ => .ofResult _

/-! ### Work that needs no extractors -/

theorem commit_impartial (target : Path) (old new : List Char) (preview : Bool) :
    Impartial registry (commit target old new preview) := by
  unfold commit
  exact .ite (.pure _) (.ite (.bind (.changeFiles _) fun _ => .pure _) (.pure _))

theorem isVacant_impartial (target : Path) : Impartial registry (isVacant target) :=
  .bind_get (fun _ _ same => by rw [same]) fun _ =>
    .ite (.bind (.readFile target) fun _ => .pure _) (.pure _)

theorem place_impartial (target : Path) (identity : String) (unit : List Char) (preview : Bool) :
    Impartial registry (place target identity unit preview) := by
  refine .bind (isVacant_impartial target) fun vacant => .ite ?_ ?_
  · refine .ite (.bind ?_ fun _ => .pure _) (.pure _)
    exact .bind (.changeFiles _) fun _ => .changeFiles _
  · exact .bind (.readFile target) fun text => .bind (.ofResult _) fun spans =>
      .bind (.ofResult _) fun span => commit_impartial _ _ _ _

theorem createWith_impartial (generator : Generator) (params : Record) (target : Path)
    (unitId : Option String) (preview : Bool) :
    Impartial registry (createWith generator params target unitId preview) :=
  .bind (.ofResult _) fun _ => place_impartial _ _ _ _

theorem create_impartial (project : Project) (generator : String) (params : Record) (path : Path)
    (unitId : Option String) (preview : Bool) :
    Impartial registry (project.create generator params path unitId preview) :=
  .bind (.ofResult _) fun _ => createWith_impartial _ _ _ _ _

theorem produceAll_impartial (project : Project) (preview : Bool) (report : BuildReport)
    (calls : List Call) : Impartial registry (project.produceAll preview report calls) := by
  induction calls generalizing report with
  | nil => exact .pure report
  | cons call rest ih =>
    refine .ite (ih _) (.bind (.attempt ?_) fun result => ?_)
    · exact .bind (.ofResult _) fun _ => .bind (.ofResult _) fun _ => .bind (.ofResult _) fun _ =>
        createWith_impartial _ _ _ _ _
    · cases result with
      | ok action => exact ih _
      | error error => exact .bind (.warn _) fun _ => ih _

theorem build_impartial (project : Project) (manifest : Manifest) (preview : Bool) :
    Impartial registry (project.build manifest preview) :=
  .bind (.ofResult _) fun calls => produceAll_impartial project preview {} calls

end Project

end Scaffold
