import Mathlib
import Scaffold.Proofs.Generator.Files

/-!
Registering the template files of a directory. The generators that are loaded are offered to the registry
one after the other: of those that pass, the first of each name is added, unless the name is taken, and
every other one is reported in a line that names its file. Only a declaration of a parameter that cannot
be reviewed stops this, and what was registered before stays in any case.
-/

namespace Scaffold

/-! ### Declarations that cannot be reviewed -/

namespace Value

/-- A value is a number, or a truth value, which counts as one. -/
def IsNumber (value : Value) : Prop :=
  ∃ scalar, value = .scalar scalar ∧ ((∃ number, scalar = .float number) ∨ scalar.asInt?.isSome = true)

end Value

/-- A pattern cannot be reviewed: it is there, and it is either no text or a text with a number or with
flags that do not fit. -/
def Pattern.Unfit (pattern : Value) : Prop :=
  pattern.truthy = true ∧
    ∀ text, pattern = .scalar (.text text) → ∃ detail, Grammar.judge text.toList = .error (.unfit detail)

/-- A declared parameter cannot be reviewed: its pattern cannot, its name is no text, or its largest length
is no number. -/
def Param.Unreviewable (name : Scalar) (param : Param) : Prop :=
  Pattern.Unfit param.pattern ∨ (∀ text, name ≠ .text text) ∨
    param.maxLength.isNull = false ∧ ¬param.maxLength.IsNumber

namespace Review

variable {name : Scalar} {param : Param} {params : Keyed Param} {value : Value}

theorem patternFaults_stops (title : String) : Stops (patternFaults title value) ↔ Pattern.Unfit value := by
  unfold patternFaults Pattern.Unfit
  split
  · next vacant => simpa using fun filled => absurd filled (by simpa using vacant)
  · next filled =>
    have there : value.truthy = true := by simpa using filled
    split
    · next text =>
      simp only [there, true_and, Value.scalar.injEq, Scalar.text.injEq, forall_eq']
      split
      · next fits => simp [fits]
      · next broken => simp [broken]
      · next detail unfit => simp [unfit, Error.errorClass]
    · next noText => simpa [there, Error.errorClass] using fun text same => absurd same (noText text)

theorem isLong_stops : Stops (isLong value) ↔ ¬value.IsNumber := by
  unfold isLong Value.IsNumber
  split
  · simp
  · next scalar noFloat =>
    cases read : scalar.asInt? with
    | some number => simp [read]
    | none => simpa [isLong.incomparable, Error.errorClass, read] using noFloat
  · next noScalar => simpa [isLong.incomparable, Error.errorClass] using fun scalar same => absurd same (noScalar scalar)

theorem patternFaults_only (title : String) (value : Value) :
    FailsOnly (fun error => error.errorClass = .misuse) (patternFaults title value) := by
  unfold patternFaults
  split
  · exact .ok _
  · split
    · split
      · exact .ok _
      · exact .ok _
      · exact .error rfl
    · exact .error rfl

theorem isLong_only (value : Value) : FailsOnly (fun error => error.errorClass = .misuse) (isLong value) := by
  unfold isLong
  split
  · exact .ok _
  · split
    · exact .ok _
    · exact .error rfl
  · exact .error rfl

/-- The review of a parameter finds what it finds, or it stops. -/
theorem ofParam_only (name : Scalar) (param : Param) :
    FailsOnly (fun error => error.errorClass = .misuse) (ofParam name param) := by
  unfold ofParam
  refine .bind (patternFaults_only _ _) fun _ _ => ?_
  split
  · dsimp only
    split
    · exact .bind (.ok _) fun _ _ => .ok _
    · exact .bind (isLong_only _) fun _ _ => .ok _
  · exact .error rfl

theorem ofParam_stops : Stops (ofParam name param) ↔ param.Unreviewable name := by
  have found := Stops.not_iff_succeeds (patternFaults_only (String.ofList name.shown) param.pattern)
  rw [patternFaults_stops] at found
  unfold ofParam Param.Unreviewable
  rw [Stops.bind_iff, patternFaults_stops]
  by_cases unfit : Pattern.Unfit param.pattern
  · simp [unfit]
  -- Where the pattern can be reviewed, the name and then the largest length are left.
  obtain ⟨faults, reviewed⟩ := found.mp unfit
  simp only [unfit, false_or, reviewed, Except.ok.injEq, exists_eq_left']
  split
  · next text =>
    split
    · next absent => simp [Stops.bind_iff, absent, pure, Except.pure]
    · next given =>
      have there : param.maxLength.isNull = false := by simpa using given
      simp [Stops.bind_iff, isLong_stops, there, pure, Except.pure]
  · next noText => simpa [Error.errorClass] using .inl noText

theorem ofParams_stops :
    Stops (ofParams params) ↔ ∃ entry ∈ params, entry.2.Unreviewable entry.1 := by
  induction params with
  | nil => simp [ofParams]
  | cons entry rest ih =>
    have found := Stops.not_iff_succeeds (ofParam_only entry.1 entry.2)
    rw [ofParams, Stops.bind_iff, ofParam_stops]
    rw [ofParam_stops] at found
    by_cases unreviewable : entry.2.Unreviewable entry.1
    · simp [unreviewable]
    · obtain ⟨first, reviewed⟩ := found.mp unreviewable
      simp [reviewed, unreviewable, Stops.bind_iff, ih, pure, Except.pure]

end Review

namespace Registry

variable {registry current : Registry} {offered : List Generator} {front back entries : List (Path × Generator)}
  {path : Path} {generator : Generator} {name : String} {error : Error}

/-! ### Offering one generator -/

/-- A generator has a name of the right form and passes the check. -/
def passes (generator : Generator) : Bool :=
  isName generator.name.toList && (check generator).2.isOk

/-- The generator that has a name after others were offered to a registry: the registry's own, or else
the first offered one of this name that passes. -/
def holder? (registry : Registry) (offered : List Generator) (name : String) : Option Generator :=
  (registry.get? name).or (offered.find? fun generator => passes generator && generator.name == name)

inductive Refused (registry : Registry) (offered : List Generator) (generator : Generator) : Error → Prop
  | misnamed : isName generator.name.toList = false →
      Refused registry offered generator (.invalidName generator.name)
  | taken : isName generator.name.toList = true →
      (registry.holder? offered generator.name).isSome = true →
      Refused registry offered generator
        (.alreadyExists s!"generator '{generator.name}'" "Generator is already registered")
  | unsound {error : Error} : isName generator.name.toList = true →
      registry.holder? offered generator.name = none → (check generator).2 = .error error →
      error.errorClass ≠ .misuse → Refused registry offered generator error

/-- A generator stops everything: its name is free, but the declaration of one of its parameters cannot
be reviewed. -/
def Stuck (registry : Registry) (offered : List Generator) (generator : Generator) : Prop :=
  isName generator.name.toList = true ∧ registry.holder? offered generator.name = none ∧
    ∃ entry ∈ generator.params, entry.2.Unreviewable entry.1

theorem check_stops :
    Stops (check generator).2 ↔ ∃ entry ∈ generator.params, entry.2.Unreviewable entry.1 := by
  rw [← Review.ofParams_stops]
  unfold check
  split
  · next error failed => simp [failed]
  · next review found =>
    rw [found, Stops.ok_iff, iff_false]
    split
    · simp [Error.errorClass]
    · dsimp only
      split
      · simp
      · exact Stops.not_of_fails (checkTemplate_fails [] _)

theorem passes_iff :
    passes generator = true ↔ isName generator.name.toList = true ∧ (check generator).2 = .ok () := by
  rw [passes, Bool.and_eq_true]
  cases (check generator).2 <;> simp [Except.isOk, Except.toBool]

theorem holder?_append :
    registry.holder? (offered ++ [generator]) name =
      (registry.holder? offered name).or
        (if passes generator && generator.name == name then some generator else none) := by
  rw [holder?, holder?, List.find?_append, Option.or_assoc, List.find?_singleton]

theorem Refused.holder?_append (refused : Refused registry offered generator error) :
    registry.holder? (offered ++ [generator]) name = registry.holder? offered name := by
  rw [Registry.holder?_append]
  split
  · next same =>
    obtain ⟨good, rfl⟩ : passes generator = true ∧ generator.name = name := by simpa using same
    obtain ⟨named, sound⟩ := passes_iff.mp good
    cases refused with
    | misnamed other => cases named.symm.trans other
    | taken _ held =>
      obtain ⟨holder, known⟩ := Option.isSome_iff_exists.mp held
      rw [known, Option.some_or]
    | unsound _ _ failed => cases sound.symm.trans failed
  · exact Option.or_none

/-- A registry that has taken what it could of the generators offered to it takes one more, refuses it or
is stuck. -/
theorem register_offered (alike : current.get? = registry.holder? offered) (generator : Generator) :
    (passes generator = true ∧ registry.holder? offered generator.name = none ∧
        (current.register generator).2 = .ok ⟨current.generators ++ [generator]⟩) ∨
      (∃ error, Refused registry offered generator error ∧ error.errorClass ≠ .misuse ∧
        (current.register generator).2 = .error error) ∨
      Stuck registry offered generator := by
  unfold register
  rw [alike]
  by_cases named : isName generator.name.toList = true
  · cases holder : registry.holder? offered generator.name with
    | some other =>
      refine .inr (.inl ⟨_, .taken named (by simp [holder]), ?_, by simp [named]⟩)
      simp [Error.errorClass]
    | none =>
      simp only [named, Bool.not_true, Bool.false_eq_true, if_false, Option.isSome_none]
      cases checked : (check generator).2 with
      | ok =>
        exact .inl ⟨passes_iff.mpr ⟨named, checked⟩, trivial, rfl⟩
      | error error =>
        by_cases misuse : error.errorClass = .misuse
        · exact .inr (.inr ⟨named, holder, check_stops.mp ⟨error, checked, misuse⟩⟩)
        · exact .inr (.inl ⟨error, .unsound named holder checked misuse, misuse, rfl⟩)
  · refine .inr (.inl ⟨_, .misnamed (by simpa using named), ?_, by simp [named]⟩)
    simp [Error.errorClass]

theorem register_stuck (alike : current.get? = registry.holder? offered)
    (stuck : Stuck registry offered generator) : Stops (current.register generator).2 := by
  obtain ⟨named, free, unreviewable⟩ := stuck
  have checked : Stops (check generator).2 := check_stops.mpr unreviewable
  unfold register
  rw [alike, free]
  simpa [named] using checked

theorem get?_added (alike : current.get? = registry.holder? offered) (good : passes generator = true) :
    (⟨current.generators ++ [generator]⟩ : Registry).get? = registry.holder? (offered ++ [generator]) := by
  funext name
  rw [holder?_append, ← alike, good, Bool.true_and, get?, List.find?_append, List.find?_singleton]
  rfl

/-! ### Offering them in turn -/

/-- What becomes of generators that are offered in turn, after others: those that pass and whose name is
free are added, and each other one gives a line that names its file. -/
inductive Sifted (registry : Registry) :
    List Generator → List (Path × Generator) → List Generator → List String → Prop
  | done (offered : List Generator) : Sifted registry offered [] [] []
  | added {offered path generator rest added lines} : passes generator = true →
      registry.holder? offered generator.name = none →
      Sifted registry (offered ++ [generator]) rest added lines →
      Sifted registry offered ((path, generator) :: rest) (generator :: added) lines
  | refused {offered path generator error rest added lines} : Refused registry offered generator error →
      Sifted registry (offered ++ [generator]) rest added lines →
      Sifted registry offered ((path, generator) :: rest) added (Generator.failureLine path error :: lines)

/-- What is registered, and what is told, but for warnings. -/
theorem registerAll_cons (errors : List String) (current : Registry) (path : Path) (generator : Generator)
    (entries : List (Path × Generator)) :
    (registerAll errors current ((path, generator) :: entries)).2 =
      match (current.register generator).2 with
      | .ok larger => (registerAll errors larger entries).2
      | .error error =>
        if error.errorClass = .misuse then (current, .error error)
        else (registerAll (errors ++ [Generator.failureLine path error]) current entries).2 := by
  rw [registerAll]
  obtain ⟨warnings, larger | error⟩ := current.register generator
  · dsimp only
    split <;> rfl
  · rfl

theorem registerAll_ok {larger : Registry} (errors : List String)
    (run : (current.register generator).2 = .ok larger) :
    (registerAll errors current ((path, generator) :: entries)).2 = (registerAll errors larger entries).2 := by
  rw [registerAll_cons, run]

theorem registerAll_error (errors : List String) (run : (current.register generator).2 = .error error)
    (told : error.errorClass ≠ .misuse) :
    (registerAll errors current ((path, generator) :: entries)).2 =
      (registerAll (errors ++ [Generator.failureLine path error]) current entries).2 := by
  rw [registerAll_cons, run]
  exact if_neg told

theorem registerAll_stops (errors : List String) (run : (current.register generator).2 = .error error)
    (misuse : error.errorClass = .misuse) :
    (registerAll errors current ((path, generator) :: entries)).2 = (current, .error error) := by
  rw [registerAll_cons, run]
  exact if_pos misuse

theorem registerAll_sifted (errors : List String) (alike : current.get? = registry.holder? offered)
    (calm : ∀ front path generator back, entries = front ++ (path, generator) :: back →
      ¬Stuck registry (offered ++ front.map Prod.snd) generator) :
    ∃ added lines, Sifted registry offered entries added lines ∧
      (registerAll errors current entries).2 = (⟨current.generators ++ added⟩, .ok (errors ++ lines)) ∧
      (⟨current.generators ++ added⟩ : Registry).get? = registry.holder? (offered ++ entries.map Prod.snd) := by
  induction entries generalizing errors current offered with
  | nil => exact ⟨[], [], .done offered, by simp [registerAll], by simpa using alike⟩
  | cons entry rest ih =>
    obtain ⟨path, generator⟩ := entry
    have later : ∀ front path' other back, rest = front ++ (path', other) :: back →
        ¬Stuck registry (offered ++ [generator] ++ front.map Prod.snd) other := by
      rintro front path' other back rfl
      simpa using calm ((path, generator) :: front) path' other back rfl
    rcases register_offered alike generator with ⟨good, free, run⟩ | ⟨error, refused, told, run⟩ | stuck
    · obtain ⟨added, lines, sifted, outcome, known⟩ := ih errors (get?_added alike good) later
      refine ⟨generator :: added, lines, .added good free sifted, ?_, by simpa using known⟩
      rw [registerAll_ok errors run, outcome]
      simp
    · have kept : current.get? = registry.holder? (offered ++ [generator]) :=
        alike.trans (funext fun name => refused.holder?_append.symm)
      obtain ⟨added, lines, sifted, outcome, known⟩ :=
        ih (errors ++ [Generator.failureLine path error]) kept later
      refine ⟨added, _ :: lines, .refused refused sifted, ?_, by simpa using known⟩
      rw [registerAll_error errors run told, outcome]
      simp
    · exact absurd (by simpa using stuck) (calm [] path generator rest rfl)

/-- Where a generator is stuck, registering comes to an end there, or earlier. -/
theorem registerAll_stuck (errors : List String) (alike : current.get? = registry.holder? offered)
    (stuck : Stuck registry (offered ++ front.map Prod.snd) generator) :
    Stops (registerAll errors current (front ++ (path, generator) :: back)).2.2 := by
  induction front generalizing errors current offered with
  | nil =>
    obtain ⟨error, run, misuse⟩ := register_stuck alike (by simpa using stuck)
    rw [List.nil_append, registerAll_stops errors run misuse]
    exact ⟨error, rfl, misuse⟩
  | cons entry front ih =>
    obtain ⟨path', other⟩ := entry
    have later : Stuck registry (offered ++ [other] ++ front.map Prod.snd) generator := by simpa using stuck
    rw [List.cons_append]
    rcases register_offered alike other with ⟨good, free, run⟩ | ⟨error, refused, told, run⟩ | earlier
    · rw [registerAll_ok errors run]
      exact ih errors (get?_added alike good) later
    · rw [registerAll_error errors run told]
      exact ih _ (alike.trans (funext fun name => refused.holder?_append.symm)) later
    · obtain ⟨error, run, misuse⟩ := register_stuck alike earlier
      rw [registerAll_stops errors run misuse]
      exact ⟨error, rfl, misuse⟩

theorem registerAll_grows (errors : List String) (current : Registry) (entries : List (Path × Generator)) :
    current.generators <+: (registerAll errors current entries).2.1.generators := by
  induction entries generalizing errors current with
  | nil => exact List.prefix_rfl
  | cons entry rest ih =>
    obtain ⟨path, generator⟩ := entry
    cases run : (current.register generator).2 with
    | ok larger =>
      rw [registerAll_ok errors run]
      have wider := ih errors larger
      rw [register_grown run] at wider ⊢
      exact (List.prefix_append _ _).trans wider
    | error error =>
      by_cases misuse : error.errorClass = .misuse
      · rw [registerAll_stops errors run misuse]
      · rw [registerAll_error errors run misuse]
        exact ih _ _

/-! ### A whole directory -/

variable {store : Store}

theorem registerDirectory_error {top : Path} {recursive : Bool}
    (run : (Generator.loadDirectory store top recursive).2 = .error error) :
    (registry.registerDirectory store top recursive).2 = (registry, .error error) := by
  rw [registerDirectory]
  generalize Generator.loadDirectory store top recursive = loading at run
  obtain ⟨warnings, result⟩ := loading
  cases run
  rfl

theorem registerDirectory_ok {top : Path} {recursive : Bool} {loaded : Generator.Loaded}
    (run : (Generator.loadDirectory store top recursive).2 = .ok loaded) :
    (registry.registerDirectory store top recursive).2 =
      (registerAll loaded.errors registry loaded.generators).2 := by
  rw [registerDirectory]
  generalize Generator.loadDirectory store top recursive = loading at run
  obtain ⟨warnings, result⟩ := loading
  cases run
  rfl

/-- Loading and registering the template files of a directory. The files are those below it, or directly in
it, whose names have one of the endings, in the order of their paths. Loading returns unless the text of
one of them is unforeseen, and gives of each file its generator or the line that reports its failure.
Registering returns as well unless a generator whose name is free has a parameter that cannot be reviewed;
it adds those that pass and whose name is free, reports each other one, and then a name belongs to the
generator that had it before, or else to the first loaded one of this name that passes. In any case the
generators that were registered before stay, in front of what is added. -/
theorem registerDirectory_sifts (sound : store.Sound) (registry : Registry) (top : Path) (recursive : Bool) :
    let files := Generator.templateFiles store top recursive
    let loading := (Generator.loadDirectory store top recursive).2
    let after := (registry.registerDirectory store top recursive).2
    (∀ path, path ∈ files ↔ ∃ content, Generator.TemplateBelow store top recursive path content) ∧
      (files.Pairwise fun one other => one.names < other.names) ∧
      ((∃ loaded, loading = .ok loaded) ↔
        ∀ path text, Generator.TemplateBelow store top recursive path (.text text) →
          ¬Generator.Unforeseen text) ∧
      (∀ loaded, loading = .ok loaded → loaded = .ofFiles store files) ∧
      ((∃ lines, after.2 = .ok lines) ↔ ∃ loaded, loading = .ok loaded ∧
        ∀ front path generator back, loaded.generators = front ++ (path, generator) :: back →
          ¬Stuck registry (front.map Prod.snd) generator) ∧
      (∀ lines, after.2 = .ok lines → ∃ loaded added refusals, loading = .ok loaded ∧
        Sifted registry [] loaded.generators added refusals ∧ lines = loaded.errors ++ refusals ∧
        after.1 = ⟨registry.generators ++ added⟩ ∧
        after.1.get? = registry.holder? (loaded.generators.map Prod.snd)) ∧
      (∀ error, loading = .error error → after = (registry, .error error)) ∧
      registry.generators <+: after.1.generators := by
  intro files loading after
  have plain : registry.get? = registry.holder? [] := by
    funext name
    simp [holder?]
  have loads (loaded : Generator.Loaded) := @Generator.loadDirectory_eq_ok store top recursive sound loaded
  -- When registering returns, loading did, and no generator was stuck.
  have returned : ∀ lines, after.2 = .ok lines → ∃ loaded, loading = .ok loaded ∧
      ∀ front path generator back, loaded.generators = front ++ (path, generator) :: back →
        ¬Stuck registry (front.map Prod.snd) generator := by
    intro lines done
    cases run : loading with
    | error error =>
      rw [show after = _ from registerDirectory_error run] at done
      cases done
    | ok loaded =>
      refine ⟨loaded, rfl, fun front path generator back split stuck => ?_⟩
      have stopped : Stops (registerAll loaded.errors registry (front ++ (path, generator) :: back)).2.2 :=
        registerAll_stuck loaded.errors plain stuck
      rw [← split, ← registerDirectory_ok run, show Prod.snd _ = _ from done] at stopped
      exact (Stops.ok_iff _).mp stopped
  refine ⟨fun path => Generator.mem_templateFiles sound, Generator.templateFiles_ascending sound top recursive,
    ?_, fun loaded run => ((loads loaded).mp run).2, ⟨fun ⟨lines, done⟩ => returned lines done, ?_⟩, ?_,
    fun error => registerDirectory_error, ?_⟩
  · simp only [loading, loads, exists_eq_right]
  · rintro ⟨loaded, run, calm⟩
    obtain ⟨added, lines, _, outcome, _⟩ := registerAll_sifted loaded.errors plain calm
    exact ⟨_, congrArg Prod.snd ((registerDirectory_ok run).trans outcome)⟩
  · intro lines done
    obtain ⟨loaded, run, calm⟩ := returned lines done
    obtain ⟨added, refusals, sifted, outcome, known⟩ := registerAll_sifted loaded.errors plain calm
    have whole : after = _ := (registerDirectory_ok run).trans outcome
    rw [whole] at done ⊢
    exact ⟨loaded, added, refusals, run, sifted, (Except.ok.inj done).symm, rfl, known⟩
  · cases run : loading with
    | error error =>
      rw [show after = _ from registerDirectory_error run]
    | ok loaded =>
      rw [show after = _ from registerDirectory_ok run]
      exact registerAll_grows _ _ _

/-- A template file that gives a number for its parameters. -/
def numberedText : List Char :=
  "/*---\n\x7b\"name\": \"a\", \"description\": \"D\", \"params\": 5\x7d\n---*/\nx".toList

/-- Two template files at the root; the second one is as it should be. -/
def mixedStore : Store where
  entries :=
    [(["a.j2"], .file (.text numberedText)),
      (["b.j2"], .file (.text "/*---\n\x7b\"name\": \"b\", \"description\": \"D\"\x7d\n---*/\nx".toList))]
  here := []

theorem numberedText_unforeseen : Generator.Unforeseen numberedText := by
  refine .inr ⟨[(.text "name", .text "a"), (.text "description", .text "D"), (.text "params", .scalar (.int 5))],
    ['x'], by cbv, by cbv, by cbv, .inl fun mapped => ?_⟩
  obtain ⟨entries, same⟩ := mapped (by cbv)
  cases same

/-- The second file loads, but the first one stops the loading, and nothing is registered. -/
theorem registerDirectory_stopped_of_mixedStore :
    mixedStore.Sound ∧ (Generator.load mixedStore ⟨.root, ["b.j2"]⟩).isOk = true ∧
      (∀ loaded, (Generator.loadDirectory mixedStore ⟨.root, []⟩ false).2 ≠ .ok loaded) ∧
      ∀ registry : Registry, (registry.registerDirectory mixedStore ⟨.root, []⟩ false).2.1 = registry ∧
        ∀ lines, (registry.registerDirectory mixedStore ⟨.root, []⟩ false).2.2 ≠ .ok lines := by
  have sound : mixedStore.Sound :=
    ⟨by simp [mixedStore], by simp [mixedStore, Store.node?], by simp [mixedStore], by simp [mixedStore]⟩
  have below : Generator.TemplateBelow mixedStore ⟨.root, []⟩ false ⟨.root, ["a.j2"]⟩ (.text numberedText) :=
    ⟨[], ["a.j2"], rfl, by simp, .inr rfl, rfl, rfl, ".j2", by simp [templateEndings], ['a'], rfl⟩
  obtain ⟨_, _, loads, _⟩ := registerDirectory_sifts sound {} ⟨.root, []⟩ false
  have stopped : ∀ loaded, (Generator.loadDirectory mixedStore ⟨.root, []⟩ false).2 ≠ .ok loaded :=
    fun loaded run => loads.mp ⟨loaded, run⟩ _ _ below numberedText_unforeseen
  refine ⟨sound, by cbv, stopped, fun registry => ?_⟩
  obtain ⟨_, _, _, _, returns, _, failed, _⟩ := registerDirectory_sifts sound registry ⟨.root, []⟩ false
  cases run : (Generator.loadDirectory mixedStore ⟨.root, []⟩ false).2 with
  | ok loaded => exact absurd run (stopped loaded)
  | error error =>
    refine ⟨congrArg Prod.fst (failed error run), fun lines done => ?_⟩
    obtain ⟨loaded, run, _⟩ := returns.mp ⟨lines, done⟩
    exact stopped loaded run

end Registry

end Scaffold
