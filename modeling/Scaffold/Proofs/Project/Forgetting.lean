import Scaffold.Proofs.Project.Regeneration

/-!
Forgetting extractors. A project that keeps what it has built goes through any steps just as one that
forgets all extractors before each of them: the results are the same, also of steps that fail, and so
are the registry and the files. Only warnings that come with building an extractor are not repeated.
-/

namespace Scaffold.Project

/-- A step in the life of a project. The files may also be changed from outside. -/
inductive Step
  | edit (store : Store)
  | register (generator : Generator)
  | create (generator : String) (params : Record) (path : Path) (unitId : Option String)
      (preview : Bool)
  | sync (path : Path) (preview : Bool)
  | inspect (path : Path)
  | syncAll (directory : Option Path) (preview : Bool)
  | build (manifest : Manifest) (preview : Bool)

/-- What a step gives when it succeeds. -/
inductive Reply
  | done
  | action (action : Action)
  | inspections (inspections : List Inspection)
  | synced (report : SyncReport)
  | built (report : BuildReport)

/-- A project at work. -/
structure Session where
  project : Project
  bench : Bench

/-- What a step shows: its result, and the registry and the files that it leaves. -/
structure Outcome where
  result : Except Error Reply
  registry : Registry
  store : Store

namespace Session

/-- Does work on the project, whose registry stays as it is. -/
def carry {α : Type} (session : Session) (work : Work α) (reply : α → Reply) :
    Except Error Reply × Session :=
  let (result, bench) := work session.bench
  (result.map reply, { session with bench })

/-- Registers a generator. A refusal leaves the registry as it is. -/
def register (session : Session) (generator : Generator) : Except Error Reply × Session :=
  let (warnings, result) := session.project.registry.register generator
  let bench := { session.bench with log := session.bench.log ++ warnings }
  match result with
  | .ok registry => (.ok .done, ⟨{ session.project with registry }, bench⟩)
  | .error error => (.error error, ⟨session.project, bench⟩)

/-- Takes a step. -/
def perform (session : Session) : Step → Except Error Reply × Session
  | .edit store => (.ok .done, { session with bench := { session.bench with store } })
  | .register generator => session.register generator
  | .create generator params path unitId preview =>
    session.carry (session.project.create generator params path unitId preview) .action
  | .sync path preview => session.carry (session.project.sync path preview) .action
  | .inspect path => session.carry (session.project.inspect path) .inspections
  | .syncAll directory preview => session.carry (session.project.syncAll directory preview) .synced
  | .build manifest preview => session.carry (session.project.build manifest preview) .built

def after (session : Session) (steps : List Step) : Session :=
  steps.foldl (fun session step => (session.perform step).2) session

/-- What a step shows when it is taken now. -/
def outcome (session : Session) (step : Step) : Outcome :=
  let (result, next) := session.perform step
  ⟨result, next.project.registry, next.bench.store⟩

/-- The session without its extractors. -/
def forgetful (session : Session) : Session :=
  { session with bench := { session.bench with extractors := [] } }

/-- What steps show that are taken one after the other. -/
def outcomes (session : Session) : List Step → List Outcome
  | [] => []
  | step :: steps => session.outcome step :: outcomes (session.perform step).2 steps

/-- What steps show when all extractors are forgotten before each of them. -/
def outcomesAfresh (session : Session) : List Step → List Outcome
  | [] => []
  | step :: steps =>
    session.forgetful.outcome step :: outcomesAfresh (session.forgetful.perform step).2 steps

/-- Two sessions on one project, of which the first may keep extractors that the second does not. -/
structure Ahead (session other : Session) : Prop where
  project : session.project = other.project
  bench : Project.Ahead session.project.registry session.bench other.bench

variable {session other : Session}

theorem Ahead.forgetful (ahead : session.Ahead other) : session.Ahead other.forgetful :=
  ⟨ahead.project, ahead.bench.store, ahead.bench.faithful, .nil _, nofun, ahead.bench.log⟩

theorem carry_ahead {α : Type} {work : Work α} (ahead : session.Ahead other)
    (impartial : Impartial session.project.registry work) (reply : α → Reply) :
    (session.carry work reply).1 = (other.carry work reply).1 ∧
      (session.carry work reply).2.Ahead (other.carry work reply).2 := by
  obtain ⟨same, next⟩ := impartial _ _ ahead.bench
  exact ⟨congrArg (Except.map reply) same, ahead.project, next⟩

theorem register_ahead (ahead : session.Ahead other) (generator : Generator) :
    (session.register generator).1 = (other.register generator).1 ∧
      (session.register generator).2.Ahead (other.register generator).2 := by
  obtain ⟨project, bench⟩ := session
  obtain ⟨_, bench'⟩ := other
  obtain ⟨rfl, ahead⟩ := ahead
  have log (warnings : List Warning) : (bench.log ++ warnings).Sublist (bench'.log ++ warnings) :=
    ahead.log.append (.refl warnings)
  unfold register
  rcases run : project.registry.register generator with ⟨warnings, _ | larger⟩
  · exact ⟨rfl, rfl, { ahead with log := log warnings }⟩
  · exact ⟨rfl, rfl, ahead.store, ahead.faithful.register run, ahead.faithful'.register run,
      ahead.kept, log warnings⟩

/-- A step gives the same on two sessions of which the one is ahead, and leaves it ahead. -/
theorem perform_ahead (ahead : session.Ahead other) (step : Step) :
    (session.perform step).1 = (other.perform step).1 ∧
      (session.perform step).2.Ahead (other.perform step).2 := by
  cases step with
  | edit store => exact ⟨rfl, ahead.project, { ahead.bench with store := rfl }⟩
  | register generator => exact register_ahead ahead generator
  | create generator params path unitId preview =>
    simp only [perform, ← ahead.project]
    exact carry_ahead ahead (create_impartial _ _ _ _ _ _) _
  | sync path preview =>
    simp only [perform, ← ahead.project]
    exact carry_ahead ahead (sync_impartial _ _) _
  | inspect path =>
    simp only [perform, ← ahead.project]
    exact carry_ahead ahead (inspect_impartial _) _
  | syncAll directory preview =>
    simp only [perform, ← ahead.project]
    exact carry_ahead ahead (syncAll_impartial _ _) _
  | build manifest preview =>
    simp only [perform, ← ahead.project]
    exact carry_ahead ahead (build_impartial _ _ _) _

theorem outcome_ahead (ahead : session.Ahead other) (step : Step) :
    session.outcome step = other.outcome step := by
  obtain ⟨same, next⟩ := perform_ahead ahead step
  simp only [outcome, same, next.project, next.bench.store]

/-- Steps show the same when the session behind forgets what it keeps before each of them. -/
theorem outcomes_ahead (ahead : session.Ahead other) (steps : List Step) :
    session.outcomes steps = other.outcomesAfresh steps := by
  induction steps generalizing session other with
  | nil => rfl
  | cons step steps ih =>
    have next := (perform_ahead ahead.forgetful step).2
    rw [outcomes, outcomesAfresh, outcome_ahead ahead.forgetful, ih next]

theorem perform_reached (reached : Reached session.project session.bench) (step : Step) :
    Reached (session.perform step).2.project (session.perform step).2.bench := by
  cases step with
  | edit store => exact reached.edited store session.bench.log
  | register generator =>
    change Reached (session.register generator).2.project (session.register generator).2.bench
    unfold register
    rcases run : session.project.registry.register generator with ⟨warnings, _ | larger⟩
    · exact reached.edited session.bench.store _
    · exact (reached.registered run).edited session.bench.store _
  | create generator params path unitId preview => exact reached.created generator params path unitId preview
  | sync path preview => exact reached.synced path preview
  | inspect path => exact reached.inspected path
  | syncAll directory preview => exact reached.syncedAll directory preview
  | build manifest preview => exact reached.built manifest preview

/-- A session that goes through steps is in a state that a project can be in. -/
theorem after_reached (reached : Reached session.project session.bench) (steps : List Step) :
    Reached (session.after steps).project (session.after steps).bench := by
  induction steps generalizing session with
  | nil => exact reached
  | cons step steps ih => exact ih (perform_reached reached step)

end Session

/-- The extractors that a project keeps cannot be seen. Whatever steps it has gone through since it
began without any, and failed in some of them perhaps: the next step has the same result and leaves the
same registry and files as it would without the extractors, and no warnings but those that it would
leave then. All steps together show what they would show if the extractors were forgotten before each. -/
theorem outcome_forgetful (project : Project) (store : Store) (log : List Warning)
    (earlier : List Step) (step : Step) :
    let start : Session := ⟨project, ⟨store, [], log⟩⟩
    let session := start.after earlier
    session.outcome step = session.forgetful.outcome step ∧
      (session.perform step).2.bench.log.Sublist (session.forgetful.perform step).2.bench.log ∧
      start.outcomes (earlier ++ [step]) = start.outcomesAfresh (earlier ++ [step]) := by
  intro start session
  have fresh : Reached start.project start.bench := .fresh project store log
  have same : start.Ahead start := ⟨rfl, .refl fresh.faithful⟩
  have reached : Reached session.project session.bench := Session.after_reached fresh earlier
  have ahead : session.Ahead session.forgetful := Session.Ahead.forgetful ⟨rfl, .refl reached.faithful⟩
  exact ⟨Session.outcome_ahead ahead step, (Session.perform_ahead ahead step).2.bench.log,
    Session.outcomes_ahead same _⟩

end Scaffold.Project
