import Scaffold.Proofs.Call.Order
import Scaffold.Proofs.Project.Extractors

/-!
What building a manifest does with its calls. The calls are handled in the order of execution, and
each is produced, refused or skipped. Only the calls that a call lists itself are looked up among the
failed ones; since these come first, a failure reaches everything that depends on it.
-/

namespace Scaffold.Project

open Relation

/-- What becomes of a call: it is produced, producing it fails, or calls that it depends on have
failed. -/
inductive Fate
  | produced (action : Action)
  | refused (error : Error)
  | skipped (blocked : List String)

/-- A call that was handled, and the bench before and after. -/
structure Handling where
  call : Call
  before : Bench
  fate : Fate
  after : Bench

namespace Handling

/-- The entry of a produced call in the report. -/
def action? (step : Handling) : Option (String × Action) :=
  match step.fate with
  | .produced action => some (step.call.id, action)
  | _ => none

/-- The entry of a call that was not produced. -/
def failure? (step : Handling) : Option BuildFailure :=
  match step.fate with
  | .produced _ => none
  | .refused error => some ⟨step.call.id, step.call.outputPath, error.message⟩
  | .skipped blocked =>
    some ⟨step.call.id, step.call.outputPath,
      "Skipped: dependency failed (" ++ Error.listed blocked ++ ")"⟩

end Handling

/-- The report on calls that were handled. -/
def reportOf (history : List Handling) : BuildReport where
  generated := history.filterMap fun step => step.action?.map fun _ => step.call.outputPath
  actions := history.filterMap Handling.action?
  errors := history.filterMap Handling.failure?

/-- The ids of the calls that were produced. -/
def BuildReport.produced (report : BuildReport) : List String :=
  report.actions.map Prod.fst

/-- A call is handled after others have failed. It is skipped when it lists one of these, and else it
is produced; a refusal leaves a warning. -/
inductive Handled (project : Project) (preview : Bool) (failed : List String) : Handling → Prop
  | produced {call : Call} {before after : Bench} {action : Action}
      (clear : ∀ id ∈ call.dependsOn, id ∉ failed)
      (run : project.produce call preview before = (.ok action, after)) :
      Handled project preview failed ⟨call, before, .produced action, after⟩
  | refused {call : Call} {before middle : Bench} {error : Error}
      (clear : ∀ id ∈ call.dependsOn, id ∉ failed)
      (run : project.produce call preview before = (.error error, middle)) :
      Handled project preview failed ⟨call, before, .refused error,
        { middle with log := middle.log ++ [.buildFailed call.id error.message] }⟩
  | skipped {call : Call} {before : Bench}
      (blocked : call.dependsOn.filter failed.contains ≠ []) :
      Handled project preview failed
        ⟨call, before, .skipped (call.dependsOn.filter failed.contains), before⟩

/-- Calls are handled one after another, each on the bench that the one before has left. -/
inductive History (project : Project) (preview : Bool) (start : Bench) : List Handling → Bench → Prop
  | nil : History project preview start [] start
  | append {history : List Handling} {step : Handling}
      (earlier : History project preview start history step.before)
      (handled : Handled project preview (reportOf history).failed step) :
      History project preview start (history ++ [step]) step.after

variable {project : Project} {preview : Bool} {start after : Bench} {history : List Handling}

theorem produce_eq_create {call : Call} {generator path : String} {params : Record}
    (named : call.generator = .text generator) (placed : call.outputPath = .text path)
    (given : call.params = .map params) :
    project.produce call preview =
      project.create generator params (.ofString path) (some call.id) preview := by
  unfold produce create
  rw [named, placed, given]
  rfl

/-! ### One call -/

theorem reportOf_append_produced (history : List Handling) {step : Handling} {action : Action}
    (produced : step.fate = .produced action) :
    reportOf (history ++ [step]) = (reportOf history).withAction step.call action := by
  simp [reportOf, BuildReport.withAction, Handling.action?, Handling.failure?, produced]

theorem reportOf_append_failed (history : List Handling) {step : Handling} {failure : BuildFailure}
    (failed : step.failure? = some failure) :
    reportOf (history ++ [step]) = (reportOf history).withError step.call failure.reason := by
  rcases step with ⟨call, before, _ | _ | _, after⟩ <;> cases failed <;>
    simp [reportOf, BuildReport.withError, Handling.action?, Handling.failure?]

theorem filter_failed_eq_nil {ids failed : List String} :
    ids.filter failed.contains = [] ↔ ∀ id ∈ ids, id ∉ failed := by
  simp [List.filter_eq_nil_iff]

/-- Every call is handled in some way. -/
theorem exists_handled (project : Project) (preview : Bool) (failed : List String) (call : Call)
    (before : Bench) :
    ∃ step, Handled project preview failed step ∧ step.call = call ∧ step.before = before := by
  by_cases clear : call.dependsOn.filter failed.contains = []
  · rw [filter_failed_eq_nil] at clear
    rcases run : project.produce call preview before with ⟨_ | _, _⟩
    · exact ⟨_, .refused clear run, rfl, rfl⟩
    · exact ⟨_, .produced clear run, rfl, rfl⟩
  · exact ⟨_, .skipped clear, rfl, rfl⟩

/-- What is done with a call is what handling it means, with any project that produces the call
alike. -/
theorem Handled.run {other : Project} {step : Handling}
    (handled : Handled project preview (reportOf history).failed step)
    (alike : (∀ blocked, step.fate ≠ .skipped blocked) →
      other.produce step.call preview step.before = project.produce step.call preview step.before) :
    other.produceAll preview (reportOf history) [step.call] step.before =
      (.ok (reportOf (history ++ [step])), step.after) := by
  cases handled with
  | produced clear run =>
    have same := (alike fun _ => Fate.noConfusion).trans run
    simp only [produceAll, filter_failed_eq_nil.mpr clear, List.isEmpty_nil, Bool.not_true,
      Bool.false_eq_true, if_false, Work.bind_run, Work.attempt, same]
    rw [reportOf_append_produced _ rfl]
    rfl
  | refused clear run =>
    have same := (alike fun _ => Fate.noConfusion).trans run
    simp only [produceAll, filter_failed_eq_nil.mpr clear, List.isEmpty_nil, Bool.not_true,
      Bool.false_eq_true, if_false, Work.bind_run, Work.attempt, same, Work.warn]
    rw [reportOf_append_failed _ rfl]
    rfl
  | skipped blocked =>
    simp only [produceAll, List.isEmpty_eq_false_iff.mpr blocked, Bool.not_false, if_true]
    rw [reportOf_append_failed _ rfl]
    rfl

/-- Producing calls in two parts. -/
theorem produceAll_append (project : Project) (preview : Bool) (report : BuildReport)
    (front back : List Call) :
    project.produceAll preview report (front ++ back) = (do
      let middle ← project.produceAll preview report front
      project.produceAll preview middle back) := by
  induction front generalizing report with
  | nil => simp [produceAll]
  | cons call rest ih =>
    simp only [List.cons_append, produceAll]
    split
    · exact ih _
    · rw [bind_assoc]
      refine bind_congr fun result => ?_
      cases result with
      | ok action => exact ih _
      | error error => simp [ih]

/-! ### All calls -/

/-- Calls have a history, and it is that of producing them. -/
theorem exists_history (project : Project) (preview : Bool) (start : Bench) (calls : List Call) :
    ∃ history after, History project preview start history after ∧
      history.map Handling.call = calls := by
  induction calls using List.reverseRecOn with
  | nil => exact ⟨[], start, .nil, rfl⟩
  | append_singleton calls call ih =>
    obtain ⟨history, middle, earlier, rfl⟩ := ih
    obtain ⟨step, handled, rfl, rfl⟩ :=
      exists_handled project preview (reportOf history).failed call middle
    exact ⟨history ++ [step], step.after, earlier.append handled, by simp⟩

/-- Producing the calls of a history gives its report, with any project that produces those that were
not skipped alike. -/
theorem History.run {other : Project} (course : History project preview start history after)
    (alike : ∀ step ∈ history, (∀ blocked, step.fate ≠ .skipped blocked) →
      other.produce step.call preview step.before = project.produce step.call preview step.before) :
    other.produceAll preview {} (history.map Handling.call) start =
      (.ok (reportOf history), after) := by
  induction course with
  | nil => rfl
  | append earlier handled ih =>
    have before := ih fun step inside => alike step (List.mem_append_left _ inside)
    rw [List.map_append, produceAll_append, Work.bind_run, before]
    exact handled.run (alike _ (List.mem_append_right _ (List.mem_singleton.mpr rfl)))

/-- Each call of a history was handled after those in front of it. -/
theorem History.handled (course : History project preview start history after)
    {front back : List Handling} {step : Handling} (split : history = front ++ step :: back) :
    Handled project preview (reportOf front).failed step := by
  induction course generalizing back with
  | nil => simp at split
  | @append earlierSteps last earlier handled ih =>
    rcases List.eq_nil_or_concat back with rfl | ⟨body, other, rfl⟩
    · obtain ⟨rfl, same⟩ := List.append_inj' split rfl
      obtain rfl := List.singleton_inj.mp same
      exact handled
    · have shifted : earlierSteps ++ [last] = (front ++ step :: body) ++ [other] := by
        simpa using split
      exact ih (List.append_inj' shifted rfl).1

theorem reportOf_perm (history : List Handling) :
    ((reportOf history).produced ++ (reportOf history).failed).Perm
      ((history.map Handling.call).map Call.id) := by
  induction history with
  | nil => exact .nil
  | cons step rest ih =>
    rcases step with ⟨call, before, _ | _ | _, after⟩
    · exact ih.cons call.id
    · exact List.perm_middle.trans (ih.cons call.id)
    · exact List.perm_middle.trans (ih.cons call.id)

theorem mem_failed {id : String} :
    id ∈ (reportOf history).failed ↔
      ∃ step ∈ history, step.failure?.isSome = true ∧ step.call.id = id := by
  rw [BuildReport.failed, List.mem_map]
  constructor
  · rintro ⟨failure, reported, rfl⟩
    obtain ⟨step, inside, found⟩ := List.mem_filterMap.mp reported
    refine ⟨step, inside, by rw [found]; rfl, ?_⟩
    rcases step with ⟨call, before, _ | _ | _, after⟩ <;> cases found <;> rfl
  · rintro ⟨step, inside, failed, rfl⟩
    obtain ⟨failure, found⟩ := Option.isSome_iff_exists.mp failed
    refine ⟨failure, List.mem_filterMap.mpr ⟨step, inside, found⟩, ?_⟩
    rcases step with ⟨call, before, _ | _ | _, after⟩ <;> cases found <;> rfl

theorem failed_append (front back : List Handling) :
    (reportOf (front ++ back)).failed = (reportOf front).failed ++ (reportOf back).failed := by
  simp [reportOf, BuildReport.failed]

section Graph

variable (distinct : ((history.map Handling.call).map Call.id).Nodup)
  (first : Call.DependenciesFirst (history.map Handling.call))
  (course : History project preview start history after)

include distinct first

/-- When a call is handled, whatever is to fail of the calls that it lists has failed. -/
theorem listed_failed_iff {front back : List Handling} {step : Handling}
    (split : history = front ++ step :: back) {id : String} (listed : id ∈ step.call.dependsOn) :
    id ∈ (reportOf history).failed ↔ id ∈ (reportOf front).failed := by
  rw [split, failed_append, List.mem_append, or_iff_left_iff_imp]
  intro late
  obtain ⟨other, inside, _, same⟩ := mem_failed.mp late
  have earlier := first (front.map Handling.call) step.call (back.map Handling.call)
    (by simp [split]) id listed
  rw [split, List.map_append, List.map_append, List.nodup_append] at distinct
  refine absurd rfl (distinct.2.2 id earlier id ?_)
  exact List.mem_map.mpr ⟨other.call, List.mem_map_of_mem inside, same⟩

include course

/-- A call that lists a failed one is skipped: the bench stays as it is. -/
theorem skipped_of_listed {front back : List Handling} {step : Handling}
    (split : history = front ++ step :: back) {id : String} (listed : id ∈ step.call.dependsOn)
    (failed : id ∈ (reportOf history).failed) :
    step.fate = .skipped (step.call.dependsOn.filter (reportOf history).failed.contains) ∧
      step.after = step.before := by
  have early := (listed_failed_iff distinct first split listed).mp failed
  have same : step.call.dependsOn.filter (reportOf history).failed.contains =
      step.call.dependsOn.filter (reportOf front).failed.contains := by
    refine List.filter_congr fun other inside => ?_
    rw [Bool.eq_iff_iff, List.contains_iff_mem, List.contains_iff_mem]
    exact listed_failed_iff distinct first split inside
  rw [same]
  cases course.handled split with
  | produced clear run => exact absurd early (clear id listed)
  | refused clear run => exact absurd early (clear id listed)
  | skipped blocked => exact ⟨rfl, rfl⟩

/-- A call that fails although none that it lists has failed was refused. -/
theorem refused_of_clear {front back : List Handling} {step : Handling}
    (split : history = front ++ step :: back)
    (clear : ∀ id ∈ step.call.dependsOn, id ∉ (reportOf history).failed)
    (failed : step.failure?.isSome = true) :
    ∃ error middle, project.produce step.call preview step.before = (.error error, middle) ∧
      step.fate = .refused error := by
  cases course.handled split with
  | produced _ _ => exact absurd failed Bool.false_ne_true
  | refused _ run => exact ⟨_, _, run, rfl⟩
  | skipped blocked =>
    refine absurd (filter_failed_eq_nil.mpr fun id listed early => ?_) blocked
    exact clear id listed ((listed_failed_iff distinct first split listed).mpr early)

/-- A call from which a failed one is reached lists a failed one. The induction goes along the path:
the next call on it lists a failed one, so it was skipped and has failed as well. -/
theorem lists_failed_of_reaches {id other : String}
    (path : TransGen (Call.DependsOn (history.map Handling.call)) id other)
    (failed : other ∈ (reportOf history).failed) {step : Handling} (inside : step ∈ history)
    (same : step.call.id = id) :
    ∃ listed ∈ step.call.dependsOn, listed ∈ (reportOf history).failed := by
  have owned {step : Handling} {id other : String} (inside : step ∈ history)
      (same : step.call.id = id) (edge : Call.DependsOn (history.map Handling.call) id other) :
      other ∈ step.call.dependsOn := by
    obtain ⟨owner, member, equal, listed⟩ := edge
    have found : step.call ∈ history.map Handling.call := List.mem_map_of_mem inside
    rwa [List.inj_on_of_nodup_map distinct found member (same.trans equal.symm)]
  induction path using TransGen.head_induction_on generalizing step with
  | single edge => exact ⟨other, owned inside same edge, failed⟩
  | @head id next edge path ih =>
    have listed := owned inside same edge
    obtain ⟨front, back, split⟩ := List.append_of_mem inside
    have earlier := first (front.map Handling.call) step.call (back.map Handling.call)
      (by simp [split]) next listed
    obtain ⟨_, placed, rfl⟩ := List.mem_map.mp earlier
    obtain ⟨middle, among, rfl⟩ := List.mem_map.mp placed
    have between : middle ∈ history := split ▸ List.mem_append_left _ among
    obtain ⟨blocked, lists, down⟩ := ih between rfl
    obtain ⟨before, beyond, cut⟩ := List.append_of_mem between
    have skipped := (skipped_of_listed distinct first course cut lists down).1
    exact ⟨_, listed, mem_failed.mpr ⟨middle, between, by simp [Handling.failure?, skipped], rfl⟩⟩

/-- What a call depends on in any way is produced before it, if it is produced itself. -/
theorem reached_of_produced {front back : List Handling} {step : Handling}
    (split : history = front ++ step :: back)
    (produced : step.call.id ∈ (reportOf history).produced) {id : String}
    (path : TransGen (Call.DependsOn (history.map Handling.call)) step.call.id id) :
    id ∈ (reportOf history).produced ∧ id ∈ (front.map Handling.call).map Call.id := by
  have cut : history.map Handling.call =
      front.map Handling.call ++ step.call :: back.map Handling.call := by simp [split]
  have earlier := first.reaches distinct cut path
  have handled : id ∈ (reportOf history).produced ++ (reportOf history).failed := by
    rw [(reportOf_perm history).mem_iff, split, List.map_append, List.map_append]
    exact List.mem_append_left _ earlier
  refine ⟨(List.mem_append.mp handled).resolve_right fun failed => ?_, earlier⟩
  have inside : step ∈ history := by simp [split]
  obtain ⟨listed, lists, down⟩ :=
    lists_failed_of_reaches distinct first course path failed inside rfl
  have skipped := (skipped_of_listed distinct first course split lists down).1
  have fell : step.call.id ∈ (reportOf history).failed :=
    mem_failed.mpr ⟨step, inside, by simp [Handling.failure?, skipped], rfl⟩
  have apart := (reportOf_perm history).nodup_iff.mpr distinct
  exact (List.nodup_append.mp apart).2.2 _ produced _ fell rfl

end Graph

/-- Building a manifest whose dependencies can be met handles every call once, in the order of
execution. The calls are parted into those that were produced, each after everything that it depends
on, and those that were not: each of these depends on such a call, and then it is skipped and what
producing it would do is of no account, or producing it failed. -/
theorem build_handles_each_call (project : Project) (manifest : Manifest) (preview : Bool)
    (start : Bench) (resolvable : Call.Resolvable manifest.calls) :
    ∃ history report after,
      project.build manifest preview start = (.ok report, after) ∧
      manifest.order = .ok (history.map Handling.call) ∧
      (history.map Handling.call).Perm manifest.calls ∧
      History project preview start history after ∧
      (report.produced ++ report.failed).Perm (manifest.calls.map Call.id) ∧
      (report.produced ++ report.failed).Nodup ∧
      (∀ front step back, history = front ++ step :: back →
        (step.call.id ∈ report.produced →
          ∀ id, TransGen (Call.DependsOn manifest.calls) step.call.id id →
            id ∈ report.produced ∧ id ∈ (front.map Handling.call).map Call.id) ∧
        ((∃ id ∈ report.failed, TransGen (Call.DependsOn manifest.calls) step.call.id id) →
          let blocked := step.call.dependsOn.filter report.failed.contains
          blocked ≠ [] ∧ step.fate = .skipped blocked ∧ step.after = step.before ∧
            ⟨step.call.id, step.call.outputPath,
              "Skipped: dependency failed (" ++ Error.listed blocked ++ ")"⟩ ∈ report.errors) ∧
        ((∀ id ∈ step.call.dependsOn, id ∉ report.failed) → step.call.id ∈ report.failed →
          ∃ error middle, project.produce step.call preview step.before = (.error error, middle) ∧
            ⟨step.call.id, step.call.outputPath, error.message⟩ ∈ report.errors)) ∧
      (∀ other : Project,
        (∀ step ∈ history, (∀ blocked, step.fate ≠ .skipped blocked) →
          other.produce step.call preview step.before =
            project.produce step.call preview step.before) →
        other.build manifest preview start = (.ok report, after)) := by
  obtain ⟨calls, ordered⟩ := resolvable.order_succeeds
  obtain ⟨same, first, _⟩ := Call.order_arranged ordered
  obtain ⟨history, after, course, rfl⟩ := exists_history project preview start calls
  have distinct := (same.map Call.id).nodup_iff.mpr resolvable.distinct
  have built (other : Project) : other.build manifest preview start =
      other.produceAll preview {} (history.map Handling.call) start := by
    rw [build, Work.bind_run, Manifest.order, ordered]
    rfl
  have reached {id other : String} (path : TransGen (Call.DependsOn manifest.calls) id other) :
      TransGen (Call.DependsOn (history.map Handling.call)) id other :=
    TransGen.mono (fun _ _ edge => Call.DependsOn.mono edge same.symm.subset) _ _ path
  refine ⟨history, reportOf history, after, (built project).trans (course.run fun _ _ _ => rfl),
    ordered, same, course, (reportOf_perm history).trans (same.map Call.id),
    (reportOf_perm history).nodup_iff.mpr distinct, ?_, ?_⟩
  · intro front step back split
    have inside : step ∈ history := by simp [split]
    refine ⟨?_, ?_, ?_⟩
    · intro produced id path
      -- what a produced call depends on was produced before it
      exact reached_of_produced distinct first course split produced (reached path)
    · rintro ⟨id, failed, path⟩
      -- a failure below reaches a dependency of the call itself
      obtain ⟨listed, lists, down⟩ :=
        lists_failed_of_reaches distinct first course (reached path) failed inside rfl
      obtain ⟨skipped, still⟩ := skipped_of_listed distinct first course split lists down
      refine ⟨?_, skipped, still, ?_⟩
      · exact List.ne_nil_of_mem (List.mem_filter.mpr ⟨lists, List.contains_iff_mem.mpr down⟩)
      · exact List.mem_filterMap.mpr ⟨step, inside, by rw [Handling.failure?, skipped]⟩
    · intro clear failed
      -- a call that fails with no failed dependency was refused
      obtain ⟨other, among, fell, equal⟩ := mem_failed.mp failed
      obtain rfl : other = step := by
        rw [List.map_map] at distinct
        exact List.inj_on_of_nodup_map distinct among inside equal
      obtain ⟨error, middle, run, refused⟩ := refused_of_clear distinct first course split clear fell
      exact ⟨error, middle, run,
        List.mem_filterMap.mpr ⟨other, inside, by rw [Handling.failure?, refused]⟩⟩
  · intro other alike
    exact (built other).trans (course.run alike)

section Chain

/-- A call of a generator without parameters. -/
def chainCall (id generator : String) (dependsOn : List String) : Call :=
  ⟨id, .text generator, .map [], .text (id ++ ".txt"), dependsOn, "", .null⟩

/-- One of the two generators that the calls name is not registered. -/
def chainProject : Project :=
  ⟨⟨[{ name := "line", description := "", recipe := .function fun _ => .ok (.text "text") }]⟩,
    ⟨.root, []⟩⟩

def chain : Manifest :=
  ⟨⟨.root, ["m.json"]⟩, .text "1.0.0", .text "",
    [chainCall "site" "line" ["page", "note"], chainCall "note" "line" [],
      chainCall "page" "line" ["base"], chainCall "base" "gone" []]⟩

def chainOrder : List Call :=
  [chainCall "base" "gone" [], chainCall "page" "line" ["base"], chainCall "note" "line" [],
    chainCall "site" "line" ["page", "note"]]

theorem chain_order : chain.order = .ok chainOrder := by
  cbv

theorem chain_build :
    ((chainProject.build chain false { store := ⟨[], []⟩ }).1.toOption.map
      fun report => (report.produced, report.failed)) = some (["note"], ["base", "page", "site"]) := by
  rw [build, Work.bind_run, chain_order]
  decide +kernel

/-- The call at the end lists no call whose generator is missing, but one that depends on such. -/
theorem build_handles_each_call_of_chain :
    Call.Resolvable chain.calls ∧
      ∃ report after, chainProject.build chain false { store := ⟨[], []⟩ } = (.ok report, after) ∧
        report.produced = ["note"] ∧ report.failed = ["base", "page", "site"] ∧
        ⟨"site", .text "site.txt", "Skipped: dependency failed (page)"⟩ ∈ report.errors := by
  have resolvable := (Call.order_arranged chain_order).2.2
  obtain ⟨history, report, after, run, ordered, _, _, _, _, each, _⟩ :=
    build_handles_each_call chainProject chain false { store := ⟨[], []⟩ } resolvable
  have counted := chain_build
  rw [run] at counted
  obtain ⟨produced, failed⟩ := Prod.mk.inj (Option.some.inj counted)
  have listed : chainCall "site" "line" ["page", "note"] ∈ history.map Handling.call := by
    rw [← Except.ok.inj (chain_order.symm.trans ordered)]
    simp [chainOrder]
  obtain ⟨step, inside, site⟩ := List.mem_map.mp listed
  obtain ⟨front, back, split⟩ := List.append_of_mem inside
  have reaches : TransGen (Call.DependsOn chain.calls) step.call.id "base" := by
    refine .head (b := "page") ⟨step.call, ?_, rfl, ?_⟩ (.single ⟨chainCall "page" "line" ["base"], ?_⟩)
    all_goals simp [site, chain, chainCall]
  obtain ⟨_, _, _, skipped⟩ := (each front step back split).2.1 ⟨"base", by simp [failed], reaches⟩
  rw [site, failed] at skipped
  exact ⟨resolvable, report, after, run, produced, failed, skipped⟩

end Chain

end Scaffold.Project
