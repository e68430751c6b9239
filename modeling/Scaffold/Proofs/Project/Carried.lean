import Scaffold.Proofs.Project.Building
import Scaffold.Proofs.Project.SharedFiles

/-!
Calls that get along. A call that is produced after others finds its file as it was at the beginning, or
with other units in it that do not matter to it; so the calls of a build fare as the preview foretold.
-/

namespace Scaffold.Project

open Sentinel

variable {project : Project} {start now : Store} {bench : Bench} {history : List Handling}
  {step : Handling} {placement : Placement}

/-- What becomes of a call that is not skipped. -/
def Fate.ofResult : Except Error Action → Fate
  | .ok action => .produced action
  | .error error => .refused error

/-- The dialect of the files at a place. -/
def dialectAt (key : Key) : Dialect :=
  Dialect.ofPath ⟨.root, key⟩

/-- A call has put a unit into a file. -/
def Handling.Puts (project : Project) (step : Handling) (action : Action) (placement : Placement) : Prop :=
  step.fate = .produced action ∧ project.placementOf step.call = .ok placement

/-- A call is skipped or meets its forecast. -/
def Handling.Foretold (project : Project) (start : Store) (step : Handling) : Prop :=
  (∃ blocked, step.fate = .skipped blocked) ∨
    step.fate = .ofResult (project.forecast start step.call)

/-- A preview of a call leaves the files as they are, and tells its forecast unless it is skipped. -/
theorem Handled.foretold {failed : List String} (handled : Handled project true failed step) :
    step.after.store = step.before.store ∧ step.Foretold project step.before.store := by
  cases handled with
  | produced clear run =>
    rw [produce_preview] at run
    obtain ⟨told, rfl⟩ := Prod.mk.inj run
    exact ⟨rfl, .inr (by rw [told]; rfl)⟩
  | refused clear run =>
    rw [produce_preview] at run
    obtain ⟨told, rfl⟩ := Prod.mk.inj run
    exact ⟨rfl, .inr (by rw [told]; rfl)⟩
  | skipped blocked => exact ⟨rfl, .inl ⟨_, rfl⟩⟩

/-- A preview leaves the files as they are, and every call that it does not skip meets its forecast. -/
theorem History.foretold {after : Bench} (course : History project true bench history after) :
    after.store = bench.store ∧ ∀ step ∈ history, step.Foretold project bench.store := by
  induction course with
  | nil => exact ⟨rfl, by simp⟩
  | append earlier handled ih =>
    obtain ⟨same, foretold⟩ := ih
    have last := handled.foretold
    rw [same] at last
    refine ⟨last.1, fun other inside => ?_⟩
    rcases List.mem_append.mp inside with early | here
    · exact foretold other early
    · rw [List.mem_singleton.mp here]
      exact last.2

/-- What a call did to its file is what it does with what was there at first. -/
theorem Handling.Puts.outcome {action : Action} (puts : step.Puts project action placement)
    (foretold : step.Foretold project start) (sound : start.Sound)
    (forward : ".." ∉ placement.target.names) :
    placement.outcome (start.node? (start.goal placement.target)) = .ok action := by
  rcases foretold with ⟨blocked, skipped⟩ | told
  · cases puts.1.symm.trans skipped
  · rw [puts.1, forecast_placed puts.2, sound.find?_eq forward] at told
    cases result : placement.outcome (start.node? (start.goal placement.target)) with
    | error error =>
      rw [result] at told
      cases told
    | ok other =>
      rw [result] at told
      exact congrArg Except.ok (Fate.produced.inj told).symm

theorem puts_of_outcome {action : Action} (told : step.fate = .ofResult (project.forecast start step.call))
    (placed : project.placementOf step.call = .ok placement) (sound : start.Sound)
    (forward : ".." ∉ placement.target.names)
    (outcome : placement.outcome (start.node? (start.goal placement.target)) = .ok action) :
    step.Puts project action placement := by
  refine ⟨?_, placed⟩
  rw [told, forecast_placed placed, sound.find?_eq forward, outcome]
  rfl

/-- New files of two calls are neither at the same place nor one below the other. -/
def MadeApart (project : Project) (start : Store) (one other : Handling) : Prop :=
  ∀ first second, one.Puts project .created first → other.Puts project .created second →
    ¬ start.goal first.target <+: start.goal second.target ∧
      ¬ start.goal second.target <+: start.goal first.target

instance : Std.Symm (MadeApart project start) :=
  ⟨fun _ _ apart first second puts others => (apart second first others puts).symm⟩

/-- Calls get along: their targets are spelled out, no new file stands where another one or a directory
above it is to be, and where a file is changed for one call and looked at for a later one, it consists of
units of their own. -/
structure Compatible (project : Project) (start : Store) (history : List Handling) : Prop where
  forward : ∀ step ∈ history, ∀ placement, project.placementOf step.call = .ok placement →
    ".." ∉ placement.target.names
  apart : history.Pairwise (MadeApart project start)
  free : ∀ step ∈ history, ∀ placement, step.Puts project .created placement →
    ∀ above content, above <+: start.goal placement.target → above ≠ start.goal placement.target →
      start.node? above ≠ some (.file content)
  shared : history.Pairwise fun one other => ∀ first second, one.Puts project .updated first →
    project.placementOf other.call = .ok second →
    start.goal first.target = start.goal second.target →
    first.identity ≠ second.identity ∧ first.draft.Clean (dialectAt (start.goal first.target)) ∧
      ∀ text, start.node? (start.goal first.target) = some (.file (.text text)) →
        IsWoven (dialectAt (start.goal first.target)) text

theorem Compatible.initial {others : List Handling}
    (compatible : Compatible project start (history ++ others)) : Compatible project start history where
  forward := fun step inside => compatible.forward step (List.mem_append_left _ inside)
  apart := (List.pairwise_append.mp compatible.apart).1
  free := fun step inside => compatible.free step (List.mem_append_left _ inside)
  shared := (List.pairwise_append.mp compatible.shared).1

theorem Compatible.madeApart {one : Handling} (compatible : Compatible project start (history ++ [step]))
    (inside : one ∈ history) : MadeApart project start one step :=
  (List.pairwise_append.mp compatible.apart).2.2 one inside step (List.mem_singleton_self step)

theorem dialectAt_goal {target : Path} (filled : target.names ≠ []) :
    dialectAt (start.goal target) = Dialect.ofPath target := by
  unfold dialectAt Dialect.ofPath Path.extension Path.name
  simp only [Store.goal, List.getLast?_append_of_ne_nil _ filled]

/-- What calls have made of the files. -/
structure Carried (project : Project) (start : Store) (history : List Handling) (now : Store) : Prop where
  sound : now.Sound
  here : now.here = start.here
  /-- Where no unit was put, all is as before but for directories above new files. -/
  untouched : ∀ key, (∀ step ∈ history, ∀ action placement, step.Puts project action placement →
      action ≠ .unchanged → start.goal placement.target ≠ key) →
    now.node? key = start.node? key ∨
      (start.node? key = none ∧ now.node? key = some .directory ∧ ∃ step ∈ history, ∃ placement,
        step.Puts project .created placement ∧ key <+: start.goal placement.target)
  /-- Where units were changed, the others are as before. -/
  revised : ∀ key text, start.node? key = some (.file (.text text)) →
    (Text.trim text).isEmpty = false → IsWoven (dialectAt key) text →
    (∀ step ∈ history, ∀ placement, step.Puts project .updated placement →
      start.goal placement.target = key → placement.draft.Clean (dialectAt key)) →
    ∃ new, now.node? key = some (.file (.text new)) ∧
      Revised (dialectAt key) (fun identity => ∃ step ∈ history, ∃ placement,
        step.Puts project .updated placement ∧ start.goal placement.target = key ∧
          identity = placement.identity) text new

namespace Carried

theorem nil (sound : start.Sound) : Carried project start [] start where
  sound := sound
  here := rfl
  untouched := fun _ _ => .inl rfl
  revised := fun _ text held _ woven _ =>
    ⟨text, held, (Revised.refl woven).mono fun _ => False.elim⟩

/-- Where a file was changed before, a call fares as it would have fared at the beginning. -/
theorem outcome_of_updated (carried : Carried project start history now)
    (compatible : Compatible project start (history ++ [step]))
    (standing : start.node? start.here = some .directory)
    (placed : project.placementOf step.call = .ok placement) {one : Handling} (inside : one ∈ history)
    {first : Placement} (puts : one.Puts project .updated first)
    (same : start.goal first.target = start.goal placement.target)
    (before : first.outcome (start.node? (start.goal placement.target)) = .ok .updated) :
    placement.outcome (now.node? (start.goal placement.target)) =
      placement.outcome (start.node? (start.goal placement.target)) := by
  obtain ⟨text, _, held, filled, _⟩ := Placement.outcome_updated.mp before
  have spoken : dialectAt (start.goal placement.target) = Dialect.ofPath placement.target :=
    dialectAt_goal (Store.names_ne_nil standing (by simp [held]))
  have neighbour {other : Handling} (inside : other ∈ history) {second : Placement}
      (puts : other.Puts project .updated second)
      (same : start.goal second.target = start.goal placement.target) :=
    same ▸ (List.pairwise_append.mp compatible.shared).2.2 other inside step (List.mem_singleton_self step)
      second placement puts placed same
  obtain ⟨current, there, revised⟩ := carried.revised _ text held filled
    ((neighbour inside puts same).2.2 text held)
    fun other inside second puts same => (neighbour inside puts same).2.1
  rw [there, held]
  refine revised.verdict_eq spoken.symm ?_
  rintro ⟨other, inside, second, puts, same, equal⟩
  exact (neighbour inside puts same).1 equal.symm

/-- A call finds its file as it would have found it at the beginning, or with other units in it that do
not matter to it. -/
theorem forecast_eq (carried : Carried project start history now)
    (compatible : Compatible project start (history ++ [step])) (sound : start.Sound)
    (standing : start.node? start.here = some .directory)
    (foretold : ∀ step ∈ history, step.Foretold project start)
    (told : step.fate = .ofResult (project.forecast start step.call)) :
    project.forecast now step.call = project.forecast start step.call := by
  cases placed : project.placementOf step.call with
  | error error =>
    rw [forecast, forecast, placed]
    rfl
  | ok placement =>
    have forward := compatible.forward step (by simp) placement placed
    rw [forecast_placed placed, forecast_placed placed, sound.find?_eq forward,
      carried.sound.find?_eq forward, Store.goal_congr carried.here]
    have makes (vacant : placement.outcome (start.node? (start.goal placement.target)) = .ok .created)
        {one : Handling} (inside : one ∈ history) {first : Placement}
        (made : one.Puts project .created first) :
        ¬ start.goal placement.target <+: start.goal first.target :=
      (compatible.madeApart inside first placement made
        (puts_of_outcome told placed sound forward vacant)).2
    by_cases touched : ∃ one ∈ history, ∃ action first, one.Puts project action first ∧
        action ≠ .unchanged ∧ start.goal first.target = start.goal placement.target
    · obtain ⟨one, inside, action, first, puts, writes, same⟩ := touched
      -- a call before wrote to this file: it was not made, as the files that are made lie apart
      have before := puts.outcome (foretold one inside) sound
        (compatible.forward one (List.mem_append_left _ inside) first puts.2)
      rw [same] at before
      cases action with
      | unchanged => exact absurd rfl writes
      | created =>
        have vacant : placement.outcome (start.node? (start.goal placement.target)) = .ok .created :=
          Placement.outcome_created.mpr (Placement.outcome_created.mp before)
        exact absurd (same ▸ List.prefix_rfl) (makes vacant inside puts)
      | updated => exact carried.outcome_of_updated compatible standing placed inside puts same before
    · push Not at touched
      -- no call before wrote to it
      rcases carried.untouched _ touched with same | ⟨none, _, one, inside, first, made, above⟩
      · rw [same]
      · exact absurd above (makes (by rw [none]; rfl) inside made)

/-- A call that writes nothing leaves all as it is. -/
theorem still (carried : Carried project start history now) (step : Handling) :
    Carried project start (history ++ [step]) now where
  sound := carried.sound
  here := carried.here
  untouched := by
    intro key untouched
    rcases carried.untouched key fun one inside => untouched one (List.mem_append_left _ inside)
      with same | ⟨none, made, one, inside, above⟩
    · exact .inl same
    · exact .inr ⟨none, made, one, List.mem_append_left _ inside, above⟩
  revised := by
    intro key text held filled woven clean
    obtain ⟨new, there, revised⟩ := carried.revised key text held filled woven fun one inside =>
      clean one (List.mem_append_left _ inside)
    refine ⟨new, there, revised.mono ?_⟩
    rintro identity ⟨one, inside, placed⟩
    exact ⟨one, List.mem_append_left _ inside, placed⟩

/-- A call puts its unit into a file: directories are made for new files only, and what was a text at the
beginning is renewed. -/
theorem gain {action : Action} {text : List Char} {after : Store}
    (carried : Carried project start history now) (standing : start.node? start.here = some .directory)
    (inside : step ∈ history) (puts : step.Puts project action placement) (writes : action ≠ .unchanged)
    (gained : now.Gained (start.goal placement.target) text after) (sound : after.Sound)
    (making : ∀ other, other <+: start.goal placement.target → now.node? other = none →
      action = .created)
    (changing : ∀ content, start.node? (start.goal placement.target) = some (.file (.text content)) →
      (Text.trim content).isEmpty = false → action = .updated ∧
        ∀ old, now.node? (start.goal placement.target) = some (.file (.text old)) →
          placement.renewed old = .ok text) :
    Carried project start history after where
  sound := sound
  here := gained.here.trans carried.here
  untouched := by
    intro key untouched
    have apart : key ≠ start.goal placement.target := fun same =>
      untouched step inside action placement puts writes same.symm
    have before := carried.untouched key untouched
    rcases gained.others key apart with same | ⟨none, above, made⟩
    · rwa [same]
    · obtain rfl := making key above none
      rcases before with same | ⟨_, directory, _⟩
      · exact .inr ⟨same ▸ none, made, step, inside, placement, puts, above⟩
      · cases none.symm.trans directory
  revised := by
    intro key content held filled woven clean
    obtain ⟨old, there, revised⟩ := carried.revised key content held filled woven clean
    by_cases same : key = start.goal placement.target
    · subst same
      obtain ⟨rfl, renewed⟩ := changing content held filled
      have spoken : dialectAt (start.goal placement.target) = Dialect.ofPath placement.target :=
        dialectAt_goal (Store.names_ne_nil standing (by simp [held]))
      have placed := revised.place spoken.symm (clean step inside placement puts rfl) (renewed old there)
      refine ⟨text, gained.file, placed.mono ?_⟩
      rintro identity (before | rfl)
      · exact before
      · exact ⟨step, inside, placement, puts, rfl, rfl⟩
    · refine ⟨old, ?_, revised⟩
      rcases gained.others key same with kept | ⟨none, _⟩
      · rw [kept, there]
      · cases there.symm.trans none

/-- What was a directory at the beginning is one still. -/
theorem directory (carried : Carried project start history now) (sound : start.Sound)
    (compatible : Compatible project start history)
    (foretold : ∀ step ∈ history, step.Foretold project start) {key : Key}
    (held : start.node? key = some .directory) : now.node? key = some .directory := by
  have untouched : ∀ step ∈ history, ∀ action placement, step.Puts project action placement →
      action ≠ .unchanged → start.goal placement.target ≠ key := by
    rintro one inside action first puts writes rfl
    have before := puts.outcome (foretold one inside) sound (compatible.forward one inside first puts.2)
    rw [held] at before
    cases before
  rcases carried.untouched key untouched with same | ⟨none, made, _⟩
  · rw [same, held]
  · exact made

/-- No file stands above the place of a new one. -/
theorem free (carried : Carried project start history now) (sound : start.Sound)
    (compatible : Compatible project start (history ++ [step]))
    (foretold : ∀ step ∈ history, step.Foretold project start)
    (puts : step.Puts project .created placement) {above : Key} {content : Content}
    (inside : above <+: start.goal placement.target) (apart : above ≠ start.goal placement.target) :
    now.node? above ≠ some (.file content) := by
  intro file
  have early {one : Handling} (member : one ∈ history) : one ∈ history ++ [step] :=
    List.mem_append_left _ member
  have unfiled := fun content => compatible.free step (by simp) placement puts above content inside apart
  have untouched : ∀ step ∈ history, ∀ action placement, step.Puts project action placement →
      action ≠ .unchanged → start.goal placement.target ≠ above := by
    rintro one member action first other writes rfl
    cases action with
    | unchanged => exact writes rfl
    | created =>
      exact (compatible.madeApart member first placement other puts).1 inside
    | updated =>
      have before := other.outcome (foretold one member) sound
        (compatible.forward one (early member) first other.2)
      obtain ⟨text, _, held, _⟩ := Placement.outcome_updated.mp before
      exact unfiled _ held
  rcases carried.untouched above untouched with same | ⟨_, made, _⟩
  · exact unfiled content (same ▸ file)
  · cases made.symm.trans file

section Writing

variable {bench : Bench} (carried : Carried project start history bench.store)
  (standing : start.node? start.here = some .directory)
  (compatible : Compatible project start (history ++ [step])) (sound : start.Sound)

include carried standing compatible

/-- A file is changed for a call of which that was foretold. -/
theorem updated (puts : step.Puts project .updated placement)
    (changed : placement.outcome (bench.store.find? placement.target) = .ok .updated) :
    ∃ after, place placement.target placement.identity placement.unit false bench = (.ok .updated, after) ∧
      Carried project start (history ++ [step]) after.store := by
  have forward := compatible.forward step (by simp) placement puts.2
  have goal := Store.goal_congr carried.here placement.target
  obtain ⟨text, new, store, held, filled, renewed, written, run⟩ := Placement.place_updated changed
  obtain ⟨key, led, _, gained⟩ := Store.gained_of_write written
  rw [carried.sound.find?_eq forward, goal] at held
  rw [Store.goal_eq_of_place forward led, goal] at gained
  refine ⟨{ bench with store }, run, (carried.still step).gain standing (by simp) puts (by simp) gained
    (carried.sound.write written) ?_ ?_⟩
  · intro other above none
    by_cases here : other = start.goal placement.target
    · rw [here, held] at none
      cases none
    · cases none.symm.trans (carried.sound.directory_above held above here)
  · intro content _ _
    refine ⟨rfl, fun old there => ?_⟩
    rw [held] at there
    cases there
    exact renewed

include sound

/-- A new file is made for a call of which that was foretold. -/
theorem created (foretold : ∀ step ∈ history, step.Foretold project start)
    (puts : step.Puts project .created placement)
    (begun : placement.outcome (start.node? (start.goal placement.target)) = .ok .created)
    (made : placement.outcome (bench.store.find? placement.target) = .ok .created) :
    ∃ after, place placement.target placement.identity placement.unit false bench = (.ok .created, after) ∧
      Carried project start (history ++ [step]) after.store := by
  have forward := compatible.forward step (by simp) placement puts.2
  have goal := Store.goal_congr carried.here placement.target
  have unheld : bench.store.node? (bench.store.goal placement.target) ≠ some .directory := by
    intro directory
    obtain ⟨_, impossible, _⟩ :=
      Placement.outcome_created.mp made _ ((carried.sound.find?_eq forward).trans directory)
    cases impossible
  have here : bench.store.node? bench.store.here = some .directory := by
    rw [carried.here]
    exact carried.directory sound compatible.initial foretold standing
  obtain ⟨middle, after, mkdir, written, gained⟩ := carried.sound.newFile_open here forward unheld
    (fun above content inside apart => carried.free sound compatible foretold puts
      (goal ▸ inside) (goal ▸ apart)) (placement.unit ++ ['\n'])
  rw [goal] at gained
  refine ⟨{ bench with store := after }, ?_, (carried.still step).gain standing (by simp) puts
    (by simp) gained ((carried.sound.makeDirectories mkdir).write written) (fun _ _ _ => rfl) ?_⟩
  · rw [Placement.place_made made, Work.bind_run, Work.writeNewFile, Work.bind_run]
    simp only [Work.changeFiles, mkdir, Work.writeFile, written]
    rfl
  · -- What was a text at the beginning is blank, as a new file took its place.
    intro content there filled
    obtain ⟨text, same, blank⟩ := Placement.outcome_created.mp begun _ there
    cases same
    rw [blank] at filled
    cases filled

theorem produce (foretold : ∀ step ∈ history, step.Foretold project start)
    (told : step.fate = .ofResult (project.forecast start step.call)) :
    ∃ after, project.produce step.call false bench = (project.forecast start step.call, after) ∧
      Carried project start (history ++ [step]) after.store := by
  have same := carried.forecast_eq compatible sound standing foretold told
  cases placed : project.placementOf step.call with
  | error error =>
    refine ⟨bench, ?_, carried.still step⟩
    rw [produce_eq_place, Work.bind_run, forecast, placed]
    rfl
  | ok placement =>
    have found := sound.find?_eq (compatible.forward step (by simp) placement placed)
    rw [forecast_placed placed, forecast_placed placed] at same
    rw [produce_placed placed, forecast_placed placed, ← same]
    rw [found] at same
    have puts {action : Action}
        (outcome : placement.outcome (bench.store.find? placement.target) = .ok action) :=
      puts_of_outcome told placed sound (compatible.forward step (by simp) placement placed)
        (same.symm.trans outcome)
    by_cases made : placement.outcome (bench.store.find? placement.target) = .ok .created
    · rw [made]
      exact carried.created standing compatible sound foretold (puts made) (same.symm.trans made) made
    by_cases changed : placement.outcome (bench.store.find? placement.target) = .ok .updated
    · rw [changed]
      exact carried.updated standing compatible (puts changed) changed
    · exact ⟨bench, Placement.place_quiet (.inr ⟨made, changed⟩), carried.still step⟩

end Writing

end Carried

/-! ### The two runs -/

theorem exists_handled_of_produce {preview : Bool} {failed : List String} {call : Call}
    {before after : Bench} {result : Except Error Action} (clear : ∀ id ∈ call.dependsOn, id ∉ failed)
    (run : project.produce call preview before = (result, after)) :
    ∃ step, Handled project preview failed step ∧ step.call = call ∧ step.before = before ∧
      step.fate = .ofResult result ∧ step.after.store = after.store := by
  cases result with
  | ok action => exact ⟨_, .produced clear run, rfl, rfl, rfl, rfl⟩
  | error error => exact ⟨_, .refused clear run, rfl, rfl, rfl, rfl⟩

theorem Handled.blocked_or_clear {preview : Bool} {failed : List String}
    (handled : Handled project preview failed step) :
    (step.call.dependsOn.filter failed.contains ≠ [] ∧
      step.fate = .skipped (step.call.dependsOn.filter failed.contains)) ∨
      (∀ id ∈ step.call.dependsOn, id ∉ failed) ∧ ∀ blocked, step.fate ≠ .skipped blocked := by
  cases handled with
  | produced clear _ => exact .inr ⟨clear, fun _ => Fate.noConfusion⟩
  | refused clear _ => exact .inr ⟨clear, fun _ => Fate.noConfusion⟩
  | skipped blocked => exact .inl ⟨blocked, rfl⟩

/-- The same became of the same calls. -/
def SameFates (one other : List Handling) : Prop :=
  List.Forall₂ (fun first second => second.call = first.call ∧ second.fate = first.fate) one other

theorem SameFates.calls {one other : List Handling} (same : SameFates one other) :
    other.map Handling.call = one.map Handling.call := by
  induction same with
  | nil => rfl
  | cons here _ ih => rw [List.map_cons, List.map_cons, here.1, ih]

theorem SameFates.reportOf {one other : List Handling} (same : SameFates one other) :
    Project.reportOf other = Project.reportOf one := by
  induction same with
  | nil => rfl
  | @cons first second one other here _ ih =>
    obtain ⟨call, fate⟩ := here
    have action : second.action? = first.action? := by rw [Handling.action?, Handling.action?, call, fate]
    have failure : second.failure? = first.failure? := by
      rw [Handling.failure?, Handling.failure?, call, fate]
    unfold Project.reportOf at ih ⊢
    simp only [BuildReport.mk.injEq] at ih
    simp only [List.filterMap_cons, action, failure, call, ih]

/-- After compatible calls, building does with a call what the preview told. -/
theorem exists_alike {failed : List String} (handled : Handled project true failed step)
    (begun : step.before.store = start) (carried : Carried project start history bench.store)
    (sound : start.Sound) (standing : start.node? start.here = some .directory)
    (compatible : Compatible project start (history ++ [step]))
    (foretold : ∀ step ∈ history, step.Foretold project start) :
    ∃ other, Handled project false failed other ∧ other.before = bench ∧ other.call = step.call ∧
      other.fate = step.fate ∧ Carried project start (history ++ [step]) other.after.store := by
  have told := begun ▸ handled.foretold.2
  rcases handled.blocked_or_clear with ⟨blocked, skipped⟩ | ⟨clear, produced⟩
  · exact ⟨_, .skipped blocked, rfl, rfl, skipped.symm, carried.still step⟩
  · obtain ⟨after, run, carried⟩ := carried.produce standing compatible sound foretold
      (told.resolve_left fun ⟨blocked, skipped⟩ => produced blocked skipped)
    obtain ⟨other, alike, call, before, fate, store⟩ := exists_handled_of_produce clear run
    exact ⟨other, alike, before, call, fate.trans
      (told.resolve_left fun ⟨blocked, skipped⟩ => produced blocked skipped).symm, store ▸ carried⟩

/-- Compatible calls fare alike in a preview and in a build. -/
theorem exists_build_history {after : Bench} (course : History project true bench history after)
    (compatible : Compatible project bench.store history) (sound : bench.store.Sound)
    (standing : bench.store.node? bench.store.here = some .directory) :
    ∃ real last, History project false bench real last ∧ SameFates history real ∧
      Carried project bench.store history last.store := by
  induction course with
  | nil => exact ⟨[], bench, .nil, .nil, .nil sound⟩
  | @append history step earlier handled ih =>
    obtain ⟨real, middle, course, same, carried⟩ := ih compatible.initial
    obtain ⟨begun, foretold⟩ := earlier.foretold
    obtain ⟨other, alike, rfl, call, fate, carried⟩ :=
      exists_alike handled begun carried sound standing compatible foretold
    rw [← same.reportOf] at alike
    exact ⟨real ++ [other], other.after, course.append alike,
      List.rel_append same (.cons ⟨call, fate⟩ .nil), carried⟩

end Scaffold.Project
