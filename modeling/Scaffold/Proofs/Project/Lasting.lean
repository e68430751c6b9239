import Scaffold.Proofs.Project.Carried

/-!
What a build makes of the files, whatever its calls are. It loses no file and no directory and leaves no
file blank; so the files that it makes are apart from each other.
-/

namespace Scaffold.Project

open Sentinel

variable {project : Project} {start now : Store} {bench : Bench} {history : List Handling}
  {step : Handling} {placement : Placement}

/-- Files and directories stay what they are, and a file with a text does not become blank. -/
structure Lasting (before after : Store) : Prop where
  here : after.here = before.here
  directory : ∀ key, before.node? key = some .directory → after.node? key = some .directory
  file : ∀ key content, before.node? key = some (.file content) →
    ∃ other, after.node? key = some (.file other)
  filled : ∀ key text, before.node? key = some (.file (.text text)) → (Text.trim text).isEmpty = false →
    ∃ other, after.node? key = some (.file (.text other)) ∧ (Text.trim other).isEmpty = false

namespace Lasting

variable {middle last : Store}

theorem refl (store : Store) : Lasting store store where
  here := rfl
  directory := fun _ => id
  file := fun _ content held => ⟨content, held⟩
  filled := fun _ text held filled => ⟨text, held, filled⟩

theorem trans (first : Lasting start middle) (second : Lasting middle last) : Lasting start last where
  here := second.here.trans first.here
  directory := fun key held => second.directory key (first.directory key held)
  file := fun key content held => by
    obtain ⟨other, held⟩ := first.file key content held
    exact second.file key other held
  filled := fun key text held filled => by
    obtain ⟨other, held, filled⟩ := first.filled key text held filled
    exact second.filled key other held filled

theorem ofFurnished (grown : start.Furnished now) : Lasting start now where
  here := grown.here
  directory := fun _ held => grown.keeps held
  file := fun _ content held => ⟨content, grown.keeps held⟩
  filled := fun _ text held filled => ⟨text, grown.keeps held, filled⟩

theorem ofWrite {path : Path} {text : List Char} (run : start.write path text = .ok now)
    (filled : (Text.trim text).isEmpty = false) : Lasting start now := by
  obtain ⟨key, _, unheld, rfl⟩ := Store.write_eq_ok run
  have node : ∀ other, (start.set key (.file (.text text))).node? other =
      if other = key then some (.file (.text text)) else start.node? other :=
    Store.node?_set (Store.isEmpty_of_not_directory unheld)
  refine ⟨rfl, fun other held => ?_, fun other content held => ?_, fun other old held filledOld => ?_⟩
  · have apart : other ≠ key := fun same => unheld (same ▸ held)
    rw [node, if_neg apart, held]
  · rw [node]
    split
    · exact ⟨_, rfl⟩
    · exact ⟨content, held⟩
  · rw [node]
    split
    · exact ⟨text, rfl, filled⟩
    · exact ⟨old, held, filledOld⟩

end Lasting

theorem Placement.renewed_filled {old new : List Char} (run : placement.renewed old = .ok new) :
    (Text.trim new).isEmpty = false := by
  obtain ⟨spans, _, run⟩ := bind_eq_ok.mp run
  obtain ⟨span, _, run⟩ := bind_eq_ok.mp run
  obtain rfl := Except.ok.inj run
  have inside : '@' ∈ replaceSpan old span placement.unit :=
    List.mem_append_left _ (List.mem_append_right _ (at_mem_text _ placement.draft))
  rw [List.isEmpty_eq_false_iff]
  intro blank
  exact absurd (Text.trim_eq_nil.mp blank _ inside) (by decide)

theorem writeNewFile_lasting {target : Path} {text : List Char} {after : Bench}
    {result : Except Error Unit} (sound : bench.store.Sound) (filled : (Text.trim text).isEmpty = false)
    (run : Work.writeNewFile target text bench = (result, after)) :
    Lasting bench.store after.store ∧ after.store.Sound := by
  rcases Work.writeNewFile_cases run with ⟨_, _, _, same | made⟩ | ⟨middle, _, made, written⟩
  · rw [same]
    exact ⟨.refl _, sound⟩
  · exact ⟨.ofFurnished (Store.makeDirectories_furnished made), sound.makeDirectories made⟩
  · have grown := Lasting.ofFurnished (Store.makeDirectories_furnished made)
    exact ⟨grown.trans (.ofWrite written filled), (sound.makeDirectories made).write written⟩

/-- Placing a unit loses no file and no directory, and leaves no file blank. -/
theorem Placement.place_lasting {after : Bench} {result : Except Error Action}
    (sound : bench.store.Sound)
    (run : place placement.target placement.identity placement.unit false bench = (result, after)) :
    Lasting bench.store after.store ∧ after.store.Sound := by
  by_cases made : placement.outcome (bench.store.find? placement.target) = .ok .created
  · have filled : (Text.trim (placement.unit ++ ['\n'])).isEmpty = false :=
      List.isEmpty_eq_false_iff.mpr (trim_unit_ne_nil _ placement.draft)
    rw [place_made made, Work.bind_run] at run
    cases wrote : Work.writeNewFile placement.target (placement.unit ++ ['\n']) bench with
    | mk inner middle =>
      rw [wrote] at run
      cases inner <;> cases run <;> exact writeNewFile_lasting sound filled wrote
  by_cases changed : placement.outcome (bench.store.find? placement.target) = .ok .updated
  · obtain ⟨text, new, store, _, _, renewed, written, done⟩ := place_updated changed
    cases run.symm.trans done
    exact ⟨.ofWrite written (renewed_filled renewed), sound.write written⟩
  · cases run.symm.trans (place_quiet (.inr ⟨made, changed⟩))
    exact ⟨.refl _, sound⟩

theorem produce_lasting {call : Call} {after : Bench} {result : Except Error Action}
    (sound : bench.store.Sound) (run : project.produce call false bench = (result, after)) :
    Lasting bench.store after.store ∧ after.store.Sound := by
  cases placed : project.placementOf call with
  | error error =>
    rw [produce_eq_place, Work.bind_run, placed] at run
    cases run
    exact ⟨.refl _, sound⟩
  | ok placement =>
    rw [produce_placed placed] at run
    exact Placement.place_lasting sound run

theorem Handled.lasting {failed : List String} (sound : step.before.store.Sound)
    (handled : Handled project false failed step) :
    Lasting step.before.store step.after.store ∧ step.after.store.Sound := by
  cases handled with
  | produced _ run => exact produce_lasting sound run
  | refused _ run => exact (produce_lasting sound run :)
  | skipped _ => exact ⟨.refl _, sound⟩

/-- A call that makes a file found no text at its place, and leaves one there. -/
theorem Handled.made {failed : List String} (sound : step.before.store.Sound)
    (handled : Handled project false failed step) (puts : step.Puts project .created placement)
    (forward : ".." ∉ placement.target.names) :
    placement.outcome (step.before.store.node? (step.before.store.goal placement.target)) = .ok .created ∧
      ∃ text, step.after.store.node? (step.before.store.goal placement.target) =
        some (.file (.text text)) ∧ (Text.trim text).isEmpty = false := by
  obtain ⟨fate, placed⟩ := puts
  cases handled with
  | refused _ _ => cases fate
  | skipped _ => cases fate
  | @produced call before after action clear run =>
    cases fate
    rw [produce_placed placed] at run
    have held := place_created run
    obtain ⟨key, led, there⟩ := Store.read_eq_ok.mp held
    have kept := (Placement.place_lasting sound run).1
    rw [Store.goal_eq_of_place forward led, Store.goal_congr kept.here] at there
    refine ⟨?_, _, there, List.isEmpty_eq_false_iff.mpr (trim_unit_ne_nil _ placement.draft)⟩
    rw [← sound.find?_eq forward]
    by_contra unmade
    by_cases changed : placement.outcome (before.store.find? placement.target) = .ok .updated
    · obtain ⟨_, _, _, _, _, _, _, done⟩ := Placement.place_updated changed
      cases run.symm.trans done
    · have quiet := run.symm.trans (Placement.place_quiet (.inr ⟨unmade, changed⟩))
      exact unmade (Prod.mk.inj quiet).1.symm

/-- What a build has made of the files: nothing is lost, every new file holds a text, and no new file is
at the place of another one or above it. -/
structure Raised (project : Project) (start : Store) (history : List Handling) (now : Store) : Prop where
  lasting : Lasting start now
  sound : now.Sound
  filled : ∀ step ∈ history, ∀ placement, step.Puts project .created placement →
    ∃ text, now.node? (start.goal placement.target) = some (.file (.text text)) ∧
      (Text.trim text).isEmpty = false
  apart : history.Pairwise (MadeApart project start)

namespace Raised

theorem nil (sound : start.Sound) : Raised project start [] start where
  lasting := .refl start
  sound := sound
  filled := by simp
  apart := .nil

/-- No file stood above the place of a new one. -/
theorem free (raised : Raised project start history now) (inside : step ∈ history)
    (puts : step.Puts project .created placement) {above : Key} {content : Content}
    (below : above <+: start.goal placement.target) (apart : above ≠ start.goal placement.target) :
    start.node? above ≠ some (.file content) := by
  intro file
  obtain ⟨text, there, _⟩ := raised.filled step inside placement puts
  obtain ⟨other, still⟩ := raised.lasting.file above content file
  cases still.symm.trans (raised.sound.directory_above there below apart)

theorem append {failed : List String} (raised : Raised project start history step.before.store)
    (handled : Handled project false failed step)
    (forward : ∀ placement, project.placementOf step.call = .ok placement → ".." ∉ placement.target.names) :
    Raised project start (history ++ [step]) step.after.store := by
  obtain ⟨lasting, sound⟩ := handled.lasting raised.sound
  have made {placement : Placement} (puts : step.Puts project .created placement) :=
    Store.goal_congr raised.lasting.here placement.target ▸
      handled.made raised.sound puts (forward placement puts.2)
  refine ⟨raised.lasting.trans lasting, sound, ?_, ?_⟩
  · refine List.forall_mem_append.mpr ⟨fun one inside placement puts => ?_, ?_⟩
    · obtain ⟨text, there, filled⟩ := raised.filled one inside placement puts
      exact lasting.filled _ text there filled
    · exact List.forall_mem_singleton.mpr fun placement puts => (made puts).2
  · refine List.pairwise_append.mpr ⟨raised.apart, List.pairwise_singleton _ _, ?_⟩
    rintro one early _ here first second puts others
    obtain rfl := List.mem_singleton.mp here
    obtain ⟨old, there, filled⟩ := raised.filled one early first puts
    obtain ⟨vacant, text, now, _⟩ := made others
    have different : start.goal first.target ≠ start.goal second.target := by
      intro same
      obtain ⟨_, held, blank⟩ := Placement.outcome_created.mp vacant _ (same ▸ there)
      cases held
      exact absurd (filled.symm.trans blank) Bool.false_ne_true
    constructor
    · -- The earlier file would stand above the new one.
      intro above
      obtain ⟨other, still⟩ := lasting.file _ _ there
      cases still.symm.trans (sound.directory_above now above different)
    · -- The new file would take the place of a directory.
      intro above
      have directory := raised.sound.directory_above there above different.symm
      obtain ⟨_, impossible, _⟩ := Placement.outcome_created.mp vacant _ directory
      cases impossible

end Raised

theorem History.raised {after : Bench} (course : History project false bench history after)
    (sound : bench.store.Sound) (forward : ∀ step ∈ history, ∀ placement,
      project.placementOf step.call = .ok placement → ".." ∉ placement.target.names) :
    Raised project bench.store history after.store := by
  induction course with
  | nil => exact .nil sound
  | append earlier handled ih =>
    obtain ⟨before, here⟩ := List.forall_mem_append.mp forward
    exact (ih before).append handled (List.forall_mem_singleton.mp here)

end Scaffold.Project
