import Scaffold.Proofs.Project.Lasting

/-!
Previews of builds. A preview tells for every call what producing it alone would do to the files as they
are. The build itself produces each call with the files that the calls before it have left; both report
the same exactly when no new file gets in the way of another one.
-/

namespace Scaffold.Project

open Sentinel

variable {project : Project} {start now : Store} {bench : Bench} {history : List Handling}
  {step : Handling} {placement : Placement}

theorem mem_actions {id : String} {action : Action} :
    (id, action) ∈ (reportOf history).actions ↔
      ∃ step ∈ history, step.fate = .produced action ∧ step.call.id = id := by
  constructor
  · intro listed
    obtain ⟨step, inside, found⟩ := List.mem_filterMap.mp listed
    refine ⟨step, inside, ?_⟩
    rcases step with ⟨call, before, _ | _ | _, after⟩ <;> cases found
    exact ⟨rfl, rfl⟩
  · rintro ⟨step, inside, fate, rfl⟩
    exact List.mem_filterMap.mpr ⟨step, inside, by rw [Handling.action?, fate]⟩

/-- A report tells of a call what this call alone would do to the files of a store, unless it depends on a
failed one. -/
def BuildReport.Foretells (report : BuildReport) (project : Project) (store : Store) (calls : List Call) :
    Prop :=
  ∀ call ∈ calls,
    (∀ action, (call.id, action) ∈ report.actions → project.forecast store call = .ok action) ∧
      ((∃ id ∈ call.dependsOn, id ∈ report.failed) ∨
        match project.forecast store call with
        | .ok action => (call.id, action) ∈ report.actions
        | .error error => ⟨call.id, call.outputPath, error.message⟩ ∈ report.errors)

/-- The new files of a report are in nobody's way: no file stands above the place of one, and none is
above or at the place of another one. -/
def BuildReport.MadeApart (report : BuildReport) (project : Project) (store : Store) (calls : List Call) :
    Prop :=
  ∀ one ∈ calls, ∀ first, project.placementOf one = .ok first → (one.id, .created) ∈ report.actions →
    (∀ above content, above <+: store.goal first.target → above ≠ store.goal first.target →
      store.node? above ≠ some (.file content)) ∧
    ∀ other ∈ calls, one.id ≠ other.id → ∀ second, project.placementOf other = .ok second →
      (other.id, .created) ∈ report.actions →
      ¬ store.goal first.target <+: store.goal second.target

/-- Calls whose preview can be compared with their build: the store is a tree around the current
directory, targets have no double dots, and a file that is to be changed for one call and is the target of
another one consists of units that can be found again, the two calls having units of their own in it. -/
structure Comparable (project : Project) (store : Store) (calls : List Call) : Prop where
  sound : store.Sound
  standing : store.node? store.here = some .directory
  forward : ∀ call ∈ calls, ∀ placement, project.placementOf call = .ok placement →
    ".." ∉ placement.target.names
  shared : ∀ one ∈ calls, ∀ other ∈ calls, one.id ≠ other.id → ∀ first second,
    project.placementOf one = .ok first → project.placementOf other = .ok second →
    project.forecast store one = .ok .updated →
    store.goal first.target = store.goal second.target →
    first.identity ≠ second.identity ∧ first.draft.Clean (dialectAt (store.goal first.target)) ∧
      ∀ text, store.node? (store.goal first.target) = some (.file (.text text)) →
        IsWoven (dialectAt (store.goal first.target)) text

theorem Comparable.mono {store : Store} {calls others : List Call}
    (comparable : Comparable project store calls) (within : others ⊆ calls) :
    Comparable project store others where
  sound := comparable.sound
  standing := comparable.standing
  forward := fun call listed => comparable.forward call (within listed)
  shared := fun one listed other among => comparable.shared one (within listed) other (within among)

theorem BuildReport.MadeApart.mono {report : BuildReport} {store : Store} {calls others : List Call}
    (apart : report.MadeApart project store calls) (within : others ⊆ calls) :
    report.MadeApart project store others := by
  intro one listed first placed told
  obtain ⟨free, others⟩ := apart one (within listed) first placed told
  exact ⟨free, fun other among => others other (within among)⟩

theorem build_ordered {manifest : Manifest} {calls : List Call} (ordered : manifest.order = .ok calls)
    (preview : Bool) (bench : Bench) :
    project.build manifest preview bench = project.produceAll preview {} calls bench := by
  rw [build, Work.bind_run, ordered]
  rfl

section Reports

variable {after : Bench} (distinct : ((history.map Handling.call).map Call.id).Nodup)

include distinct

theorem step_of_action {call : Call} {action : Action} (listed : call ∈ history.map Handling.call)
    (told : (call.id, action) ∈ (reportOf history).actions) :
    ∃ step ∈ history, step.call = call ∧ step.fate = .produced action := by
  obtain ⟨step, inside, fate, same⟩ := mem_actions.mp told
  refine ⟨step, inside, ?_, fate⟩
  exact List.inj_on_of_nodup_map distinct (List.mem_map_of_mem inside) listed same

theorem History.foretells (course : History project true bench history after) :
    (reportOf history).Foretells project bench.store (history.map Handling.call) := by
  obtain ⟨_, foretold⟩ := course.foretold
  intro call listed
  refine ⟨fun action told => ?_, ?_⟩
  · obtain ⟨step, inside, rfl, fate⟩ := step_of_action distinct listed told
    have told := (foretold step inside).resolve_left fun ⟨_, skipped⟩ => by cases fate.symm.trans skipped
    rw [fate] at told
    cases result : project.forecast bench.store step.call with
    | ok other =>
      rw [result] at told
      exact congrArg Except.ok (Fate.produced.inj told).symm
    | error error =>
      rw [result] at told
      cases told
  · obtain ⟨step, inside, rfl⟩ := List.mem_map.mp listed
    obtain ⟨front, back, split⟩ := List.append_of_mem inside
    rcases (course.handled split).blocked_or_clear with ⟨blocked, _⟩ | ⟨_, produced⟩
    · obtain ⟨id, member⟩ := List.exists_mem_of_ne_nil _ blocked
      obtain ⟨lists, failed⟩ := List.mem_filter.mp member
      refine .inl ⟨id, lists, ?_⟩
      rw [split, failed_append]
      exact List.mem_append_left _ (List.contains_iff_mem.mp failed)
    · have told := (foretold step inside).resolve_left fun ⟨ids, skipped⟩ => produced ids skipped
      refine .inr ?_
      cases result : project.forecast bench.store step.call with
      | ok action =>
        rw [result] at told
        exact mem_actions.mpr ⟨step, inside, told, rfl⟩
      | error error =>
        rw [result] at told
        exact List.mem_filterMap.mpr ⟨step, inside, by rw [Handling.failure?, told]; rfl⟩

/-- The files that a build makes are in nobody's way. -/
theorem History.madeApart (course : History project false bench history after)
    (comparable : Comparable project bench.store (history.map Handling.call)) :
    (reportOf history).MadeApart project bench.store (history.map Handling.call) := by
  have raised := course.raised comparable.sound fun step inside =>
    comparable.forward step.call (List.mem_map_of_mem inside)
  intro one listed first placed told
  obtain ⟨step, inside, rfl, fate⟩ := step_of_action distinct listed told
  refine ⟨fun above content => raised.free inside ⟨fate, placed⟩, ?_⟩
  intro other among different second placedOther toldOther
  obtain ⟨later, insideOther, rfl, fateOther⟩ := step_of_action distinct among toldOther
  have steps : step ≠ later := fun same => different (same ▸ rfl)
  exact (raised.apart.forall inside insideOther steps first second ⟨fate, placed⟩
    ⟨fateOther, placedOther⟩).1

/-- Calls whose new files are in nobody's way are compatible. -/
theorem compatible_of_madeApart (course : History project true bench history after)
    (comparable : Comparable project bench.store (history.map Handling.call))
    (apart : (reportOf history).MadeApart project bench.store (history.map Handling.call)) :
    Compatible project bench.store history := by
  have listed {step : Handling} (inside : step ∈ history) : step.call ∈ history.map Handling.call :=
    List.mem_map_of_mem inside
  have different : history.Pairwise fun one other => one.call.id ≠ other.call.id := by
    rw [List.map_map] at distinct
    exact List.pairwise_map.mp distinct
  refine ⟨fun step inside => comparable.forward _ (listed inside), ?_, ?_, ?_⟩
  · refine different.imp_of_mem ?_
    intro one other inside among apartIds first second puts others
    have told := mem_actions.mpr ⟨one, inside, puts.1, rfl⟩
    have toldOther := mem_actions.mpr ⟨other, among, others.1, rfl⟩
    exact ⟨(apart _ (listed inside) _ puts.2 told).2 _ (listed among) apartIds _ others.2 toldOther,
      (apart _ (listed among) _ others.2 toldOther).2 _ (listed inside) apartIds.symm _ puts.2 told⟩
  · intro step inside placement puts
    exact (apart _ (listed inside) _ puts.2 (mem_actions.mpr ⟨step, inside, puts.1, rfl⟩)).1
  · refine different.imp_of_mem ?_
    intro one other inside among apartIds first second puts placed same
    have forward := comparable.forward _ (listed inside) _ puts.2
    have before := puts.outcome (course.foretold.2 one inside) comparable.sound forward
    refine comparable.shared _ (listed inside) _ (listed among) apartIds _ _ puts.2 placed ?_ same
    rw [forecast_placed puts.2, comparable.sound.find?_eq forward, before]

end Reports

/-- The preview of a build changes no file, and tells of every call that it does not skip what this call
alone would do to the files as they are. The build from the same files reports the same exactly when the
files that the preview tells to be new are in nobody's way. -/
theorem preview_tells_build_iff (project : Project) (manifest : Manifest) (bench : Bench)
    (resolvable : Call.Resolvable manifest.calls) :
    ∃ preview real previewed built,
      project.build manifest true bench = (.ok preview, previewed) ∧ previewed.store = bench.store ∧
      project.build manifest false bench = (.ok real, built) ∧
      preview.Foretells project bench.store manifest.calls ∧
      (Comparable project bench.store manifest.calls →
        (real = preview ↔ preview.MadeApart project bench.store manifest.calls)) := by
  obtain ⟨calls, ordered⟩ := resolvable.order_succeeds
  obtain ⟨same, _, _⟩ := Call.order_arranged ordered
  obtain ⟨history, previewed, course, rfl⟩ := exists_history project true bench calls
  obtain ⟨real, built, realCourse, realCalls⟩ :=
    exists_history project false bench (history.map Handling.call)
  have distinct := (same.map Call.id).nodup_iff.mpr resolvable.distinct
  have run : project.produceAll false {} (history.map Handling.call) bench = (.ok (reportOf real), built) :=
    realCalls ▸ realCourse.run fun _ _ _ => rfl
  refine ⟨reportOf history, reportOf real, previewed, built, ?_, course.foretold.1, ?_, ?_, ?_⟩
  · exact (build_ordered ordered true bench).trans (course.run fun _ _ _ => rfl)
  · exact (build_ordered ordered false bench).trans run
  · exact fun call listed => course.foretells distinct call (same.mem_iff.mpr listed)
  · intro comparable
    have within := comparable.mono same.subset
    constructor
    · intro equal
      rw [← equal]
      have apart := realCourse.madeApart (realCalls ▸ distinct) (realCalls ▸ within)
      exact apart.mono (realCalls ▸ same.symm.subset)
    · intro apart
      have compatible := compatible_of_madeApart distinct course within (apart.mono same.subset)
      obtain ⟨other, last, otherCourse, fates, _⟩ :=
        exists_build_history course compatible comparable.sound comparable.standing
      have otherRun : project.produceAll false {} (other.map Handling.call) bench = (.ok (reportOf other), last) :=
        otherCourse.run fun _ _ _ => rfl
      rw [fates.calls, run] at otherRun
      rw [← fates.reportOf]
      exact Except.ok.inj (Prod.mk.inj otherRun).1

section Notes

/-- A call for a unit of the generator without variables. -/
def noteCall (id path : String) : Call :=
  ⟨id, .text "note", .map [], .text path, [], "", .null⟩

def noteManifest (calls : List Call) : Manifest :=
  ⟨⟨.root, ["m.json"]⟩, .text "1.0.0", .text "", calls⟩

theorem placementOf_note (id path : String) :
    notesProject.placementOf (noteCall id path) =
      .ok ⟨notesProject.resolvePath (.ofString path), ⟨"note", some id, "text".toList⟩⟩ := by
  have registered : notesProject.registry.get? "note" = some note := by cbv
  have written : note.render [] = .ok "text".toList := by cbv
  have named : notesProject.generatorOf (.text "note") = .ok note := Registry.resolve_eq_ok.mpr registered
  unfold placementOf
  refine bind_eq_ok.mpr ⟨note, named, bind_eq_ok.mpr ⟨_, rfl, bind_eq_ok.mpr ⟨[], rfl, ?_⟩⟩⟩
  exact bind_eq_ok.mpr ⟨_, written, rfl⟩

/-- A file with the old units of two calls. -/
def unitsDrafts : List Draft :=
  [⟨"note", some "one", "old".toList⟩, ⟨"note", some "two", "old".toList⟩]

def unitsText : List Char :=
  wovenText (dialectAt ["u.ts"]) [] unitsDrafts [['\n'], ['\n']]

def unitsBench : Bench := { store := ⟨[(["u.ts"], .file (.text unitsText))], []⟩ }

/-- Two calls for units of one file, and one for a new file in a new directory. -/
def unitsManifest : Manifest :=
  noteManifest [noteCall "one" "u.ts", noteCall "two" "u.ts", noteCall "three" "new/n.ts"]

theorem unitsManifest_order : unitsManifest.order = .ok unitsManifest.calls := by
  cbv

theorem clean_note {id : String} (plain : Registry.isPlainName id.toList = true) {body : List Char}
    (free : Free body) : Draft.Clean (dialectAt ["u.ts"]) ⟨"note", some id, body⟩ := by
  have known := Dialect.ofPath_standard ⟨.root, ["u.ts"]⟩
  have named : Registry.isPlainName "note".toList = true := by decide
  refine Draft.Proper.clean ⟨named, ?_, free⟩ known
  rintro _ ⟨⟩
  refine ⟨?_, Dialect.quotable_of_isPlainName known plain, free_of_isPlainName plain⟩
  rintro rfl
  cases plain

theorem woven_units : Woven (dialectAt ["u.ts"]) [] unitsDrafts [['\n'], ['\n']] where
  paired := rfl
  clean := by
    intro draft listed
    simp only [unitsDrafts, List.mem_cons, List.not_mem_nil, or_false] at listed
    rcases listed with rfl | rfl
    · exact clean_note (by decide) (by decide)
    · exact clean_note (by decide) (by decide)
  free := free_nil
  apart := by
    intro filler listed
    simp only [List.mem_cons, List.not_mem_nil, or_false, or_self] at listed
    subst listed
    exact ⟨by decide, bounded_lineFeed _⟩

theorem resolve_units : notesProject.resolvePath (.ofString "u.ts") = ⟨.root, ["u.ts"]⟩ := by
  decide +kernel

theorem resolve_new : notesProject.resolvePath (.ofString "new/n.ts") = ⟨.root, ["new", "n.ts"]⟩ := by
  decide +kernel

theorem identities_units : unitsDrafts.map Draft.identity = ["one", "two"] := by
  decide

/-- The new unit of a call for the file. -/
def unitPlacement (id : String) : Placement :=
  ⟨⟨.root, ["u.ts"]⟩, ⟨"note", some id, "text".toList⟩⟩

theorem identity_unit {id : String} (listed : id = "one" ∨ id = "two") :
    (unitPlacement id).identity = id := by
  rcases listed with rfl | rfl <;> rfl

theorem placementOf_units (id : String) :
    notesProject.placementOf (noteCall id "u.ts") = .ok (unitPlacement id) := by
  rw [placementOf_note, resolve_units, unitPlacement]

/-- Both old units are to be changed. -/
theorem forecast_units {id : String} (listed : id = "one" ∨ id = "two") :
    notesProject.forecast unitsBench.store (noteCall id "u.ts") = .ok .updated := by
  have found : unitsBench.store.find? ⟨.root, ["u.ts"]⟩ = some (.file (.text unitsText)) := rfl
  rw [forecast_placed (placementOf_units id), unitPlacement, found]
  change (unitPlacement id).verdict unitsText = _
  have here : unitsDrafts[["one", "two"].idxOf id]? = some ⟨"note", some id, "old".toList⟩ := by
    rcases listed with rfl | rfl <;> rfl
  have spoken : Dialect.ofPath (unitPlacement id).target = dialectAt ["u.ts"] := by
    rw [dialectAt, unitPlacement]
  rw [← identity_unit listed, ← identities_units] at here
  rw [unitsText, Placement.verdict_present woven_units spoken here]
  rcases listed with rfl | rfl <;> decide +kernel

theorem forecast_new :
    notesProject.forecast unitsBench.store (noteCall "three" "new/n.ts") = .ok .created := by
  rw [forecast_placed (placementOf_note "three" "new/n.ts"), resolve_new]
  rfl

theorem mem_units {call : Call} (listed : call ∈ unitsManifest.calls) :
    (call = noteCall call.id "u.ts" ∧ (call.id = "one" ∨ call.id = "two")) ∨
      call = noteCall "three" "new/n.ts" := by
  simp only [unitsManifest, noteManifest, List.mem_cons, List.not_mem_nil, or_false] at listed
  rcases listed with rfl | rfl | rfl
  · exact .inl ⟨rfl, .inl rfl⟩
  · exact .inl ⟨rfl, .inr rfl⟩
  · exact .inr rfl

theorem comparable_units : Comparable notesProject unitsBench.store unitsManifest.calls where
  sound := by
    refine ⟨?_, ?_, ?_, ?_⟩ <;> simp [unitsBench, Store.node?]
  standing := rfl
  forward := by
    intro call listed placement placed
    rcases mem_units listed with ⟨same, _⟩ | same <;> rw [same, placementOf_note] at placed <;>
      cases placed
    · rw [resolve_units]
      simp
    · rw [resolve_new]
      simp
  shared := by
    intro one listed other among different first second placed placedOther changed same
    rcases mem_units listed with ⟨here, known⟩ | rfl
    · rw [here, placementOf_units] at placed
      cases placed
      rcases mem_units among with ⟨there, knownOther⟩ | rfl
      · rw [there, placementOf_units] at placedOther
        cases placedOther
        have plain : Registry.isPlainName one.id.toList = true := by
          rcases known with known | known <;> rw [known] <;> decide
        refine ⟨?_, clean_note plain (by decide), fun text held => ?_⟩
        · rwa [identity_unit known, identity_unit knownOther]
        · cases held
          exact ⟨_, _, _, woven_units, rfl⟩
      · rw [placementOf_note, resolve_new] at placedOther
        cases placedOther
        simp [Store.goal, unitPlacement] at same
    · cases forecast_new.symm.trans changed

/-- A preview agrees with the build where two calls change units of one file and a third one makes a file
in a new directory. -/
theorem preview_tells_build_of_units :
    Call.Resolvable unitsManifest.calls ∧
      Comparable notesProject unitsBench.store unitsManifest.calls ∧
      ∃ preview previewed built,
        notesProject.build unitsManifest true unitsBench = (.ok preview, previewed) ∧
        notesProject.build unitsManifest false unitsBench = (.ok preview, built) ∧
        ("one", .updated) ∈ preview.actions ∧ ("two", .updated) ∈ preview.actions ∧
        ("three", .created) ∈ preview.actions := by
  have resolvable := (Call.order_arranged unitsManifest_order).2.2
  obtain ⟨preview, real, previewed, built, run, _, realRun, foretells, iff⟩ :=
    preview_tells_build_iff notesProject unitsManifest unitsBench resolvable
  have apart : preview.MadeApart notesProject unitsBench.store unitsManifest.calls := by
    intro one listed first placed made
    have told := (foretells one listed).1 _ made
    rcases mem_units listed with ⟨here, known⟩ | rfl
    · rw [here, forecast_units known] at told
      cases told
    · rw [placementOf_note, resolve_new] at placed
      cases placed
      constructor
      · intro above content inside apart file
        have member := Store.mem_of_node file (by rintro rfl; cases file)
        simp only [unitsBench, List.mem_singleton, Prod.mk.injEq] at member
        simp [member.1, Store.goal] at inside
      · intro other among different second placed made
        have told := (foretells other among).1 _ made
        rcases mem_units among with ⟨there, known⟩ | rfl
        · rw [there, forecast_units known] at told
          cases told
        · exact absurd rfl different
  have told (id path : String) {action : Action} (listed : noteCall id path ∈ unitsManifest.calls)
      (known : notesProject.forecast unitsBench.store (noteCall id path) = .ok action) :
      (id, action) ∈ preview.actions := by
    rcases (foretells _ listed).2 with ⟨id, inside, _⟩ | told
    · cases inside
    · rwa [known] at told
  have same := (iff comparable_units).mpr apart
  refine ⟨resolvable, comparable_units, preview, previewed, built, run, same ▸ realRun, ?_, ?_, ?_⟩
  · exact told "one" "u.ts" (by simp [unitsManifest, noteManifest]) (forecast_units (.inl rfl))
  · exact told "two" "u.ts" (by simp [unitsManifest, noteManifest]) (forecast_units (.inr rfl))
  · exact told "three" "new/n.ts" (by simp [unitsManifest, noteManifest]) forecast_new

/-- Two calls for one new file. -/
def sameTarget : Manifest :=
  noteManifest [noteCall "one" "a.ts", noteCall "two" "a.ts"]

theorem sameTarget_order : sameTarget.order = .ok sameTarget.calls := by
  cbv

theorem preview_sameTarget :
    (notesProject.build sameTarget true notesBench).1.toOption.map BuildReport.actions =
      some [("one", .created), ("two", .created)] := by
  rw [build_ordered sameTarget_order]
  decide +kernel

theorem plain_sameTarget {call : Call} (listed : call ∈ sameTarget.calls) {placement : Placement}
    (placed : notesProject.placementOf call = .ok placement) : ".." ∉ placement.target.names := by
  obtain ⟨id, rfl⟩ : ∃ id, call = noteCall id "a.ts" := by
    simp only [sameTarget, noteManifest, List.mem_cons, List.not_mem_nil, or_false] at listed
    rcases listed with same | same <;> exact ⟨_, same⟩
  rw [placementOf_note] at placed
  cases placed
  change ".." ∉ (notesProject.resolvePath (.ofString "a.ts")).names
  decide +kernel

/-- A preview tells that both of two calls make the same file; the second one finds it made. -/
theorem preview_misses_shared_target :
    Call.Resolvable sameTarget.calls ∧ ∃ preview real previewed built,
      notesProject.build sameTarget true notesBench = (.ok preview, previewed) ∧
      notesProject.build sameTarget false notesBench = (.ok real, built) ∧
      preview.actions = [("one", .created), ("two", .created)] ∧ real ≠ preview := by
  have resolvable := (Call.order_arranged sameTarget_order).2.2
  obtain ⟨history, previewed, course, calls⟩ :=
    exists_history notesProject true notesBench sameTarget.calls
  obtain ⟨steps, built, realCourse, realCalls⟩ :=
    exists_history notesProject false notesBench sameTarget.calls
  have preview : notesProject.build sameTarget true notesBench = (.ok (reportOf history), previewed) := by
    rw [build_ordered sameTarget_order, ← calls]
    exact course.run fun _ _ _ => rfl
  have real : notesProject.build sameTarget false notesBench = (.ok (reportOf steps), built) := by
    rw [build_ordered sameTarget_order, ← realCalls]
    exact realCourse.run fun _ _ _ => rfl
  have told := preview_sameTarget
  rw [preview] at told
  refine ⟨resolvable, _, _, _, _, preview, real, Option.some.inj told, fun equal => ?_⟩
  have sound : notesBench.store.Sound :=
    ⟨List.nodup_nil, by simp [notesBench], by simp [notesBench], by simp [notesBench]⟩
  have actions : (reportOf steps).actions = [("one", .created), ("two", .created)] := by
    rw [equal]
    exact Option.some.inj told
  have distinct : ((steps.map Handling.call).map Call.id).Nodup := by
    rw [realCalls]
    decide
  have makes (id : String) (known : noteCall id "a.ts" ∈ sameTarget.calls)
      (listed : (id, .created) ∈ (reportOf steps).actions) :
      ∃ step ∈ steps, step.call = noteCall id "a.ts" ∧ step.fate = .produced .created :=
    step_of_action distinct (realCalls ▸ known) listed
  obtain ⟨one, inside, first, made⟩ := makes "one" (by simp [sameTarget, noteManifest]) (by simp [actions])
  obtain ⟨two, among, second, madeToo⟩ := makes "two" (by simp [sameTarget, noteManifest]) (by simp [actions])
  have plain : ∀ step ∈ steps, ∀ placement, notesProject.placementOf step.call = .ok placement →
      ".." ∉ placement.target.names :=
    fun step listed _ placed => plain_sameTarget (realCalls ▸ List.mem_map_of_mem listed) placed
  -- if both made the file, a build would have made two files with one path
  have different : one ≠ two := by
    rintro rfl
    simp [noteCall, first] at second
  have puts : one.Puts notesProject .created _ := ⟨made, first ▸ placementOf_note "one" "a.ts"⟩
  have putsToo : two.Puts notesProject .created _ := ⟨madeToo, second ▸ placementOf_note "two" "a.ts"⟩
  have apart := (realCourse.raised sound plain).apart
  exact (apart.forall inside among different _ _ puts putsToo).1 List.prefix_rfl

end Notes

end Scaffold.Project
