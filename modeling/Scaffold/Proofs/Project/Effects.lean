import Scaffold.Proofs.Project.Placement
import Scaffold.Proofs.Sentinel.Replaced

/-!
What creating a unit does to the files. It puts a new file where there is no text, renews the first unit
of its identity where there is one, and refuses to write over anything else; no other file changes, and
none changes when it fails or is only a preview.
-/

namespace Scaffold

namespace Store

variable {store middle after : Store} {path target : Path} {text : List Char}

/-- No file has changed but the one that a path leads to. -/
def SameFilesBut (before : Store) (target : Path) (after : Store) : Prop :=
  ∀ key, after.place target ≠ .ok key → ∀ content,
    (after.node? key = some (.file content) ↔ before.node? key = some (.file content))

theorem SameFiles.but (same : store.SameFiles after) (target : Path) : store.SameFilesBut target after :=
  fun key _ content => same key content

theorem SameFiles.trans_but (same : store.SameFiles middle) (but : middle.SameFilesBut target after) :
    store.SameFilesBut target after :=
  fun key apart content => (but key apart content).trans (same key content)

/-- Writing changes the file that its path leads to; the path leads there still. -/
theorem write_sameFilesBut (run : store.write path text = .ok after) : store.SameFilesBut path after := by
  obtain ⟨place, led, unheld, rfl⟩ := write_eq_ok run
  have still : (store.set place (.file (.text text))).place path = .ok place := foldlM_step_set unheld led
  intro key apart content
  have other : key ≠ place := by
    rintro rfl
    exact apart still
  rw [node?_set (isEmpty_of_not_directory unheld), if_neg other]

theorem read_eq_ok_iff_find? :
    store.read path = .ok text ↔ store.find? path = some (.file (.text text)) := by
  rw [read_eq_ok, find?_eq_some]

/-- A path holds no text: nothing is there, or a file of blanks. -/
def Vacant (store : Store) (path : Path) : Prop :=
  store.holds path = false ∨ ∃ text, store.read path = .ok text ∧ Text.trim text = []

end Store

namespace Work

variable {bench after : Bench} {target : Path} {text : List Char} {result : Except Error Unit}

/-- The directories above a new file may be made without the file; no other file is touched in any
case. -/
theorem writeNewFile_effect (run : writeNewFile target text bench = (result, after)) :
    bench.store.SameFilesBut target after.store ∧
      ∀ error, result = .error error → bench.store.SameFiles after.store ∧ Store.Refused error := by
  rcases writeNewFile_cases run with ⟨cause, rfl, refused, made⟩ | ⟨middle, rfl, made, written⟩
  · have same : bench.store.SameFiles after.store := by
      rcases made with same | made
      · rw [same]
        exact .refl _
      · exact (Store.makeDirectories_furnished made).sameFiles
    refine ⟨same.but target, ?_⟩
    rintro _ ⟨⟩
    exact ⟨same, refused⟩
  · have same := (Store.makeDirectories_furnished made).sameFiles
    exact ⟨same.trans_but (Store.write_sameFilesBut written), fun _ impossible => by cases impossible⟩

end Work

namespace Project

open Sentinel

variable {project : Project} {bench after : Bench} {name : String} {params : Record} {path target : Path}
  {unitId : Option String} {preview : Bool} {generator : Generator} {rendered text new : List Char}
  {identity : String} {spans : List Span} {span : Span} {action : Action} {error : Error}
  {result : Except Error Action}

/-! ### The unit to replace -/

/-- Nothing is replaced where all units have other identities. -/
theorem unitToReplace_of_others (target : Path) (others : ∀ span ∈ spans, span.identity ≠ identity) :
    ∃ detail, unitToReplace target identity spans = .error (.alreadyExists target.toString detail) := by
  have none : spans.find? (fun span => span.identity == identity) = none := by simpa using others
  unfold unitToReplace
  split
  · exact ⟨_, rfl⟩
  · rw [none]
    exact ⟨_, rfl⟩

theorem others_of_unitToReplace (run : unitToReplace target identity spans = .error error) :
    ∀ span ∈ spans, span.identity ≠ identity := by
  unfold unitToReplace at run
  split at run
  · next vacant =>
    rw [List.isEmpty_iff.mp vacant]
    simp
  · split at run
    · cases run
    · next none => simpa using none

namespace Placement

variable {placement : Placement} {found : Option Node}

theorem renewed_eq_ok (run : placement.renewed text = .ok new) :
    Renews (Dialect.ofPath placement.target) (some placement.target.toString) placement.identity
      placement.unit text new := by
  obtain ⟨spans, located, _⟩ := bind_eq_ok.mp run
  rw [renewed_of_found located] at run
  obtain ⟨span, chosen, rfl⟩ := map_eq_ok.mp run
  obtain ⟨before, later, rfl, own, others⟩ := unitToReplace_first chosen
  exact renews_of_first (Dialect.regular_of_standard (Dialect.ofPath_standard _)) located own others

/-- A text is not renewed for what else it holds just when its sentinels are well formed and it has no
unit of the identity. -/
theorem renewed_alreadyExists :
    (∃ subject detail, placement.renewed text = .error (.alreadyExists subject detail)) ↔
      ∃ spans, findSpans (Dialect.ofPath placement.target) (some placement.target.toString) text = .ok spans ∧
        ∀ span ∈ spans, span.identity ≠ placement.identity := by
  cases located : findSpans (Dialect.ofPath placement.target) (some placement.target.toString) text with
  | error error =>
    have failed : placement.renewed text = .error error := by
      unfold renewed
      dsimp only
      rw [located]
      rfl
    refine iff_of_false ?_ (by simp)
    rintro ⟨subject, detail, refused⟩
    obtain rfl := Except.error.inj (failed.symm.trans refused)
    have known := findSpans_malformed _ _ _ _ located
    cases known
  | ok spans =>
    rw [renewed_of_found located]
    simp only [Except.ok.injEq, exists_eq_left']
    constructor
    · rintro ⟨subject, detail, failed⟩
      cases chosen : unitToReplace placement.target placement.identity spans with
      | error error => exact others_of_unitToReplace chosen
      | ok span =>
        rw [chosen] at failed
        cases failed
    · intro others
      obtain ⟨detail, refused⟩ := unitToReplace_of_others placement.target others
      exact ⟨_, detail, by rw [refused]; rfl⟩

theorem verdict_of_filled (filled : Text.trim text ≠ []) :
    placement.verdict text =
      (placement.renewed text).map fun new => if new = text then .unchanged else .updated := by
  rw [verdict, if_neg (by simpa using filled)]
  cases placement.renewed text <;> rfl

theorem verdict_of_blank (blank : Text.trim text = []) : placement.verdict text = .ok .created := by
  rw [verdict, if_pos (by simpa using blank)]

/-- A place is not written to just when it holds a text that has well-formed sentinels and no unit of the
identity. -/
theorem outcome_alreadyExists :
    (∃ subject detail, placement.outcome found = .error (.alreadyExists subject detail)) ↔
      ∃ text spans, found = some (.file (.text text)) ∧ Text.trim text ≠ [] ∧
        findSpans (Dialect.ofPath placement.target) (some placement.target.toString) text = .ok spans ∧
        ∀ span ∈ spans, span.identity ≠ placement.identity := by
  match found with
  | none => simp [outcome]
  | some .directory | some (.file (.bytes _)) =>
    refine iff_of_false ?_ (by simp)
    rintro ⟨_, _, impossible⟩
    cases impossible
  | some (.file (.text text)) =>
    change (∃ _ _, placement.verdict text = _) ↔ _
    by_cases blank : Text.trim text = []
    · rw [verdict_of_blank blank]
      simp [blank]
    · rw [verdict_of_filled blank]
      have kept (subject detail : String) :
          (placement.renewed text).map (fun new => if new = text then Action.unchanged else .updated) =
              .error (.alreadyExists subject detail) ↔
            placement.renewed text = .error (.alreadyExists subject detail) := by
        cases placement.renewed text <;> simp [Except.map]
      simp [kept, renewed_alreadyExists, blank]

theorem outcome_unchanged (told : placement.outcome found = .ok .unchanged) :
    ∃ text, found = some (.file (.text text)) ∧ Text.trim text ≠ [] ∧ placement.renewed text = .ok text := by
  cases found with
  | none => cases told
  | some node =>
    obtain ⟨text, read, told⟩ := bind_eq_ok.mp told
    refine ⟨text, congrArg some (read_eq_ok.mp read), ?_⟩
    by_cases blank : Text.trim text = []
    · rw [verdict_of_blank blank] at told
      cases told
    · rw [verdict_of_filled blank] at told
      obtain ⟨new, renewed, action⟩ := map_eq_ok.mp told
      split at action
      · next same => exact ⟨blank, same ▸ renewed⟩
      · cases action

/-! ### How a unit is placed -/

/-- How a unit is placed: a new file is written, if that can be, where there is no text, and a text that
the unit changes is written; nothing is in all other cases. -/
inductive Placing (placement : Placement) (bench : Bench) : Bool → Except Error Action → Bench → Prop
  | quiet {preview : Bool}
      (still : preview = true ∨ placement.outcome (bench.store.find? placement.target) ≠ .ok .created ∧
        placement.outcome (bench.store.find? placement.target) ≠ .ok .updated) :
      Placing placement bench preview (placement.outcome (bench.store.find? placement.target)) bench
  | made {result : Except Error Unit} {after : Bench}
      (told : placement.outcome (bench.store.find? placement.target) = .ok .created)
      (run : Work.writeNewFile placement.target (placement.unit ++ ['\n']) bench = (result, after)) :
      Placing placement bench false (result.map fun _ => .created) after
  | renewed {text new : List Char} {store : Store}
      (told : placement.outcome (bench.store.find? placement.target) = .ok .updated)
      (held : bench.store.find? placement.target = some (.file (.text text)))
      (run : placement.renewed text = .ok new)
      (written : bench.store.write placement.target new = .ok store) :
      Placing placement bench false (.ok .updated) { bench with store }

theorem place_placing (placement : Placement) (preview : Bool) (bench : Bench) :
    Placing placement bench preview
      (place placement.target placement.identity placement.unit preview bench).1
      (place placement.target placement.identity placement.unit preview bench).2 := by
  cases preview with
  | true =>
    rw [place_quiet (.inl rfl)]
    exact .quiet (.inl rfl)
  | false =>
    by_cases told : placement.outcome (bench.store.find? placement.target) = .ok .created
    · rw [place_made told, Work.bind_run]
      cases run : Work.writeNewFile placement.target (placement.unit ++ ['\n']) bench with
      | mk result after => cases result <;> exact .made told run
    by_cases changed : placement.outcome (bench.store.find? placement.target) = .ok .updated
    · obtain ⟨text, new, store, held, _, run, written, done⟩ := place_updated changed
      rw [done]
      exact .renewed changed held run written
    · rw [place_quiet (.inr ⟨told, changed⟩)]
      exact .quiet (.inr ⟨told, changed⟩)

namespace Placing

variable (placing : Placing placement bench preview result after)

include placing

theorem sameFilesBut : bench.store.SameFilesBut placement.target after.store := by
  cases placing with
  | quiet _ => exact (Store.SameFiles.refl _).but _
  | made _ run => exact (Work.writeNewFile_effect run).1
  | renewed _ _ _ written => exact Store.write_sameFilesBut written

theorem sameFiles (still : preview = true ∨ (∃ error, result = .error error) ∨ result = .ok .unchanged) :
    bench.store.SameFiles after.store := by
  cases placing with
  | quiet _ => exact .refl _
  | @made inner _ _ run =>
    cases inner with
    | error error => exact ((Work.writeNewFile_effect run).2 error rfl).1
    | ok _ => simp [Except.map] at still
  | renewed => simp at still

theorem outcome_of_ok (done : result = .ok action) :
    placement.outcome (bench.store.find? placement.target) = .ok action := by
  cases placing with
  | quiet _ => exact done
  | made told _ =>
    obtain ⟨_, _, rfl⟩ := map_eq_ok.mp done
    exact told
  | renewed told _ _ _ =>
    cases done
    exact told

/-- The only other failures are those of the file system. -/
theorem outcome_of_error (failed : result = .error error) :
    placement.outcome (bench.store.find? placement.target) = .error error ∨ Store.Refused error := by
  cases placing with
  | quiet _ => exact .inl failed
  | @made inner _ _ run =>
    cases inner with
    | error cause =>
      cases failed
      exact .inr ((Work.writeNewFile_effect run).2 _ rfl).2
    | ok _ => cases failed
  | renewed => cases failed

/-- Where no new file is to be written, nothing can come between. -/
theorem eq_outcome (apart : placement.outcome (bench.store.find? placement.target) ≠ .ok .created) :
    result = placement.outcome (bench.store.find? placement.target) := by
  cases placing with
  | quiet _ => rfl
  | made told _ => exact absurd told apart
  | renewed told _ _ _ => exact told.symm

theorem alreadyExists_iff :
    (∃ subject detail, result = .error (.alreadyExists subject detail)) ↔
      ∃ subject detail,
        placement.outcome (bench.store.find? placement.target) = .error (.alreadyExists subject detail) := by
  refine exists_congr fun subject => exists_congr fun detail => ⟨fun failed => ?_, fun told => ?_⟩
  · refine (placing.outcome_of_error failed).resolve_right ?_
    rintro ⟨⟩
  · rw [placing.eq_outcome (by simp [told]), told]

end Placing

/-- What an action on the file of a unit means, given the files before it and after it. -/
def Effect (placement : Placement) (preview : Bool) (before after : Store) : Action → Prop
  | .created =>
    before.Vacant placement.target ∧
      (preview = false → after.read placement.target = .ok (placement.unit ++ ['\n']))
  | .updated =>
    ∃ text new, before.read placement.target = .ok text ∧ Text.trim text ≠ [] ∧
      Renews (Dialect.ofPath placement.target) (some placement.target.toString) placement.identity
        placement.unit text new ∧
      new ≠ text ∧ (preview = false → after.read placement.target = .ok new)
  | .unchanged =>
    ∃ text, before.read placement.target = .ok text ∧ Text.trim text ≠ [] ∧
      Renews (Dialect.ofPath placement.target) (some placement.target.toString) placement.identity
        placement.unit text text

theorem Placing.effect (placing : Placing placement bench preview result after)
    (done : result = .ok action) : placement.Effect preview bench.store after.store action := by
  have told := placing.outcome_of_ok done
  cases action with
  | created =>
    refine ⟨?_, ?_⟩
    · cases held : bench.store.find? placement.target with
      | none => exact .inl (by rw [Store.holds, held]; rfl)
      | some node =>
        obtain ⟨text, rfl, blank⟩ := outcome_created.mp told node held
        exact .inr ⟨text, Store.read_eq_ok_iff_find?.mpr held, by simpa using blank⟩
    · rintro rfl
      cases placing with
      | quiet still => exact absurd told (still.resolve_left Bool.false_ne_true).1
      | made _ run =>
        obtain ⟨_, rfl, _⟩ := map_eq_ok.mp done
        exact writeNewFile_leaves run
      | renewed => cases done
  | updated =>
    obtain ⟨text, new, held, filled, run, changed⟩ := outcome_updated.mp told
    refine ⟨text, new, Store.read_eq_ok_iff_find?.mpr held, by simpa using filled, renewed_eq_ok run,
      changed, ?_⟩
    rintro rfl
    cases placing with
    | quiet still => exact absurd told (still.resolve_left Bool.false_ne_true).2
    | made told' _ => cases told.symm.trans told'
    | renewed _ held' run' written =>
      cases held.symm.trans held'
      cases run.symm.trans run'
      exact Store.read_write written
  | unchanged =>
    obtain ⟨text, held, filled, run⟩ := outcome_unchanged told
    exact ⟨text, Store.read_eq_ok_iff_find?.mpr held, filled, renewed_eq_ok run⟩

end Placement

/-! ### Creating a unit -/

theorem create_placing (registered : project.registry.get? name = some generator)
    (written : generator.render params = .ok rendered) (path : Path) (unitId : Option String)
    (preview : Bool) (bench : Bench) :
    Placement.Placing ⟨project.resolvePath path, ⟨name, unitId, rendered⟩⟩ bench preview
      (project.create name params path unitId preview bench).1
      (project.create name params path unitId preview bench).2 := by
  have placed : project.create name params path unitId preview bench =
      place (project.resolvePath path) (identityOf name unitId)
        ((Dialect.ofPath (project.resolvePath path)).wrap rendered name unitId) preview bench := by
    rw [create, Work.bind_run, Registry.resolve_eq_ok.mpr registered]
    simp only [Work.ofResult, createWith, Work.bind_run, written, Registry.get?_name registered]
  rw [placed]
  exact Placement.place_placing _ preview bench

/-- Without a generator, or without its text, nothing is done. -/
theorem create_unplaced (none : ¬ ∃ generator rendered, project.registry.get? name = some generator ∧
      generator.render params = .ok rendered) (path : Path) (unitId : Option String) (preview : Bool)
    (bench : Bench) :
    ∃ error, project.create name params path unitId preview bench = (.error error, bench) := by
  cases resolved : project.registry.resolve name with
  | error error =>
    refine ⟨error, ?_⟩
    rw [create, Work.bind_run, resolved]
    rfl
  | ok generator =>
    cases written : generator.render params with
    | error error =>
      refine ⟨error, ?_⟩
      rw [create, Work.bind_run, resolved]
      simp only [Work.ofResult, createWith, Work.bind_run, written]
    | ok rendered => exact absurd ⟨generator, rendered, Registry.resolve_eq_ok.mp resolved, written⟩ none

/-- A creation changes no file but its target, and not that one in a preview, when it fails or when it
finds nothing to change. A target that it creates held no text, and gets the unit and a line feed; in
one that it updates the first unit of the identity gives way to the new one. When the generator has a
text for it, something else is in the way just when the target has a text whose sentinels are well
formed, and no unit of the identity. -/
theorem create_effect (project : Project) (name : String) (params : Record) (path : Path)
    (unitId : Option String) (preview : Bool) (bench : Bench) :
    let target := project.resolvePath path
    let before := bench.store
    let result := (project.create name params path unitId preview bench).1
    let after := (project.create name params path unitId preview bench).2.store
    before.SameFilesBut target after ∧
    (preview = true ∨ (∃ error, result = .error error) ∨ result = .ok .unchanged →
      before.SameFiles after) ∧
    (∀ action, result = .ok action →
      ∃ generator rendered, project.registry.get? name = some generator ∧
        generator.render params = .ok rendered ∧
        Placement.Effect ⟨target, ⟨name, unitId, rendered⟩⟩ preview before after action) ∧
    ∀ generator rendered, project.registry.get? name = some generator →
      generator.render params = .ok rendered →
      ((∃ subject detail, result = .error (.alreadyExists subject detail)) ↔
        ∃ text spans, before.read target = .ok text ∧ Text.trim text ≠ [] ∧
          findSpans (Dialect.ofPath target) (some target.toString) text = .ok spans ∧
          ∀ span ∈ spans, span.identity ≠ identityOf name unitId) := by
  intro target before result after
  by_cases described : ∃ generator rendered, project.registry.get? name = some generator ∧
      generator.render params = .ok rendered
  · obtain ⟨generator, rendered, registered, written⟩ := described
    have placing := create_placing registered written path unitId preview bench
    refine ⟨placing.sameFilesBut, placing.sameFiles, ?_, ?_⟩
    · exact fun action done => ⟨generator, rendered, registered, written, placing.effect done⟩
    · intro _ _ _ _
      simp only [Store.read_eq_ok_iff_find?]
      exact placing.alreadyExists_iff.trans Placement.outcome_alreadyExists
  · obtain ⟨error, failed⟩ := create_unplaced described path unitId preview bench
    have ended : result = .error error := congrArg Prod.fst failed
    have same : before.SameFiles after := by
      rw [show after = before from congrArg (·.2.store) failed]
      exact .refl before
    refine ⟨same.but target, fun _ => same, fun action done => ?_, ?_⟩
    · cases ended.symm.trans done
    · exact fun generator rendered registered written =>
        absurd ⟨generator, rendered, registered, written⟩ described

section ThreeNotes

/-- A text with a unit of its own identity and two units of one generator. -/
def threeNotes (second : String) : List Char :=
  textOf ["// @codefactory:start factory=\"note\" id=\"b\"", "old", "// @codefactory:end", "",
    "// @codefactory:start factory=\"note\"", second, "// @codefactory:end",
    "// @codefactory:start factory=\"note\"", "old", "// @codefactory:end"]

def threeNotesBench : Bench := { store := ⟨[(["a.ts"], .file (.text (threeNotes "old")))], []⟩ }

theorem findSpans_threeNotes :
    findSpans (Dialect.ofPath notePath) (some notePath.toString) (threeNotes "old") =
      .ok [⟨"note", some "b", 0, 67, 44, 48⟩, ⟨"note", none, 69, 129, 106, 110⟩,
        ⟨"note", none, 130, 190, 167, 171⟩] := by
  cbv

def notePlacement : Placement := ⟨notePath, ⟨"note", none, "text".toList⟩⟩

theorem renewed_threeNotes : notePlacement.renewed (threeNotes "old") = .ok (threeNotes "text") := by
  cbv

theorem read_threeNotes : threeNotesBench.store.read notePath = .ok (threeNotes "old") := by
  rfl

theorem outcome_threeNotes :
    notePlacement.outcome (threeNotesBench.store.find? notePlacement.target) = .ok .updated :=
  Placement.outcome_updated.mpr
    ⟨threeNotes "old", threeNotes "text", rfl, by decide +kernel, renewed_threeNotes, by decide +kernel⟩

/-- The first unit of the generator is updated, and a unit of yet another identity refused. -/
theorem create_effect_of_threeNotes :
    notesProject.registry.get? "note" = some note ∧ note.render [] = .ok "text".toList ∧
      (notesProject.create "note" [] notePath none false threeNotesBench).1 = .ok .updated ∧
      notePlacement.Effect false threeNotesBench.store
        (notesProject.create "note" [] notePath none false threeNotesBench).2.store .updated ∧
      ∃ subject detail, (notesProject.create "note" [] notePath (some "c") false threeNotesBench).1 =
        .error (.alreadyExists subject detail) := by
  have registered : notesProject.registry.get? "note" = some note := by cbv
  have written : note.render [] = .ok "text".toList := by cbv
  have placing : notePlacement.Placing threeNotesBench false _ _ :=
    create_placing registered written notePath none false threeNotesBench
  have updated := (placing.eq_outcome (by simp [outcome_threeNotes])).trans outcome_threeNotes
  obtain ⟨_, _, effect, _⟩ := create_effect notesProject "note" [] notePath none false threeNotesBench
  obtain ⟨_, _, _, refused⟩ := create_effect notesProject "note" [] notePath (some "c") false threeNotesBench
  refine ⟨registered, written, updated, ?_, (refused note _ registered written).mpr ?_⟩
  · obtain ⟨generator, rendered, registered', written', effect⟩ := effect .updated updated
    obtain rfl := Option.some.inj (registered.symm.trans registered')
    obtain rfl := Except.ok.inj (written.symm.trans written')
    exact effect
  · exact ⟨_, _, read_threeNotes, by decide +kernel, findSpans_threeNotes, by decide +kernel⟩

end ThreeNotes

end Project

end Scaffold
