import Scaffold.Proofs.Project.Repeat
import Scaffold.Proofs.Sentinel.Alone
import Scaffold.Proofs.Sentinel.Decoding
import Scaffold.Proofs.Text.Trim

/-!
What creating a unit leaves behind. Nothing that stands between the sentinels of a new unit is checked
or quoted; the unit is found again exactly when its identity can stand between quotes and no further
sentinel came in with the text or the identity.
-/

namespace Scaffold

open Sentinel

variable {dialect : Dialect}

namespace Project

variable {project : Project} {bench after : Bench} {name : String} {params : Record} {path : Path}
  {unitId : Option String} {generator : Generator} {rendered text : List Char}

theorem isVacant_of_read {target : Path} (held : bench.store.read target = .ok text) :
    isVacant target bench = (.ok (Text.trim text).isEmpty, bench) := by
  unfold isVacant
  simp only [Work.bind_run, Work.get_run, Store.holds_of_read held, if_true, Work.readFile, held]
  rfl

theorem writeNewFile_leaves {target : Path}
    (run : Work.writeNewFile target text bench = (.ok (), after)) :
    after.store.read target = .ok text := by
  obtain ⟨_, middle, _, run⟩ := Work.bind_eq_ok.mp run
  unfold Work.writeFile Work.changeFiles at run
  split at run
  · next store written =>
    cases run
    exact Store.read_write written
  · cases run

/-- A unit is placed in a new file with nothing but a line feed. -/
theorem place_created {target : Path} {identity : String} {unit : List Char}
    (run : place target identity unit false bench = (.ok .created, after)) :
    after.store.read target = .ok (unit ++ ['\n']) := by
  obtain ⟨vacant, first, _, run⟩ := Work.bind_eq_ok.mp run
  cases vacant with
  | true =>
    obtain ⟨_, last, wrote, run⟩ := Work.bind_eq_ok.mp run
    cases run
    exact writeNewFile_leaves wrote
  | false =>
    obtain ⟨_, _, _, run⟩ := Work.bind_eq_ok.mp run
    obtain ⟨_, _, _, run⟩ := Work.bind_eq_ok.mp run
    obtain ⟨_, _, _, run⟩ := Work.bind_eq_ok.mp run
    unfold commit at run
    split at run
    · cases run
    · obtain ⟨_, _, _, run⟩ := Work.bind_eq_ok.mp run
      cases run

theorem create_eq_place {bench : Bench} (registered : project.registry.get? name = some generator)
    (written : generator.render params = .ok rendered) :
    project.create name params path unitId false bench =
      place (project.resolvePath path) (identityOf name unitId)
        ((Dialect.ofPath (project.resolvePath path)).wrap rendered name unitId) false bench := by
  have named := Registry.get?_name registered
  rw [create, Work.bind_run, Registry.resolve_eq_ok.mpr registered]
  simp only [Work.ofResult, createWith, Work.bind_run, written, named]

/-- What a creation that makes a file has done: the file holds the new unit and a line feed. -/
theorem create_leaves
    (done : project.create name params path unitId false bench = (.ok .created, after)) :
    ∃ generator rendered, project.registry.get? name = some generator ∧
      generator.render params = .ok rendered ∧
      after.store.read (project.resolvePath path) = .ok
        ((Dialect.ofPath (project.resolvePath path)).wrap rendered name unitId ++ ['\n']) := by
  obtain ⟨generator, first, resolved, run⟩ := Work.bind_eq_ok.mp done
  obtain ⟨rendered, second, written, _⟩ := Work.bind_eq_ok.mp run
  have registered := Registry.resolve_eq_ok.mp (Work.ofResult_eq_ok.mp resolved).1
  have rendering := (Work.ofResult_eq_ok.mp written).1
  rw [create_eq_place registered rendering] at done
  exact ⟨generator, rendered, registered, rendering, place_created done⟩

theorem unitToReplace_first {target : Path} {identity : String} {spans : List Span} {span : Span}
    (run : unitToReplace target identity spans = .ok span) :
    ∃ before later, spans = before ++ span :: later ∧ span.identity = identity ∧
      ∀ other ∈ before, other.identity ≠ identity := by
  unfold unitToReplace at run
  split at run
  · cases run
  · split at run
    · next first found =>
      cases run
      obtain ⟨own, before, later, whole, others⟩ := List.find?_eq_some_iff_append.mp found
      refine ⟨before, later, whole, by simpa using own, fun other listed => ?_⟩
      simpa using others other listed
    · cases run

theorem unitToReplace_eq_ok {target : Path} {identity : String} {spans : List Span} {span : Span}
    (run : unitToReplace target identity spans = .ok span) : span ∈ spans ∧ span.identity = identity := by
  obtain ⟨before, later, rfl, own, _⟩ := unitToReplace_first run
  exact ⟨List.mem_append_right _ List.mem_cons_self, own⟩

/-- A unit in a file is placed over the first one of its identity; nothing changes only when it is that
already. -/
theorem place_unchanged {target : Path} {identity : String} {unit : List Char}
    (held : bench.store.read target = .ok text)
    (run : place target identity unit false bench = (.ok .unchanged, after)) :
    ∃ spans, findSpans (Dialect.ofPath target) (some target.toString) text = .ok spans ∧
      ∃ span ∈ spans, span.identity = identity ∧ replaceSpan text span unit = text := by
  unfold place at run
  rw [Work.bind_run, isVacant_of_read held] at run
  cases vacant : (Text.trim text).isEmpty with
  | true =>
    rw [vacant] at run
    obtain ⟨_, _, _, run⟩ := Work.bind_eq_ok.mp run
    cases run
  | false =>
    rw [vacant] at run
    obtain ⟨found, middle, got, rest⟩ := Work.bind_eq_ok.mp run
    rw [Work.readFile, held] at got
    cases got
    obtain ⟨spans, _, located, rest⟩ := Work.bind_eq_ok.mp rest
    obtain ⟨span, _, chosen, last⟩ := Work.bind_eq_ok.mp rest
    refine ⟨spans, (Work.ofResult_eq_ok.mp located).1, span, ?_⟩
    obtain ⟨listed, same⟩ := unitToReplace_eq_ok (Work.ofResult_eq_ok.mp chosen).1
    refine ⟨listed, same, ?_⟩
    unfold commit at last
    by_cases put : replaceSpan text span unit = text
    · exact put
    · rw [if_neg put] at last
      obtain ⟨_, _, _, impossible⟩ := Work.bind_eq_ok.mp last
      cases impossible

/-- Units of other identities only are left alone. -/
theorem place_refused {target : Path} {identity : String} {unit : List Char} {spans : List Span}
    {error : Error} (held : bench.store.read target = .ok text) (filled : Text.trim text ≠ [])
    (located : findSpans (Dialect.ofPath target) (some target.toString) text = .ok spans)
    (other : unitToReplace target identity spans = .error error) :
    (place target identity unit false bench).1 = .error error := by
  have some : (Text.trim text).isEmpty = false := by simpa using filled
  unfold place
  simp only [Work.bind_run, isVacant_of_read held, some, Bool.false_eq_true, if_false, Work.readFile,
    held, Work.ofResult, located, other]

/-- A unit that is there already is placed without any change. -/
theorem place_of_unit {target : Path} {identity : String} {unit : List Char} {span : Span}
    (held : bench.store.read target = .ok text) (filled : Text.trim text ≠ [])
    (located : findSpans (Dialect.ofPath target) (some target.toString) text = .ok [span])
    (same : span.identity = identity) (put : replaceSpan text span unit = text) :
    place target identity unit false bench = (.ok .unchanged, bench) := by
  have some : (Text.trim text).isEmpty = false := by simpa using filled
  have chosen : unitToReplace target identity [span] = .ok span := by
    simp [unitToReplace, same]
  unfold place
  simp only [Work.bind_run, isVacant_of_read held, some, Bool.false_eq_true, if_false, Work.readFile,
    held, Work.ofResult, located, chosen, commit, put, if_true]
  rfl

/-- What a creation has left can be found again: the units of the file can be read, one of them has the
identity, and the same creation says that it is unchanged and leaves all files as they are. -/
def FoundAgain (project : Project) (name : String) (params : Record) (path : Path)
    (unitId : Option String) (bench : Bench) : Prop :=
  let target := project.resolvePath path
  ∃ text spans last, bench.store.read target = .ok text ∧
    findSpans (Dialect.ofPath target) (some target.toString) text = .ok spans ∧
    (∃ span ∈ spans, span.identity = identityOf name unitId) ∧
    project.create name params path unitId false bench = (.ok .unchanged, last) ∧
    last.store = bench.store

theorem legible_of_identity (known : dialect ∈ Dialect.standard)
    (plain : Registry.isPlainName name.toList = true)
    (quotable : dialect.Quotable (identityOf name unitId)) (body : List Char) :
    Draft.Legible dialect ⟨name, unitId, body⟩ where
  named := by
    rintro rfl
    cases plain
  generator := Dialect.quotable_of_isPlainName known plain
  unitId := by
    rintro id ⟨⟩
    by_cases vacant : id = ""
    · subst vacant
      exact ⟨by decide, by simp, fun closed inside => closed (List.infix_nil.mp inside)⟩
    · rwa [identityOf, if_neg vacant] at quotable

theorem identity_eq {draft : Draft} {span : Span} (read : draft.ReadAs dialect text span) :
    span.identity = identityOf draft.generator draft.unitId := by
  rw [Span.identity, read.unitId, read.generator]
  cases given : draft.unitId with
  | none => rfl
  | some id =>
    by_cases vacant : id = ""
    · simp [Dialect.ownId, identityOf, Option.filter_some, vacant]
    · by_cases same : id = draft.generator
      · simp [Dialect.ownId, identityOf, Option.filter_some, same]
      · simp [Dialect.ownId, identityOf, Option.filter_some, vacant, same]

theorem quotable_identity (regular : dialect.Regular) {target : Option String} {spans : List Span}
    (found : findSpans dialect target text = .ok spans) {span : Span} (listed : span ∈ spans) :
    dialect.Quotable span.identity := by
  obtain ⟨_, generator, own⟩ := findSpans_quotable regular found span listed
  unfold Span.identity
  cases given : span.unitId with
  | none => exact generator
  | some id =>
    simp only
    split
    · exact generator
    · exact own id given

theorem free_of_identity (free : Free (identityOf name unitId).toList) :
    ∀ id ∈ unitId, Free id.toList := by
  rintro id ⟨⟩
  by_cases vacant : id = ""
  · subst vacant
    exact free_nil
  · rwa [identityOf, if_neg vacant] at free

/-- A unit can be found in any text when its identity can be written and no mark comes with it. -/
theorem clean_of_identity (known : dialect ∈ Dialect.standard)
    (plain : Registry.isPlainName name.toList = true)
    (quotable : dialect.Quotable (identityOf name unitId))
    (freeIdentity : Free (identityOf name unitId).toList) (freeRendering : Free rendered) :
    Draft.Clean dialect ⟨name, unitId, rendered⟩ :=
  have legible := legible_of_identity known plain quotable rendered
  { named := legible.named
    generator := legible.generator
    unitId := legible.unitId
    freeGenerator := free_of_isPlainName plain
    freeUnitId := free_of_identity freeIdentity
    freeBody := freeRendering }

theorem trim_unit_ne_nil (dialect : Dialect) (draft : Draft) :
    Text.trim (draft.text dialect ++ ['\n']) ≠ [] := by
  intro vacant
  have mark : '@' ∈ draft.text dialect ++ ['\n'] := by
    have tagged : '@' ∈ startTag := by decide
    rw [text_append, Draft.opening, Dialect.start_eq]
    simp [tagged]
  exact absurd (Text.trim_eq_nil.mp vacant _ mark) (by decide)

/-- Putting a unit in the place of itself at the beginning of a text changes nothing. -/
theorem replaceSpan_first {unit : List Char} {span : Span} (start : span.start = 0)
    (finish : span.finish = unit.length) (back : List Char) :
    replaceSpan (unit ++ back) span unit = unit ++ back := by
  rw [replaceSpan, start, finish, List.take_zero, List.nil_append, List.drop_left]

/-- When a file is made for a unit whose generator has a plain name, it holds the unit and a line feed.
The unit is found again exactly when its identity can stand between quotes in a sentinel and there are
no sentinels in the file but its own two. There are no others if neither the identity nor the rendered
text holds a mark. -/
theorem create_foundAgain_iff (plain : Registry.isPlainName name.toList = true)
    (done : project.create name params path unitId false bench = (.ok .created, after)) :
    let target := project.resolvePath path
    let dialect := Dialect.ofPath target
    let identity := identityOf name unitId
    ∃ generator rendered, project.registry.get? name = some generator ∧
      generator.render params = .ok rendered ∧
      let text := dialect.wrap rendered name unitId ++ ['\n']
      after.store.read target = .ok text ∧
      (FoundAgain project name params path unitId after ↔
        dialect.Quotable identity ∧ (startMarks dialect text).length = 1 ∧
          (endMarks dialect text).length = 1) ∧
      (dialect.Quotable identity → Free identity.toList → Free rendered →
        FoundAgain project name params path unitId after) := by
  intro target dialect identity
  have known : dialect ∈ Dialect.standard := Dialect.ofPath_standard target
  have regular := Dialect.regular_of_standard known
  obtain ⟨generator, rendered, registered, written, held⟩ := create_leaves done
  refine ⟨generator, rendered, registered, written, ?_⟩
  intro text
  have again : dialect.Quotable identity → (startMarks dialect text).length = 1 →
      (endMarks dialect text).length = 1 → FoundAgain project name params path unitId after := by
    intro quotable starts finishes
    obtain ⟨span, located, read, start, finish⟩ := findSpans_alone regular
      (legible_of_identity known plain quotable rendered) (bounded_lineFeed dialect) starts finishes
      (some target.toString)
    have same : span.identity = identity := identity_eq read
    have put := replaceSpan_first start finish ['\n']
    have quiet := place_of_unit held (trim_unit_ne_nil dialect ⟨name, unitId, rendered⟩) located same put
    exact ⟨text, [span], after, held, located, ⟨span, List.mem_singleton.mpr rfl, same⟩,
      (create_eq_place registered written).trans quiet, rfl⟩
  refine ⟨held, ⟨?_, fun ⟨quotable, starts, finishes⟩ => again quotable starts finishes⟩, ?_⟩
  · rintro ⟨other, spans, last, held', located, ⟨span, listed, same⟩, quiet, _⟩
    -- when creating it again changes nothing, the text holds this unit alone
    rw [held] at held'
    obtain rfl := Except.ok.inj held'
    rw [create_eq_place registered written] at quiet
    obtain ⟨_, located', own, listed', _, put⟩ := place_unchanged held quiet
    rw [located] at located'
    obtain rfl := Except.ok.inj located'
    have quotable := quotable_identity regular located listed
    rw [same] at quotable
    have only := eq_singleton_of_replaced regular ⟨name, unitId, rendered⟩ located listed' put
    rw [only] at located
    exact ⟨quotable, length_marks_of_singleton located⟩
  · intro quotable freeIdentity freeRendering
    have clean := clean_of_identity known plain quotable freeIdentity freeRendering
    obtain ⟨starts, finishes⟩ := length_marks_of_clean regular clean
    exact again quotable starts finishes

section Notes

/-- A generator of a text without variables. -/
def note : Generator where
  name := "note"
  description := "A line"
  recipe := .template "text".toList .null

def notes : Registry := ⟨[note]⟩

def notesProject : Project := ⟨notes, ⟨.root, []⟩⟩

def notePath : Path := ⟨.root, ["a.ts"]⟩

def notesBench : Bench := { store := ⟨[], []⟩ }

theorem register_note : Registry.register {} note = ([], .ok notes) := by
  have sound : Registry.check note = ([], .ok ()) := by decide +kernel
  have named : Registry.isName note.name.toList = true := by decide +kernel
  rw [Registry.register, named, sound]
  rfl

theorem create_note (unitId : Option String) :
    ∃ after, notesProject.create "note" [] notePath unitId false notesBench = (.ok .created, after) := by
  have registered : notesProject.registry.get? "note" = some note := by cbv
  have written : note.render [] = .ok "text".toList := by cbv
  rw [create_eq_place registered written]
  exact ⟨_, rfl⟩

/-- A text with one unit of the generator, whose start sentinel goes on with further attributes. -/
def noteText (attributes : String) : List Char :=
  textOf ["// @codefactory:start factory=\"note\"" ++ attributes, "text", "// @codefactory:end"]

/-- What was created may not be found again: an identity with a quote is read up to the quote, and a
second creation takes its own unit for another one. -/
theorem create_lost_of_quote :
    Registry.register {} note = ([], .ok notes) ∧
      ∃ after, notesProject.create "note" [] notePath (some "a\"b") false notesBench =
          (.ok .created, after) ∧
        after.store.read notePath = .ok (noteText " id=\"a\"b\"") ∧
        findSpans (Dialect.ofPath notePath) (some notePath.toString) (noteText " id=\"a\"b\"") =
          .ok [⟨"note", some "a", 0, 70, 46, 51⟩] ∧
        (notesProject.create "note" [] notePath (some "a\"b") false after).1 =
          .error (.alreadyExists "/a.ts" "File holds generation units for: a") ∧
        ¬ FoundAgain notesProject "note" [] notePath (some "a\"b") after := by
  obtain ⟨after, done⟩ := create_note (some "a\"b")
  obtain ⟨generator, rendered, registered, written, held⟩ := create_leaves done
  have found : notesProject.registry.get? "note" = some note := by cbv
  obtain rfl := Option.some.inj (found.symm.trans registered)
  have rendering : note.render [] = .ok "text".toList := by cbv
  obtain rfl := Except.ok.inj (rendering.symm.trans written)
  have located : findSpans (Dialect.ofPath notePath) (some notePath.toString)
      (noteText " id=\"a\"b\"") = .ok [⟨"note", some "a", 0, 70, 46, 51⟩] := by
    cbv
  have refused : (notesProject.create "note" [] notePath (some "a\"b") false after).1 =
      .error (.alreadyExists "/a.ts" "File holds generation units for: a") := by
    rw [create_eq_place registered rendering]
    exact place_refused held (by decide +kernel) located (by decide +kernel)
  refine ⟨register_note, after, done, held, located, refused, ?_⟩
  rintro ⟨_, _, last, _, _, _, quiet, _⟩
  rw [quiet] at refused
  cases refused

/-- A unit with an identity of its own is found again. -/
theorem create_foundAgain_of_note :
    Registry.isPlainName "note".toList = true ∧
      ∃ after, notesProject.create "note" [] notePath (some "a-b") false notesBench =
          (.ok .created, after) ∧
        FoundAgain notesProject "note" [] notePath (some "a-b") after := by
  obtain ⟨after, done⟩ := create_note (some "a-b")
  obtain ⟨_, rendered, registered, written, _, _, again⟩ := create_foundAgain_iff (by decide) done
  have found : notesProject.registry.get? "note" = some note := by cbv
  obtain rfl := Option.some.inj (found.symm.trans registered)
  have rendering : note.render [] = .ok "text".toList := by cbv
  obtain rfl := Except.ok.inj (rendering.symm.trans written)
  have slashes : Dialect.ofPath (notesProject.resolvePath notePath) = .slash := by decide +kernel
  have own : identityOf "note" (some "a-b") = "a-b" := by decide
  have quotable : (Dialect.ofPath (notesProject.resolvePath notePath)).Quotable
      (identityOf "note" (some "a-b")) := by
    rw [slashes, own]
    exact ⟨by decide, by simp [isBreak], by decide⟩
  exact ⟨by decide, after, done, again quotable (by decide +kernel) (by decide +kernel)⟩

end Notes

end Project

end Scaffold
