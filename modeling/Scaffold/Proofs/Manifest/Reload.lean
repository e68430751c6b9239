import Scaffold.Proofs.Call.Stored
import Scaffold.Proofs.Json.LineBreaks
import Scaffold.Proofs.Manifest.Editing
import Scaffold.Proofs.Manifest.Saving

/-!
Saving a manifest and loading it again. What edits with texts and objects leave is made of texts and
objects, and comes back from the file just when it can be written and no call lacks what loading asks
for: nothing asks for that when a call is added or changed.
-/

namespace Scaffold

/-- A file can be put at a path: the directories above it can be made, and then any text be written. -/
def Store.Writable (store : Store) (path : Path) : Prop :=
  ∃ middle, store.makeDirectories path.parent = .ok middle ∧ ∀ text, ∃ after, middle.write path text = .ok after

/-- What a call may be set to: a record for the parameters, or nothing, and texts. -/
structure Call.Draft.Plain (draft : Call.Draft) : Prop where
  generator : draft.generator.IsText
  params : draft.params = .null ∨ draft.params.IsObject
  outputPath : draft.outputPath.IsText
  generatorVersion : draft.generatorVersion = .null ∨ draft.generatorVersion.IsText

namespace Manifest

/-- A field of a call may be changed to this value. -/
structure PlainChange (name : String) (value : Value) : Prop where
  text : name = "generator" ∨ name = "output_path" → value.IsText
  object : name = "params" → value.IsObject
  version : name = "generator_version" → value = .null ∨ value.IsText

/-- An edit with texts, and with objects of JSON for the parameters. -/
def Edit.Plain : Edit → Prop
  | .add draft _ => draft.Plain
  | .update _ changes => ∀ change ∈ changes, PlainChange change.1 change.2
  | .remove _ => True
  | .touch _ => True

/-- A manifest made of texts and objects. -/
structure Plain (manifest : Manifest) : Prop where
  version : manifest.version.IsText
  versioned : manifest.version ≠ .text ""
  generated : manifest.generated.IsText
  stamped : manifest.generated ≠ .text ""
  calls : ∀ call ∈ manifest.calls, call.Plain

/-- A manifest that its stored form can give back: any value of JSON that counts as true for its version
and for its stamp, and calls that can be given back. -/
structure Kept (manifest : Manifest) : Prop where
  version : manifest.version.Plain
  versioned : manifest.version.truthy = true
  generated : manifest.generated.Plain
  stamped : manifest.generated.truthy = true
  calls : ∀ call ∈ manifest.calls, call.Kept

theorem Plain.kept {manifest : Manifest} (plain : manifest.Plain) : manifest.Kept where
  version := plain.version.plain
  versioned := (Call.truthy_iff plain.version).mpr plain.versioned
  generated := plain.generated.plain
  stamped := (Call.truthy_iff plain.generated).mpr plain.stamped
  calls := fun call listed => (plain.calls call listed).kept

variable {manifest after : Manifest} {now : Instant} {call : Call} {id : String}

/-! ### What edits leave -/

theorem text_ne_empty (now : Instant) : now.text ≠ "" := by
  unfold Instant.text
  extract_lets seconds
  generalize Instant.civil _ = date
  obtain ⟨year, month, day⟩ := date
  dsimp only
  intro same
  have letters := congrArg String.toList same
  rw [String.toList_ofList] at letters
  exact List.append_ne_nil_of_right_ne_nil _ (List.cons_ne_nil _ _) letters

theorem Plain.empty (path : Path) (now : Instant) : (Manifest.empty path now).Plain where
  version := ⟨_, rfl⟩
  versioned := by simp [Manifest.empty, formatVersion]
  generated := ⟨_, rfl⟩
  stamped := by simpa [Manifest.empty] using text_ne_empty now
  calls := by simp [Manifest.empty]

theorem recordOf_plain {value given : Value} (plain : value = .null ∨ value.IsObject)
    (run : recordOf value = .ok given) : given.IsObject := by
  have vacant : (Value.map []).IsObject := ⟨[], rfl, .map (by simp) (by simp) (by simp)⟩
  rcases plain with rfl | ⟨entries, rfl, plain⟩
  · cases run
    exact vacant
  · unfold recordOf at run
    split at run
    · cases run
      exact ⟨entries, rfl, plain⟩
    · cases run
      exact vacant

theorem add_plain {draft : Call.Draft} (plain : manifest.Plain) (given : draft.Plain)
    (run : manifest.add draft now = .ok (call, after)) : after.Plain := by
  unfold add at run
  split at run
  · cases run
  · obtain ⟨params, recorded, run⟩ := bind_eq_ok.mp run
    obtain ⟨_, _, run⟩ := bind_eq_ok.mp run
    obtain ⟨dependencies, _, run⟩ := bind_eq_ok.mp run
    cases run
    refine ⟨plain.version, plain.versioned, plain.generated, plain.stamped, ?_⟩
    refine List.forall_mem_append.mpr ⟨plain.calls, List.forall_mem_singleton.mpr ?_⟩
    exact ⟨given.generator, recordOf_plain given.params recorded, given.outputPath,
      nodup_eraseDups dependencies, text_ne_empty now, given.generatorVersion⟩

theorem update_plain {changes : List (String × Value)} (plain : manifest.Plain)
    (given : ∀ change ∈ changes, PlainChange change.1 change.2)
    (run : manifest.update id changes = .ok (call, after)) : after.Plain := by
  unfold update at run
  split at run
  · cases run
  · next current found =>
    dsimp only at run
    split at run
    · cases run
    · obtain ⟨_, _, run⟩ := bind_eq_ok.mp run
      obtain ⟨dependencies, _, run⟩ := bind_eq_ok.mp run
      obtain ⟨_, _, run⟩ := bind_eq_ok.mp run
      cases run
      have old := plain.calls current (List.mem_of_find?_eq_some found)
      have field {name : String} {present : Value} {proper : Value → Prop} (kept : proper present)
          (changed : ∀ value, PlainChange name value → proper value) :
          proper ((changes.lookup name).getD present) := by
        cases listed : changes.lookup name with
        | none => exact kept
        | some value =>
          obtain ⟨front, back, rfl, _⟩ := List.lookup_eq_some_iff.mp listed
          exact changed value (given (name, value) (by simp))
      refine ⟨plain.version, plain.versioned, plain.generated, plain.stamped, ?_⟩
      refine List.forall_mem_map.mpr fun other listed => ?_
      split
      · exact ⟨field old.generator fun _ change => change.text (.inl rfl),
          field old.params fun _ change => change.object rfl,
          field old.outputPath fun _ change => change.text (.inr rfl),
          nodup_eraseDups dependencies, old.createdAt,
          field old.generatorVersion fun _ change => change.version rfl⟩
      · exact plain.calls other listed

theorem remove_plain (plain : manifest.Plain) (run : manifest.remove id = .ok (call, after)) : after.Plain := by
  obtain ⟨rfl, _, _⟩ := remove_ok run
  exact ⟨plain.version, plain.versioned, plain.generated, plain.stamped, fun other listed =>
    plain.calls other (List.mem_of_mem_eraseP listed)⟩

/-- All that an edit can do: nothing when it fails, or what it says. -/
theorem apply_elim {edit : Edit} {motive : Manifest → Prop} (kept : motive manifest)
    (added : ∀ draft now call after, edit = .add draft now → manifest.add draft now = .ok (call, after) →
      motive after)
    (updated : ∀ id changes call after, edit = .update id changes →
      manifest.update id changes = .ok (call, after) → motive after)
    (removed : ∀ id call after, edit = .remove id → manifest.remove id = .ok (call, after) → motive after)
    (touched : ∀ now, edit = .touch now → motive (manifest.touch now)) : motive (manifest.apply edit).2 := by
  cases edit with
  | add draft now =>
    rw [apply]
    cases run : manifest.add draft now with
    | error error => exact kept
    | ok result => exact added _ _ _ _ rfl run
  | update id changes =>
    rw [apply]
    cases run : manifest.update id changes with
    | error error => exact kept
    | ok result => exact updated _ _ _ _ rfl run
  | remove id =>
    rw [apply]
    cases run : manifest.remove id with
    | error error => exact kept
    | ok result => exact removed _ _ _ rfl run
  | touch now => exact touched now rfl

theorem apply_plain {edit : Edit} (plain : manifest.Plain) (given : edit.Plain) :
    (manifest.apply edit).2.Plain := by
  refine apply_elim plain ?_ ?_ ?_ ?_
  · rintro draft now call after rfl run
    exact add_plain plain given run
  · rintro id changes call after rfl run
    exact update_plain plain given run
  · rintro id call after rfl run
    exact remove_plain plain run
  · rintro now rfl
    exact ⟨plain.version, plain.versioned, ⟨_, rfl⟩, by simpa [touch] using text_ne_empty now, plain.calls⟩

theorem run_plain {edits : List Edit} (plain : manifest.Plain) (given : ∀ edit ∈ edits, edit.Plain) :
    (manifest.run edits).Plain := by
  induction edits generalizing manifest with
  | nil => exact plain
  | cons edit rest ih =>
    obtain ⟨here, later⟩ := List.forall_mem_cons.mp given
    exact ih (apply_plain plain here) later

theorem apply_path (manifest : Manifest) (edit : Edit) : (manifest.apply edit).2.path = manifest.path := by
  refine apply_elim (motive := fun after => after.path = manifest.path) rfl ?_ ?_ ?_ ?_
  · rintro draft now call after rfl run
    rw [(add_ok run).1]
  · rintro id changes call after rfl run
    rw [(update_ok run).1]
  · rintro id call after rfl run
    rw [(remove_ok run).1]
  · exact fun now _ => rfl

theorem run_path (manifest : Manifest) (edits : List Edit) : (manifest.run edits).path = manifest.path := by
  induction edits generalizing manifest with
  | nil => rfl
  | cons edit rest ih => exact (ih _).trans (apply_path manifest edit)

/-! ### What loading gives -/

theorem Kept.toValue (kept : manifest.Kept) : manifest.toValue.Plain := by
  refine Value.plain_object (by simp) ?_
  simp only [List.forall_mem_cons]
  refine ⟨kept.version, kept.generated, ?_, by simp⟩
  exact .list (List.forall_mem_map.mpr fun call listed => (kept.calls call listed).toValue)

/-- The fields of the stored form. -/
def fields (manifest : Manifest) : List (String × Value) :=
  [("version", manifest.version), ("generated", manifest.generated),
    ("calls", .list (manifest.calls.map Call.toValue))]

/-- The stored form gives the manifest if it gives its calls. -/
theorem ofValue_toValue (kept : manifest.Kept) (path : Path) (now : Instant) :
    ofValue path now manifest.toValue =
      ((manifest.calls.map Call.toValue).mapM (Call.ofValue now)).map fun calls =>
        ⟨path, manifest.version, manifest.generated, calls⟩ := by
  have version : Call.given? (manifest.fields.map fun field => (.text field.1, field.2)) "version" =
      some manifest.version := (Call.given?_map rfl).trans (if_pos kept.versioned)
  have generated : Call.given? (manifest.fields.map fun field => (.text field.1, field.2)) "generated" =
      some manifest.generated := (Call.given?_map rfl).trans (if_pos kept.stamped)
  have calls : Keyed.field? (manifest.fields.map fun field => (.text field.1, field.2)) "calls" =
      some (.list (manifest.calls.map Call.toValue)) := Keyed.field?_map _ _
  change ofValue path now (.map (manifest.fields.map fun field => (.text field.1, field.2))) = _
  unfold ofValue
  simp only [Value.entries?, Option.getD_some, version, generated, calls]
  cases (manifest.calls.map Call.toValue).mapM (Call.ofValue now) <;> rfl

section File

variable {store : Store} {path : Path}

theorem save_of_writable (storable : manifest.toValue.Storable) (writable : store.Writable manifest.path) :
    ∃ after, manifest.save store = (after, .ok ()) ∧
      after.read manifest.path = .ok (manifest.storedText ++ ['\n']) := by
  obtain ⟨middle, made, each⟩ := writable
  obtain ⟨after, written⟩ := each (manifest.storedText ++ ['\n'])
  have finished : (Json.indented manifest.toValue).refusal = none := (Json.write_refusal _ _ _).mpr storable
  refine ⟨after, ?_, Store.read_write written⟩
  unfold save
  rw [storedText] at written
  simp only [made, finished, Option.isNone_none, if_true, written]

/-- The text of a manifest is read as its stored form, and its calls have to have an order. -/
theorem load_eq_ok (kept : manifest.Kept) (storable : manifest.toValue.Storable)
    (held : store.read path = .ok (manifest.storedText ++ ['\n'])) {later : Instant} {loaded : Manifest} :
    load store path true later = .ok loaded ↔
      ofValue path later manifest.toValue = .ok loaded ∧ ∃ ordered, loaded.order = .ok ordered := by
  have whole : Text.unifyBreaks (manifest.storedText ++ ['\n']) = manifest.storedText ++ ['\n'] :=
    Text.unifyBreaks_eq_self
      (List.not_mem_append (Json.return_not_mem_write .indented 0 manifest.toValue) (by decide))
  have read : Json.read (manifest.storedText ++ ['\n']) = .ok manifest.toValue :=
    Json.read_written .indented 0 kept.toValue storable (List.forall_mem_singleton.mpr rfl)
  unfold load
  rw [Store.holds_of_read held, held, if_neg (by simp), bind_eq_ok]
  constructor
  · rintro ⟨text, same, run⟩
    obtain rfl := Except.ok.inj same
    rw [whole, read] at run
    obtain ⟨other, given, run⟩ := bind_eq_ok.mp run
    obtain ⟨ordered, found, run⟩ := bind_eq_ok.mp run
    cases run
    exact ⟨given, ordered, found⟩
  · rintro ⟨given, ordered, found⟩
    refine ⟨_, rfl, ?_⟩
    rw [whole, read]
    exact bind_eq_ok.mpr ⟨loaded, given, bind_eq_ok.mpr ⟨ordered, found, rfl⟩⟩

end File

/-- A manifest comes back from its file: saving it succeeds, and loading that file with validation gives
the same version, stamp and calls, as they are stored. -/
def Reloads (manifest : Manifest) (store : Store) (later : Instant) : Prop :=
  ∃ after loaded, manifest.save store = (after, .ok ()) ∧
    load after manifest.path true later = .ok loaded ∧
    loaded.version = manifest.version ∧ loaded.generated = manifest.generated ∧
    loaded.calls.map Call.toValue = manifest.calls.map Call.toValue

/-- What can keep a manifest of texts and objects from being written is a parameter. -/
theorem storable_toValue_iff (plain : manifest.Plain) :
    manifest.toValue.Storable ↔ ∀ call ∈ manifest.calls, call.params.Storable := by
  have text {value : Value} (text : value.IsText) : value.Storable := by
    obtain ⟨text, rfl⟩ := text
    exact Value.storable_text text
  constructor
  · intro storable call listed
    have calls := (Value.storable_map.mp storable (.text "calls", .list (manifest.calls.map Call.toValue))
      (by simp)).2
    have here := Value.storable_list.mp calls call.toValue (List.mem_map_of_mem listed)
    exact (Value.storable_map.mp here (.text "params", call.params) (by simp)).2
  · intro params
    refine Storable.toValue ⟨text plain.version, text plain.generated, fun call listed => ?_⟩
    have here := plain.calls call listed
    refine ⟨text here.generator, params call listed, text here.outputPath, ?_⟩
    rcases here.generatorVersion with none | given
    · rw [none]
      exact Value.storable_null
    · exact text given

theorem reloads_iff {store : Store} (plain : manifest.Plain) (resolvable : Call.Resolvable manifest.calls)
    (writable : store.Writable manifest.path) (later : Instant) :
    manifest.Reloads store later ↔ ∀ call ∈ manifest.calls, call.Complete ∧ call.params.Storable := by
  constructor
  · rintro ⟨after, loaded, saved, run, _⟩
    have ending := save_saved manifest store
    rw [saved] at ending
    cases ending with
    | whole storable written =>
      obtain ⟨given, _⟩ := (load_eq_ok plain.kept storable written.read).mp run
      rw [ofValue_toValue plain.kept] at given
      obtain ⟨calls, each, _⟩ := map_eq_ok.mp given
      obtain ⟨complete, _⟩ := (Call.mapM_ofValue plain.kept.calls later).mp each
      exact fun call listed => ⟨complete call listed, (storable_toValue_iff plain).mp storable call listed⟩
  · intro each
    have storable := (storable_toValue_iff plain).mpr fun call listed => (each call listed).2
    obtain ⟨after, saved, held⟩ := save_of_writable storable writable
    have calls := (Call.mapM_ofValue plain.kept.calls later).mpr ⟨fun call listed => (each call listed).1, rfl⟩
    have given := ofValue_toValue plain.kept manifest.path later
    rw [calls] at given
    have ordered := (resolvable.map (fun _ => rfl) fun _ => rfl : Call.Resolvable (manifest.calls.map Call.stored)).order_succeeds
    refine ⟨after, _, saved, (load_eq_ok plain.kept storable held).mpr ⟨given, ordered⟩, rfl, rfl, ?_⟩
    rw [List.map_map]
    exact List.map_congr_left fun call _ => Call.toValue_stored call

/-- After edits with texts and objects, a manifest comes back from its file exactly when all that it
holds can be written and none of its calls lacks an id, a generator or an output path. No edit asks for
these: they may be empty, and the output path is when none is given. -/
theorem edited_reloads_iff (path : Path) (start : Instant) {edits : List Edit}
    (plain : ∀ edit ∈ edits, edit.Plain) {store : Store} (writable : store.Writable path) (later : Instant) :
    ((empty path start).run edits).Reloads store later ↔
      ∀ call ∈ ((empty path start).run edits).calls, call.Complete ∧ call.params.Storable := by
  have same : ((empty path start).run edits).path = path := run_path _ edits
  refine reloads_iff (run_plain (.empty path start) plain) (run_resolvable .nil edits) ?_ later
  rwa [same]

section Pair

/-- The directory that is worked in, with no files. -/
def bareStore : Store :=
  ⟨[], []⟩

/-- A file in that directory. -/
def pairPath : Path :=
  ⟨.relative, ["m.json"]⟩

/-- Two calls of which the second depends on the first, which gets other parameters then. -/
def pairEdits : List Edit :=
  [.add { id := "a", generator := .text "g", outputPath := .text "a.ts" } ⟨0⟩,
    .add { id := "b", generator := .text "g", outputPath := .text "b.ts", dependsOn := .list [.text "a"] } ⟨0⟩,
    .update "a" [("params", .object [("rate", .scalar (.float (.finite false 6755399441055744 (-52)))),
      ("names", .list [.text "\u00e9\n", .null])])]]

/-- A call without an output path. -/
def lackingEdits : List Edit :=
  [.add { id := "a", generator := .text "g" } ⟨0⟩]

theorem pairEdits_calls : ((empty pairPath ⟨0⟩).run pairEdits).calls =
    [⟨"a", .text "g", .object [("rate", .scalar (.float (.finite false 6755399441055744 (-52)))),
        ("names", .list [.text "\u00e9\n", .null])], .text "a.ts", [], (Instant.mk 0).text, .null⟩,
      ⟨"b", .text "g", .map [], .text "b.ts", ["a"], (Instant.mk 0).text, .null⟩] := by
  cbv

theorem lackingEdits_calls : ((empty pairPath ⟨0⟩).run lackingEdits).calls =
    [⟨"a", .text "g", .map [], .text "", [], (Instant.mk 0).text, .null⟩] := by
  cbv

/-- The two calls come back, and the call without an output path does not. -/
theorem edited_reloads_of_pair :
    (∀ edit ∈ pairEdits ++ lackingEdits, edit.Plain) ∧ bareStore.Writable pairPath ∧
      ((empty pairPath ⟨0⟩).run pairEdits).Reloads bareStore ⟨0⟩ ∧
      ¬ ((empty pairPath ⟨0⟩).run lackingEdits).Reloads bareStore ⟨0⟩ := by
  have rate : Binary64.Fits 6755399441055744 (-52) := ⟨by decide, by decide, by decide, .inl (by decide)⟩
  have params : (Value.object [("rate", .scalar (.float (.finite false 6755399441055744 (-52)))),
      ("names", .list [.text "\u00e9\n", .null])]).Plain := by
    refine Value.plain_object (by decide) ?_
    simp only [List.forall_mem_cons, List.not_mem_nil, false_implies, implies_true, and_true]
    refine ⟨.scalar rate, .list ?_⟩
    simp only [List.forall_mem_cons, List.not_mem_nil, false_implies, implies_true, and_true]
    exact ⟨.scalar trivial, .scalar trivial⟩
  have plain : ∀ edit ∈ pairEdits ++ lackingEdits, edit.Plain := by
    have vacant : (Value.map []).IsObject := ⟨[], rfl, .map (by simp) (by simp) (by simp)⟩
    simp only [pairEdits, lackingEdits, List.cons_append, List.nil_append, List.forall_mem_cons]
    refine ⟨⟨⟨_, rfl⟩, .inr vacant, ⟨_, rfl⟩, .inl rfl⟩, ⟨⟨_, rfl⟩, .inr vacant, ⟨_, rfl⟩, .inl rfl⟩, ?_,
      ⟨⟨_, rfl⟩, .inr vacant, ⟨_, rfl⟩, .inl rfl⟩, by simp⟩
    refine List.forall_mem_singleton.mpr ⟨fun named => ?_, fun _ => ⟨_, rfl, params⟩, fun named => ?_⟩
    · exact absurd named (by decide)
    · exact absurd named (by decide)
  have writable : bareStore.Writable pairPath := ⟨bareStore, rfl, fun text => ⟨_, rfl⟩⟩
  obtain ⟨pair, lacking⟩ := List.forall_mem_append.mp plain
  refine ⟨plain, writable, (edited_reloads_iff _ _ pair writable _).mpr ?_, fun reloads => ?_⟩
  · rw [pairEdits_calls]
    simp only [List.forall_mem_cons]
    refine ⟨⟨⟨by decide, by simp, by simp⟩, ?_⟩, ⟨⟨by decide, by simp, by simp⟩, .map (by simp) (by simp)⟩, by simp⟩
    refine Value.storable_object ?_
    simp only [List.forall_mem_cons]
    exact ⟨.scalar trivial, .list (by simp [Value.storable_scalar, Scalar.Storable]), by simp⟩
  · have complete := (edited_reloads_iff _ _ lacking writable _).mp reloads
    rw [lackingEdits_calls] at complete
    exact (complete _ List.mem_cons_self).1.outputPath rfl

end Pair

end Manifest

end Scaffold
