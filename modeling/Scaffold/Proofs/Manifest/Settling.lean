import Scaffold.Proofs.Manifest.Reload
import Scaffold.Proofs.Store.Tree

/-!
Loading a manifest of any form and saving it. Loading brings every call into the form that is stored: its
texts are texts from then on, what is left out is filled in, and a repeated dependency is dropped. So the
manifest comes back from the file that it is saved to, and from then on saving and loading change nothing.
-/

namespace Scaffold

variable {now : Instant} {value : Value} {call : Call}

/-! ### What loading gives -/

theorem layout_ne_nil (digits : List Char) (leading : Int) : Binary64.layout digits leading ≠ [] := by
  unfold Binary64.layout
  split
  · split
    · simp
    · dsimp only
      split <;> simp
  · simp

/-- What counts as true has a text. -/
theorem Value.string_ne_empty (filled : value.truthy = true) : value.string ≠ "" := by
  have shown : value.shown ≠ [] := by
    cases value with
    | list items => simp [Value.shown, Value.shownInside]
    | map entries => simp [Value.shown, Value.shownInside]
    | scalar value =>
      cases value with
      | null => cases filled
      | bool value =>
        cases value with
        | false => cases filled
        | true => simp [Value.shown, Scalar.shown]
      | int value =>
        cases value with
        | ofNat n => exact Nat.toDigits_ne_nil
        | negSucc n => exact List.cons_ne_nil _ _
      | float value =>
        cases value with
        | notANumber => simp [Value.shown, Scalar.shown, Binary64.text]
        | infinite negative => cases negative <;> simp [Value.shown, Scalar.shown, Binary64.text]
        | finite negative mantissa exponent =>
          have nonzero : mantissa ≠ 0 := by simpa [Value.truthy, Scalar.truthy, Binary64.isZero] using filled
          simp only [Value.shown, Scalar.shown, Binary64.text, if_neg nonzero]
          exact List.append_ne_nil_of_right_ne_nil _ (layout_ne_nil _ _)
      | text value =>
        have nonempty : value ≠ "" := by simpa [Value.truthy, Scalar.truthy] using filled
        simpa [Value.shown, Scalar.shown] using nonempty
      | date year month day => simp [Value.shown, Scalar.shown]
  intro same
  have letters := congrArg String.toList same
  rw [Value.string, String.toList_ofList] at letters
  exact shown letters

section Records

variable {record : Record} {name : String} {found : Value}

theorem plain_of_field? (plain : (Value.map record).Plain) (there : Keyed.field? record name = some found) :
    found.Plain := by
  obtain ⟨entry, first, rfl⟩ := Option.map_eq_some_iff.mp there
  cases plain with
  | map keys distinct each => exact each entry (List.mem_of_find?_eq_some first)

theorem given?_eq_some : Call.given? record name = some found ↔
    Keyed.field? record name = some found ∧ found.truthy = true :=
  Option.filter_eq_some_iff

end Records

namespace Call

theorem string_ne_empty {record : Record} {name : String} (given : (given? record name).isSome = true) :
    ((given? record name).getD .null).string ≠ "" := by
  obtain ⟨found, there⟩ := Option.isSome_iff_exists.mp given
  rw [there]
  exact Value.string_ne_empty (given?_eq_some.mp there).2

/-- A call that is read off a value of JSON can be given back, and nothing that it must have is empty. -/
theorem kept_of_ofValue (plain : value.Plain) (run : ofValue now value = .ok call) :
    call.Kept ∧ call.Complete := by
  unfold ofValue at run
  split at run
  · next record =>
    extract_lets missing unnamed text id at run
    by_cases lacking : (!missing.isEmpty) = true
    · rw [if_pos lacking] at run
      cases run
    · rw [if_neg lacking] at run
      have given : ∀ name ∈ requiredMembers, text name ≠ "" := by
        intro name required
        have none : missing = [] := by simpa using lacking
        have present := List.filter_eq_nil_iff.mp none name required
        exact string_ne_empty (Option.isSome_iff_ne_none.mpr (by simpa using present))
      split at run
      · next params held =>
        split at run
        · next dependencies listed =>
          cases run
          refine ⟨⟨⟨_, rfl⟩, ⟨params, rfl, ?_⟩, ⟨_, rfl⟩, nodup_eraseDups _, ?_, ?_⟩, ?_⟩
          -- in turn: parameters, the time, the version, and the members that a call must have
          · rw [← held]
            cases there : given? record "params" with
            | none => exact .map (by simp) (by simp) (by simp)
            | some found => exact plain_of_field? plain (given?_eq_some.mp there).1
          · dsimp only
            cases there : given? record "createdAt" with
            | none => exact Manifest.text_ne_empty now
            | some found => exact Value.string_ne_empty (given?_eq_some.mp there).2
          · dsimp only
            cases there : Keyed.field? record "generatorVersion" with
            | none => exact .scalar trivial
            | some found => exact plain_of_field? plain there
          · have required := given
            simp only [requiredMembers, List.forall_mem_cons] at required
            exact ⟨required.1, fun same => required.2.1 (by simpa using same),
              fun same => required.2.2.1 (by simpa using same)⟩
        · cases run
      · cases run
  · cases run

end Call

namespace Manifest

variable {manifest : Manifest} {store : Store} {path : Path} {text : List Char}

/-- A manifest that is read off a value of JSON can be given back. -/
theorem kept_of_ofValue (plain : value.Plain) (run : ofValue path now value = .ok manifest) :
    manifest.Kept ∧ (∀ call ∈ manifest.calls, call.Complete) ∧ manifest.path = path := by
  unfold ofValue at run
  dsimp only at run
  split at run
  · next version generated entries versioned stamped listed =>
    obtain ⟨calls, each, run⟩ := bind_eq_ok.mp run
    cases run
    have record : (Value.map (value.entries?.getD [])).Plain := by
      cases value with
      | map entries => exact plain
      | _ => exact .map (by simp [Value.entries?]) (by simp [Value.entries?]) (by simp [Value.entries?])
    have versioned := given?_eq_some.mp versioned
    have stamped := given?_eq_some.mp stamped
    have every : ∀ call ∈ calls, call.Kept ∧ call.Complete := by
      intro call inside
      obtain ⟨entry, among, read⟩ := exists_of_mem_mapM each inside
      cases plain_of_field? record listed with
      | list items => exact Call.kept_of_ofValue (items entry among) read
    exact ⟨⟨plain_of_field? record versioned.1, versioned.2, plain_of_field? record stamped.1, stamped.2,
      fun call inside => (every call inside).1⟩, fun call inside => (every call inside).2, rfl⟩
  · cases run

/-- What a file gives: the manifest that its text says. -/
theorem ofValue_of_load {validate : Bool} (there : store.holds path = true)
    (run : load store path validate now = .ok manifest) :
    ∃ text value, store.read path = .ok text ∧ Json.read (Text.unifyBreaks text) = .ok value ∧
      ofValue path now value = .ok manifest := by
  unfold load at run
  rw [there, if_neg (by simp)] at run
  obtain ⟨text, held, run⟩ := bind_eq_ok.mp run
  split at run
  · cases run
  · cases run
  · next value said =>
    obtain ⟨loaded, valued, run⟩ := bind_eq_ok.mp run
    split at run
    · obtain ⟨_, _, run⟩ := bind_eq_ok.mp run
      cases run
      exact ⟨text, value, held, said, valued⟩
    · cases run
      exact ⟨text, value, held, said, valued⟩

/-! ### Saving it and loading it again -/

theorem names_ne_nil_of_read (standing : store.node? store.here = some .directory)
    (held : store.read path = .ok text) : path.names ≠ [] := by
  intro vacant
  obtain ⟨key, placed, there⟩ := Store.read_eq_ok.mp held
  rw [Store.place, vacant] at placed
  cases placed
  split at there
  · rw [standing] at there
    cases there
  · cases there

/-- Where a file is there is room for its text. -/
theorem writable_of_read (named : path.names ≠ []) (held : store.read path = .ok text) : store.Writable path := by
  refine ⟨store, ?_, Store.write_of_read held⟩
  obtain ⟨key, placed, _⟩ := Store.read_eq_ok.mp held
  obtain ⟨front, name, split⟩ := List.eq_nil_or_concat path.names |>.resolve_left named
  rw [Store.place, split, List.concat_eq_append, List.foldlM_append] at placed
  obtain ⟨above, led, stepped⟩ := bind_eq_ok.mp placed
  rw [List.foldlM_cons] at stepped
  obtain ⟨_, stepped, _⟩ := bind_eq_ok.mp stepped
  have directory := (Store.step_eq_ok.mp stepped).1
  have parent : store.place path.parent = .ok above := by
    rw [Path.parent, Store.place, split, List.concat_eq_append, List.dropLast_concat]
    exact led
  unfold Store.makeDirectories
  cases path.parent.names.length with
  | zero => simp only [Store.makeDirectoriesUpTo, Store.makeDirectory, parent, directory]
  | succ levels => simp only [Store.makeDirectoriesUpTo, Store.makeDirectory, parent, directory]

/-- The manifest that the stored form gives. -/
def stored (manifest : Manifest) : Manifest :=
  { manifest with calls := manifest.calls.map Call.stored }

theorem toValue_stored (manifest : Manifest) : manifest.stored.toValue = manifest.toValue := by
  have calls : (manifest.calls.map Call.stored).map Call.toValue = manifest.calls.map Call.toValue := by
    rw [List.map_map]
    exact List.map_congr_left fun call _ => Call.toValue_stored call
  rw [toValue, toValue, stored, calls]

/-- A manifest that can be given back is saved, and its file gives the stored form. -/
theorem Kept.reload (kept : manifest.Kept) (complete : ∀ call ∈ manifest.calls, call.Complete)
    (storable : manifest.toValue.Storable) (writable : store.Writable manifest.path) {ordered : List Call}
    (order : manifest.order = .ok ordered) :
    ∃ after, manifest.save store = (after, .ok ()) ∧
      after.read manifest.path = .ok (manifest.storedText ++ ['\n']) ∧
      manifest.stored.order = .ok (ordered.map Call.stored) ∧
      ∀ later, load after manifest.path true later = .ok manifest.stored := by
  obtain ⟨after, saved, held⟩ := save_of_writable storable writable
  have again : manifest.stored.order = .ok (ordered.map Call.stored) := by
    have mapped := @Call.order_map Call.stored (fun _ => rfl) (fun _ => rfl) manifest.calls
    rw [← Manifest.order, order] at mapped
    exact mapped
  refine ⟨after, saved, held, again, fun later => (load_eq_ok kept storable held).mpr ⟨?_, _, again⟩⟩
  rw [ofValue_toValue kept, (Call.mapM_ofValue kept.calls later).mpr ⟨complete, rfl⟩]
  rfl

theorem stored_kept (kept : manifest.Kept) : manifest.stored.Kept where
  version := kept.version
  versioned := kept.versioned
  generated := kept.generated
  stamped := kept.stamped
  calls := List.forall_mem_map.mpr fun call listed => by
    have here := kept.calls call listed
    refine ⟨here.generator, here.params, here.outputPath, here.distinct, here.createdAt, ?_⟩
    unfold Call.stored
    dsimp only
    split
    · exact here.generatorVersion
    · exact .scalar trivial

theorem stored_stored (manifest : Manifest) : manifest.stored.stored = manifest.stored := by
  have again (call : Call) : call.stored.stored = call.stored := by
    have none : Value.null.truthy = false := rfl
    cases given : call.generatorVersion.truthy <;> simp [Call.stored, given, none]
  rw [stored, stored, List.map_map]
  congr 1
  exact List.map_congr_left fun call _ => again call

/-- Whatever manifest a file gives when its calls are checked, it is saved to that file, and the file then
gives a manifest with the same version and stamp, calls of the same stored forms in the same order, and the
same order of execution. That one is saved as the same text, and is given back as it is. -/
theorem loaded_settles {store : Store} {path : Path} {now : Instant} {manifest : Manifest}
    (standing : store.node? store.here = some .directory) (there : store.holds path = true)
    (loaded : load store path true now = .ok manifest) (later : Instant) :
    ∃ saved again text, manifest.save store = (saved, .ok ()) ∧ saved.read path = .ok text ∧
      load saved path true later = .ok again ∧
      again.version = manifest.version ∧ again.generated = manifest.generated ∧
      again.calls.map Call.toValue = manifest.calls.map Call.toValue ∧
      (∃ ordered orderedAgain, manifest.order = .ok ordered ∧ again.order = .ok orderedAgain ∧
        orderedAgain.map Call.toValue = ordered.map Call.toValue) ∧
      ∃ last, again.save saved = (last, .ok ()) ∧ last.read path = .ok text ∧
        ∀ latest, load last path true latest = .ok again := by
  obtain ⟨_, _, held, said, valued⟩ := ofValue_of_load there loaded
  obtain ⟨kept, complete, rfl⟩ := kept_of_ofValue (Json.read_plain said) valued
  have storable := (load_storable loaded).toValue
  have named := names_ne_nil_of_read standing held
  obtain ⟨ordered, order⟩ := (load_resolvable loaded).order_succeeds
  obtain ⟨saved, save, wrote, orderAgain, reload⟩ :=
    kept.reload complete storable (writable_of_read named held) order
  have completeAgain : ∀ call ∈ manifest.stored.calls, call.Complete :=
    List.forall_mem_map.mpr fun call listed =>
      ⟨(complete call listed).id, (complete call listed).generator, (complete call listed).outputPath⟩
  have storableAgain : manifest.stored.toValue.Storable := by rwa [toValue_stored]
  obtain ⟨last, saveAgain, wroteAgain, _, reloadAgain⟩ :=
    (stored_kept kept).reload completeAgain storableAgain (writable_of_read named wrote) orderAgain
  refine ⟨saved, manifest.stored, _, save, wrote, reload later, rfl, rfl, ?_, ?_, last, saveAgain, ?_, ?_⟩
  · rw [stored, List.map_map]
    exact List.map_congr_left fun call _ => Call.toValue_stored call
  · refine ⟨ordered, _, order, orderAgain, ?_⟩
    rw [List.map_map]
    exact List.map_congr_left fun call _ => Call.toValue_stored call
  · rw [storedText, toValue_stored] at wroteAgain
    exact wroteAgain
  · rw [stored_stored] at reloadAgain
    exact reloadAgain

section Mixed

/-- The first call has no texts, one dependency twice, and a version that counts as false. -/
def mixedValue : Value :=
  .object [("version", .int 1), ("generated", .list [.bool true]), ("calls", .list [
    .object [("id", .bool true), ("generator", .bool true), ("outputPath", .bool true),
      ("dependsOn", .list [.text "b", .text "b"]), ("generatorVersion", .int 0)],
    .object [("id", .text "b"), ("generator", .text "g"), ("outputPath", .text "b.ts"),
      ("params", .object [("n", .int 100)])]])]

/-- The working directory, with the file of a manifest in it. -/
def mixedStore : Store :=
  ⟨[(["m.json"], .file (.text (Json.indented mixedValue).text))], []⟩

def mixedPath : Path :=
  ⟨.relative, ["m.json"]⟩

def mixedManifest : Manifest :=
  ⟨mixedPath, .int 1, .list [.bool true],
    [⟨"True", .text "True", .map [], .text "True", ["b"], (Instant.mk 0).text, .int 0⟩,
      ⟨"b", .text "g", .map [(.text "n", .int 100)], .text "b.ts", [], (Instant.mk 0).text, .null⟩]⟩

theorem mixedValue_plain : mixedValue.Plain := by
  have leaf {form : Scalar} (plain : form.Plain) : (Value.scalar form).Plain := .scalar plain
  have one {value : Value} (plain : value.Plain) : (Value.list [value]).Plain :=
    .list (List.forall_mem_singleton.mpr plain)
  refine Value.plain_object (by decide) ?_
  simp only [List.forall_mem_cons]
  refine ⟨leaf trivial, one (leaf trivial), .list ?_, by simp⟩
  simp only [List.forall_mem_cons]
  refine ⟨Value.plain_object (by decide) ?_, Value.plain_object (by decide) ?_, by simp⟩
  · simp only [List.forall_mem_cons]
    refine ⟨leaf trivial, leaf trivial, leaf trivial, .list ?_, leaf trivial, by simp⟩
    simpa using Value.plain_text "b"
  · simp only [List.forall_mem_cons]
    exact ⟨leaf trivial, leaf trivial, leaf trivial,
      Value.plain_object (by decide) (List.forall_mem_singleton.mpr (leaf trivial)), by simp⟩

theorem mixedValue_storable : mixedValue.Storable := by
  have short {n : Nat} (small : n < 10 ^ 3) : n < 10 ^ Json.digitLimit :=
    small.trans_le (Nat.pow_le_pow_right (by decide) (by decide))
  simp only [mixedValue, Value.object, List.map_cons, List.map_nil, Value.storable_map, Value.storable_list,
    List.forall_mem_cons, Scalar.Storable, Value.storable_text]
  simp [Value.storable_scalar, Scalar.Storable, short]

theorem load_mixed : load mixedStore mixedPath true ⟨0⟩ = .ok mixedManifest := by
  have read : Json.read ((Json.indented mixedValue).text ++ []) = .ok mixedValue :=
    Json.read_written .indented 0 mixedValue_plain mixedValue_storable (by simp)
  rw [List.append_nil] at read
  have whole : Text.unifyBreaks (Json.indented mixedValue).text = (Json.indented mixedValue).text :=
    Text.unifyBreaks_eq_self (Json.return_not_mem_write .indented 0 mixedValue)
  have held : mixedStore.read mixedPath = .ok (Json.indented mixedValue).text :=
    Store.read_eq_ok.mpr ⟨["m.json"], rfl, rfl⟩
  have given : ofValue mixedPath ⟨0⟩ mixedValue = .ok mixedManifest := by cbv
  have order : mixedManifest.order = .ok mixedManifest.calls.reverse := by cbv
  unfold load
  rw [Store.holds_of_read held, held, if_neg (by simp)]
  refine bind_eq_ok.mpr ⟨_, rfl, ?_⟩
  rw [whole, read]
  exact bind_eq_ok.mpr ⟨_, given, bind_eq_ok.mpr ⟨_, order, rfl⟩⟩

/-- The manifest is saved with texts, and saved again as it was. -/
theorem loaded_settles_of_mixed :
    mixedStore.node? mixedStore.here = some .directory ∧ mixedStore.holds mixedPath = true ∧
      load mixedStore mixedPath true ⟨0⟩ = .ok mixedManifest ∧
      ∃ saved again text, mixedManifest.save mixedStore = (saved, .ok ()) ∧ saved.read mixedPath = .ok text ∧
        load saved mixedPath true ⟨60⟩ = .ok again ∧
        again.version = .int 1 ∧ again.generated = .list [.bool true] ∧
        again.calls.map Call.toValue = mixedManifest.calls.map Call.toValue ∧
        (∃ ordered orderedAgain, mixedManifest.order = .ok ordered ∧ again.order = .ok orderedAgain ∧
          orderedAgain.map Call.toValue = ordered.map Call.toValue) ∧
        ∃ last, again.save saved = (last, .ok ()) ∧ last.read mixedPath = .ok text ∧
          ∀ latest, load last mixedPath true latest = .ok again :=
  ⟨rfl, rfl, load_mixed, loaded_settles rfl rfl load_mixed ⟨60⟩⟩

end Mixed

end Manifest

end Scaffold
