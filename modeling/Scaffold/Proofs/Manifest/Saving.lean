import Scaffold.Manifest
import Scaffold.Proofs.Json.Storable
import Scaffold.Proofs.Store.Failures
import Scaffold.Proofs.Store.Growth

/-!
Saving a manifest. Its file is opened before it is known whether all of the manifest can be written, so
that a value without a JSON form leaves the file cut short. Everything else that can fail leaves all
files as they are, and whatever has been loaded can be saved again.
-/

namespace Scaffold

/-- What can be set in a call has a JSON form. -/
structure Call.Storable (call : Call) : Prop where
  generator : call.generator.Storable
  params : call.params.Storable
  outputPath : call.outputPath.Storable
  generatorVersion : call.generatorVersion.Storable

theorem Call.Storable.toValue {call : Call} (storable : call.Storable) : call.toValue.Storable := by
  refine Value.storable_object ?_
  simp only [List.forall_mem_append, List.forall_mem_cons]
  refine ⟨⟨⟨Value.storable_text _, storable.generator, storable.params, storable.outputPath,
    Value.storable_text _, by simp⟩, ?_⟩, ?_⟩
  · split
    · simpa using storable.generatorVersion
    · simp
  · split
    · simp
    · simpa using Value.storable_list.mpr
        (List.forall_mem_map.mpr fun id _ => Value.storable_text id)

namespace Manifest

/-- What a manifest holds has a JSON form. -/
structure Storable (manifest : Manifest) : Prop where
  version : manifest.version.Storable
  generated : manifest.generated.Storable
  calls : ∀ call ∈ manifest.calls, call.Storable

variable {manifest : Manifest} {store after : Store} {path : Path} {error : Error}

theorem Storable.toValue (storable : manifest.Storable) : manifest.toValue.Storable := by
  refine Value.storable_object ?_
  simp only [List.forall_mem_cons]
  refine ⟨storable.version, storable.generated, ?_, by simp⟩
  exact Value.storable_list.mpr (List.forall_mem_map.mpr fun call listed =>
    (storable.calls call listed).toValue)

/-! ### What saving leaves -/

/-- The text of a manifest, up to the first value without a JSON form. -/
def storedText (manifest : Manifest) : List Char :=
  (Json.indented manifest.toValue).text

/-- A store holds a text in the file of a path, and other files as another store does. -/
structure Rewritten (before : Store) (path : Path) (text : List Char) (after : Store) : Prop where
  read : after.read path = .ok text
  others : ∃ key, after.place path = .ok key ∧ ∀ other content, other ≠ key →
    (after.node? other = some (.file content) ↔ before.node? other = some (.file content))

/-- How saving a manifest ends, and the files that it leaves. -/
inductive Saved (manifest : Manifest) (before : Store) : Store × Except Error Unit → Prop
  | whole {after : Store} (storable : manifest.toValue.Storable)
      (written : Rewritten before manifest.path (manifest.storedText ++ ['\n']) after) :
      Saved manifest before (after, .ok ())
  /-- The file cannot be written, and all files are as before. -/
  | refused {after : Store} {error : Error} (cause : Store.Refused error)
      (spared : before.SameFiles after) : Saved manifest before (after, .error error)
  /-- Some value has no JSON form; the file holds what stands before it. -/
  | cutShort {after : Store} {refusal : Json.Refusal} (unstorable : ¬ manifest.toValue.Storable)
      (written : Rewritten before manifest.path manifest.storedText after) :
      Saved manifest before (after, .error (refusalError refusal))

theorem rewritten_of_write {middle : Store} {text : List Char} (grown : store.Furnished middle)
    (run : middle.write path text = .ok after) : Rewritten store path text after := by
  obtain ⟨key, placed, vacant, rfl⟩ := Store.write_eq_ok run
  refine ⟨Store.read_write run, key, Store.foldlM_step_set vacant placed, ?_⟩
  intro other content apart
  rw [Store.node?_set (Store.isEmpty_of_not_directory vacant), if_neg apart]
  exact grown.sameFiles other content

theorem save_saved (manifest : Manifest) (store : Store) : Saved manifest store (manifest.save store) := by
  unfold save
  split
  · next error failed => exact .refused (Store.makeDirectories_fails _ _ _ failed) (.refl store)
  · next middle made =>
    have grown := Store.makeDirectories_furnished made
    dsimp only
    split
    · next error failed => exact .refused (Store.write_fails _ _ _ _ failed) grown.sameFiles
    · next after written =>
      have wrote := rewritten_of_write grown written
      have whole := Json.write_refusal .indented 0 manifest.toValue
      rw [← Json.indented] at whole
      split
      · next refusal stopped =>
        rw [stopped] at wrote whole
        refine .cutShort (fun storable => by cases whole.mpr storable) ?_
        simpa [storedText] using wrote
      · next finished =>
        rw [finished] at wrote
        exact .whole (whole.mp finished) wrote

/-! ### What loading gives -/

theorem storable_of_field? {record : Record} {name : String} {value : Value}
    (storable : (Value.map record).Storable) (found : Keyed.field? record name = some value) :
    value.Storable := by
  obtain ⟨entry, first, rfl⟩ := Option.map_eq_some_iff.mp found
  exact (Value.storable_map.mp storable entry (List.mem_of_find?_eq_some first)).2

theorem storable_of_given? {record : Record} {name : String} {value : Value}
    (storable : (Value.map record).Storable) (found : Call.given? record name = some value) :
    value.Storable :=
  storable_of_field? storable (Option.filter_eq_some_iff.mp found).1

theorem storable_getD {found : Option Value} {other : Value} (each : ∀ value, found = some value → value.Storable)
    (storable : other.Storable) : (found.getD other).Storable := by
  cases found with
  | none => exact storable
  | some value => exact each value rfl

theorem call_storable {now : Instant} {value : Value} {call : Call} (storable : value.Storable)
    (run : Call.ofValue now value = .ok call) : call.Storable := by
  unfold Call.ofValue at run
  split at run
  · next record =>
    extract_lets missing text at run
    by_cases lacking : (!missing.isEmpty) = true
    · rw [if_pos lacking] at run
      cases run
    · rw [if_neg lacking] at run
      split at run
      · next params held =>
        split at run
        · cases run
          refine ⟨Value.storable_text _, ?_, Value.storable_text _, ?_⟩
          · rw [← held]
            exact storable_getD (fun _ => storable_of_given? storable) (.map (by simp) (by simp))
          · exact storable_getD (fun _ => storable_of_field? storable) Value.storable_null
        · cases run
      · cases run
  · cases run

theorem ofValue_storable {now : Instant} {value : Value} (storable : value.Storable)
    (run : ofValue path now value = .ok manifest) : manifest.Storable := by
  unfold ofValue at run
  dsimp only at run
  split at run
  · next version generated entries versioned stamped listed =>
    obtain ⟨calls, each, run⟩ := bind_eq_ok.mp run
    cases run
    have record : (Value.map (value.entries?.getD [])).Storable := by
      cases value with
      | map entries => exact storable
      | _ => exact .map (by simp [Value.entries?]) (by simp [Value.entries?])
    refine ⟨storable_of_given? record versioned, storable_of_given? record stamped, ?_⟩
    intro call inside
    have items := Value.storable_list.mp (storable_of_field? record listed)
    obtain ⟨entry, among, read⟩ := exists_of_mem_mapM each inside
    exact call_storable (items entry among) read
  · cases run

/-- What has been loaded can be saved. -/
theorem load_storable {validate : Bool} {now : Instant}
    (run : load store path validate now = .ok manifest) : manifest.Storable := by
  unfold load at run
  split at run
  · cases run
    exact ⟨Value.storable_text _, Value.storable_text _, by simp [empty]⟩
  · obtain ⟨text, _, run⟩ := bind_eq_ok.mp run
    split at run
    · cases run
    · cases run
    · next value said =>
      obtain ⟨loaded, valued, run⟩ := bind_eq_ok.mp run
      have storable := ofValue_storable (Json.read_storable said) valued
      split at run
      · obtain ⟨_, _, run⟩ := bind_eq_ok.mp run
        cases run
        exact storable
      · cases run
        exact storable

end Manifest

end Scaffold
