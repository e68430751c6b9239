import Scaffold.Call.Basic
import Scaffold.Proofs.Json.RoundTrip

/-!
The stored form of a call. It gives the call back, except for an empty version, when the call has an id,
a generator and an output path; no other call is read from its stored form.
-/

namespace Scaffold

def Value.IsText (value : Value) : Prop :=
  ∃ text, value = .text text

/-- A value that is an object of JSON. -/
def Value.IsObject (value : Value) : Prop :=
  ∃ entries, value = .map entries ∧ value.Plain

theorem Value.IsText.plain {value : Value} (text : value.IsText) : value.Plain := by
  obtain ⟨text, rfl⟩ := text
  exact Value.plain_text text

namespace Call

/-- A call made of texts and of an object for its parameters. -/
structure Plain (call : Call) : Prop where
  generator : call.generator.IsText
  params : call.params.IsObject
  outputPath : call.outputPath.IsText
  distinct : call.dependsOn.Nodup
  createdAt : call.createdAt ≠ ""
  generatorVersion : call.generatorVersion = .null ∨ call.generatorVersion.IsText

/-- A call that its stored form can give back: texts, an object for its parameters, and any value of JSON
for its version. -/
structure Kept (call : Call) : Prop where
  generator : call.generator.IsText
  params : call.params.IsObject
  outputPath : call.outputPath.IsText
  distinct : call.dependsOn.Nodup
  createdAt : call.createdAt ≠ ""
  generatorVersion : call.generatorVersion.Plain

theorem Plain.kept {call : Call} (plain : call.Plain) : call.Kept where
  generator := plain.generator
  params := plain.params
  outputPath := plain.outputPath
  distinct := plain.distinct
  createdAt := plain.createdAt
  generatorVersion := by
    rcases plain.generatorVersion with none | text
    · rw [none]
      exact .scalar trivial
    · exact text.plain

/-- None of what a stored call must have is empty. -/
structure Complete (call : Call) : Prop where
  id : call.id ≠ ""
  generator : call.generator ≠ .text ""
  outputPath : call.outputPath ≠ .text ""

/-- The call that the stored form gives: an empty version is not stored. -/
def stored (call : Call) : Call :=
  { call with generatorVersion := if call.generatorVersion.truthy then call.generatorVersion else .null }

theorem toValue_stored (call : Call) : call.stored.toValue = call.toValue := by
  have none : Value.null.truthy = false := rfl
  cases given : call.generatorVersion.truthy <;> simp [stored, toValue, given, none]

/-- The fields of the stored form. -/
def fields (call : Call) : List (String × Value) :=
  [("id", .text call.id), ("generator", call.generator), ("params", call.params),
    ("outputPath", call.outputPath), ("createdAt", .text call.createdAt)] ++
  (if call.generatorVersion.truthy then [("generatorVersion", call.generatorVersion)] else []) ++
  (if call.dependsOn.isEmpty then [] else [("dependsOn", .list (call.dependsOn.map .text))])

theorem Kept.toValue {call : Call} (kept : call.Kept) : call.toValue.Plain := by
  obtain ⟨_, _, params⟩ := kept.params
  refine Value.plain_object ?_ ?_
  · split <;> split <;> simp
  · simp only [List.forall_mem_append, List.forall_mem_cons]
    refine ⟨⟨⟨Value.plain_text _, kept.generator.plain, params, kept.outputPath.plain,
      Value.plain_text _, by simp⟩, ?_⟩, ?_⟩
    · split
      · simpa using kept.generatorVersion
      · simp
    · split
      · simp
      · simpa using Value.Plain.list (List.forall_mem_map.mpr fun id _ => Value.plain_text id)

theorem truthy_text {text : String} : (Value.text text).truthy = (text != "") :=
  rfl

theorem truthy_iff {value : Value} (text : value.IsText) : value.truthy = true ↔ value ≠ .text "" := by
  obtain ⟨text, rfl⟩ := text
  simp [truthy_text]

section Given

variable {fields : List (String × Value)} {name : String} {value : Value}
  (listed : fields.lookup name = some value)

include listed

theorem given?_map : given? (fields.map fun field => (.text field.1, field.2)) name =
    if value.truthy then some value else none := by
  rw [given?, Keyed.field?_map, listed, Option.filter_some]

theorem given?_text (text : value.IsText) (filled : value ≠ .text "") :
    given? (fields.map fun field => (.text field.1, field.2)) name = some value := by
  rw [given?_map listed, if_pos ((truthy_iff text).mpr filled)]

end Given

section Fields

variable {call : Call} {name : String} {value : Value}

/-- The record of the stored form. -/
def record (call : Call) : Record :=
  call.fields.map fun field => (.text field.1, field.2)

theorem field?_record : Keyed.field? call.record name = call.fields.lookup name :=
  Keyed.field?_map _ _

theorem given?_record (listed : call.fields.lookup name = some value) :
    given? call.record name = if value.truthy then some value else none :=
  given?_map listed

theorem lookup_version : call.fields.lookup "generatorVersion" =
    if call.generatorVersion.truthy then some call.generatorVersion else none := by
  unfold fields
  split <;> split <;> simp [List.lookup_cons]

theorem lookup_dependsOn : call.fields.lookup "dependsOn" =
    if call.dependsOn.isEmpty then none else some (.list (call.dependsOn.map .text)) := by
  unfold fields
  split <;> split <;> simp [List.lookup_cons]

/-- The stored form has all that is required of it exactly when none of that is empty. -/
theorem nothing_missing_iff (kept : call.Kept) :
    (requiredMembers.filter fun name => (given? call.record name).isNone) = [] ↔ call.Complete := by
  have found {name : String} {value : Value} (listed : call.fields.lookup name = some value) :
      (given? call.record name).isNone = false ↔ value.truthy = true := by
    rw [given?_record listed]
    cases value.truthy <;> simp
  have id := found (rfl : call.fields.lookup "id" = some (.text call.id))
  have generator := found (rfl : call.fields.lookup "generator" = some call.generator)
  have outputPath := found (rfl : call.fields.lookup "outputPath" = some call.outputPath)
  rw [truthy_text, bne_iff_ne] at id
  rw [truthy_iff kept.generator] at generator
  rw [truthy_iff kept.outputPath] at outputPath
  simp only [requiredMembers, List.filter_eq_nil_iff, List.forall_mem_cons, Bool.not_eq_true, id, generator,
    outputPath]
  exact ⟨fun all => ⟨all.1, all.2.1, all.2.2.1⟩, fun whole => ⟨whole.id, whole.generator, whole.outputPath, by simp⟩⟩

theorem given?_params (kept : call.Kept) : (given? call.record "params").getD (.map []) = call.params := by
  obtain ⟨entries, recorded, _⟩ := kept.params
  have listed : call.fields.lookup "params" = some call.params := rfl
  rw [given?_record listed, recorded]
  cases entries <;> rfl

theorem given?_dependsOn :
    (given? call.record "dependsOn").getD (.list []) = .list (call.dependsOn.map .text) := by
  rw [given?, field?_record, lookup_dependsOn]
  cases call.dependsOn <;> rfl

end Fields

theorem string_text (text : String) : (Value.text text).string = text :=
  String.ofList_toList

/-- A call comes back from its stored form when nothing that it must have is empty. -/
theorem ofValue_toValue {call : Call} (kept : call.Kept) (complete : call.Complete) (now : Instant) :
    ofValue now call.toValue = .ok call.stored := by
  obtain ⟨generator, generated⟩ := kept.generator
  obtain ⟨outputPath, placed⟩ := kept.outputPath
  obtain ⟨entries, recorded, _⟩ := kept.params
  have id : given? call.record "id" = some (.text call.id) :=
    given?_text rfl ⟨_, rfl⟩ (by simpa using complete.id)
  have first : given? call.record "generator" = some call.generator :=
    given?_text rfl kept.generator complete.generator
  have second : given? call.record "outputPath" = some call.outputPath :=
    given?_text rfl kept.outputPath complete.outputPath
  have createdAt : given? call.record "createdAt" = some (.text call.createdAt) :=
    given?_text rfl ⟨_, rfl⟩ (by simpa using kept.createdAt)
  have version : (Keyed.field? call.record "generatorVersion").getD .null = call.stored.generatorVersion := by
    rw [field?_record, lookup_version, stored]
    split <;> rfl
  have dependencies : ((call.dependsOn.map Value.text).map Value.string).eraseDups = call.dependsOn := by
    have same : Value.string ∘ Value.text = fun text => text := funext string_text
    rw [List.map_map, same, List.map_id', eraseDups_of_nodup kept.distinct]
  change ofValue now (.map call.record) = _
  unfold ofValue
  dsimp only
  have none := (nothing_missing_iff kept).mpr complete
  rw [none, if_neg (by simp), given?_params kept, given?_dependsOn, recorded]
  simp only [id, first, second, createdAt, version, dependencies, generated, placed, Option.getD_some,
    Option.map_some, string_text]
  rw [← recorded, ← generated, ← placed]
  rfl

/-- No other call comes back. -/
theorem complete_of_ofValue {call other : Call} {now : Instant} (kept : call.Kept)
    (run : ofValue now call.toValue = .ok other) : call.Complete := by
  refine (nothing_missing_iff kept).mp (by_contra fun lacking => ?_)
  change ofValue now (.map call.record) = _ at run
  unfold ofValue at run
  dsimp only at run
  rw [if_pos (by simpa using lacking)] at run
  cases run

/-- Calls come back from their stored forms just when none of them lacks anything. -/
theorem mapM_ofValue {calls others : List Call} (kept : ∀ call ∈ calls, call.Kept) (now : Instant) :
    (calls.map toValue).mapM (ofValue now) = .ok others ↔
      (∀ call ∈ calls, call.Complete) ∧ others = calls.map stored := by
  rw [mapM_eq_ok, List.forall₂_map_left_iff]
  induction calls generalizing others with
  | nil => simp
  | cons call rest ih =>
    obtain ⟨here, kept⟩ := List.forall_mem_cons.mp kept
    rw [List.forall₂_cons_left_iff, List.forall_mem_cons, List.map_cons]
    constructor
    · rintro ⟨other, later, run, others, rfl⟩
      have complete := complete_of_ofValue here run
      rw [ofValue_toValue here complete] at run
      obtain ⟨each, rfl⟩ := (ih kept).mp others
      exact ⟨⟨complete, each⟩, by rw [Except.ok.inj run]⟩
    · rintro ⟨⟨complete, each⟩, rfl⟩
      exact ⟨_, _, ofValue_toValue here complete now, (ih kept).mpr ⟨each, rfl⟩, rfl⟩

end Call

end Scaffold
