import Scaffold.Proofs.Extract.LineMatches
import Scaffold.Proofs.Outcome
import Scaffold.Proofs.Value.Fields

/-!
The items that are read off a text with the matcher of a loop's line. Filled lines give one item for
each line, with the values that the texts are read as. Any other text gives items of the same form.
-/

namespace Scaffold.Extract

open Text Template Pattern

variable {line : LoopLine} {hints : Hints} {found : Match} {texts : String → List Char}
  {field : String}

/-- The record whose fields are read off given texts. -/
def readRecord (line : LoopLine) (hints : Hints) (texts : String → List Char) : Record :=
  Keyed.ofFields line.fields fun field => valueOf (fieldKind line hints field) (texts field)

theorem nodup_fields (line : LoopLine) : line.fields.Nodup :=
  nodup_eraseDups line.names

theorem fieldValue_fieldsOf (member : field ∈ line.fields) (text : List Char) :
    fieldValue (fieldsOf line hints .number) (fieldsOf line hints .boolean) field text =
      valueOf (fieldKind line hints field) text := by
  have listed (kind : Kind) : (fieldsOf line hints kind).contains field =
      (fieldKind line hints field == kind) := by
    rw [Bool.eq_iff_iff, List.contains_iff_mem, fieldsOf, List.mem_filter, and_iff_right member]
  rw [fieldValue, listed, listed]
  cases fieldKind line hints field <;> rfl

/-- A match that has captured a text of its kind for each field gives the item of those texts. -/
theorem itemOf_eq_ok
    (written : ∀ field ∈ line.names, FieldText (fieldKind line hints field) (texts field))
    (held : Captured (fun field text => text = texts field) found.captures line.names) :
    itemOf line.fields (fieldsOf line hints .number) (fieldsOf line hints .boolean) found =
      .ok (.map (readRecord line hints texts)) := by
  have entries : (line.fields.mapM fun field => do
      let text ← captured found field
      return (Scalar.text field,
        fieldValue (fieldsOf line hints .number) (fieldsOf line hints .boolean) field text)) =
      (.ok (Keyed.ofFields line.fields fun field =>
        valueOf (fieldKind line hints field) (texts field)) : Except Error _) := by
    rw [mapM_eq_ok, Keyed.ofFields, List.forall₂_map_right_iff, List.forall₂_same]
    intro field member
    obtain ⟨text, kept, rfl⟩ := held field (List.mem_eraseDups.mp member)
    have read : captured found field = .ok (texts field) := by
      rw [captured, Match.capture?, kept]
      exact congrArg Except.ok (written field (List.mem_eraseDups.mp member)).tight.trim_eq
    rw [read, ← fieldValue_fieldsOf member]
    rfl
  rw [itemOf, entries]
  change Except.ok (Value.map (Keyed.ofEntries _)) = _
  rw [Keyed.ofEntries_ofFields (nodup_fields line)]
  rfl

/-- When each match gives an item, the items are what is extracted. -/
theorem extract_of_matches {source : List Char} {items : List Value}
    (read : List.Forall₂ (fun found item =>
        itemOf line.fields (fieldsOf line hints .number) (fieldsOf line hints .boolean) found =
          .ok item)
      ((linePattern (fieldKind line hints) line.trimmed).findMatches source) items)
    (template : List Char) :
    Extractor.extract ⟨template, [lineMatcher line hints]⟩ source =
      .ok [(line.collection, .list items)] := by
  have matched : (lineMatcher line hints).extract source = .ok (some (.list items)) := by
    rw [lineMatcher, Matcher.extract, mapM_eq_ok.mpr read]
    rfl
  change (do
    let value ← (lineMatcher line hints).extract source
    return (value.map fun value => (line.collection, value)).toList ++ []) = _
  rw [matched]
  rfl

/-- Filled lines give one item each. -/
theorem extract_filledLines (shaped : line.Shaped) {assignments : List (String → List Char)}
    (written : ∀ texts ∈ assignments, ∀ field ∈ line.names,
      FieldText (fieldKind line hints field) (texts field)) (template : List Char) :
    Extractor.extract ⟨template, [lineMatcher line hints]⟩ (line.filledLines assignments) =
      .ok [(line.collection, .list ((assignments.map (readRecord line hints)).map .map))] := by
  refine extract_of_matches ?_ template
  rw [List.map_map, List.forall₂_map_right_iff]
  have matched := List.forall₂_and_left _ _ |>.mpr ⟨written, findMatches_filledLines shaped written⟩
  refine List.Forall₂.flip (List.Forall₂.imp ?_ matched)
  rintro texts found ⟨written, held⟩
  exact itemOf_eq_ok written held

/-- Whatever the text is, the items are read off texts of the fields' kinds. -/
theorem extract_lineMatcher (shaped : line.Shaped) (source template : List Char) :
    ∃ assignments : List (String → List Char),
      (∀ texts ∈ assignments, ∀ field ∈ line.names,
        FieldText (fieldKind line hints field) (texts field)) ∧
      Extractor.extract ⟨template, [lineMatcher line hints]⟩ source =
        .ok [(line.collection, .list ((assignments.map (readRecord line hints)).map .map))] := by
  let texts (found : Match) (field : String) : List Char := (found.capture? field).getD []
  let found := (linePattern (fieldKind line hints) line.trimmed).findMatches source
  have held : ∀ one ∈ found,
      Captured (fun field => FieldText (fieldKind line hints field)) one.captures line.names := by
    intro one listed
    obtain ⟨start, leads⟩ := mem_matchesAfter listed
    exact captured_of_leads shaped.trimmed leads
  have written : ∀ one ∈ found, ∀ field ∈ line.names,
      one.captures.lookup field = some (texts one field) ∧
        FieldText (fieldKind line hints field) (texts one field) := by
    intro one listed field member
    obtain ⟨text, kept, written⟩ := held one listed field member
    have same : texts one field = text := by
      change (one.captures.lookup field).getD [] = text
      rw [kept, Option.getD_some]
    rw [same]
    exact ⟨kept, written⟩
  refine ⟨found.map texts, ?_, ?_⟩
  · rw [List.forall_mem_map]
    exact fun one listed field member => (written one listed field member).2
  · refine extract_of_matches ?_ template
    rw [List.map_map, List.map_map, List.forall₂_map_right_iff, List.forall₂_same]
    intro one listed
    exact itemOf_eq_ok (fun field member => (written one listed field member).2)
      fun field member => ⟨_, (written one listed field member).1, rfl⟩

end Scaffold.Extract
