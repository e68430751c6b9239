import Scaffold.Proofs.Extract.LineItems
import Scaffold.Proofs.Render.LineDocument

/-!
Rendering and extraction undo each other on templates that are one loop with one line for its body.
Records with fitting values are read off the rendered text again, one for each line. Whatever is
extracted has this form, unless a numeral with too many digits has been read as another number.
-/

namespace Scaffold.Extract

open Text Template Pattern Render

variable {line : LoopLine} {hints : Hints} {order : List String} {value : String → Value}
  {record : Record} {records : List Record} {field : String}

/-- A record gives each field of the line a value of its kind, in whatever order. -/
def Suits (line : LoopLine) (hints : Hints) (record : Record) : Prop :=
  ∃ order value, order.Perm line.fields ∧ record = Keyed.ofFields order value ∧
    ∀ field ∈ line.fields, Fits (fieldKind line hints field) (value field)

theorem fieldText_ofFields (listed : field ∈ order) :
    fieldText (Keyed.ofFields order value) field = (value field).shown :=
  congrArg (Option.elim · [] Value.shown) (Keyed.field?_ofFields listed)

/-- The fields of a suitable record are shown as texts of their kinds. -/
theorem Suits.written (suits : Suits line hints record) :
    ∀ field ∈ line.names, FieldText (fieldKind line hints field) (fieldText record field) := by
  obtain ⟨order, value, perm, rfl, fits⟩ := suits
  intro field member
  have listed : field ∈ line.fields := List.mem_eraseDups.mpr member
  rw [fieldText_ofFields (perm.mem_iff.mpr listed)]
  exact (fits field listed).shown.1

/-- Of these texts the values are read again, in the order of the fields' first use. -/
theorem readRecord_fieldText (perm : order.Perm line.fields)
    (fits : ∀ field ∈ line.fields, Fits (fieldKind line hints field) (value field)) :
    readRecord line hints (fieldText (Keyed.ofFields order value)) =
      Keyed.ofFields line.fields value := by
  refine List.map_congr_left fun field listed => ?_
  simp only [fieldText_ofFields (perm.mem_iff.mpr listed), (fits field listed).shown.2]

theorem Suits.perm_readRecord (suits : Suits line hints record) :
    record.Perm (readRecord line hints (fieldText record)) := by
  obtain ⟨order, value, perm, rfl, fits⟩ := suits
  rw [readRecord_fieldText perm fits]
  exact perm.map _

/-- A suitable record that has the fields in the order of their first use is read as it is. -/
theorem Suits.readRecord_eq (suits : Suits line hints (Keyed.ofFields line.fields value)) :
    readRecord line hints (fieldText (Keyed.ofFields line.fields value)) =
      Keyed.ofFields line.fields value := by
  obtain ⟨order, other, perm, same, fits⟩ := suits
  refine readRecord_fieldText (.refl _) fun field listed => ?_
  have found := congrArg (Keyed.field? · field) same
  simp only [Keyed.field?_ofFields listed, Keyed.field?_ofFields (perm.mem_iff.mpr listed)] at found
  rw [Option.some.inj found]
  exact fits field listed

theorem extract_rendered (shaped : line.Shaped)
    (suits : ∀ record ∈ records, Suits line hints record) (template : List Char) :
    Extractor.extract ⟨template, [lineMatcher line hints]⟩
        (line.filledLines (records.map fieldText)) =
      .ok [(line.collection,
        .list ((records.map fun record => readRecord line hints (fieldText record)).map .map))] := by
  have written : ∀ texts ∈ records.map fieldText, ∀ field ∈ line.names,
      FieldText (fieldKind line hints field) (texts field) :=
    List.forall_mem_map.mpr fun record listed => (suits record listed).written
  rw [extract_filledLines shaped written, List.map_map (g := readRecord line hints)]
  rfl

/-- A template that is one loop with one line for its body compiles, for extraction and for
rendering. Suitable records are rendered as a text from which the same records are extracted, one
after the other. From any text, records of the fields in the order of their first use are extracted,
with values that fit or stand for a numeral with too many digits; when all of them fit, rendering
these records and extracting again gives the same. -/
theorem extract_render_line (shaped : line.Shaped) (hints : Hints) (strict : Bool) :
    ∃ extractor document,
      Extractor.build line.template hints strict = ([], .ok extractor) ∧
      Render.compile line.template = .ok document ∧
      (∀ records : List Record, (∀ record ∈ records, Suits line hints record) →
        ∃ text found,
          document.render [(.text line.collection, .list (records.map .map))] = .ok text ∧
          extractor.extract text = .ok [(line.collection, .list (found.map .map))] ∧
          List.Forall₂ List.Perm records found) ∧
      ∀ source, ∃ items : List Record,
        extractor.extract source = .ok [(line.collection, .list (items.map .map))] ∧
        (∀ item ∈ items, ∃ value, item = Keyed.ofFields line.fields value ∧
          ∀ field ∈ line.fields, Fits (fieldKind line hints field) (value field) ∨
            Overlong (fieldKind line hints field) (value field)) ∧
        ((∀ item ∈ items, Suits line hints item) →
          ∃ text, document.render [(.text line.collection, .list (items.map .map))] = .ok text ∧
            extractor.extract text = extractor.extract source) := by
  refine ⟨_, _, build_template shaped hints strict, compile_template shaped, ?_, ?_⟩
  · intro records suits
    refine ⟨_, _, render_lineDocument shaped records, extract_rendered shaped suits _, ?_⟩
    rw [List.forall₂_map_right_iff, List.forall₂_same]
    exact fun record listed => (suits record listed).perm_readRecord
  · intro source
    obtain ⟨assignments, written, extracted⟩ := extract_lineMatcher shaped source line.template
    refine ⟨_, extracted, ?_, fun suits => ⟨_, render_lineDocument shaped _, ?_⟩⟩
    · rw [List.forall_mem_map]
      exact fun texts listed => ⟨_, rfl, fun field member =>
        (written texts listed field (List.mem_eraseDups.mp member)).fits⟩
    · rw [extract_rendered shaped suits, extracted]
      have same : ((assignments.map (readRecord line hints)).map fun record =>
          readRecord line hints (fieldText record)) = assignments.map (readRecord line hints) := by
        rw [List.map_map]
        exact List.map_congr_left fun texts listed =>
          (suits _ (List.mem_map_of_mem listed)).readRecord_eq
      rw [same]

/-- A line that gives a name twice, with a number and a truth value between. -/
def settingLine : LoopLine where
  item := "i"
  collection := "xs"
  first := "let ".toList
  field := "name"
  more := [(" = ".toList, "size"), (", ".toList, "on"), ("; // ".toList, "name")]
  last := []

/-- The kinds of the fields that are no texts. -/
def settingHints : Hints :=
  [("xs", .fields [("size", .number), ("on", .boolean)])]

/-- A record for the line, in another order. -/
def setting : Record :=
  [(.text "size", .int (-12)), (.text "on", .bool true), (.text "name", .text "depth")]

theorem extract_render_line_of_setting :
    settingLine.Shaped ∧ Suits settingLine settingHints setting ∧
    ∃ extractor document,
      Extractor.build settingLine.template settingHints true = ([], .ok extractor) ∧
      Render.compile settingLine.template = .ok document ∧
      ∃ text found,
        document.render [(.text "xs", .list [.map setting])] = .ok text ∧
        extractor.extract text = .ok [("xs", .list (found.map .map))] ∧
        List.Forall₂ List.Perm [setting] found := by
  have shaped : settingLine.Shaped := by
    refine ⟨by decide, by decide, by decide, ?_, by decide, by decide⟩
    simp [settingLine, LoopLine.literals, isLiteral]
  have suits : Suits settingLine settingHints setting := by
    refine ⟨["size", "on", "name"], fun field =>
      if field = "size" then .int (-12) else if field = "on" then .bool true else .text "depth",
      by decide, rfl, ?_⟩
    change ∀ field ∈ ["name", "size", "on"], _
    simp only [List.forall_mem_cons]
    refine ⟨?_, ?_, ?_, by simp⟩
    · exact .bare .string (by decide) "depth" (by decide) (by simp [CharClass.holds, isBlank])
    · have short : 12 < 10 ^ 2 := by decide
      exact .number (-12) (short.trans_le (Nat.pow_le_pow_right (by decide) (by decide)))
    · exact .boolean true
  obtain ⟨extractor, document, built, compiled, rendered, _⟩ :=
    extract_render_line shaped settingHints true
  exact ⟨shaped, suits, extractor, document, built, compiled,
    rendered [setting] (List.forall_mem_singleton.mpr suits)⟩

/-- A line that is one number. -/
def countLine : LoopLine where
  item := "i"
  collection := "xs"
  first := []
  field := "n"
  more := []
  last := []

/-- The kind of the number. -/
def countHints : Hints :=
  [("xs", .fields [("n", .number)])]

theorem shaped_countLine : countLine.Shaped := by
  refine ⟨by decide, by decide, by decide, ?_, by decide, by decide⟩
  simp [countLine, LoopLine.literals]

theorem extract_numeral {digits : List Char} (filled : digits ≠ [])
    (decimal : ∀ c ∈ digits, isDecimal c = true) :
    Extractor.extract ⟨countLine.template, [lineMatcher countLine countHints]⟩ (digits ++ ['\n']) =
      .ok [("xs", .list [.map [(.text "n", numberValue digits)]])] := by
  have written : ∀ texts ∈ [fun _ : String => digits], ∀ field ∈ countLine.names,
      FieldText (fieldKind countLine countHints field) (texts field) := by
    change ∀ texts ∈ _, ∀ field ∈ ["n"], _
    simp only [List.forall_mem_singleton]
    exact .number false digits filled decimal
  have lines : countLine.filledLines [fun _ => digits] = digits ++ ['\n'] := by
    simp [LoopLine.filledLines, LoopLine.fill, LoopLine.places, filledPlaces, countLine]
  rw [← lines, extract_filledLines shaped_countLine written]
  rfl

theorem numberValue_ne_int {digits : List Char} (decimal : ∀ c ∈ digits, isDecimal c = true)
    (long : Json.digitLimit < digits.length) (value : Int) : numberValue digits ≠ .int value := by
  have filled : digits ≠ [] := List.length_pos_iff.mp (Nat.zero_lt_of_lt long)
  have read := numberValue_numeral false filled decimal
  rw [if_neg Bool.false_ne_true, List.nil_append, if_pos long] at read
  rw [read]
  exact nofun

/-- A numeral of 4301 ones is not read as an integer. -/
theorem extract_long_numeral :
    countLine.Shaped ∧
    ∃ extractor item,
      Extractor.build countLine.template countHints true = ([], .ok extractor) ∧
      extractor.extract (List.replicate 4301 '1' ++ ['\n']) = .ok [("xs", .list [.map item])] ∧
      ∀ value : Int, item ≠ [(.text "n", .int value)] := by
  have long : Json.digitLimit < (List.replicate 4301 '1').length := by
    rw [List.length_replicate]
    decide
  have filled : List.replicate 4301 '1' ≠ [] := List.length_pos_iff.mp (Nat.zero_lt_of_lt long)
  have decimal : ∀ c ∈ List.replicate 4301 '1', isDecimal c = true :=
    fun c member => List.eq_of_mem_replicate member ▸ by decide
  refine ⟨shaped_countLine, _, _, build_template shaped_countLine _ true,
    extract_numeral filled decimal, fun value same => ?_⟩
  exact numberValue_ne_int decimal long value (Prod.mk.inj (List.cons.inj same).1).2

end Scaffold.Extract
