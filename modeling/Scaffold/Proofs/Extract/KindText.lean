import Scaffold.Proofs.Extract.FieldText
import Scaffold.Proofs.Extract.ParamText
import Scaffold.Proofs.Pattern.Written

/-!
The texts that the values of a kind are written as, and the patterns of kinds. These fit just the texts of
their kinds, and what is written for them can be read wherever it stands.
-/

namespace Scaffold.Extract

open Text Template Pattern

/-- A text that the values of a kind of parameter are written as: an identifier, a text within a line and
without quotes, an integer or a decimal, one of the words for truth values, or else a text without
blanks. -/
inductive KindText : Kind → List Char → Prop
  | identifier {text : List Char} (proper : isName text = true) : KindText .identifier text
  | stringLiteral {text : List Char} (filled : text ≠ [])
      (unquoted : ∀ c ∈ text, c ≠ '\'' ∧ c ≠ '"' ∧ c ≠ '\n') : KindText .stringLiteral text
  | integer (negative : Bool) {digits : List Char} (filled : digits ≠ [])
      (decimal : ∀ c ∈ digits, isDecimal c = true) :
      KindText .number ((if negative then ['-'] else []) ++ digits)
  | decimal (negative : Bool) {digits places : List Char} (filled : digits ≠ [] ∧ places ≠ [])
      (decimal : ∀ c ∈ digits ++ places, isDecimal c = true) :
      KindText .number ((if negative then ['-'] else []) ++ (digits ++ '.' :: places))
  | boolean (word : String) (known : word ∈ ["true", "false", "True", "False"]) :
      KindText .boolean word.toList
  | other (name : String) {text : List Char} (filled : text ≠ [])
      (solid : ∀ c ∈ text, isBlank c = false) : KindText (.other name) text

variable {kind : Kind} {text : List Char}

/-! ### The patterns of kinds -/

theorem fits_booleanPattern : booleanPattern.fits text = true ↔
    ∃ word ∈ ["true", "false", "True", "False"], text = String.toList word := by
  rw [booleanPattern, fits_choice (by decide)]
  simp only [List.mem_map, exists_exists_and_eq_and, fits_literal]

theorem fits_sign : (Pattern.optional (.one .minus)).fits text = true ↔
    ∃ negative : Bool, text = if negative then ['-'] else [] := by
  rw [fits_optional, fits_one, Bool.exists_bool, or_comm]
  simp [CharClass.holds]

theorem fits_decimals : (Pattern.optional (.group (.append (.char '.') (.many .digit)))).fits text = true ↔
    (∃ places : List Char, places ≠ [] ∧ (∀ c ∈ places, isDecimal c = true) ∧ text = '.' :: places) ∨
      text = [] := by
  rw [fits_optional, fits_group, fits_append rfl]
  simp only [fits_char, fits_many]
  refine or_congr_left ⟨?_, ?_⟩
  · rintro ⟨_, places, rfl, rfl, filled, decimal⟩
    exact ⟨places, filled, decimal, rfl⟩
  · rintro ⟨places, filled, decimal, rfl⟩
    exact ⟨['.'], places, rfl, rfl, filled, decimal⟩

theorem fits_number : (kindPattern .number).fits text = true ↔ KindText .number text := by
  have free : (Pattern.optional (.group (.append (.char '.') (.many .digit)))).isFree = true := rfl
  rw [kindPattern, fits_append rfl]
  simp only [fits_append free, fits_sign, fits_many, fits_decimals]
  constructor
  · rintro ⟨_, _, rfl, ⟨negative, rfl⟩, digits, _, rfl, ⟨filled, decimal⟩, decimals⟩
    rcases decimals with ⟨places, filled', decimal', rfl⟩ | rfl
    · exact .decimal negative ⟨filled, filled'⟩ (List.forall_mem_append.mpr ⟨decimal, decimal'⟩)
    · rw [List.append_nil]
      exact .integer negative filled decimal
  · intro written
    cases written with
    | @integer negative digits filled decimal =>
      exact ⟨_, digits, rfl, ⟨negative, rfl⟩, digits, [], (List.append_nil _).symm, ⟨filled, decimal⟩,
        .inr rfl⟩
    | @decimal negative digits places filled decimal =>
      obtain ⟨decimal, decimal'⟩ := List.forall_mem_append.mp decimal
      exact ⟨_, digits ++ '.' :: places, rfl, ⟨negative, rfl⟩, digits, _, rfl, ⟨filled.1, decimal⟩,
        .inl ⟨places, filled.2, decimal', rfl⟩⟩

theorem fits_kindPattern : (kindPattern kind).fits text = true ↔ KindText kind text := by
  cases kind with
  | identifier =>
    rw [kindPattern, fits_append rfl]
    simp only [fits_one, fits_any]
    constructor
    · rintro ⟨_, back, rfl, ⟨c, rfl, begins⟩, goesOn⟩
      exact .identifier (Bool.and_eq_true_iff.mpr ⟨begins, List.all_eq_true.mpr goesOn⟩)
    · rintro ⟨proper⟩
      cases text with
      | nil => cases proper
      | cons c rest =>
        obtain ⟨begins, goesOn⟩ := Bool.and_eq_true_iff.mp proper
        exact ⟨[c], rest, rfl, ⟨c, rfl, begins⟩, List.all_eq_true.mp goesOn⟩
  | stringLiteral =>
    rw [kindPattern, fits_many]
    simp only [CharClass.holds, Bool.and_eq_true, bne_iff_ne, ne_eq, and_assoc]
    constructor
    · exact fun written => .stringLiteral written.1 written.2
    · intro written
      cases written with
      | stringLiteral filled unquoted => exact ⟨filled, unquoted⟩
  | number => exact fits_number
  | boolean =>
    rw [kindPattern, fits_booleanPattern]
    constructor
    · rintro ⟨word, known, rfl⟩
      exact .boolean word known
    · intro written
      cases written with
      | boolean word known => exact ⟨word, known, rfl⟩
  | other name =>
    rw [kindPattern, fits_many]
    simp only [CharClass.holds, Bool.not_eq_true']
    constructor
    · exact fun written => .other name written.1 written.2
    · intro written
      cases written with
      | other _ filled solid => exact ⟨filled, solid⟩

theorem fits_bare (plain : kind ≠ .number ∧ kind ≠ .boolean) :
    (Pattern.many .bare).fits text = true ↔ FieldText kind text := by
  rw [fits_many]
  constructor
  · exact fun written => .bare kind plain text written.1 written.2
  · intro written
    cases written with
    | number => exact absurd rfl plain.1
    | boolean => exact absurd rfl plain.2
    | bare _ _ _ filled bare => exact ⟨filled, bare⟩

theorem fits_fieldPattern : (fieldPattern kind).fits text = true ↔ FieldText kind text := by
  cases kind with
  | number =>
    rw [fieldPattern, fits_append rfl]
    simp only [fits_sign, fits_many]
    constructor
    · rintro ⟨_, digits, rfl, ⟨negative, rfl⟩, filled, decimal⟩
      exact .number negative digits filled decimal
    · intro written
      cases written with
      | number negative digits filled decimal => exact ⟨_, digits, rfl, ⟨negative, rfl⟩, filled, decimal⟩
      | bare _ plain => exact absurd rfl plain.1
  | boolean =>
    rw [fieldPattern, fits_booleanPattern]
    constructor
    · rintro ⟨word, known, rfl⟩
      exact .boolean word known
    · intro written
      cases written with
      | boolean word known => exact ⟨word, known, rfl⟩
      | bare _ plain => exact absurd rfl plain.2
  | identifier | stringLiteral | other => exact fits_bare ⟨nofun, nofun⟩

/-! ### Places -/

/-- What stands in a pattern for an expression: any text within a line, any word or none, or the text of a
value, of a parameter or of a field, which is captured. -/
inductive Place
  | anything
  | word
  | value (name : String) (kind : Kind)
  | field (name : String) (kind : Kind)
  deriving DecidableEq, Repr

namespace Place

def pattern : Place → Pattern
  | anything => wildcard
  | word => .any .word
  | value name kind => .capture name (kindPattern kind)
  | field name kind => .capture name (fieldPattern kind)

/-- What may stand in a place. -/
def Admits : Place → List Char → Prop
  | anything, text => '\n' ∉ text
  | word, text => ∀ c ∈ text, isWord c = true
  | value _ kind, text => KindText kind text
  | field _ kind, text => FieldText kind text

theorem fits_pattern {place : Place} : place.pattern.fits text = true ↔ place.Admits text := by
  cases place with
  | anything =>
    rw [pattern, wildcard, fits_few, Admits]
    simp only [CharClass.holds, bne_iff_ne]
    exact ⟨fun inLine member => inLine '\n' member rfl, fun inLine c member =>
      ne_of_mem_of_not_mem member inLine⟩
  | word => exact fits_any
  | value name kind => exact fits_capture.trans fits_kindPattern
  | field name kind => exact fits_capture.trans fits_fieldPattern

/-- What is written for a place can be read wherever it stands. -/
theorem isLegible_pattern (place : Place) :
    place.pattern.isLegible = true ∧ place.pattern.isChoice = false := by
  cases place with
  | anything | word => exact ⟨rfl, rfl⟩
  | value name kind => cases kind <;> exact ⟨rfl, rfl⟩
  | field name kind => cases kind <;> exact ⟨rfl, rfl⟩

end Place

end Scaffold.Extract
