import Mathlib.Data.List.Basic
import Scaffold.Text.Blank
import Scaffold.Text.Identifier
import Scaffold.Text.Word

/-!
Names of variables: a letter of ASCII or an underscore, then letters, digits and underscores. They are
words and identifiers, and nothing in them separates words.
-/

namespace Scaffold.Text

/-- A character that the name of a variable may begin with. -/
def isVariableStart (c : Char) : Bool :=
  c.isAlpha || c == '_'

/-- A character that the name of a variable may have. -/
def isVariablePart (c : Char) : Bool :=
  c.isAlphanum || c == '_'

/-- A text is the name of a variable. -/
def isVariable : List Char → Bool
  | [] => false
  | c :: rest => isVariableStart c && rest.all isVariablePart

variable {c d : Char} {name : List Char}

theorem isVariableStart_iff : isVariableStart c = true ↔
    65 ≤ c.toNat ∧ c.toNat ≤ 90 ∨ 97 ≤ c.toNat ∧ c.toNat ≤ 122 ∨ c.toNat = 95 := by
  have underscore : c = '_' ↔ c.toNat = 95 := (Char.toNat_inj (c := c) (d := '_')).symm
  change (decide (c.val ≥ 'A'.val ∧ c.val ≤ 'Z'.val) || (c.val ≥ 'a'.val && c.val ≤ 'z'.val) ||
    c == '_') = true ↔ _
  simp only [Bool.or_eq_true, Bool.and_eq_true, decide_eq_true_eq, beq_iff_eq, underscore, ge_iff_le,
    UInt32.le_iff_toNat_le]
  change (_ ≤ c.toNat ∧ c.toNat ≤ _ ∨ _ ≤ c.toNat ∧ c.toNat ≤ _) ∨ _ ↔ _
  simp only [Char.reduceVal, UInt32.reduceToNat, or_assoc]

theorem isDigit_iff : c.isDigit = true ↔ 48 ≤ c.toNat ∧ c.toNat ≤ 57 := by
  simp only [Char.isDigit, Bool.and_eq_true, decide_eq_true_eq, ge_iff_le, UInt32.le_iff_toNat_le]
  rfl

theorem isVariablePart_iff : isVariablePart c = true ↔
    isVariableStart c = true ∨ 48 ≤ c.toNat ∧ c.toNat ≤ 57 := by
  rw [isVariablePart, isVariableStart, Char.isAlphanum, ← isDigit_iff]
  simp only [Bool.or_eq_true]
  tauto

theorem isVariablePart_of_start (start : isVariableStart c = true) : isVariablePart c = true :=
  isVariablePart_iff.mpr (.inl start)

theorem toNat_lt_of_isVariablePart (part : isVariablePart c = true) : c.toNat < 128 := by
  rw [isVariablePart_iff, isVariableStart_iff] at part
  omega

theorem isWord_of_isVariablePart (part : isVariablePart c = true) : isWord c = true := by
  rw [isWord, if_pos (toNat_lt_of_isVariablePart part)]
  exact part

theorem isIdentifierContinue_of_isVariablePart (part : isVariablePart c = true) :
    isIdentifierContinue c = true := by
  rw [isIdentifierContinue, if_pos (toNat_lt_of_isVariablePart part)]
  exact part

theorem isBlank_of_isVariablePart (part : isVariablePart c = true) : isBlank c = false := by
  rw [isVariablePart_iff, isVariableStart_iff] at part
  simp only [isBlank, Bool.or_eq_false_iff, Bool.and_eq_false_iff, decide_eq_false_iff_not,
    beq_eq_false_iff_ne, ne_eq]
  omega

theorem not_isDigit_of_isVariableStart (start : isVariableStart c = true) : c.isDigit = false := by
  rw [isVariableStart_iff] at start
  rw [Bool.eq_false_iff, ne_eq, isDigit_iff]
  omega

theorem ne_of_isVariablePart (part : isVariablePart c = true) (other : isVariablePart d = false) :
    c ≠ d := by
  rintro rfl
  rw [part] at other
  cases other

/-- The name of a variable has a first character, and its characters belong to names. -/
theorem isVariable_iff : isVariable name = true ↔
    (∃ c rest, name = c :: rest ∧ isVariableStart c = true) ∧
      ∀ c ∈ name, isVariablePart c = true := by
  cases name with
  | nil => simp [isVariable]
  | cons c rest =>
    rw [isVariable, Bool.and_eq_true, List.all_eq_true]
    constructor
    · rintro ⟨start, parts⟩
      exact ⟨⟨c, rest, rfl, start⟩,
        List.forall_mem_cons.mpr ⟨isVariablePart_of_start start, parts⟩⟩
    · rintro ⟨⟨_, _, ⟨⟩, start⟩, parts⟩
      exact ⟨start, (List.forall_mem_cons.mp parts).2⟩

theorem isIdentifier_of_isVariable (proper : isVariable name = true) :
    isIdentifier name = true := by
  obtain ⟨⟨c, rest, rfl, start⟩, parts⟩ := isVariable_iff.mp proper
  have first : c.toNat < 128 := toNat_lt_of_isVariablePart (isVariablePart_of_start start)
  rw [isIdentifier, isIdentifierStart, if_pos first, Bool.and_eq_true, List.all_eq_true]
  exact ⟨start, fun d member =>
    isIdentifierContinue_of_isVariablePart (parts d (List.mem_cons_of_mem c member))⟩

theorem absent_of_isVariable (proper : isVariable name = true) (other : isVariablePart d = false) :
    d ∉ name :=
  fun member => ne_of_isVariablePart ((isVariable_iff.mp proper).2 d member) other rfl

end Scaffold.Text
