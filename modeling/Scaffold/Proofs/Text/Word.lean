import Scaffold.Proofs.Text.Trim
import Scaffold.Proofs.Text.Variable

/-!
Words, and the names among them that a tag may hold. No character of a word is a blank, in any script,
so that a word behind blanks is found again as it was written.
-/

namespace Scaffold.Text

variable {c d : Char} {word name blanks rest : List Char}

/-- A range of code points lies between the blanks beyond ASCII. -/
def isApart (range : Nat × Nat) : Bool :=
  range.2 < 0x85 || (0x85 < range.1 && range.2 < 0xa0) || (0xa0 < range.1 && range.2 < 0x1680) ||
    (0x1680 < range.1 && range.2 < 0x2000) || (0x200a < range.1 && range.2 < 0x2028) ||
    (0x2029 < range.1 && range.2 < 0x202f) || (0x202f < range.1 && range.2 < 0x205f) ||
    (0x205f < range.1 && range.2 < 0x3000) || 0x3000 < range.1

theorem isBlank_of_inRanges {ranges : List (Nat × Nat)} (apart : ranges.all isApart = true)
    (beyond : ¬ c.toNat < 128) (within : inRanges ranges c.toNat = true) : isBlank c = false := by
  obtain ⟨range, listed, within⟩ := inRanges_iff.mp within
  have apart := List.all_eq_true.mp apart range listed
  by_contra blank
  simp only [isApart, Bool.not_eq_false, isBlank, Bool.or_eq_true, Bool.and_eq_true,
    decide_eq_true_eq, beq_iff_eq] at apart blank
  omega

/-- The letters and numbers of every script lie between the blanks. -/
theorem wordRanges_apart : wordRanges.all isApart = true := by
  decide +kernel

theorem isBlank_of_isWord (word : isWord c = true) : isBlank c = false := by
  rw [isWord] at word
  split at word
  · exact isBlank_of_isVariablePart word
  · next beyond => exact isBlank_of_inRanges wordRanges_apart beyond word

/-- The marks that identifiers may have lie between the blanks as well. -/
theorem identifierContinueRanges_apart : identifierContinueRanges.all isApart = true := by
  decide +kernel

theorem isBlank_of_isIdentifierContinue (part : isIdentifierContinue c = true) :
    isBlank c = false := by
  rw [isIdentifierContinue] at part
  split at part
  · exact isBlank_of_isVariablePart part
  · next beyond => exact isBlank_of_inRanges identifierContinueRanges_apart beyond part

theorem isWord_of_isBlank (blank : isBlank c = true) : isWord c = false := by
  by_contra word
  rw [isBlank_of_isWord (Bool.not_eq_false _ ▸ word)] at blank
  cases blank

/-- A word is read to its end. -/
theorem word?_eq_some {name : String} {text : List Char} :
    word? text = some (name, rest) ↔ name.toList ≠ [] ∧ (∀ c ∈ name.toList, isWord c = true) ∧
      text = name.toList ++ rest ∧ ∀ c ∈ rest.head?, isWord c = false := by
  simp only [word?]
  constructor
  · intro found
    split at found
    · cases found
    · next filled =>
      obtain ⟨rfl, rfl⟩ := Prod.mk.inj (Option.some.inj found)
      obtain ⟨_, _, _, stopped⟩ := dropWhile_eq_iff.mp (Eq.refl (text.dropWhile isWord))
      rw [String.toList_ofList]
      exact ⟨by simpa using filled, fun c => List.mem_takeWhile_imp,
        List.takeWhile_append_dropWhile.symm, stopped⟩
  · rintro ⟨filled, all, rfl, stopped⟩
    rw [takeWhile_append all stopped, if_neg (by simpa using filled), String.ofList_toList,
      dropWhile_eq_iff.mpr ⟨name.toList, all, rfl, stopped⟩]

theorem word?_append {name : String} (filled : name.toList ≠ []) (all : ∀ c ∈ name.toList, isWord c = true)
    (stopped : ∀ c ∈ rest.head?, isWord c = false) :
    word? (name.toList ++ rest) = some (name, rest) :=
  word?_eq_some.mpr ⟨filled, all, rfl, stopped⟩

theorem begins_of_isWord (filled : word ≠ []) (all : ∀ c ∈ word, isWord c = true)
    (rest : List Char) : ∀ c ∈ (word ++ rest).head?, isBlank c = false := by
  rw [List.head?_append_of_ne_nil _ filled]
  exact fun c first => isBlank_of_isWord (all c (List.mem_of_mem_head? first))

theorem afterBlanks?_append (filled : blanks ≠ []) (blank : ∀ c ∈ blanks, isBlank c = true)
    (begins : ∀ c ∈ rest.head?, isBlank c = false) : afterBlanks? (blanks ++ rest) = some rest := by
  obtain ⟨c, blanks, rfl⟩ := List.exists_cons_of_ne_nil filled
  obtain ⟨here, blank⟩ := List.forall_mem_cons.mp blank
  rw [List.cons_append, afterBlanks?, if_pos here, trimLeft_append blanks blank begins]

theorem head_blanks_append (filled : blanks ≠ []) (blank : ∀ c ∈ blanks, isBlank c = true)
    (rest : List Char) : ∀ c ∈ (blanks ++ rest).head?, isWord c = false := by
  rw [List.head?_append_of_ne_nil _ filled]
  exact fun c first => isWord_of_isBlank (blank c (List.mem_of_mem_head? first))

/-! ### Names in tags -/

/-- A name that a tag may hold: an identifier of word characters. -/
def isTagName (name : List Char) : Bool :=
  isIdentifier name && name.all isWord

theorem isTagName_iff : isTagName name = true ↔
    isIdentifier name = true ∧ ∀ c ∈ name, isWord c = true := by
  rw [isTagName, Bool.and_eq_true, List.all_eq_true]

theorem isTagName_of_isVariable (proper : isVariable name = true) : isTagName name = true :=
  isTagName_iff.mpr ⟨isIdentifier_of_isVariable proper,
    fun c member => isWord_of_isVariablePart ((isVariable_iff.mp proper).2 c member)⟩

/-- The name of a tag has a first character, which is no digit. -/
theorem first_of_isTagName (proper : isTagName name = true) :
    ∃ c rest, name = c :: rest ∧ isWord c = true ∧ c.isDigit = false := by
  obtain ⟨identifier, all⟩ := isTagName_iff.mp proper
  cases name with
  | nil => cases identifier
  | cons c rest =>
    refine ⟨c, rest, rfl, all c List.mem_cons_self, ?_⟩
    rw [isIdentifier, Bool.and_eq_true, isIdentifierStart] at identifier
    split at identifier
    · exact not_isDigit_of_isVariableStart identifier.1
    · next beyond =>
      rw [Bool.eq_false_iff, ne_eq, isDigit_iff]
      omega

theorem ne_nil_of_isTagName (proper : isTagName name = true) : name ≠ [] := by
  obtain ⟨c, rest, rfl, _⟩ := first_of_isTagName proper
  exact List.cons_ne_nil c rest

theorem absent_of_isTagName (proper : isTagName name = true) (other : isWord d = false) :
    d ∉ name := by
  intro member
  rw [(isTagName_iff.mp proper).2 d member] at other
  cases other

end Scaffold.Text
