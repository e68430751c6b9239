import Scaffold.Proofs.Extract.FieldText
import Scaffold.Proofs.Extract.Placeholders
import Scaffold.Proofs.Template.ParamLine

/-!
The values of parameters and their texts. The pattern of a kind takes the text of a value of it as a
whole, wherever a character follows at which values end, and the value is read off that text again.
-/

namespace Scaffold.Extract

open Text Template Pattern

/-- An identifier of the languages that are written: a letter of ASCII, an underscore or a dollar
sign, and then such characters or digits. -/
def isName : List Char → Bool
  | [] => false
  | c :: rest => CharClass.nameStart.holds c && rest.all CharClass.namePart.holds

/-- A value of a kind of parameter: an identifier, an integer that can be written out, or a truth
value. -/
inductive Suited : Kind → Value → Prop
  | identifier (name : String) (proper : isName name.toList = true) : Suited .identifier (.text name)
  | number (value : Int) (short : value.natAbs < 10 ^ Json.digitLimit) : Suited .number (.int value)
  | boolean (value : Bool) : Suited .boolean (.bool value)

/-- What is read off a captured text of a kind. -/
def paramValue (kind : Kind) (text : List Char) : Value :=
  match kind with
  | .number => numberValue text
  | .boolean => booleanValue text
  | _ => .text (String.ofList text)

variable {kind : Kind} {value : Value} {rest : List Char} {captures : List (String × List Char)} {c : Char}

/-! ### Characters -/

/-- The decimal digits of every script are word characters. -/
theorem zeroDigits_word : ∀ origin ∈ zeroDigits, ∃ range ∈ wordRanges,
    range.1 ≤ origin ∧ origin + 9 ≤ range.2 := by
  have covered : zeroDigits.all (fun origin => wordRanges.any fun range =>
      Nat.ble range.1 origin && Nat.ble (origin + 9) range.2) = true := by
    decide +kernel
  intro origin listed
  obtain ⟨range, member, within⟩ := List.any_eq_true.mp (List.all_eq_true.mp covered origin listed)
  obtain ⟨low, high⟩ := Bool.and_eq_true_iff.mp within
  exact ⟨range, member, Nat.le_of_ble_eq_true low, Nat.le_of_ble_eq_true high⟩

theorem isWord_of_isDecimal (decimal : isDecimal c = true) : isWord c = true := by
  rw [isDecimal, digitValue?] at decimal
  rw [isWord]
  split at decimal
  · next ascii =>
    split at decimal
    · next digit => simp [ascii, Char.isAlphanum, digit]
    · cases decimal
  · next beyond =>
    rw [Option.isSome_map, Option.isSome_iff_exists] at decimal
    obtain ⟨origin, found⟩ := decimal
    obtain ⟨range, listed, low, high⟩ := zeroDigits_word origin (List.mem_of_find?_eq_some found)
    have within := List.find?_some found
    simp only [Bool.and_eq_true, decide_eq_true_eq] at within
    rw [if_neg beyond]
    exact inRanges_iff.mpr ⟨range, listed, by omega⟩

theorem isVariablePart_or_of_namePart (part : CharClass.namePart.holds c = true) :
    isVariablePart c = true ∨ c = '$' := by
  simpa [CharClass.holds, isVariablePart] using part

/-- No value ends at a character of a name, a digit, a dollar sign, a point or a dash. -/
theorem not_of_isEnd (ends : isEnd c = true) :
    CharClass.namePart.holds c = false ∧ CharClass.digit.holds c = false ∧ c ≠ '.' := by
  simp only [isEnd, Bool.and_eq_true, Bool.not_eq_true', bne_iff_ne, ne_eq] at ends
  obtain ⟨⟨⟨noWord, noDollar⟩, noPoint⟩, _⟩ := ends
  refine ⟨?_, ?_, noPoint⟩
  · by_contra part
    rcases isVariablePart_or_of_namePart (Bool.not_eq_false _ ▸ part) with part | dollar
    · rw [isWord_of_isVariablePart part] at noWord
      cases noWord
    · exact noDollar dollar
  · by_contra digit
    rw [isWord_of_isDecimal (Bool.not_eq_false _ ▸ digit)] at noWord
    cases noWord

theorem isEnd_of_isBlank (blank : isBlank c = true) : isEnd c = true := by
  have noWord := isWord_of_isBlank blank
  have other : c ≠ '$' ∧ c ≠ '.' ∧ c ≠ '-' := by
    refine ⟨?_, ?_, ?_⟩ <;> rintro rfl <;> cases blank
  simp [isEnd, noWord, other]

/-- A character that the text of a value may have. -/
def isValuePart (c : Char) : Bool :=
  isWord c || c == '$' || c == '-'

theorem isEnd_of_isValuePart (part : isValuePart c = true) : isEnd c = false := by
  simp only [isValuePart, Bool.or_eq_true, beq_iff_eq] at part
  rcases part with (word | rfl) | rfl
  · simp [isEnd, word]
  · rfl
  · rfl

theorem isBlank_of_isValuePart (part : isValuePart c = true) : isBlank c = false := by
  by_contra blank
  have ends := isEnd_of_isBlank (Bool.not_eq_false _ ▸ blank)
  rw [isEnd_of_isValuePart part] at ends
  cases ends

/-! ### Texts of values -/

theorem isValuePart_of_namePart (part : CharClass.namePart.holds c = true) :
    isValuePart c = true := by
  rcases isVariablePart_or_of_namePart part with part | rfl
  · simp [isValuePart, isWord_of_isVariablePart part]
  · rfl

theorem namePart_of_nameStart (start : CharClass.nameStart.holds c = true) :
    CharClass.namePart.holds c = true := by
  simp only [CharClass.holds, Bool.or_eq_true, Char.isAlphanum] at start ⊢
  exact start.imp_left (Or.imp_left .inl)

/-- A numeral: an optional dash and digits. -/
theorem exists_numeral (value : Int) :
    ∃ (negative : Bool) (digits : List Char), digits ≠ [] ∧ (∀ c ∈ digits, isDecimal c = true) ∧
      intText value = (if negative then ['-'] else []) ++ digits := by
  cases value with
  | ofNat n => exact ⟨false, _, Nat.toDigits_ne_nil, isDecimal_of_mem_toDigits, rfl⟩
  | negSucc n => exact ⟨true, _, Nat.toDigits_ne_nil, isDecimal_of_mem_toDigits, rfl⟩

namespace Suited

/-- The text of a value is not empty and has only characters of values. -/
theorem text (suited : Suited kind value) :
    value.shown ≠ [] ∧ ∀ c ∈ value.shown, isValuePart c = true := by
  cases suited with
  | identifier name proper =>
    change name.toList ≠ [] ∧ ∀ c ∈ name.toList, _
    cases letters : name.toList with
    | nil => rw [letters] at proper; cases proper
    | cons c rest =>
      rw [letters, isName, Bool.and_eq_true, List.all_eq_true] at proper
      refine ⟨List.cons_ne_nil c rest, List.forall_mem_cons.mpr
        ⟨isValuePart_of_namePart (namePart_of_nameStart proper.1), fun d member => ?_⟩⟩
      exact isValuePart_of_namePart (proper.2 d member)
  | number value _ =>
    obtain ⟨negative, digits, filled, decimal, form⟩ := exists_numeral value
    change intText value ≠ [] ∧ ∀ c ∈ intText value, _
    rw [form, List.forall_mem_append]
    refine ⟨List.append_ne_nil_of_right_ne_nil _ filled, ?_, fun c member => ?_⟩
    · cases negative <;> exact List.all_eq_true.mp rfl
    · simp [isValuePart, isWord_of_isDecimal (decimal c member)]
  | boolean value =>
    cases value <;> exact ⟨by decide, List.all_eq_true.mp rfl⟩

theorem tight (suited : Suited kind value) : Tight value.shown :=
  tight_of_forall suited.text.1 fun c member => isBlank_of_isValuePart (suited.text.2 c member)

theorem first_identifier {name : String} (proper : isName name.toList = true)
    (stopped : ∀ c ∈ rest.head?, isEnd c = true) (captures : List (String × List Char)) :
    (kindPattern .identifier).First ⟨name.toList ++ rest, captures⟩ ⟨rest, captures⟩ := by
  change (Pattern.append _ _).First _ _
  cases letters : name.toList with
  | nil => rw [letters] at proper; cases proper
  | cons c more =>
    rw [letters, isName, Bool.and_eq_true, List.all_eq_true] at proper
    refine First.append (First.one .nameStart proper.1 (more ++ rest) captures) ?_
    exact First.any .namePart proper.2 (fun d head => (not_of_isEnd (stopped d head)).1) captures

/-- A numeral is taken with its dash, and what follows it is no point of a fraction. -/
theorem first_number (value : Int) (stopped : ∀ c ∈ rest.head?, isEnd c = true)
    (captures : List (String × List Char)) :
    (kindPattern .number).First ⟨intText value ++ rest, captures⟩ ⟨rest, captures⟩ := by
  obtain ⟨negative, digits, filled, decimal, form⟩ := exists_numeral value
  change (Pattern.append _ _).First _ _
  have whole : (Pattern.many .digit).First ⟨digits ++ rest, captures⟩ ⟨rest, captures⟩ :=
    First.many .digit filled decimal (fun c head => (not_of_isEnd (stopped c head)).2.1) captures
  have noPlaces : (Pattern.group (.append (.char '.') (.many .digit))).Fails ⟨rest, captures⟩ := by
    refine fails_of_not_leads ?_
    rintro finish ⟨middle, ⟨point, _⟩, _⟩
    exact (not_of_isEnd (stopped '.' (by rw [show rest = _ from point]; rfl))).2.2 rfl
  rw [form]
  exact first_signed negative filled decimal
    (First.append whole (First.optional_of_fails noPlaces))

/-- The pattern of a kind takes the text of a value as a whole where a value ends. -/
theorem first (suited : Suited kind value) (stopped : ∀ c ∈ rest.head?, isEnd c = true)
    (captures : List (String × List Char)) :
    (kindPattern kind).First ⟨value.shown ++ rest, captures⟩ ⟨rest, captures⟩ := by
  cases suited with
  | identifier name proper => exact first_identifier proper stopped captures
  | number value _ => exact first_number value stopped captures
  | boolean value =>
    have known : (if value then "True" else "False") ∈ ["true", "false", "True", "False"] := by
      cases value <;> decide
    have form : (Value.bool value).shown = (if value then "True" else "False").toList := by
      cases value <;> rfl
    rw [form]
    exact first_booleanPattern known rest captures

/-- The value is read off its text again. -/
theorem read (suited : Suited kind value) : paramValue kind value.shown = value := by
  cases suited with
  | identifier name _ => exact congrArg Value.text String.ofList_toList
  | number value short => exact (Fits.number value short).shown.2
  | boolean value => cases value <;> rfl

end Suited

end Scaffold.Extract
