import Mathlib.Data.List.Basic
import Scaffold.Extract.Reading
import Scaffold.Extract.Matcher
import Scaffold.Proofs.Pattern.Matching
import Scaffold.Proofs.Text.Digit
import Scaffold.Proofs.Text.Trim
import Scaffold.Value.Shown

/-!
The texts of a loop's fields and their values. The pattern of a field takes exactly the texts of its
kind. The value that is read off such a text is shown as a text of that kind, which gives the value
back; only a numeral with more digits than an integer may have is read as another number.
-/

namespace Scaffold.Extract

open Text Template Pattern

/-- A text that the values of a kind are written as. -/
inductive FieldText : Kind → List Char → Prop
  | number (negative : Bool) (digits : List Char) (filled : digits ≠ [])
      (decimal : ∀ c ∈ digits, isDecimal c = true) :
      FieldText .number ((if negative then ['-'] else []) ++ digits)
  | boolean (word : String) (known : word ∈ ["true", "false", "True", "False"]) :
      FieldText .boolean word.toList
  | bare (kind : Kind) (plain : kind ≠ .number ∧ kind ≠ .boolean) (text : List Char)
      (filled : text ≠ []) (bare : ∀ c ∈ text, CharClass.bare.holds c = true) : FieldText kind text

def valueOf : Kind → List Char → Value
  | .number, text => numberValue text
  | .boolean, text => booleanValue text
  | _, text => .text (String.ofList text)

/-- A value of a kind: an integer with no more digits than can be read, a truth value, or a text
without blanks and separators. -/
inductive Fits : Kind → Value → Prop
  | number (value : Int) (short : value.natAbs < 10 ^ Json.digitLimit) : Fits .number (.int value)
  | boolean (value : Bool) : Fits .boolean (.bool value)
  | bare (kind : Kind) (plain : kind ≠ .number ∧ kind ≠ .boolean) (value : String)
      (filled : value ≠ "") (bare : ∀ c ∈ value.toList, CharClass.bare.holds c = true) :
      Fits kind (.text value)

/-- What a numeral with too many digits is read as. -/
inductive Overlong : Kind → Value → Prop
  | number (negative : Bool) (digits : List Char) (decimal : ∀ c ∈ digits, isDecimal c = true)
      (long : Json.digitLimit < digits.length) :
      Overlong .number (.scalar (.float (.ofDecimal negative (decimalValue digits) 0)))

variable {kind : Kind} {text rest digits : List Char} {value : Value}
  {captures : List (String × List Char)}

/-! ### Digits -/

theorem bare_of_isDecimal {c : Char} (decimal : isDecimal c = true) :
    CharClass.bare.holds c = true := by
  have solid : isBlank c = false := by
    by_contra blank
    rw [isDecimal, digitValue?_of_isBlank (Bool.not_eq_false _ ▸ blank)] at decimal
    cases decimal
  have other : c ≠ ';' ∧ c ≠ ',' ∧ c ≠ ')' := by
    refine ⟨?_, ?_, ?_⟩ <;> rintro rfl <;> cases decimal
  simp [CharClass.holds, solid, other]

theorem decimalValue_lt (digits : List Char) : decimalValue digits < 10 ^ digits.length :=
  foldl_digits_lt fun digit _ => digitValue?_lt digit

theorem decimalValue_toDigits (n : Nat) : decimalValue (Nat.toDigits 10 n) = n :=
  foldl_toDigits (fun c digit => by rw [digitValue?_of_isDigit digit]; rfl) n

/-! ### The texts -/

/-- Digits are taken with the dash before them, if there is one. -/
theorem first_signed {second : Pattern} {finish : State} (negative : Bool) (filled : digits ≠ [])
    (decimal : ∀ c ∈ digits, isDecimal c = true) (first : second.First ⟨digits ++ rest, captures⟩ finish) :
    (Pattern.append (.optional (.one .minus)) second).First
      ⟨(if negative then ['-'] else []) ++ digits ++ rest, captures⟩ finish := by
  cases negative with
  | true =>
    have minus : (Pattern.one .minus).First ⟨'-' :: (digits ++ rest), captures⟩
        ⟨digits ++ rest, captures⟩ := First.one .minus rfl _ _
    exact First.append (First.optional minus) first
  | false =>
    refine First.append (First.optional_of_fails (fails_of_not_leads ?_)) first
    rintro after ⟨c, minus, split, _⟩
    obtain ⟨d, digits, rfl⟩ := List.exists_cons_of_ne_nil filled
    obtain ⟨rfl, _⟩ := List.cons.inj split
    obtain rfl : d = '-' := eq_of_beq minus
    exact absurd (decimal '-' List.mem_cons_self) (by decide)

/-- One of the four words is taken as a whole, whatever follows it. -/
theorem first_booleanPattern {word : String} (known : word ∈ ["true", "false", "True", "False"])
    (rest : List Char) (captures : List (String × List Char)) :
    booleanPattern.First ⟨word.toList ++ rest, captures⟩ ⟨rest, captures⟩ := by
  have literal (text : String) : (Pattern.literal text.toList).First
      ⟨text.toList ++ rest, captures⟩ ⟨rest, captures⟩ := First.literal _ _ _
  simp only [List.mem_cons, List.not_mem_nil, or_false] at known
  have noTrue (c : Char) (other : 't' ≠ c) (rest : List Char) :
      (Pattern.literal "true".toList).Fails ⟨c :: rest, captures⟩ := fails_literal other _ _ _
  have noFalse (c : Char) (other : 'f' ≠ c) (rest : List Char) :
      (Pattern.literal "false".toList).Fails ⟨c :: rest, captures⟩ := fails_literal other _ _ _
  have noCapital (c : Char) (other : 'T' ≠ c) (rest : List Char) :
      (Pattern.literal "True".toList).Fails ⟨c :: rest, captures⟩ := fails_literal other _ _ _
  -- The four words begin with different letters, so that no word is mistaken for another.
  rcases known with rfl | rfl | rfl | rfl
  · exact First.either_left (literal "true")
  · exact First.either_right (noTrue 'f' (by decide) _) (First.either_left (literal "false"))
  · exact First.either_right (noTrue 'T' (by decide) _)
      (First.either_right (noFalse 'T' (by decide) _) (First.either_left (literal "True")))
  · exact First.either_right (noTrue 'F' (by decide) _)
      (First.either_right (noFalse 'F' (by decide) _)
        (First.either_right (noCapital 'F' (by decide) _) (literal "False")))

namespace FieldText

theorem all_bare (written : FieldText kind text) : ∀ c ∈ text, CharClass.bare.holds c = true := by
  cases written with
  | number negative digits filled decimal =>
    rw [List.forall_mem_append]
    refine ⟨?_, fun c member => bare_of_isDecimal (decimal c member)⟩
    cases negative <;> exact List.all_eq_true.mp rfl
  | boolean word known =>
    simp only [List.mem_cons, List.not_mem_nil, or_false] at known
    rcases known with rfl | rfl | rfl | rfl <;> exact List.all_eq_true.mp rfl
  | bare _ _ _ _ bare => exact bare

theorem filled (written : FieldText kind text) : text ≠ [] := by
  cases written with
  | number negative digits filled decimal => exact List.append_ne_nil_of_right_ne_nil _ filled
  | boolean word known =>
    simp only [List.mem_cons, List.not_mem_nil, or_false] at known
    rcases known with rfl | rfl | rfl | rfl <;> decide
  | bare _ _ _ filled _ => exact filled

theorem tight (written : FieldText kind text) : Tight text := by
  refine tight_of_forall written.filled fun c member => ?_
  have bare := written.all_bare c member
  simp only [CharClass.holds, Bool.and_eq_true, Bool.not_eq_true'] at bare
  exact bare.1.1.1

/-- The pattern of a kind takes a text of it as a whole where something else follows. -/
theorem first (written : FieldText kind text)
    (stopped : ∀ c ∈ rest.head?, CharClass.bare.holds c = false)
    (captures : List (String × List Char)) :
    (fieldPattern kind).First ⟨text ++ rest, captures⟩ ⟨rest, captures⟩ := by
  cases written with
  | number negative digits filled decimal =>
    have ended : ∀ c ∈ rest.head?, CharClass.digit.holds c = false := by
      intro c head
      by_contra decimal
      have bare := bare_of_isDecimal (Bool.not_eq_false _ ▸ decimal)
      rw [stopped c head] at bare
      cases bare
    exact first_signed negative filled decimal (First.many .digit filled decimal ended captures)
  | boolean word known => exact first_booleanPattern known rest captures
  | bare _ plain _ filled bare =>
    have run := First.many .bare filled bare stopped captures
    cases kind with
    | number => exact absurd rfl plain.1
    | boolean => exact absurd rfl plain.2
    | identifier => exact run
    | stringLiteral => exact run
    | other _ => exact run

theorem of_leads {start finish : State} (leads : (fieldPattern kind).Leads start finish) :
    ∃ used, FieldText kind used ∧ start.rest = used ++ finish.rest ∧
      finish.captures = start.captures := by
  have run (plain : kind ≠ .number ∧ kind ≠ .boolean)
      (leads : (Pattern.many .bare).Leads start finish) :
      ∃ used, FieldText kind used ∧ start.rest = used ++ finish.rest ∧
        finish.captures = start.captures := by
    obtain ⟨run, filled, all, split, same⟩ := leads
    exact ⟨run, .bare kind plain run filled all, split, same⟩
  cases kind with
  | number =>
    obtain ⟨middle, sign, digits, filled, all, split, same⟩ := leads
    have written (negative : Bool) := number negative digits filled all
    rcases sign with ⟨c, minus, signed, kept⟩ | rfl
    · obtain rfl : c = '-' := eq_of_beq minus
      exact ⟨_, written true, by rw [signed, split]; rfl, same.trans kept⟩
    · exact ⟨_, written false, split, same⟩
  | boolean =>
    have word (text : String) (known : text ∈ ["true", "false", "True", "False"])
        (leads : (Pattern.literal text.toList).Leads start finish) :
        ∃ used, FieldText .boolean used ∧ start.rest = used ++ finish.rest ∧
          finish.captures = start.captures :=
      ⟨text.toList, boolean text known, leads_literal.mp leads⟩
    rcases leads with leads | leads | leads | leads
    · exact word "true" (by simp) leads
    · exact word "false" (by simp) leads
    · exact word "True" (by simp) leads
    · exact word "False" (by simp) leads
  | identifier => exact run ⟨nofun, nofun⟩ leads
  | stringLiteral => exact run ⟨nofun, nofun⟩ leads
  | other _ => exact run ⟨nofun, nofun⟩ leads

end FieldText

/-! ### The values -/

/-- The number that a numeral writes. -/
theorem numberValue_numeral (negative : Bool) (filled : digits ≠ [])
    (decimal : ∀ c ∈ digits, isDecimal c = true) :
    numberValue ((if negative then ['-'] else []) ++ digits) =
      if Json.digitLimit < digits.length then
        .scalar (.float (.ofDecimal negative (decimalValue digits) 0))
      else .int (if negative then -(decimalValue digits : Int) else decimalValue digits) := by
  have whole : digits.takeWhile isDecimal = digits := List.takeWhile_eq_self_iff.mpr decimal
  have none : digits.dropWhile isDecimal = [] := List.dropWhile_eq_nil_iff.mpr decimal
  obtain ⟨c, more, rfl⟩ := List.exists_cons_of_ne_nil filled
  have unsigned : c ≠ '-' := by
    rintro rfl
    exact absurd (decimal '-' List.mem_cons_self) (by decide)
  cases negative with
  | true =>
    simp only [numberValue, if_true, List.cons_append, List.nil_append, whole, none,
      List.isEmpty_cons, Bool.false_eq_true, if_false]
  | false =>
    rw [if_neg Bool.false_ne_true, List.nil_append, numberValue]
    · simp only [whole, none, List.isEmpty_cons, Bool.false_eq_true, if_false]
    · exact fun rest same => unsigned (List.cons.inj same).1

/-- A value that fits is shown as a text of its kind, which is read as that value again. -/
theorem Fits.shown (fits : Fits kind value) :
    FieldText kind value.shown ∧ valueOf kind value.shown = value := by
  cases fits with
  | number value short =>
    have fitting (n : Nat) (short : n < 10 ^ Json.digitLimit) :
        ¬ Json.digitLimit < (Nat.toDigits 10 n).length :=
      Nat.not_lt.mpr ((Nat.length_toDigits_le_iff (by decide) (by decide)).mpr short)
    cases value with
    | ofNat n =>
      have read := numberValue_numeral false Nat.toDigits_ne_nil (@isDecimal_of_mem_toDigits n)
      rw [if_neg (fitting n short), decimalValue_toDigits] at read
      exact ⟨.number false _ Nat.toDigits_ne_nil isDecimal_of_mem_toDigits, read⟩
    | negSucc n =>
      have read := numberValue_numeral true Nat.toDigits_ne_nil (@isDecimal_of_mem_toDigits (n + 1))
      rw [if_neg (fitting (n + 1) short), decimalValue_toDigits] at read
      exact ⟨.number true _ Nat.toDigits_ne_nil isDecimal_of_mem_toDigits, read⟩
  | boolean value =>
    cases value with
    | false => exact ⟨.boolean "False" (by simp), rfl⟩
    | true => exact ⟨.boolean "True" (by simp), rfl⟩
  | bare _ plain value filled bare =>
    refine ⟨.bare kind plain _ (by simpa [Value.shown, Scalar.shown] using filled) bare, ?_⟩
    have read : Value.text (String.ofList value.toList) = .text value := by
      rw [String.ofList_toList]
    cases kind with
    | number => exact absurd rfl plain.1
    | boolean => exact absurd rfl plain.2
    | identifier => exact read
    | stringLiteral => exact read
    | other _ => exact read

/-- The value of a text fits its kind, unless the text is an overlong numeral. -/
theorem FieldText.fits (written : FieldText kind text) :
    Fits kind (valueOf kind text) ∨ Overlong kind (valueOf kind text) := by
  cases written with
  | number negative digits filled decimal =>
    rw [valueOf, numberValue_numeral negative filled decimal]
    split
    · next long => exact .inr (.number negative digits decimal long)
    · next short =>
      refine .inl (.number _ ?_)
      have bound : decimalValue digits < 10 ^ Json.digitLimit :=
        lt_of_lt_of_le (decimalValue_lt digits)
          (Nat.pow_le_pow_right (by decide) (Nat.le_of_not_lt short))
      cases negative with
      | true => rwa [if_pos rfl, Int.natAbs_neg, Int.natAbs_natCast]
      | false => rwa [if_neg Bool.false_ne_true, Int.natAbs_natCast]
  | boolean word known => exact .inl (.boolean _)
  | bare _ plain _ filled bare =>
    have plainText := Fits.bare kind plain (String.ofList text) (by simpa using filled)
      (by rwa [String.toList_ofList])
    cases kind with
    | number => exact absurd rfl plain.1
    | boolean => exact absurd rfl plain.2
    | identifier => exact .inl plainText
    | stringLiteral => exact .inl plainText
    | other _ => exact .inl plainText

end Scaffold.Extract
