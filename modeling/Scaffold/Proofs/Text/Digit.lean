import Mathlib.Algebra.Group.Nat.Defs
import Mathlib.Data.List.Basic
import Scaffold.Proofs.Text.Variable
import Scaffold.Text.Digit

/-!
Decimal digits and the numbers that they write. A number that is read digit by digit is less than the
power of ten with as many zeros, and the digits of a number are read as this number.
-/

namespace Scaffold.Text

variable {c : Char} {digits : List Char} {value : Char → Nat}

/-- The digits of every script lie between the blanks. -/
theorem zeroDigits_apart : ∀ origin ∈ zeroDigits, origin + 10 ≤ 0x85 ∨
    0xa0 < origin ∧ origin + 10 ≤ 0x1680 ∨ 0x1680 < origin ∧ origin + 10 ≤ 0x2000 ∨
    0x205f < origin ∧ origin + 10 ≤ 0x3000 ∨ 0x3000 < origin := by
  decide

theorem digitValue?_of_isBlank (blank : isBlank c = true) : digitValue? c = none := by
  simp only [isBlank, Bool.or_eq_true, Bool.and_eq_true, decide_eq_true_eq, beq_iff_eq] at blank
  rw [digitValue?]
  split
  · rw [if_neg]
    rw [isDigit_iff]
    omega
  · rw [Option.map_eq_none_iff, List.find?_eq_none]
    intro origin listed within
    have apart := zeroDigits_apart origin listed
    simp only [Bool.and_eq_true, decide_eq_true_eq] at within
    omega

theorem digitValue?_of_isDigit (digit : c.isDigit = true) :
    digitValue? c = some (c.toNat - 48) := by
  have ascii : c.toNat < 128 := by
    rw [isDigit_iff] at digit
    omega
  rw [digitValue?, if_pos ascii, if_pos digit]

theorem isDecimal_of_isDigit (digit : c.isDigit = true) : isDecimal c = true := by
  rw [isDecimal, digitValue?_of_isDigit digit]
  rfl

theorem isDecimal_of_mem_toDigits {n : Nat} : ∀ c ∈ Nat.toDigits 10 n, isDecimal c = true :=
  fun _ member =>
    isDecimal_of_isDigit (Nat.isDigit_of_mem_toDigits (by decide) (by decide) member)

theorem digitValue?_lt (c : Char) : (digitValue? c).getD 0 < 10 := by
  rw [digitValue?]
  split
  · split
    · next digit =>
      rw [isDigit_iff] at digit
      rw [Option.getD_some]
      omega
    · exact Nat.zero_lt_succ 9
  · cases found : zeroDigits.find? fun origin => origin ≤ c.toNat && c.toNat < origin + 10 with
    | none => exact Nat.zero_lt_succ 9
    | some origin =>
      have within := List.find?_some found
      simp only [Bool.and_eq_true, decide_eq_true_eq] at within
      rw [Option.map_some, Option.getD_some]
      omega

/-! ### Numerals -/

theorem foldl_digits_lt (small : ∀ digit ∈ digits, value digit < 10) :
    digits.foldl (fun number digit => number * 10 + value digit) 0 < 10 ^ digits.length := by
  have bound : ∀ number, digits.foldl (fun number digit => number * 10 + value digit) number <
      (number + 1) * 10 ^ digits.length := by
    induction digits with
    | nil => intro number; simp
    | cons digit digits ih =>
      intro number
      obtain ⟨here, small⟩ := List.forall_mem_cons.mp small
      calc digits.foldl _ (number * 10 + value digit)
          < (number * 10 + value digit + 1) * 10 ^ digits.length := ih small _
        _ ≤ (number + 1) * 10 * 10 ^ digits.length := Nat.mul_le_mul_right _ (by omega)
        _ = (number + 1) * 10 ^ (digits.length + 1) := by
          rw [Nat.pow_succ, Nat.mul_assoc, Nat.mul_comm 10]
  have whole := bound 0
  rw [Nat.zero_add, Nat.one_mul] at whole
  exact whole

/-- The digits of a number are read as the number wherever those of ASCII have their values. -/
theorem foldl_toDigits (known : ∀ c, c.isDigit = true → value c = c.toNat - 48) (n : Nat) :
    (Nat.toDigits 10 n).foldl (fun number digit => number * 10 + value digit) 0 = n := by
  have same : (Nat.toDigits 10 n).foldl (fun number digit => number * 10 + value digit) 0 =
      Nat.ofDigitChars 10 (Nat.toDigits 10 n) 0 := by
    rw [Nat.ofDigitChars_eq_foldl]
    refine List.foldl_ext _ _ _ fun number digit member => ?_
    rw [known digit (Nat.isDigit_of_mem_toDigits (by decide) (by decide) member), Nat.mul_comm]
    rfl
  rw [same, Nat.ofDigitChars_ten_toDigits]

end Scaffold.Text
