import Mathlib.Data.Int.Log
import Mathlib.Data.Nat.Log
import Mathlib.Data.Rat.Floor
import Mathlib.Tactic.FieldSimp
import Mathlib.Tactic.NormNum
import Mathlib.Tactic.Positivity
import Mathlib.Tactic.Ring
import Scaffold.Number.Shortest

/-!
Rounding a fraction to the nearest number. What comes out depends on the value of the fraction alone, so
that a decimal may be written with any power of ten, and a fraction that is a number already is kept.
So the decimal that is written for a number reads back as that number, whichever decimal it is.
-/

namespace Scaffold.Binary64

/-- The mantissa fills its bits unless the exponent is the least one, and the exponent is in range. -/
structure Fits (mantissa : Nat) (exponent : Int) : Prop where
  below : mantissa < 2 ^ 53
  least : -1074 ≤ exponent
  most : exponent ≤ 971
  full : 2 ^ 52 ≤ mantissa ∨ exponent = -1074

/-- The number in the one form that rounding gives it. -/
def Canonical : Binary64 → Prop
  | finite _ mantissa exponent => Fits mantissa exponent
  | _ => True

section Logarithms

variable {base : Nat} {x : ℚ} {power : Int}

theorem log_eq (large : 1 < base) (low : (base : ℚ) ^ power ≤ x) (high : x < (base : ℚ) ^ (power + 1)) :
    Int.log base x = power := by
  have positive : 0 < x := (zpow_pos (by exact_mod_cast large.le) power).trans_le low
  have below := (Int.lt_zpow_iff_log_lt large positive).mp high
  have above := (Int.zpow_le_iff_le_log large positive).mp low
  omega

theorem log_mul_zpow (large : 1 < base) (positive : 0 < x) (power : Int) :
    Int.log base (x * (base : ℚ) ^ power) = Int.log base x + power := by
  have nonzero : (base : ℚ) ≠ 0 := by exact_mod_cast (by omega : base ≠ 0)
  have scale : 0 < (base : ℚ) ^ power := zpow_pos (by exact_mod_cast large.le) power
  refine log_eq large ?_ ?_
  · rw [zpow_add₀ nonzero]
    exact mul_le_mul_of_nonneg_right (Int.zpow_log_le_self large positive) scale.le
  · rw [add_right_comm, zpow_add₀ nonzero]
    exact mul_lt_mul_of_pos_right (Int.lt_zpow_succ_log_self large x) scale

/-- The digits of a whole number are as many as its logarithm tells. -/
theorem length_toDigits {digits : Nat} (positive : digits ≠ 0) :
    ((Nat.toDigits 10 digits).length : Int) = Int.log 10 (digits : ℚ) + 1 := by
  rw [Int.log_natCast]
  have bounds (count : Nat) (filled : 0 < count) :
      (Nat.toDigits 10 digits).length ≤ count ↔ Nat.log 10 digits < count := by
    rw [Nat.length_toDigits_le_iff (by decide) filled, Nat.log_lt_iff_lt_pow (by decide) positive]
  have upper := (bounds (Nat.log 10 digits + 1) (by omega)).mpr (by omega)
  have lower := (bounds (Nat.toDigits 10 digits).length Nat.length_toDigits_pos).mp le_rfl
  omega

end Logarithms

section Scaling

variable {numerator denominator other otherDenominator : Nat}

theorem scale_pos (positive : 0 < denominator) (power : Int) : 0 < (scale numerator denominator power).2 := by
  unfold scale
  split
  · exact positive
  · exact Nat.mul_pos positive (Nat.pow_pos (by decide))

theorem scale_value (numerator : Nat) (positive : 0 < denominator) (power : Int) :
    ((scale numerator denominator power).1 : ℚ) / (scale numerator denominator power).2 =
      numerator / denominator * 2 ^ power := by
  have nonzero : (denominator : ℚ) ≠ 0 := by exact_mod_cast positive.ne'
  unfold scale
  split
  · next up =>
    obtain ⟨size, rfl⟩ := Int.eq_ofNat_of_zero_le up
    rw [Int.toNat_natCast, zpow_natCast]
    rw [Nat.pow_eq]
    push_cast
    field_simp
  · next down =>
    obtain ⟨size, same⟩ := Int.eq_ofNat_of_zero_le (by omega : 0 ≤ -power)
    obtain rfl : power = -size := by omega
    rw [neg_neg, Int.toNat_natCast, zpow_neg, zpow_natCast, Nat.pow_eq]
    push_cast
    field_simp

theorem one_le_scale_iff (positive : 0 < denominator) (power : Int) :
    (scale numerator denominator (-power)).2 ≤ (scale numerator denominator (-power)).1 ↔
      (2 : ℚ) ^ power ≤ numerator / denominator := by
  have value := scale_value numerator positive (-power)
  have below : (0 : ℚ) < (scale numerator denominator (-power)).2 := by
    exact_mod_cast scale_pos positive (-power)
  rw [← Nat.cast_le (α := ℚ), ← one_le_div below, value, zpow_neg, ← div_eq_mul_inv,
    one_le_div (zpow_pos (by decide) power)]

theorem binaryLog_eq (filled : 0 < numerator) (positive : 0 < denominator) :
    binaryLog numerator denominator = Int.log 2 ((numerator : ℚ) / denominator) := by
  have two : (2 : ℚ) ≠ 0 := by decide
  have above : (0 : ℚ) < denominator := by exact_mod_cast positive
  have top (n : Nat) : (n : ℚ) < 2 ^ ((n.log2 : Int) + 1) := by
    exact_mod_cast Nat.lt_log2_self (n := n)
  have bottom {n : Nat} (filled : 0 < n) : (2 : ℚ) ^ (n.log2 : Int) ≤ n := by
    exact_mod_cast Nat.log2_self_le filled.ne'
  unfold binaryLog
  extract_lets guess scaled
  -- the difference of the logarithms is the logarithm of the quotient or one more
  have high : (numerator : ℚ) / denominator < 2 ^ (guess + 1) := by
    rw [div_lt_iff₀ above]
    calc (numerator : ℚ) < 2 ^ ((numerator.log2 : Int) + 1) := top numerator
      _ = 2 ^ (guess + 1) * 2 ^ (denominator.log2 : Int) := by
        rw [← zpow_add₀ two]
        congr 1
        omega
      _ ≤ 2 ^ (guess + 1) * denominator :=
        mul_le_mul_of_nonneg_left (bottom positive) (zpow_pos (by decide) _).le
  have low : (2 : ℚ) ^ (guess - 1) ≤ numerator / denominator := by
    rw [le_div_iff₀ above]
    calc (2 : ℚ) ^ (guess - 1) * denominator
        ≤ 2 ^ (guess - 1) * 2 ^ ((denominator.log2 : Int) + 1) :=
          mul_le_mul_of_nonneg_left (top denominator).le (zpow_pos (by decide) _).le
      _ = 2 ^ (numerator.log2 : Int) := by
        rw [← zpow_add₀ two]
        congr 1
        omega
      _ ≤ numerator := bottom filled
  by_cases reached : scaled.2 ≤ scaled.1
  · rw [if_pos reached]
    exact (log_eq (by decide) ((one_le_scale_iff positive guess).mp reached) high).symm
  · rw [if_neg reached]
    have short := not_le.mp fun fits => reached ((one_le_scale_iff positive guess).mpr fits)
    exact (log_eq (by decide) low (by rwa [sub_add_cancel])).symm

section Congruence

variable (positive : 0 < denominator) (otherPositive : 0 < otherDenominator)
  (same : (numerator : ℚ) / denominator = other / otherDenominator)

include positive otherPositive same

theorem cross_eq : otherDenominator * numerator = denominator * other := by
  have above : (denominator : ℚ) ≠ 0 := by exact_mod_cast positive.ne'
  have otherAbove : (otherDenominator : ℚ) ≠ 0 := by exact_mod_cast otherPositive.ne'
  rw [div_eq_div_iff above otherAbove, mul_comm, mul_comm (other : ℚ)] at same
  exact_mod_cast same

/-- Rounding depends on the value of the quotient alone. -/
theorem roundDiv_congr : roundDiv numerator denominator = roundDiv other otherDenominator := by
  have stretched (n d factor : Nat) (filled : 0 < factor) : roundDiv (factor * n) (factor * d) = roundDiv n d := by
    have less (a b : Nat) : 2 * (factor * a) < factor * b ↔ 2 * a < b := by
      rw [Nat.mul_left_comm, Nat.mul_lt_mul_left filled]
    have more (a b : Nat) : factor * b < 2 * (factor * a) ↔ b < 2 * a := by
      rw [Nat.mul_left_comm, Nat.mul_lt_mul_left filled]
    simp only [roundDiv, Nat.mul_div_mul_left n d filled, Nat.mul_mod_mul_left, less, more]
  rw [← stretched numerator denominator otherDenominator otherPositive,
    cross_eq positive otherPositive same, ← stretched other otherDenominator denominator positive,
    mul_comm otherDenominator]

theorem ofRatio_congr (negative : Bool) :
    ofRatio negative numerator denominator = ofRatio negative other otherDenominator := by
  have crossed := cross_eq positive otherPositive same
  by_cases none : numerator = 0
  · have noneOther : other = 0 := by
      rw [none, mul_zero] at crossed
      exact (Nat.mul_eq_zero.mp crossed.symm).resolve_left positive.ne'
    rw [ofRatio, ofRatio, if_pos none, if_pos noneOther]
  · have someOther : other ≠ 0 := by
      rintro rfl
      exact (Nat.mul_ne_zero otherPositive.ne' none) crossed
    have exponents : binaryLog numerator denominator = binaryLog other otherDenominator := by
      rw [binaryLog_eq (Nat.pos_of_ne_zero none) positive,
        binaryLog_eq (Nat.pos_of_ne_zero someOther) otherPositive, same]
    have mantissas (power : Int) :
        roundDiv (scale numerator denominator power).1 (scale numerator denominator power).2 =
          roundDiv (scale other otherDenominator power).1 (scale other otherDenominator power).2 :=
      roundDiv_congr (scale_pos positive power) (scale_pos otherPositive power)
        (by rw [scale_value _ positive, scale_value _ otherPositive, same])
    simp only [ofRatio, none, someOther, exponents, mantissas]

end Congruence

/-- A fraction that is a number is kept as it is. -/
theorem ofRatio_exact {mantissa : Nat} {exponent : Int} (negative : Bool) (fits : Fits mantissa exponent)
    (filled : mantissa ≠ 0) (positive : 0 < denominator)
    (same : (numerator : ℚ) / denominator = mantissa * 2 ^ exponent) :
    ofRatio negative numerator denominator = finite negative mantissa exponent := by
  have two : (2 : ℚ) ≠ 0 := by decide
  have above : (0 : ℚ) < mantissa := by exact_mod_cast Nat.pos_of_ne_zero filled
  have nonzero : 0 < numerator := by
    rw [Nat.pos_iff_ne_zero]
    rintro rfl
    rw [Nat.cast_zero, zero_div] at same
    exact (mul_pos above (zpow_pos (by decide) exponent)).ne same
  have log : binaryLog numerator denominator = Nat.log 2 mantissa + exponent := by
    rw [binaryLog_eq nonzero positive, same, ← Int.log_natCast (R := ℚ)]
    exact log_mul_zpow (by decide) above exponent
  have chosen : max (-1074) (binaryLog numerator denominator - 52) = exponent := by
    have least := fits.least
    rcases fits.full with full | rfl
    · have width : Nat.log 2 mantissa = 52 := Nat.log_eq_of_pow_le_of_lt_pow full fits.below
      omega
    · have width : Nat.log 2 mantissa < 53 := Nat.log_lt_of_lt_pow filled fits.below
      omega
  have rounded : roundDiv (scale numerator denominator (-exponent)).1
      (scale numerator denominator (-exponent)).2 = mantissa := by
    have whole : roundDiv mantissa 1 = mantissa := by simp [roundDiv, Nat.mod_one]
    rw [← whole]
    refine roundDiv_congr (scale_pos positive _) Nat.one_pos ?_
    rw [scale_value _ positive, same, mul_assoc, ← zpow_add₀ two, add_neg_cancel, zpow_zero, Nat.cast_one]
    ring
  have narrow : mantissa ≠ Nat.pow 2 53 := fits.below.ne
  rw [ofRatio, if_neg nonzero.ne']
  simp only [chosen, rounded, if_neg narrow, if_neg (not_lt.mpr fits.most)]

end Scaling

section Decimals

variable {digits other : Nat} {power otherPower : Int}

/-- A decimal is rounded by its size and by the fraction that it is. -/
theorem ofDecimal_eq (negative : Bool) (filled : digits ≠ 0) (power : Int) :
    ∃ numerator denominator : Nat, 0 < denominator ∧
      (numerator : ℚ) / denominator = digits * 10 ^ power ∧
      ofDecimal negative digits power =
        if 309 < Int.log 10 ((digits : ℚ) * 10 ^ power) then infinite negative
        else if Int.log 10 ((digits : ℚ) * 10 ^ power) < -331 then finite negative 0 (-1074)
        else ofRatio negative numerator denominator := by
  have above : (0 : ℚ) < digits := by exact_mod_cast Nat.pos_of_ne_zero filled
  have leading : ((Nat.toDigits 10 digits).length : Int) + power =
      Int.log 10 ((digits : ℚ) * 10 ^ power) + 1 := by
    have shifted : Int.log 10 ((digits : ℚ) * ((10 : Nat) : ℚ) ^ power) =
        Int.log 10 (digits : ℚ) + power := log_mul_zpow (by decide) above power
    rw [Nat.cast_ofNat] at shifted
    rw [length_toDigits filled, shifted]
    ring
  generalize Int.log 10 ((digits : ℚ) * 10 ^ power) = log at leading
  have large : 310 < log + 1 ↔ 309 < log := by omega
  have small : log + 1 < -330 ↔ log < -331 := by omega
  simp only [ofDecimal, if_neg filled, leading, large, small]
  by_cases up : 0 ≤ power
  · obtain ⟨size, rfl⟩ := Int.eq_ofNat_of_zero_le up
    refine ⟨digits * Nat.pow 10 size, 1, Nat.one_pos, ?_, by simp⟩
    rw [zpow_natCast, Nat.pow_eq]
    push_cast
    ring
  · obtain ⟨size, same⟩ := Int.eq_ofNat_of_zero_le (by omega : 0 ≤ -power)
    obtain rfl : power = -size := by omega
    refine ⟨digits, Nat.pow 10 size, Nat.pow_pos (by decide), ?_, by rw [if_neg up, neg_neg, Int.toNat_natCast]⟩
    rw [zpow_neg, zpow_natCast, Nat.pow_eq]
    push_cast
    ring

/-- Reading a decimal depends on its value alone. -/
theorem ofDecimal_congr (negative : Bool) (same : (digits : ℚ) * 10 ^ power = other * 10 ^ otherPower) :
    ofDecimal negative digits power = ofDecimal negative other otherPower := by
  have ten (power : Int) : (10 : ℚ) ^ power ≠ 0 := zpow_ne_zero power (by decide)
  by_cases none : digits = 0
  · have noneOther : other = 0 := by
      rw [none, Nat.cast_zero, zero_mul] at same
      exact_mod_cast (mul_eq_zero.mp same.symm).resolve_right (ten otherPower)
    rw [ofDecimal, ofDecimal, if_pos none, if_pos noneOther]
  · have someOther : other ≠ 0 := by
      rintro rfl
      rw [Nat.cast_zero, zero_mul] at same
      exact none (by exact_mod_cast (mul_eq_zero.mp same).resolve_right (ten power))
    obtain ⟨_, _, positive, value, read⟩ := ofDecimal_eq negative none power
    obtain ⟨_, _, otherPositive, otherValue, readOther⟩ := ofDecimal_eq negative someOther otherPower
    have rounded := ofRatio_congr positive otherPositive (value.trans (same.trans otherValue.symm)) negative
    rw [read, readOther, same, rounded]

/-- The decimal of a number reads as the number. -/
theorem ofDecimal_exact {mantissa : Nat} {exponent : Int} (negative : Bool) (fits : Fits mantissa exponent)
    (filled : mantissa ≠ 0) (same : (digits : ℚ) * 10 ^ power = mantissa * 2 ^ exponent) :
    ofDecimal negative digits power = finite negative mantissa exponent := by
  have above : (0 : ℚ) < mantissa := by exact_mod_cast Nat.pos_of_ne_zero filled
  have positive : 0 < (mantissa : ℚ) * 2 ^ exponent := mul_pos above (zpow_pos (by decide) exponent)
  have nonzero : digits ≠ 0 := by
    rintro rfl
    rw [Nat.cast_zero, zero_mul] at same
    exact positive.ne same
  obtain ⟨numerator, denominator, below, value, read⟩ := ofDecimal_eq negative nonzero power
  have wide : 2 ^ 53 * 2 ^ 971 < 10 ^ 309 := by decide +kernel
  have fine : 2 ^ 1074 ≤ 10 ^ 324 := by decide +kernel
  have upper : Int.log 10 ((mantissa : ℚ) * 2 ^ exponent) < 309 := by
    refine (Int.lt_zpow_iff_log_lt (by decide) positive).mp ?_
    calc (mantissa : ℚ) * 2 ^ exponent < 2 ^ 53 * 2 ^ (971 : Int) := by
          refine mul_lt_mul (by exact_mod_cast fits.below) ?_ (zpow_pos (by decide) _) (by positivity)
          exact zpow_le_zpow_right₀ (by decide) fits.most
      _ < ((10 : Nat) : ℚ) ^ (309 : Int) := by exact_mod_cast wide
  have lower : -324 ≤ Int.log 10 ((mantissa : ℚ) * 2 ^ exponent) := by
    refine (Int.zpow_le_iff_le_log (by decide) positive).mp ?_
    calc ((10 : Nat) : ℚ) ^ (-324 : Int) ≤ 1 * 2 ^ (-1074 : Int) := by
          rw [one_mul, zpow_neg, zpow_neg]
          exact inv_anti₀ (zpow_pos (by decide) _) (by exact_mod_cast fine)
      _ ≤ mantissa * 2 ^ exponent := by
        refine mul_le_mul (by exact_mod_cast Nat.pos_of_ne_zero filled) ?_ (zpow_pos (by decide) _).le above.le
        exact zpow_le_zpow_right₀ (by decide) fits.least
  rw [read, same, if_neg (by omega), if_neg (by omega)]
  exact ofRatio_exact negative fits filled below (value.trans same)

end Decimals

section Shortest

variable {mantissa : Nat} {exponent : Int}

theorem exactDecimal_value (mantissa : Nat) (exponent : Int) :
    ((exactDecimal mantissa exponent).1 : ℚ) * 10 ^ (exactDecimal mantissa exponent).2 =
      mantissa * 2 ^ exponent := by
  unfold exactDecimal
  split
  · next up =>
    obtain ⟨size, rfl⟩ := Int.eq_ofNat_of_zero_le up
    rw [Int.toNat_natCast, zpow_zero, mul_one, zpow_natCast, Nat.pow_eq]
    push_cast
    rfl
  · next down =>
    obtain ⟨size, same⟩ := Int.eq_ofNat_of_zero_le (by omega : 0 ≤ -exponent)
    obtain rfl : exponent = -size := by omega
    rw [neg_neg, Int.toNat_natCast, Nat.pow_eq, zpow_neg, zpow_neg, zpow_natCast, zpow_natCast]
    have split : (10 : ℚ) ^ size = 5 ^ size * 2 ^ size := by
      rw [← mul_pow]
      norm_num
    rw [split]
    push_cast
    field_simp

/-- The decimal that is written for a number reads as the number. -/
theorem ofDecimal_shortest (fits : Fits mantissa exponent) (filled : mantissa ≠ 0) :
    ofDecimal false (shortest mantissa exponent).1 (shortest mantissa exponent).2 =
      finite false mantissa exponent := by
  unfold shortest
  cases found : (List.range 17).findSome? fun index => digitsOf? mantissa exponent (index + 1) with
  | none => exact ofDecimal_exact false fits filled (exactDecimal_value mantissa exponent)
  | some decimal =>
    obtain ⟨index, _, given⟩ := List.exists_of_findSome?_eq_some found
    obtain ⟨digits, chosen, rfl⟩ := Option.map_eq_some_iff.mp given
    have kept := List.find?_some chosen
    exact eq_of_beq kept

end Shortest

/-- A number with a sign. -/
def withSign (negative : Bool) : Binary64 → Binary64
  | finite _ mantissa exponent => finite negative mantissa exponent
  | infinite _ => infinite negative
  | notANumber => notANumber

theorem ofRatio_withSign (negative : Bool) (numerator denominator : Nat) :
    ofRatio negative numerator denominator = (ofRatio false numerator denominator).withSign negative := by
  unfold ofRatio
  dsimp only
  split_ifs <;> rfl

theorem ofDecimal_withSign (negative : Bool) (digits : Nat) (power : Int) :
    ofDecimal negative digits power = (ofDecimal false digits power).withSign negative := by
  unfold ofDecimal
  dsimp only
  split_ifs <;> first | rfl | exact ofRatio_withSign _ _ _

section Rounding

variable {numerator denominator bound : Nat} {power : Int} {width : Nat}

theorem le_roundDiv (positive : 0 < denominator) (low : bound * denominator ≤ numerator) :
    bound ≤ roundDiv numerator denominator := by
  have whole : bound ≤ numerator / denominator := (Nat.le_div_iff_mul_le positive).mpr low
  unfold roundDiv
  dsimp only
  split
  · exact whole
  · split <;> omega

theorem roundDiv_le (high : numerator < bound * denominator) : roundDiv numerator denominator ≤ bound := by
  have whole : numerator / denominator < bound := Nat.div_lt_of_lt_mul (by rwa [Nat.mul_comm])
  unfold roundDiv
  dsimp only
  split
  · omega
  · split <;> omega

/-- The logarithm tells between which powers of two a fraction is, in units of another one. -/
theorem scale_bounds (filled : 0 < numerator) (positive : 0 < denominator) (power : Int) (width : Nat) :
    (binaryLog numerator denominator < power + width →
      (scale numerator denominator (-power)).1 < 2 ^ width * (scale numerator denominator (-power)).2) ∧
    (power + width ≤ binaryLog numerator denominator →
      2 ^ width * (scale numerator denominator (-power)).2 ≤ (scale numerator denominator (-power)).1) := by
  have value := scale_value numerator positive (-power)
  have above : (0 : ℚ) < (scale numerator denominator (-power)).2 := by
    exact_mod_cast scale_pos positive (-power)
  have unit : (0 : ℚ) < 2 ^ (-power) := zpow_pos (by decide) _
  have ratio : (0 : ℚ) < numerator / denominator :=
    div_pos (by exact_mod_cast filled) (by exact_mod_cast positive)
  have shifted : (2 : ℚ) ^ width = 2 ^ (power + width) * 2 ^ (-power) := by
    rw [← zpow_add₀ (by decide), add_neg_cancel_comm, zpow_natCast]
  rw [binaryLog_eq filled positive]
  constructor
  · intro small
    have high : ((numerator : ℚ) / denominator) < 2 ^ (power + width) :=
      (Int.lt_zpow_iff_log_lt (by decide) ratio).mpr small
    have fits : ((scale numerator denominator (-power)).1 : ℚ) / (scale numerator denominator (-power)).2 < 2 ^ width := by
      rw [value, shifted]
      exact mul_lt_mul_of_pos_right high unit
    rw [div_lt_iff₀ above] at fits
    exact_mod_cast fits
  · intro large
    have low : (2 : ℚ) ^ (power + width) ≤ numerator / denominator :=
      (Int.zpow_le_iff_le_log (by decide) ratio).mpr large
    have fits : (2 : ℚ) ^ width ≤ (scale numerator denominator (-power)).1 / (scale numerator denominator (-power)).2 := by
      rw [value, shifted]
      exact mul_le_mul_of_nonneg_right low unit.le
    rw [le_div_iff₀ above] at fits
    exact_mod_cast fits

/-- Rounding gives a number in its one form. -/
theorem ofRatio_canonical (negative : Bool) (positive : 0 < denominator) :
    (ofRatio negative numerator denominator).Canonical := by
  unfold ofRatio
  split
  · exact ⟨by decide, by decide, by decide, .inr rfl⟩
  · next filled =>
    extract_lets exponent scaled mantissa rounded
    have bounds := scale_bounds (Nat.pos_of_ne_zero filled) positive exponent
    have least : -1074 ≤ exponent := le_max_left _ _
    have below : mantissa ≤ 2 ^ 53 := roundDiv_le ((bounds 53).1 (by omega))
    have full : 2 ^ 52 ≤ mantissa ∨ exponent = -1074 := by
      by_cases small : exponent = -1074
      · exact .inr small
      · exact .inl (le_roundDiv (scale_pos positive _) ((bounds 52).2 (by omega)))
    have narrow : Nat.pow 2 52 < 2 ^ 53 ∧ 2 ^ 52 ≤ Nat.pow 2 52 := by decide
    split
    · trivial
    · next most =>
      unfold rounded at most ⊢
      split at most
      · next top =>
        rw [if_pos top]
        exact ⟨narrow.1, by dsimp only; omega, not_lt.mp most, .inl narrow.2⟩
      · next apart =>
        rw [if_neg apart]
        exact ⟨lt_of_le_of_ne below apart, least, not_lt.mp most, full⟩

/-- Every decimal is read as a number in its one form. -/
theorem ofDecimal_canonical (negative : Bool) (digits : Nat) (power : Int) :
    (ofDecimal negative digits power).Canonical := by
  have zero : Canonical (finite negative 0 (-1074)) := ⟨by decide, by decide, by decide, .inr rfl⟩
  unfold ofDecimal
  split
  · exact zero
  · dsimp only
    split
    · trivial
    · split
      · exact zero
      · split
        · exact ofRatio_canonical negative Nat.one_pos
        · exact ofRatio_canonical negative (Nat.pow_pos (by decide))

end Rounding
end Scaffold.Binary64
