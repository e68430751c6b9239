/-!
Binary floating-point numbers of 64 bits, held exactly: a sign, a whole mantissa and a power of two.
Reading a decimal rounds to the nearest such number, and a tie goes to the even mantissa.
-/

namespace Scaffold

/-- A floating-point number. A finite one is `mantissa * 2 ^ exponent` with a mantissa below `2 ^ 53`
and an exponent from -1074 up; the mantissa fills its 53 bits unless the exponent is -1074. -/
inductive Binary64
  | finite (negative : Bool) (mantissa : Nat) (exponent : Int)
  | infinite (negative : Bool)
  | notANumber
  deriving DecidableEq, Repr, Inhabited

namespace Binary64

/-- The quotient rounded to the nearest whole number; a tie goes to the even neighbour. -/
def roundDiv (numerator denominator : Nat) : Nat :=
  let quotient := numerator / denominator
  let double := 2 * (numerator % denominator)
  if double < denominator then quotient
  else if denominator < double then quotient + 1
  else quotient + quotient % 2

/-- The product with a power of two, as a fraction of two whole numbers. -/
def scale (numerator denominator : Nat) (power : Int) : Nat × Nat :=
  if 0 ≤ power then (numerator * Nat.pow 2 power.toNat, denominator)
  else (numerator, denominator * Nat.pow 2 (-power).toNat)

/-- The whole part of the binary logarithm of a positive fraction. -/
def binaryLog (numerator denominator : Nat) : Int :=
  let guess : Int := numerator.log2 - denominator.log2
  let scaled := scale numerator denominator (-guess)
  if scaled.2 ≤ scaled.1 then guess else guess - 1

/-- The number nearest to a fraction. -/
def ofRatio (negative : Bool) (numerator denominator : Nat) : Binary64 :=
  if numerator = 0 then finite negative 0 (-1074)
  else
    let exponent := max (-1074) (binaryLog numerator denominator - 52)
    let scaled := scale numerator denominator (-exponent)
    let mantissa := roundDiv scaled.1 scaled.2
    let rounded := if mantissa = Nat.pow 2 53 then (Nat.pow 2 52, exponent + 1) else (mantissa, exponent)
    if 971 < rounded.2 then infinite negative else finite negative rounded.1 rounded.2

/-- The number nearest to `digits * 10 ^ power`. Powers far out of range are settled without
computing them. -/
def ofDecimal (negative : Bool) (digits : Nat) (power : Int) : Binary64 :=
  if digits = 0 then finite negative 0 (-1074)
  else
    let leading := (Nat.toDigits 10 digits).length + power
    if 310 < leading then infinite negative
    else if leading < -330 then finite negative 0 (-1074)
    else if 0 ≤ power then ofRatio negative (digits * Nat.pow 10 power.toNat) 1
    else ofRatio negative digits (Nat.pow 10 (-power).toNat)

/-- The number nearest to an integer. -/
def ofInt (value : Int) : Binary64 :=
  ofRatio (decide (value < 0)) value.natAbs 1

/-- The exact value of a finite number, as a numerator and a positive denominator. -/
def ratio? : Binary64 → Option (Int × Nat)
  | finite negative mantissa exponent =>
    let scaled := scale mantissa 1 exponent
    some (if negative then -(scaled.1 : Int) else scaled.1, scaled.2)
  | _ => none

/-- The number nearest to an exact fraction. -/
def ofFraction (value : Int × Nat) : Binary64 :=
  ofRatio (decide (value.1 < 0)) value.1.natAbs value.2

/-- The sum of two numbers, rounded once. -/
def add (x y : Binary64) : Binary64 :=
  match x.ratio?, y.ratio? with
  | some a, some b => ofFraction (a.1 * b.2 + b.1 * a.2, a.2 * b.2)
  | none, _ => x
  | _, none => y

/-- The product with a whole number, rounded once. -/
def timesNat (x : Binary64) (factor : Nat) : Binary64 :=
  match x.ratio? with
  | some a => ofFraction (a.1 * factor, a.2)
  | none => x

/-- The number with the other sign. -/
def negate : Binary64 → Binary64
  | finite negative mantissa exponent => finite (!negative) mantissa exponent
  | infinite negative => infinite (!negative)
  | notANumber => notANumber

/-- Zero, of either sign. -/
def isZero : Binary64 → Bool
  | finite _ mantissa _ => mantissa == 0
  | _ => false

/-- The comparison with an integer: `none` when the number is not comparable. -/
def compareInt? (x : Binary64) (value : Int) : Option Ordering :=
  match x with
  | notANumber => none
  | infinite negative => some (if negative then .lt else .gt)
  | finite .. => x.ratio?.map fun a => compare a.1 (value * a.2)

/-- Numerical equality: the two zeros are equal, and no number equals one that is none. -/
def same : Binary64 → Binary64 → Bool
  | notANumber, _ => false
  | _, notANumber => false
  | x, y => x == y || (x.isZero && y.isZero)

end Binary64

end Scaffold
