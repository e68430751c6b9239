import Scaffold.Number.Binary64

/-!
The shortest decimal text of a floating-point number: the fewest digits that read back as the same
number, and of those the nearest to it.
-/

namespace Scaffold.Binary64

/-- The exponent of the leading decimal digit of a positive fraction. -/
def decimalLog (numerator denominator : Nat) : Int :=
  -- Below one the digits of the inverse leave two powers to choose from.
  if denominator ≤ numerator then (Nat.toDigits 10 (numerator / denominator)).length - 1
  else
    let places := (Nat.toDigits 10 (denominator / numerator)).length
    if denominator ≤ numerator * Nat.pow 10 (places - 1) then -((places : Int) - 1) else -(places : Int)

/-- The two decimals next to a fraction on the grid of a power of ten, in units of that power. -/
def gridNeighbours (numerator denominator : Nat) (power : Int) : Nat × Nat :=
  let scaled :=
    if 0 ≤ power then (numerator, denominator * Nat.pow 10 power.toNat)
    else (numerator * Nat.pow 10 (-power).toNat, denominator)
  (scaled.1 / scaled.2, scaled.1 / scaled.2 + 1)

/-- The lower neighbour is the nearer one, or as near and even. -/
def lowerIsNearer (numerator denominator : Nat) (power : Int) : Bool :=
  let scaled :=
    if 0 ≤ power then (numerator, denominator * Nat.pow 10 power.toNat)
    else (numerator * Nat.pow 10 (-power).toNat, denominator)
  let double := 2 * (scaled.1 % scaled.2)
  double < scaled.2 || (double == scaled.2 && (scaled.1 / scaled.2) % 2 == 0)

/-- The decimal with a given count of digits that reads back as the number, if there is one: of the
two neighbours on that grid the nearer that does. The result is a whole number and a power of ten. -/
def digitsOf? (mantissa : Nat) (exponent : Int) (count : Nat) : Option (Nat × Int) :=
  let fraction := scale mantissa 1 exponent
  let power := decimalLog fraction.1 fraction.2 - ((count : Int) - 1)
  let (below, above) := gridNeighbours fraction.1 fraction.2 power
  let candidates :=
    if lowerIsNearer fraction.1 fraction.2 power then [below, above] else [above, below]
  (candidates.find? fun digits =>
    ofDecimal false digits power == finite false mantissa exponent).map (·, power)

/-- The exact decimal of a finite number. -/
def exactDecimal (mantissa : Nat) (exponent : Int) : Nat × Int :=
  if 0 ≤ exponent then (mantissa * Nat.pow 2 exponent.toNat, 0)
  else (mantissa * Nat.pow 5 (-exponent).toNat, exponent)

/-- The shortest decimal of a positive finite number, among those of up to seventeen digits; the exact
one would do where they did not. -/
def shortest (mantissa : Nat) (exponent : Int) : Nat × Int :=
  ((List.range 17).findSome? fun index => digitsOf? mantissa exponent (index + 1)).getD
    (exactDecimal mantissa exponent)

/-- The digits of a whole number without the zeros at its end. -/
def significant (digits : Nat) : List Char :=
  let text := Nat.toDigits 10 digits
  let front := (text.reverse.dropWhile (· == '0')).reverse
  if front.isEmpty then ['0'] else front

/-- The written form of a positive decimal with the leading digit at a power of ten. From `10 ^ -4`
to below `10 ^ 16` it is positional, with at least one digit after the point; beyond, it has one digit
before the point and an exponent of at least two digits with its sign. -/
def layout (digits : List Char) (leading : Int) : List Char :=
  if -4 ≤ leading && leading < 16 then
    if leading < 0 then
      ['0', '.'] ++ List.replicate (-leading - 1).toNat '0' ++ digits
    else
      let whole := leading.toNat + 1
      if digits.length ≤ whole then
        digits ++ List.replicate (whole - digits.length) '0' ++ ['.', '0']
      else digits.take whole ++ ['.'] ++ digits.drop whole
  else
    let power := Nat.toDigits 10 leading.natAbs
    let padded := if power.length < 2 then '0' :: power else power
    let fraction := if digits.length ≤ 1 then [] else '.' :: digits.drop 1
    digits.take 1 ++ fraction ++ ['e', if leading < 0 then '-' else '+'] ++ padded

/-- The text of a floating-point number. -/
def text : Binary64 → List Char
  | notANumber => "nan".toList
  | infinite negative => if negative then "-inf".toList else "inf".toList
  | finite negative mantissa exponent =>
    let sign := if negative then ['-'] else []
    if mantissa = 0 then sign ++ "0.0".toList
    else
      let (digits, power) := shortest mantissa exponent
      let leading := (Nat.toDigits 10 digits).length - 1 + power
      sign ++ layout (significant digits) leading

end Scaffold.Binary64
