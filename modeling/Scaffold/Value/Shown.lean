import Scaffold.Number.Shortest
import Scaffold.Text.Quoted
import Scaffold.Text.Line
import Scaffold.Value.Basic

/-!
The text of values. A text on its own is shown as it is; inside a list or a map it is quoted.
-/

namespace Scaffold

/-- A whole number with at least `width` digits. -/
def padded (width number : Nat) : List Char :=
  let digits := Nat.toDigits 10 number
  List.replicate (width - digits.length) '0' ++ digits

/-- An integer in decimal. -/
def intText : Int → List Char
  | .ofNat n => Nat.toDigits 10 n
  | .negSucc n => '-' :: Nat.toDigits 10 (n + 1)

/-- The parts with a comma and a space between any two neighbours. -/
def commaJoined (parts : List (List Char)) : List Char :=
  Text.joinWith [',', ' '] parts

namespace Scalar

def shown : Scalar → List Char
  | null => "None".toList
  | bool value => if value then "True".toList else "False".toList
  | int value => intText value
  | float value => value.text
  | text value => value.toList
  | date year month day => padded 4 year ++ ['-'] ++ padded 2 month ++ ['-'] ++ padded 2 day

def shownInside : Scalar → List Char
  | text value => Text.quoted value.toList
  | date year month day =>
    let parts := [year, month, day].map (Nat.toDigits 10)
    "datetime.date(".toList ++ commaJoined parts ++ [')']
  | null => "None".toList
  | bool value => if value then "True".toList else "False".toList
  | int value => intText value
  | float value => value.text

end Scalar

namespace Value

mutual

def shownInside : Value → List Char
  | scalar value => value.shownInside
  | list items => ['['] ++ commaJoined (shownItems items) ++ [']']
  | map entries => ['{'] ++ commaJoined (shownEntries entries) ++ ['}']

def shownItems : List Value → List (List Char)
  | [] => []
  | item :: rest => shownInside item :: shownItems rest

/-- The texts of the entries of a map. -/
def shownEntries : List (Scalar × Value) → List (List Char)
  | [] => []
  | (key, value) :: rest =>
    (key.shownInside ++ [':', ' '] ++ shownInside value) :: shownEntries rest

end

/-- The text of a value on its own. -/
def shown : Value → List Char
  | scalar value => value.shown
  | other => other.shownInside

/-- The text of a value, as a string. -/
def string (value : Value) : String :=
  String.ofList value.shown

end Value

end Scaffold
