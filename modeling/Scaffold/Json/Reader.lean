import Scaffold.Text.Line
import Scaffold.Value.Basic

/-!
Reading JSON text. Objects keep the order of their members; of two members with one name the later
value counts, in the earlier place. The words for the numbers that are not finite are read too.
-/

namespace Scaffold.Json

/-- Why a text is not read. -/
inductive Fault
  /-- The text breaks the grammar. -/
  | malformed
  /-- An integer has more digits than are converted. -/
  | longInteger
  deriving DecidableEq, Repr

/-- The most digits that an integer may have. -/
def digitLimit : Nat := 4300

/-- A blank between tokens. -/
def isSpace (c : Char) : Bool :=
  c == ' ' || c == '\t' || c == '\n' || c == '\r'

/-- The text from its next token on. -/
def skipSpace (text : List Char) : List Char :=
  text.dropWhile isSpace

/-- The value of a digit in base sixteen. -/
def hexValue? (c : Char) : Option Nat :=
  if c.isDigit then some (c.toNat - 48)
  else if 'a' ≤ c && c ≤ 'f' then some (c.toNat - 87)
  else if 'A' ≤ c && c ≤ 'F' then some (c.toNat - 55)
  else none

/-- Four digits in base sixteen, and what follows them. -/
def hexQuad? : List Char → Option (Nat × List Char)
  | a :: b :: c :: d :: rest => do
    let a ← hexValue? a
    let b ← hexValue? b
    let c ← hexValue? c
    let d ← hexValue? d
    some (((a * 16 + b) * 16 + c) * 16 + d, rest)
  | _ => none

/-- The character that a letter after a backslash stands for. -/
def simpleEscape? : Char → Option Char
  | '"' => some '"'
  | '\\' => some '\\'
  | '/' => some '/'
  | 'b' => some '\x08'
  | 'f' => some '\x0c'
  | 'n' => some '\n'
  | 'r' => some '\r'
  | 't' => some '\t'
  | _ => none

/-- A character by its code after `\u`, with a second code when the two form a pair. A code that
lacks its partner reads as the replacement character. -/
def codeEscape? (text : List Char) : Option (Char × List Char) := do
  let (high, rest) ← hexQuad? text
  if 0xd800 ≤ high && high < 0xdc00 then
    match rest with
    | '\\' :: 'u' :: more =>
      match hexQuad? more with
      | some (low, after) =>
        if 0xdc00 ≤ low && low < 0xe000 then
          some (Char.ofNat (0x10000 + (high - 0xd800) * 0x400 + (low - 0xdc00)), after)
        else some ('\ufffd', rest)
      | none => none
    | _ => some ('\ufffd', rest)
  else if 0xdc00 ≤ high && high < 0xe000 then some ('\ufffd', rest)
  else some (Char.ofNat high, rest)

/-- The rest of a string after its opening quote, and what follows the closing one. -/
def stringBody? : Nat → List Char → Option (List Char × List Char)
  | 0, _ => none
  | _, [] => none
  | fuel + 1, c :: rest =>
    if c = '"' then some ([], rest)
    else if c = '\\' then
      match rest with
      | 'u' :: more =>
        (codeEscape? more).bind fun (char, after) =>
          (stringBody? fuel after).map fun (chars, last) => (char :: chars, last)
      | letter :: more =>
        (simpleEscape? letter).bind fun char =>
          (stringBody? fuel more).map fun (chars, last) => (char :: chars, last)
      | [] => none
    -- Control characters have to be escaped.
    else if c.toNat < 32 then none
    else (stringBody? fuel rest).map fun (chars, last) => (c :: chars, last)

/-- A string after its opening quote. -/
def string? (text : List Char) : Option (String × List Char) :=
  (stringBody? (text.length + 1) text).map fun (chars, rest) => (String.ofList chars, rest)

/-- The number that decimal digits write. -/
def digitsValue (digits : List Char) : Nat :=
  digits.foldl (fun value digit => value * 10 + (digit.toNat - 48)) 0

/-- The digits after a point, when there are any, and what follows them. -/
def fraction? : List Char → Option (List Char × List Char)
  | '.' :: rest =>
    let digits := rest.takeWhile Char.isDigit
    if digits.isEmpty then none else some (digits, rest.dropWhile Char.isDigit)
  | _ => none

/-- A signed exponent, when there is one, and what follows it. -/
def exponent? : List Char → Option (Int × List Char)
  | e :: rest =>
    if e = 'e' || e = 'E' then
      let (negative, unsigned) :=
        match rest with
        | '-' :: more => (true, more)
        | '+' :: more => (false, more)
        | more => (false, more)
      let digits := unsigned.takeWhile Char.isDigit
      if digits.isEmpty then none
      else
        let size : Int := digitsValue digits
        some (if negative then -size else size, unsigned.dropWhile Char.isDigit)
    else none
  | [] => none

/-- A number after its sign: an integer, or a decimal when a fraction or an exponent follows. -/
def number (negative : Bool) (text : List Char) : Except Fault (Value × List Char) :=
  -- A zero at the front stands alone, so the digits after it are left over.
  let whole :=
    match text with
    | '0' :: _ => ['0']
    | _ => text.takeWhile Char.isDigit
  if whole.isEmpty then .error .malformed
  else
    let rest := text.drop whole.length
    let (places, afterFraction) := (fraction? rest).getD ([], rest)
    match exponent? afterFraction with
    | some (power, after) =>
      let digits := digitsValue (whole ++ places)
      .ok (.scalar (.float (.ofDecimal negative digits (power - places.length))), after)
    | none =>
      if places.isEmpty then
        if digitLimit < whole.length then .error .longInteger
        else
          let size : Int := digitsValue whole
          .ok (.int (if negative then -size else size), rest)
      else
        let digits := digitsValue (whole ++ places)
        .ok (.scalar (.float (.ofDecimal negative digits (-(places.length : Int)))), afterFraction)

def words : List (List Char × Value) :=
  [("null".toList, .null), ("true".toList, .bool true), ("false".toList, .bool false),
   ("NaN".toList, .scalar (.float .notANumber)),
   ("Infinity".toList, .scalar (.float (.infinite false))),
   ("-Infinity".toList, .scalar (.float (.infinite true)))]

/-- A word with a value of its own, and what follows it. -/
def word? (text : List Char) : Option (Value × List Char) :=
  words.findSome? fun (word, value) => (Text.afterPrefix? word text).map (value, ·)

mutual

/-- One value at the start of a text, and what follows it. The first argument bounds the nesting. -/
def value : Nat → List Char → Except Fault (Value × List Char)
  | 0, _ => .error .malformed
  | fuel + 1, text =>
    match text with
    | '"' :: rest =>
      match string? rest with
      | some (chars, after) => .ok (.text chars, after)
      | none => .error .malformed
    | '{' :: rest =>
      match skipSpace rest with
      | '}' :: after => .ok (.map [], after)
      | more =>
        (members fuel more).map fun (entries, after) => (.map (Keyed.ofEntries entries), after)
    | '[' :: rest =>
      match skipSpace rest with
      | ']' :: after => .ok (.list [], after)
      | more => (items fuel more).map fun (values, after) => (.list values, after)
    | other =>
      match word? other with
      | some found => .ok found
      | none =>
        match other with
        | '-' :: rest => number true rest
        | _ => number false other

/-- The items of a list from the next one on, and what follows its closing bracket. -/
def items : Nat → List Char → Except Fault (List Value × List Char)
  | 0, _ => .error .malformed
  | fuel + 1, text =>
    match value fuel text with
    | .error fault => .error fault
    | .ok (item, rest) =>
      match skipSpace rest with
      | ']' :: after => .ok ([item], after)
      | ',' :: more =>
        (items fuel (skipSpace more)).map fun (values, after) => (item :: values, after)
      | _ => .error .malformed

/-- The members of an object from the next one on, and what follows its closing brace. -/
def members : Nat → List Char → Except Fault (List (Scalar × Value) × List Char)
  | 0, _ => .error .malformed
  | fuel + 1, text =>
    match text with
    | '"' :: afterQuote =>
      match string? afterQuote with
      | none => .error .malformed
      | some (name, afterName) =>
        match skipSpace afterName with
        | ':' :: afterColon =>
          match value fuel (skipSpace afterColon) with
          | .error fault => .error fault
          | .ok (member, rest) =>
            match skipSpace rest with
            | '}' :: after => .ok ([(.text name, member)], after)
            | ',' :: more =>
              (members fuel (skipSpace more)).map fun (entries, after) =>
                ((.text name, member) :: entries, after)
            | _ => .error .malformed
        | _ => .error .malformed
    | _ => .error .malformed

end

/-- The value that a whole text writes. -/
def read (text : List Char) : Except Fault Value :=
  match value (2 * text.length + 2) (skipSpace text) with
  | .error fault => .error fault
  | .ok (found, rest) => if (skipSpace rest).isEmpty then .ok found else .error .malformed

end Scaffold.Json
