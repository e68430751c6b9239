import Scaffold.CommandLine.Usage
import Scaffold.Text.Digit
import Scaffold.Text.Line

/-!
Marks: what every word of a command line is, before any word is taken. A long option may be shortened
as long as the rest tells it from the others. A value may be glued to an option, behind an equals sign
or, after one letter, at once.
-/

namespace Scaffold.CommandLine

/-- What is glued to an option. -/
structure Glued where
  /-- An equals sign stands before it. -/
  equals : Bool
  text : List Char
  deriving DecidableEq, Repr

inductive Mark
  /-- The two dashes after which all words are operands. -/
  | divider
  | operand
  /-- An option, by the name that the word means. -/
  | option (switch : Switch) (name : String) (glued : Option Glued)
  /-- An option that the usage does not have. -/
  | unknown
  deriving DecidableEq, Repr

/-- A word with its mark. -/
abbrev Marked := String × Mark

namespace Mark

/-- A word that is an option, known or not. -/
def isOption : Mark → Bool
  | option .. | unknown => true
  | _ => false

/-- The text of a number below zero, without an exponent. -/
def isNegativeNumber (text : List Char) : Bool :=
  match text with
  | '-' :: rest =>
    let line := if rest.getLast? = some '\n' then rest.dropLast else rest
    let whole := line.takeWhile Text.isDecimal
    match line.dropWhile Text.isDecimal with
    | [] => !whole.isEmpty
    | '.' :: fraction => !fraction.isEmpty && fraction.all Text.isDecimal
    | _ => false
  | _ => false

/-- A text before its first equals sign, and what is glued to it behind the sign. -/
def splitEquals (text : List Char) : List Char × Option Glued :=
  match text.dropWhile (· != '=') with
  | [] => (text, none)
  | _ :: value => (text.takeWhile (· != '='), some ⟨true, value⟩)

/-- The mark of a word that begins with a dash and is no option's name. -/
def ofDashed (switches : List Switch) (text : List Char) : Except Stop Mark :=
  let (start, glued) := splitEquals text
  match glued, named? switches (String.ofList start) with
  | some glued, some switch => .ok (.option switch (String.ofList start) (some glued))
  | _, _ =>
    let candidates :=
      match text with
      | '-' :: '-' :: _ =>
        ((namesOf switches).filter fun entry => start.isPrefixOf entry.1.toList).map fun entry =>
          option entry.2 entry.1 glued
      | _ =>
        ((namesOf switches).filter fun entry => entry.1.toList = text.take 2).map fun entry =>
          option entry.2 entry.1 (some ⟨false, text.drop 2⟩)
    match candidates with
    | [only] => .ok only
    | [] => .ok (if isNegativeNumber text || text.contains ' ' then operand else unknown)
    | _ => .error .misuse

def ofWord (switches : List Switch) (word : String) : Except Stop Mark :=
  match named? switches word, word.toList with
  | some switch, _ => .ok (.option switch word none)
  | none, '-' :: c :: rest => ofDashed switches ('-' :: c :: rest)
  | none, _ => .ok operand

def ofWords (switches : List Switch) : List String → Except Stop (List Marked)
  | [] => .ok []
  | word :: rest =>
    if word = "--" then .ok ((word, divider) :: rest.map fun later => (later, operand))
    else do
      let mark ← ofWord switches word
      return (word, mark) :: (← ofWords switches rest)

end Mark

end Scaffold.CommandLine
