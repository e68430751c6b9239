import Scaffold.Text.Blank
import Scaffold.Text.Digit
import Scaffold.Text.Identifier
import Scaffold.Text.Word

/-!
Patterns: regular expressions with named captures and references back to them. A pattern is data; its
written form is that of the usual notation.
-/

namespace Scaffold

/-- A class of characters. -/
inductive CharClass
  /-- A letter of ASCII, an underscore or a dollar sign. -/
  | nameStart
  /-- A letter or a digit of ASCII, an underscore or a dollar sign. -/
  | namePart
  /-- Anything but a quote or a line feed. -/
  | unquoted
  /-- A decimal digit. -/
  | digit
  /-- The sign of a negative number. -/
  | minus
  | blank
  | solid
  /-- Anything but a blank, a semicolon, a comma or a closing parenthesis. -/
  | bare
  /-- A word character. -/
  | word
  /-- Anything but a brace. -/
  | braceless
  /-- Anything but a line feed. -/
  | inLine
  deriving DecidableEq, Repr

namespace CharClass

/-- A character belongs to a class. -/
def holds : CharClass → Char → Bool
  | nameStart, c => c.isAlpha || c == '_' || c == '$'
  | namePart, c => c.isAlphanum || c == '_' || c == '$'
  | unquoted, c => c != '\'' && c != '"' && c != '\n'
  | digit, c => Text.isDecimal c
  | minus, c => c == '-'
  | blank, c => Text.isBlank c
  | solid, c => !Text.isBlank c
  | bare, c => !Text.isBlank c && c != ';' && c != ',' && c != ')'
  | word, c => Text.isWord c
  | braceless, c => c != '{' && c != '}'
  | inLine, c => c != '\n'

/-- The written form of a class. -/
def source : CharClass → List Char
  | nameStart => "[A-Za-z_$]".toList
  | namePart => "[A-Za-z0-9_$]".toList
  | unquoted => "[^'\\\"\\n]".toList
  | digit => "\\d".toList
  | minus => ['-']
  | blank => "\\s".toList
  | solid => "\\S".toList
  | bare => "[^;,)\\s]".toList
  | word => "\\w".toList
  | braceless => "[^\x7b\x7d]".toList
  | inLine => ['.']

end CharClass

/-- A regular expression. Repetitions are of single characters of a class. -/
inductive Pattern
  /-- Nothing. -/
  | empty
  /-- One given character. -/
  | char (c : Char)
  | one (kind : CharClass)
  /-- As many characters of a class as can be, at least one. -/
  | many (kind : CharClass)
  /-- As many characters of a class as can be, or none. -/
  | any (kind : CharClass)
  /-- As few characters of a class as can be, or none. -/
  | few (kind : CharClass)
  | optional (body : Pattern)
  | append (first second : Pattern)
  /-- A pattern or else another. -/
  | either (first second : Pattern)
  /-- A pattern between parentheses. -/
  | group (body : Pattern)
  | capture (name : String) (body : Pattern)
  /-- The text that was kept under a name. -/
  | again (name : String)
  deriving DecidableEq, Repr

namespace Pattern

/-- The characters that mean something in the notation and are written after a backslash. -/
def specials : List Char :=
  "()[]\x7b\x7d?*+-|^$\\.&~# \t\n\r\x0b\x0c".toList

/-- The written form of a character that stands for itself. -/
def escapedChar (c : Char) : List Char :=
  if specials.contains c then ['\\', c] else [c]

/-- The written form of a text that stands for itself. -/
def escaped (text : List Char) : List Char :=
  text.flatMap escapedChar

/-- The written form of a pattern. -/
def source : Pattern → List Char
  | empty => []
  | char c => escapedChar c
  | one kind => kind.source
  | many kind => kind.source ++ ['+']
  | any kind => kind.source ++ ['*']
  | few kind => kind.source ++ ['*', '?']
  | optional body => body.source ++ ['?']
  | append first second => first.source ++ second.source
  | either first second => first.source ++ ['|'] ++ second.source
  | group body => "(?:".toList ++ body.source ++ [')']
  | capture name body => "(?P<".toList ++ name.toList ++ ['>'] ++ body.source ++ [')']
  | again name => "(?P=".toList ++ name.toList ++ [')']

def sequence (parts : List Pattern) : Pattern :=
  parts.foldr append empty

/-- A text that stands for itself. -/
def literal (text : List Char) : Pattern :=
  sequence (text.map char)

/-- The first of several patterns that goes on well. -/
def choice : List Pattern → Pattern
  | [] => empty
  | [pattern] => pattern
  | pattern :: rest => either pattern (choice rest)

def names : Pattern → List String
  | optional body => body.names
  | append first second => first.names ++ second.names
  | either first second => first.names ++ second.names
  | group body => body.names
  | capture name body => name :: body.names
  | again name => [name]
  | _ => []

/-- A pattern is well formed when its captures have identifiers for names. -/
def isWellFormed (pattern : Pattern) : Bool :=
  pattern.names.all fun name => Text.isIdentifier name.toList

theorem source_sequence (parts : List Pattern) :
    (sequence parts).source = parts.flatMap source := by
  induction parts with
  | nil => rfl
  | cons part rest ih =>
    rw [List.flatMap_cons, ← ih]
    rfl

theorem source_literal (text : List Char) : (literal text).source = escaped text := by
  rw [literal, source_sequence, List.flatMap_map]
  rfl

end Pattern

end Scaffold
