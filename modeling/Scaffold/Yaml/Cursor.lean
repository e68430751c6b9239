import Scaffold.Json.Reader

/-!
A place in a YAML text: what is ahead, with the line, the column and the offset. What counts as a line
break and as printable is fixed by YAML.
-/

namespace Scaffold.Yaml

/-- Why a text is not read. -/
inductive Fault
  /-- The text breaks the grammar. -/
  | malformed
  /-- A date or a number is written that does not exist. -/
  | badValue (detail : String)
  deriving DecidableEq, Repr

/-- A result, or why a text is not read. -/
abbrev Result (α : Type) := Except Fault α

/-- A character that ends a line. -/
def isBreak (c : Char) : Bool :=
  c == '\n' || c == '\r' || c == '\x85' || c == '\u2028' || c == '\u2029'

/-- A character that ends a word: a space, a tab or a line break. -/
def isGap (c : Char) : Bool :=
  c == ' ' || c == '\t' || isBreak c

/-- A character that may stand in a YAML text. -/
def isPrintable (c : Char) : Bool :=
  let code := c.toNat
  code == 9 || code == 10 || code == 13 || (0x20 ≤ code && code ≤ 0x7e) || code == 0x85 ||
    (0xa0 ≤ code && code != 0xfffe && code != 0xffff)

def gapAhead : List Char → Bool
  | [] => true
  | c :: _ => isGap c

/-- What is ahead is a line break or the end. -/
def breakAhead : List Char → Bool
  | [] => true
  | c :: _ => isBreak c

/-- A place in a text. -/
structure Cursor where
  rest : List Char
  column : Nat := 0
  line : Nat := 0
  offset : Nat := 0
  deriving DecidableEq, Repr

namespace Cursor

/-- The place after the next character. A carriage return before a line feed does not end the line. -/
def forward (cursor : Cursor) : Cursor :=
  match cursor.rest with
  | [] => cursor
  | c :: rest =>
    let ends := (isBreak c && c != '\r') || (c == '\r' && rest.head? != some '\n')
    { rest
      line := if ends then cursor.line + 1 else cursor.line
      column := if ends then 0 else if c == '\ufeff' then cursor.column else cursor.column + 1
      offset := cursor.offset + 1 }

/-- The place after a number of characters. -/
def skip : Nat → Cursor → Cursor
  | 0, cursor => cursor
  | count + 1, cursor => skip count cursor.forward

/-- The place after the characters of a class. -/
def skipWhile (p : Char → Bool) (cursor : Cursor) : Cursor :=
  cursor.skip (cursor.rest.takeWhile p).length

/-- The line break ahead as it counts in a scalar, and the place after it; nothing where there is
none. -/
def lineBreak (cursor : Cursor) : List Char × Cursor :=
  match cursor.rest with
  | '\r' :: '\n' :: _ => (['\n'], cursor.skip 2)
  | c :: _ =>
    if c == '\u2028' || c == '\u2029' then ([c], cursor.forward)
    else if isBreak c then (['\n'], cursor.forward)
    else ([], cursor)
  | [] => ([], cursor)

/-- A mark of three characters that separates documents is ahead. -/
def separatorAhead (cursor : Cursor) : Bool :=
  match cursor.rest with
  | '-' :: '-' :: '-' :: rest => gapAhead rest
  | '.' :: '.' :: '.' :: rest => gapAhead rest
  | _ => false

/-- The place after spaces, up to a column. -/
def skipSpaces (column : Nat) : Nat → Cursor → Cursor
  | 0, cursor => cursor
  | fuel + 1, cursor =>
    if cursor.column < column && cursor.rest.head? == some ' ' then
      skipSpaces column fuel cursor.forward
    else cursor

end Cursor

end Scaffold.Yaml
