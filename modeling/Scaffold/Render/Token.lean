import Scaffold.Json.Reader
import Scaffold.Text.Identifier
import Scaffold.Text.Line
import Scaffold.Text.Word
import Scaffold.Value.Basic

/-!
The tokens of a template. Outside its tags a template is plain text. A tag takes the blanks next to it
away when a dash stands at that side; a statement or a comment that stands first on its line takes the
indentation away, and the line break right after it, unless a plus sign keeps them.
-/

namespace Scaffold.Render

open Text

inductive TokenKind
  | data (chars : List Char)
  | openExpression
  | closeExpression
  | openStatement
  | closeStatement
  | name (name : String)
  | text (chars : List Char)
  | integer (value : Nat)
  | float (value : Binary64)
  | operator (sign : String)
  /-- The end of the template. -/
  | finish
  /-- A place that is no token; nothing comes after it. -/
  | failure
  deriving DecidableEq, Repr

/-- A token and the line where it begins. -/
structure Token where
  line : Nat
  kind : TokenKind
  deriving DecidableEq, Repr

/-- The tags that open at two braces, or a brace and a sign. -/
inductive Opening
  | expression
  | statement
  | comment
  deriving DecidableEq, Repr

/-- A tag that opens at the start of a text. -/
def opening? : List Char → Option (Opening × List Char)
  | '{' :: '{' :: rest => some (.expression, rest)
  | '{' :: '%' :: rest => some (.statement, rest)
  | '{' :: '#' :: rest => some (.comment, rest)
  | _ => none

/-- The text before the first tag, and that tag with what follows its opening. -/
def untilOpening : List Char → List Char × Option (Opening × List Char)
  | [] => ([], none)
  | c :: rest =>
    match opening? (c :: rest) with
    | some found => ([], some found)
    | none =>
      let (before, found) := untilOpening rest
      (c :: before, found)

/-- How a tag treats the blanks at one of its sides. -/
inductive Trim
  | plain
  | strip
  | keep
  deriving DecidableEq, Repr

/-- The sign right after the opening of a tag. -/
def openingTrim : List Char → Trim × List Char
  | '-' :: rest => (.strip, rest)
  | '+' :: rest => (.keep, rest)
  | rest => (.plain, rest)

/-- The number of line feeds in a text. -/
def breaks (text : List Char) : Nat :=
  text.count '\n'

def lastLine (text : List Char) : List Char :=
  (text.reverse.takeWhile (· != '\n')).reverse

/-- The text before a tag as the tag leaves it, given whether the text begins a line. -/
def beforeTag (opening : Opening) (trim : Trim) (lineStarting : Bool) (text : List Char) :
    List Char :=
  match trim with
  | .strip => trimRight text
  | .keep => text
  | .plain =>
    let indentation := lastLine text
    let atLineStart := indentation.length < text.length || lineStarting
    if opening != .expression && atLineStart && indentation.all isBlank then
      text.take (text.length - indentation.length)
    else text

/-- The text after a line feed, if it begins with one. -/
def dropBreak : List Char → List Char
  | '\n' :: rest => rest
  | rest => rest

/-- What follows a comment after its closing. -/
def afterComment? : List Char → Option (List Char)
  | [] => none
  | '+' :: '#' :: '}' :: rest => some rest
  | '-' :: '#' :: '}' :: rest => some (trimLeft rest)
  | '#' :: '}' :: rest => some (dropBreak rest)
  | _ :: rest => afterComment? rest

/-- What follows the closing of an expression or a statement at the start of a text. -/
def afterClose? : Opening → List Char → Option (List Char)
  | .expression, '-' :: '}' :: '}' :: rest => some (trimLeft rest)
  | .expression, '}' :: '}' :: rest => some rest
  | .statement, '+' :: '%' :: '}' :: rest => some rest
  | .statement, '-' :: '%' :: '}' :: rest => some (trimLeft rest)
  | .statement, '%' :: '}' :: rest => some (dropBreak rest)
  | _, _ => none

/-- A run of digits of a base, single underscores between them, and what follows. The first argument
tells whether a digit came before. -/
def digitRun (isDigit : Char → Bool) : Bool → List Char → List Char × List Char
  | _, [] => ([], [])
  | started, c :: rest =>
    if isDigit c then
      let (digits, after) := digitRun isDigit true rest
      (c :: digits, after)
    else if started && c = '_' then
      match rest with
      | d :: _ =>
        if isDigit d then digitRun isDigit false rest else ([], c :: rest)
      | [] => ([], c :: rest)
    else ([], c :: rest)

/-- The number that digits of a base write. -/
def baseValue (base : Nat) (digits : List Char) : Nat :=
  digits.foldl (fun value digit => value * base + (Json.hexValue? digit).getD 0) 0

def isBaseDigit (base : Nat) (c : Char) : Bool :=
  (Json.hexValue? c).any (· < base)

/-- An integer in another base, after a zero and a letter. -/
def basedInteger? (base : Nat) (text : List Char) : Option (TokenKind × List Char) :=
  let body := dropOptional '_' text
  let (digits, rest) := digitRun (isBaseDigit base) false body
  if digits.isEmpty then none else some (.integer (baseValue base digits), rest)
where
  /-- The text without one character at its start, if it has it. -/
  dropOptional (c : Char) : List Char → List Char
    | d :: rest => if d = c then rest else d :: rest
    | [] => []

/-- An integer at the start of a text. A number that begins with a zero has only zeros. -/
def integer? (text : List Char) : Option (TokenKind × List Char) :=
  match text with
  -- A zero with no letter of a base after it takes further zeros only, so `007` is two tokens.
  | '0' :: letter :: rest =>
    let based :=
      if letter = 'b' || letter = 'B' then basedInteger? 2 rest
      else if letter = 'o' || letter = 'O' then basedInteger? 8 rest
      else if letter = 'x' || letter = 'X' then basedInteger? 16 rest
      else none
    based.or (some (.integer 0, (digitRun (· == '0') false text).2))
  | '0' :: rest => some (.integer 0, rest)
  | c :: _ =>
    if c.isDigit then
      let (digits, rest) := digitRun Char.isDigit false text
      some (.integer (baseValue 10 digits), rest)
    else none
  | [] => none

/-- An exponent with its sign, and what follows it. -/
def exponent? : List Char → Option (Int × List Char)
  | e :: rest =>
    if e = 'e' || e = 'E' then
      let (negative, body) :=
        match rest with
        | '-' :: more => (true, more)
        | '+' :: more => (false, more)
        | more => (false, more)
      let (digits, after) := digitRun Char.isDigit false body
      if digits.isEmpty then none
      else
        let size : Int := baseValue 10 digits
        some (if negative then -size else size, after)
    else none
  | [] => none

/-- A decimal at the start of a text: it has a fraction or an exponent, and does not follow a dot. -/
def float? (afterDot : Bool) (text : List Char) : Option (TokenKind × List Char) :=
  let (whole, rest) := digitRun Char.isDigit false text
  if afterDot || whole.isEmpty then none
  else
    let (places, afterPlaces) :=
      match rest with
      | '.' :: more =>
        let (digits, after) := digitRun Char.isDigit false more
        -- Without digits after it the dot is a token of its own, as before an attribute.
        if digits.isEmpty then ([], rest) else (digits, after)
      | _ => ([], rest)
    let value (power : Int) : TokenKind :=
      .float (.ofDecimal false (baseValue 10 (whole ++ places)) (power - places.length))
    match exponent? afterPlaces with
    | some (power, after) => some (value power, after)
    | none => if places.isEmpty then none else some (value 0, afterPlaces)

/-- A character of a name in a tag. -/
def isNamePart (c : Char) : Bool :=
  isWord c || isIdentifierContinue c

/-- A name at the start of a text. A run of word characters that is no identifier is no token. -/
def name? (text : List Char) : Option (TokenKind × List Char) :=
  let run := text.takeWhile isNamePart
  if run.isEmpty then none
  else
    let kind : TokenKind := if isIdentifier run then .name (String.ofList run) else .failure
    some (kind, text.dropWhile isNamePart)

/-- The rest of a quoted text up to its closing quote, with its escapes, and what follows. -/
def quotedBody? (quote : Char) : List Char → Option (List Char × List Char)
  | [] => none
  | '\\' :: c :: rest =>
    (quotedBody? quote rest).map fun (chars, after) => ('\\' :: c :: chars, after)
  | c :: rest =>
    if c = quote then some ([], rest)
    else if c = '\\' then none
    else (quotedBody? quote rest).map fun (chars, after) => (c :: chars, after)

/-- A character as it stands in a quoted text that is to be unescaped: beyond ASCII by its code. -/
def asciiForm (c : Char) : List Char :=
  let digits := Nat.toDigits 16 c.toNat
  let padded (width : Nat) := List.replicate (width - digits.length) '0' ++ digits
  if c.toNat < 128 then [c]
  else if c.toNat < 0x100 then '\\' :: 'x' :: padded 2
  else if c.toNat < 0x10000 then '\\' :: 'u' :: padded 4
  else '\\' :: 'U' :: padded 8

/-- The character with a code in base sixteen of a given width, and what follows. -/
def codeOf? (width : Nat) (text : List Char) : Option (Char × List Char) :=
  let digits := text.take width
  if digits.length = width && digits.all (isBaseDigit 16) then
    let code := baseValue 16 digits
    if code < 0x110000 then some (Char.ofNat code, text.drop width) else none
  else none

/-- The characters that single letters after a backslash stand for. -/
def letterEscapes : List (Char × Char) :=
  [('\\', '\\'), ('\'', '\''), ('"', '"'), ('a', '\x07'), ('b', '\x08'), ('f', '\x0c'), ('n', '\n'),
   ('r', '\r'), ('t', '\t'), ('v', '\x0b')]

/-- The text that escapes in ASCII stand for. A backslash before any other character stands for
itself. -/
def unescape? : Nat → List Char → Option (List Char)
  | 0, _ => some []
  | _, [] => some []
  | fuel + 1, '\\' :: c :: rest =>
    let coded (width : Nat) :=
      (codeOf? width rest).bind fun (char, after) => (unescape? fuel after).map (char :: ·)
    if c = '\n' then unescape? fuel rest
    else if c = 'x' then coded 2
    else if c = 'u' then coded 4
    else if c = 'U' then coded 8
    else if c = 'N' then none
    else
      match letterEscapes.lookup c with
      | some char => (unescape? fuel rest).map (char :: ·)
      | none =>
        -- No letter of its own: up to three octal digits, or the backslash is kept as it is.
        let octal := ((c :: rest).take 3).takeWhile (isBaseDigit 8)
        if octal.isEmpty then (unescape? fuel (c :: rest)).map ('\\' :: ·)
        else
          (unescape? fuel ((c :: rest).drop octal.length)).map (Char.ofNat (baseValue 8 octal) :: ·)
  | fuel + 1, c :: rest => if c = '\\' then none else (unescape? fuel rest).map (c :: ·)

/-- A quoted text at the start of a text. One whose escapes are wrong is no token. -/
def quoted? (text : List Char) : Option (TokenKind × List Char) :=
  match text with
  | quote :: rest =>
    if quote = '\'' || quote = '"' then
      (quotedBody? quote rest).map fun (raw, after) =>
        let ascii := raw.flatMap asciiForm
        match unescape? (ascii.length + 1) ascii with
        | some chars => (.text chars, after)
        | none => (.failure, after)
    else none
  | [] => none

/-- The signs of the template language, longer ones first. -/
def signs : List String :=
  ["//", "**", "==", "!=", ">=", "<=", "+", "-", "/", "*", "%", "~", "[", "]", "(", ")", "\x7b",
   "\x7d", ">", "<", "=", ".", ":", "|", ",", ";"]

def sign? (text : List Char) : Option (TokenKind × List Char) :=
  signs.findSome? fun sign => (afterPrefix? sign.toList text).map (.operator sign, ·)

def tagToken? (afterDot : Bool) (text : List Char) : Option (TokenKind × List Char) :=
  (float? afterDot text).or ((integer? text).or ((name? text).or ((quoted? text).or (sign? text))))

/-- The open brackets after a sign, the latest first, if the sign fits them. -/
def balance? (brackets : List String) (sign : String) : Option (List String) :=
  if sign = "(" then some (")" :: brackets)
  else if sign = "[" then some ("]" :: brackets)
  else if sign = "\x7b" then some ("\x7d" :: brackets)
  else if sign = ")" || sign = "]" || sign = "\x7d" then
    match brackets with
    | expected :: rest => if expected = sign then some rest else none
    | [] => none
  else some brackets

/-- Where a template is being cut: outside tags, possibly at the start of a line; or inside a tag,
with open brackets and possibly right after a dot. -/
inductive Place
  | outside (lineStarting : Bool)
  | inside (opening : Opening) (brackets : List String) (afterDot : Bool)
  deriving DecidableEq, Repr

/-- A text ends in a line feed. -/
def endsInBreak (text : List Char) : Bool :=
  text.getLast? == some '\n'

/-- The tokens of the rest of a template, given the line that it begins on and the line of the latest
token. The number bounds the steps. -/
def tokensFrom : Nat → Place → Nat → Nat → List Char → List Token
  | 0, _, _, latest, _ => [⟨latest, .finish⟩]
  | _, _, _, latest, [] => [⟨latest, .finish⟩]
  | fuel + 1, .outside lineStarting, line, latest, text =>
    match untilOpening text with
    | (_, none) => [⟨line, .data text⟩, ⟨line, .finish⟩]
    | (before, some (opening, afterOpening)) =>
      let (trim, rest) := openingTrim afterOpening
      let shown := beforeTag opening trim lineStarting before
      let here := line + breaks before
      let data : List Token := if shown.isEmpty then [] else [⟨line, .data shown⟩]
      match opening with
      | .comment =>
        match afterComment? rest with
        | none => data ++ [⟨here, .failure⟩]
        | some after =>
          let comment := rest.take (rest.length - after.length)
          data ++ tokensFrom fuel (.outside (endsInBreak comment)) (here + breaks comment)
            (if shown.isEmpty then latest else line) after
      | .expression =>
        data ++ ⟨here, .openExpression⟩ :: tokensFrom fuel (.inside opening [] false) here here rest
      | .statement =>
        data ++ ⟨here, .openStatement⟩ :: tokensFrom fuel (.inside opening [] false) here here rest
  | fuel + 1, .inside opening brackets afterDot, line, latest, text =>
    -- Inside brackets a closing brace may end a map, so only outside them the tag can close.
    match if brackets.isEmpty then afterClose? opening text else none with
    | some after =>
      let closing := text.take (text.length - after.length)
      let kind : TokenKind :=
        if opening = .expression then .closeExpression else .closeStatement
      ⟨line, kind⟩ ::
        tokensFrom fuel (.outside (endsInBreak closing)) (line + breaks closing) line after
    | none =>
      let blanks := text.takeWhile isBlank
      if !blanks.isEmpty then
        tokensFrom fuel (.inside opening brackets false) (line + breaks blanks) latest
          (text.dropWhile isBlank)
      else
        match tagToken? afterDot text with
        | none => [⟨line, .failure⟩]
        | some (.failure, _) => [⟨line, .failure⟩]
        | some (kind, after) =>
          let next := line + breaks (text.take (text.length - after.length))
          match kind with
          | .operator sign =>
            match balance? brackets sign with
            | none => [⟨line, .failure⟩]
            | some brackets =>
              ⟨line, kind⟩ ::
                tokensFrom fuel (.inside opening brackets (sign == ".")) next line after
          | _ => ⟨line, kind⟩ :: tokensFrom fuel (.inside opening brackets false) next line after

def tokens (template : List Char) : List Token :=
  let text := unifyBreaks template
  tokensFrom (text.length + 1) (.outside true) 1 1 text

end Scaffold.Render
