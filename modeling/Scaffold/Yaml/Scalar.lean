import Scaffold.Yaml.Cursor

/-!
The scalars of YAML texts as they are written: plain, between quotes, and in blocks. A line break
inside a scalar counts as a space where lines are folded; empty lines count as line breaks.
-/

namespace Scaffold.Yaml

/-! ## Plain scalars -/

/-- A character that has a meaning of its own between brackets. -/
def isFlowSign (c : Char) : Bool :=
  [',', '[', ']', '{', '}'].contains c

/-- A colon with this ahead ends a plain scalar. -/
def endsKey (flow : Bool) (rest : List Char) : Bool :=
  gapAhead rest || (flow && rest.head?.any isFlowSign)

/-- A plain scalar up to the next gap. -/
def plainRun (flow : Bool) : List Char → List Char
  | [] => []
  | c :: rest =>
    if isGap c || (c == ':' && endsKey flow rest) || (flow && (isFlowSign c || c == '?')) then []
    else c :: plainRun flow rest

/-- The empty lines ahead in a plain scalar, their breaks, and whether a mark between documents comes
after one of them. -/
def plainBreaks : Nat → Cursor → List Char × Cursor × Bool
  | 0, cursor => ([], cursor, false)
  | fuel + 1, cursor =>
    match cursor.rest with
    | c :: _ =>
      if c == ' ' then plainBreaks fuel cursor.forward
      else if isBreak c then
        let (broken, next) := cursor.lineBreak
        if next.separatorAhead then (broken, next, true)
        else
          let (more, after, stopped) := plainBreaks fuel next
          (broken ++ more, after, stopped)
      else ([], cursor, false)
    | [] => ([], cursor, false)

/-- A line break as it counts when lines are folded, given the breaks of empty lines after it. -/
def folded (broken breaks : List Char) : List Char :=
  if broken != ['\n'] then broken ++ breaks else if breaks.isEmpty then [' '] else breaks

/-- What stands between the words of a plain scalar as it counts, the place after it, and whether it
holds a line break. It is empty where the scalar ends. -/
def plainSpaces (cursor : Cursor) : List Char × Cursor × Bool :=
  let blanks := cursor.rest.takeWhile (· == ' ')
  let next := cursor.skip blanks.length
  match next.rest with
  | c :: _ =>
    if isBreak c then
      let (broken, after) := next.lineBreak
      if after.separatorAhead then ([], after, true)
      else
        let (breaks, end_, stopped) := plainBreaks after.rest.length after
        (if stopped then [] else folded broken breaks, end_, true)
    else (blanks, next, false)
  | [] => (blanks, next, false)

/-- A plain scalar whose lines are indented by at least a column, after the spaces before its next
word; the place after it, and whether a line break was passed at its end. -/
def plainFrom (flow : Bool) (column : Nat) : Nat → List Char → Cursor → Bool →
    List Char × Cursor × Bool
  | 0, _, cursor, broken => ([], cursor, broken)
  | fuel + 1, spaces, cursor, broken =>
    let run := plainRun flow cursor.rest
    if cursor.rest.head? == some '#' || run.isEmpty then ([], cursor, broken)
    else
      let (next, after, passed) := plainSpaces (cursor.skip run.length)
      let stop := next.isEmpty || after.rest.head? == some '#' || (!flow && after.column < column)
      if stop then (spaces ++ run, after, passed)
      else
        let (more, end_, ended) := plainFrom flow column fuel next after passed
        (spaces ++ run ++ more, end_, ended)

/-- The plain scalar ahead. -/
def plain (flow : Bool) (column : Nat) (cursor : Cursor) : List Char × Cursor × Bool :=
  plainFrom flow column cursor.rest.length [] cursor false

/-! ## Scalars between quotes -/

/-- The characters that single characters after a backslash stand for. -/
def simpleEscapes : List (Char × Char) :=
  [('0', '\x00'), ('a', '\x07'), ('b', '\x08'), ('t', '\t'), ('\t', '\t'), ('n', '\n'), ('v', '\x0b'),
   ('f', '\x0c'), ('r', '\r'), ('e', '\x1b'), (' ', ' '), ('"', '"'), ('\\', '\\'), ('/', '/'),
   ('N', '\x85'), ('_', '\xa0'), ('L', '\u2028'), ('P', '\u2029')]

/-- The number of digits of a code after a letter. -/
def codeLength? (c : Char) : Option Nat :=
  [('x', 2), ('u', 4), ('U', 8)].lookup c

/-- The character with a code in base sixteen. -/
def codeChar (digits : List Char) : Result Char :=
  if digits.all fun c => (Json.hexValue? c).isSome then
    let code := digits.foldl (fun value c => value * 16 + (Json.hexValue? c).getD 0) 0
    if code < 0x110000 then .ok (Char.ofNat code) else .error (.badValue "code out of range")
  else .error .malformed

/-- The empty lines ahead between quotes, and their breaks. No mark between documents may come. -/
def quotedBreaks : Nat → Cursor → Result (List Char × Cursor)
  | 0, cursor => .ok ([], cursor)
  | fuel + 1, cursor =>
    if cursor.separatorAhead then .error .malformed
    else
      let next := cursor.skipWhile fun c => c == ' ' || c == '\t'
      match next.rest with
      | c :: _ =>
        if isBreak c then do
          let (broken, after) := next.lineBreak
          let (more, end_) ← quotedBreaks fuel after
          return (broken ++ more, end_)
        else .ok ([], next)
      | [] => .ok ([], next)

/-- The blanks ahead between quotes as they count, and the place after them. -/
def quotedSpaces (cursor : Cursor) : Result (List Char × Cursor) :=
  let blanks := cursor.rest.takeWhile fun c => c == ' ' || c == '\t'
  let next := cursor.skip blanks.length
  match next.rest with
  | [] => .error .malformed
  | c :: _ =>
    if isBreak c then do
      let (broken, after) := next.lineBreak
      let (breaks, end_) ← quotedBreaks (after.rest.length + 1) after
      return (folded broken breaks, end_)
    else .ok (blanks, next)

/-- What an escape ahead stands for, after its backslash, and the place after it. -/
def escape (cursor : Cursor) : Result (List Char × Cursor) :=
  match cursor.rest with
  | [] => .error .malformed
  | c :: _ =>
    match simpleEscapes.lookup c with
    | some char => .ok ([char], cursor.forward)
    | none =>
      match codeLength? c with
      | some length =>
        let digits := cursor.forward.rest.take length
        if digits.length = length then do
          return ([← codeChar digits], cursor.skip (length + 1))
        else .error .malformed
      | none =>
        if isBreak c then
          let (_, after) := cursor.lineBreak
          quotedBreaks (after.rest.length + 1) after
        else .error .malformed

/-- The rest of a scalar between quotes, and the place after its closing quote. -/
def quotedFrom (quote : Char) : Nat → Cursor → Result (List Char × Cursor)
  | 0, _ => .error .malformed
  | fuel + 1, cursor =>
    match cursor.rest with
    | [] => .error .malformed
    | c :: rest =>
      let andThen (part : List Char × Cursor) : Result (List Char × Cursor) := do
        let (more, after) ← quotedFrom quote fuel part.2
        return (part.1 ++ more, after)
      if c == quote then
        if quote == '\'' && rest.head? == some '\'' then andThen (['\''], cursor.skip 2)
        else .ok ([], cursor.forward)
      else if quote == '"' && c == '\\' then
        match escape cursor.forward with
        | .ok part => andThen part
        | .error fault => .error fault
      else if isGap c then
        match quotedSpaces cursor with
        | .ok part => andThen part
        | .error fault => .error fault
      else andThen ([c], cursor.forward)

/-- The scalar between quotes ahead. -/
def quoted (cursor : Cursor) : Result (List Char × Cursor) :=
  match cursor.rest with
  | quote :: rest => quotedFrom quote (rest.length + 1) cursor.forward
  | [] => .error .malformed

/-! ## Scalars in blocks -/

/-- What a block keeps of its last line breaks. -/
inductive Chomp
  /-- None. -/
  | strip
  /-- One. -/
  | clip
  /-- All. -/
  | keep
  deriving DecidableEq, Repr

/-- The sign for what is kept, if it is ahead. -/
def chomp? (cursor : Cursor) : Option (Chomp × Cursor) :=
  match cursor.rest with
  | '+' :: _ => some (.keep, cursor.forward)
  | '-' :: _ => some (.strip, cursor.forward)
  | _ => none

/-- The digit for the indentation, if it is ahead. It is not zero. -/
def indentDigit (cursor : Cursor) : Result (Option Nat × Cursor) :=
  match cursor.rest with
  | c :: _ =>
    if c == '0' then .error .malformed
    else if c.isDigit then .ok (some (c.toNat - 48), cursor.forward)
    else .ok (none, cursor)
  | [] => .ok (none, cursor)

/-- The signs after the opening of a block, in either order. -/
def blockSigns (cursor : Cursor) : Result (Chomp × Option Nat × Cursor) := do
  match chomp? cursor with
  | some (chomp, next) =>
    let (digit, after) ← indentDigit next
    return (chomp, digit, after)
  | none =>
    let (digit, next) ← indentDigit cursor
    match digit, chomp? next with
    | some _, some (chomp, after) => return (chomp, digit, after)
    | _, _ => return (.clip, digit, next)

/-- The place after the rest of a block's first line, which holds nothing but a comment. -/
def afterBlockHead (cursor : Cursor) : Result Cursor :=
  if !(cursor.rest.isEmpty || cursor.rest.head?.any fun c => c == ' ' || isBreak c) then
    .error .malformed
  else
    let spaced := cursor.skipWhile (· == ' ')
    let next :=
      if spaced.rest.head? == some '#' then spaced.skipWhile fun c => !isBreak c else spaced
    if breakAhead next.rest then .ok next.lineBreak.2 else .error .malformed

/-- The breaks of the empty lines ahead, the largest indentation among them and the first other line,
and the place there. -/
def blockIndentation : Nat → Nat → Cursor → List Char × Nat × Cursor
  | 0, largest, cursor => ([], largest, cursor)
  | fuel + 1, largest, cursor =>
    match cursor.rest with
    | c :: _ =>
      if c == ' ' then
        let next := cursor.forward
        blockIndentation fuel (max largest next.column) next
      else if isBreak c then
        let (broken, next) := cursor.lineBreak
        let (more, found, after) := blockIndentation fuel largest next
        (broken ++ more, found, after)
      else ([], largest, cursor)
    | [] => ([], largest, cursor)

/-- The breaks of the empty lines ahead in a block of an indentation, and the place after them. -/
def blockBreaks (indent : Nat) : Nat → Cursor → List Char × Cursor
  | 0, cursor => ([], cursor)
  | fuel + 1, cursor =>
    let next := cursor.skipSpaces indent indent
    match next.rest with
    | c :: _ =>
      if isBreak c then
        let (broken, after) := next.lineBreak
        let (more, end_) := blockBreaks indent fuel after
        (broken ++ more, end_)
      else ([], next)
    | [] => ([], next)

/-- A line of a block goes on at this place. -/
def inBlock (indent : Nat) (cursor : Cursor) : Bool :=
  cursor.column == indent && !cursor.rest.isEmpty

/-- What is ahead does not begin with a space or a tab. -/
def solidAhead (cursor : Cursor) : Bool :=
  !(cursor.rest.head?.any fun c => c == ' ' || c == '\t')

/-- The lines of a block after the breaks before them: the text, the last line break, the breaks of
the empty lines after it, and the place there. -/
def blockLines (folding : Bool) (indent : Nat) : Nat → List Char → Cursor →
    List Char × List Char × List Char × Cursor
  | 0, breaks, cursor => ([], [], breaks, cursor)
  | fuel + 1, breaks, cursor =>
    let solid := solidAhead cursor
    let content := cursor.rest.takeWhile fun c => !isBreak c
    let (broken, next) := (cursor.skip content.length).lineBreak
    let (following, after) := blockBreaks indent (next.rest.length + 1) next
    if inBlock indent after then
      let joint :=
        if folding && broken == ['\n'] && solid && solidAhead after then
          if following.isEmpty then [' '] else []
        else broken
      let (more, last, tail, end_) := blockLines folding indent fuel following after
      (breaks ++ content ++ joint ++ more, last, tail, end_)
    else (breaks ++ content, broken, following, after)

/-- The block ahead, inside a collection of an indentation. -/
def block (folding : Bool) (least : Nat) (cursor : Cursor) : Result (List Char × Cursor) := do
  let (chomp, digit, signed) ← blockSigns cursor.forward
  let start ← afterBlockHead signed
  let fuel := start.rest.length + 1
  let (breaks, indent, first) :=
    match digit with
    | some digit =>
      let indent := least + digit - 1
      let (breaks, first) := blockBreaks indent fuel start
      (breaks, indent, first)
    | none =>
      let (breaks, largest, first) := blockIndentation fuel 0 start
      (breaks, max least largest, first)
  let (text, last, tail, after) :=
    if inBlock indent first then blockLines folding indent fuel breaks first
    else ([], [], breaks, first)
  let kept :=
    match chomp with
    | .strip => []
    | .clip => last
    | .keep => last ++ tail
  return (text ++ kept, after)

end Scaffold.Yaml
