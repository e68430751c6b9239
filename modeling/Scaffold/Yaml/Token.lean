import Scaffold.Yaml.Scalar

/-!
The tokens of a YAML text. Indentation shows in tokens of its own, and so does a key of a mapping. A
scalar or a bracket turns out to begin a key only when a colon follows later on the same line, so every
such place is remembered until then.
-/

namespace Scaffold.Yaml

/-- A token of a YAML text. -/
inductive Token
  | documentStart
  | documentEnd
  | sequenceStart
  | mappingStart
  /-- The end of an indented collection. -/
  | blockEnd
  | openList
  | closeList
  | openMap
  | closeMap
  /-- The comma between the entries of a bracket. -/
  | separator
  /-- The dash before an entry of a sequence. -/
  | entry
  | key
  | value
  | alias (name : List Char)
  | anchor (name : List Char)
  | tag (name : List Char)
  /-- A scalar, and whether it is plain. -/
  | scalar (text : List Char) (plain : Bool)
  deriving DecidableEq, Repr

/-- A place where a key may begin: the number of its token, whether a colon has to follow, and where
in the text it is. -/
structure KeyPlace where
  token : Nat
  required : Bool
  line : Nat
  column : Nat
  offset : Nat
  deriving DecidableEq, Repr

/-- How far a text has been cut: the place, the tokens so far with the last one first, the nesting of
brackets, the indentation with those around it, whether a key may begin here, the places where one may
have begun by the nesting of brackets, and the tokens that turned out to begin a key, with whether
they begin a mapping too. -/
structure Progress where
  cursor : Cursor
  tokens : List Token := []
  count : Nat := 0
  nesting : Nat := 0
  indent : Int := -1
  outer : List Int := []
  keyAllowed : Bool := true
  places : List (Nat × KeyPlace) := []
  keys : List (Nat × Bool) := []
  deriving Repr

namespace Progress

/-- With one more token. -/
def push (token : Token) (progress : Progress) : Progress :=
  { progress with tokens := token :: progress.tokens, count := progress.count + 1 }

/-- At another place. -/
def moveTo (cursor : Cursor) (progress : Progress) : Progress :=
  { progress with cursor }

/-- A number of characters further. -/
def skip (count : Nat) (progress : Progress) : Progress :=
  progress.moveTo (progress.cursor.skip count)

/-- Inside no bracket. -/
def inBlock (progress : Progress) : Bool :=
  progress.nesting == 0

/-- A place is too far behind for a colon to make a key of it. -/
def isStale (progress : Progress) (place : KeyPlace) : Bool :=
  place.line != progress.cursor.line || 1024 < progress.cursor.offset - place.offset

/-- Forgets the places that are too far behind. One that has to be a key is then a fault. -/
def dropStale (progress : Progress) : Result Progress :=
  if progress.places.any fun entry => progress.isStale entry.2 && entry.2.required then
    .error .malformed
  else
    .ok { progress with
          places := progress.places.filter fun entry => !progress.isStale entry.2 }

/-- Forgets the place at this nesting. One that has to be a key is then a fault. -/
def dropPlace (progress : Progress) : Result Progress :=
  match progress.places.lookup progress.nesting with
  | none => .ok progress
  | some place =>
    if place.required then .error .malformed
    else
      .ok { progress with
            places := progress.places.filter fun entry => entry.1 != progress.nesting }

/-- Remembers that a key may begin with the next token. -/
def savePlace (progress : Progress) : Result Progress :=
  if progress.keyAllowed then do
    let column := progress.cursor.column
    let place : KeyPlace :=
      -- Right at the indentation of the collection around it a token can only begin a key.
      { token := progress.count, required := progress.inBlock && progress.indent == column
        line := progress.cursor.line, column, offset := progress.cursor.offset }
    let cleared ← progress.dropPlace
    return { cleared with places := (progress.nesting, place) :: cleared.places }
  else .ok progress

/-- Ends the indented collections that begin right of a column. -/
def unwind (column : Int) : Nat → Progress → Progress
  | 0, progress => progress
  | fuel + 1, progress =>
    if progress.inBlock && column < progress.indent then
      unwind column fuel
        { progress.push .blockEnd with
          indent := progress.outer.headD (-1), outer := progress.outer.tail }
    else progress

/-- Ends the indented collections that begin right of a column. -/
def unwindTo (column : Int) (progress : Progress) : Progress :=
  progress.unwind column (progress.outer.length + 1)

/-- A column is a new indentation. -/
def indents (progress : Progress) (column : Nat) : Bool :=
  decide (progress.indent < column)

/-- With a new indentation, if the column is one. -/
def addIndent (column : Nat) (progress : Progress) : Progress :=
  if progress.indents column then
    { progress with indent := column, outer := progress.indent :: progress.outer }
  else progress

/-- With a key allowed next, or not. -/
def allowKey (allowed : Bool) (progress : Progress) : Progress :=
  { progress with keyAllowed := allowed }

/-- Past spaces, comments and line breaks. A key may begin on a new line outside brackets. -/
def skipGaps : Nat → Progress → Progress
  | 0, progress => progress
  | fuel + 1, progress =>
    let start := progress.cursor
    -- A byte order mark counts for nothing at the very start.
    let marked := if start.offset == 0 && start.rest.head? == some '\ufeff' then start.forward else start
    let spaced := marked.skipWhile (· == ' ')
    let next :=
      if spaced.rest.head? == some '#' then spaced.skipWhile fun c => !isBreak c else spaced
    match next.rest with
    | c :: _ =>
      if isBreak c then
        let moved := progress.moveTo next.lineBreak.2
        skipGaps fuel (if progress.inBlock then moved.allowKey true else moved)
      else progress.moveTo next
    | [] => progress.moveTo next

/-- Cuts a mark between documents. -/
def cutSeparator (token : Token) (progress : Progress) : Result Progress := do
  let cleared ← (progress.unwindTo (-1)).dropPlace
  return ((cleared.allowKey false).skip 3).push token

def cutOpening (token : Token) (progress : Progress) : Result Progress := do
  let saved ← progress.savePlace
  return ((({ saved with nesting := saved.nesting + 1 } : Progress).allowKey true).skip 1).push token

def cutClosing (token : Token) (progress : Progress) : Result Progress := do
  let cleared ← progress.dropPlace
  return ((({ cleared with nesting := cleared.nesting - 1 } : Progress).allowKey false).skip 1).push
    token

/-- Cuts the comma between entries. -/
def cutComma (progress : Progress) : Result Progress := do
  let cleared ← (progress.allowKey true).dropPlace
  return (cleared.skip 1).push .separator

/-- Begins an indented collection here, if the column is a new indentation. Outside brackets one may
begin only where a key may. -/
def beginCollection (token : Token) (progress : Progress) : Result Progress :=
  if !progress.inBlock then .ok progress
  else if !progress.keyAllowed then .error .malformed
  else
    let column := progress.cursor.column
    if progress.indents column then .ok ((progress.addIndent column).push token) else .ok progress

def cutEntry (progress : Progress) : Result Progress := do
  let begun ← progress.beginCollection .sequenceStart
  let cleared ← (begun.allowKey true).dropPlace
  return (cleared.skip 1).push .entry

/-- Cuts the question mark before a key. -/
def cutKey (progress : Progress) : Result Progress := do
  let begun ← progress.beginCollection .mappingStart
  let cleared ← (begun.allowKey begun.inBlock).dropPlace
  return (cleared.skip 1).push .key

/-- Cuts the colon before a value. What was remembered at this nesting is a key. -/
def cutValue (progress : Progress) : Result Progress := do
  match progress.places.lookup progress.nesting with
  | some place =>
    let begins := progress.inBlock && progress.indents place.column
    let known := { progress with
      places := progress.places.filter fun entry => entry.1 != progress.nesting
      keys := (place.token, begins) :: progress.keys }
    let indented := if begins then known.addIndent place.column else known
    return ((indented.allowKey false).skip 1).push .value
  | none =>
    let begun ← progress.beginCollection .mappingStart
    let cleared ← (begun.allowKey begun.inBlock).dropPlace
    return (cleared.skip 1).push .value

/-- Cuts a token that a key may begin with. -/
def cutLeaf (progress : Progress) (leaf : Cursor → Result (Token × Cursor)) : Result Progress := do
  let saved ← progress.savePlace
  let (token, next) ← leaf progress.cursor
  return ((saved.allowKey false).moveTo next).push token

/-- A character of a name of an anchor. -/
def isNameChar (c : Char) : Bool :=
  c.isAlphanum || c == '-' || c == '_'

/-- A character that may follow the name of an anchor. -/
def endsName (c : Char) : Bool :=
  isGap c || ['?', ':', ',', ']', '}', '%', '@', '\x60'].contains c

/-- The name of an anchor ahead, after its sign. -/
def anchorName (cursor : Cursor) : Result (List Char × Cursor) :=
  let start := cursor.forward
  let name := start.rest.takeWhile isNameChar
  let next := start.skip name.length
  if name.isEmpty || next.rest.head?.any (!endsName ·) then .error .malformed else .ok (name, next)

/-- The tag ahead with its sign, up to the next gap. -/
def tagName (cursor : Cursor) : List Char × Cursor :=
  let name := cursor.rest.takeWhile (!isGap ·)
  (name, cursor.skip name.length)

def cutBlock (folding : Bool) (progress : Progress) : Result Progress := do
  let cleared ← (progress.allowKey true).dropPlace
  let (text, next) ← block folding (max 1 (progress.indent + 1)).toNat progress.cursor
  return (cleared.moveTo next).push (.scalar text false)

/-- Cuts a plain scalar. A key may begin after it when it passes a line break. -/
def cutPlain (progress : Progress) : Result Progress := do
  let saved ← progress.savePlace
  let (text, next, broken) :=
    plain (!progress.inBlock) (progress.indent + 1).toNat progress.cursor
  return ((saved.allowKey broken).moveTo next).push (.scalar text true)

/-- A plain scalar may begin with a character before others. -/
def beginsPlain (flow : Bool) (c : Char) (rest : List Char) : Bool :=
  if c == '-' then !gapAhead rest
  else if c == '?' || c == ':' then !flow && !gapAhead rest
  else !isGap c && !isFlowSign c &&
    !(['#', '&', '*', '!', '|', '>', '\'', '"', '%', '@', '\x60'].contains c)

/-- Cuts the token ahead, which begins with a character before others. -/
def cutToken (progress : Progress) (c : Char) (rest : List Char) : Result Progress :=
  let flow := !progress.inBlock
  -- Directives are not read.
  if progress.cursor.column == 0 && c == '%' then .error .malformed
  else if progress.cursor.column == 0 && progress.cursor.separatorAhead then
    progress.cutSeparator (if c == '-' then .documentStart else .documentEnd)
  else if c == '[' then progress.cutOpening .openList
  else if c == '{' then progress.cutOpening .openMap
  else if c == ']' then progress.cutClosing .closeList
  else if c == '}' then progress.cutClosing .closeMap
  else if c == ',' then progress.cutComma
  else if c == '-' && gapAhead rest then progress.cutEntry
  else if c == '?' && (flow || gapAhead rest) then progress.cutKey
  else if c == ':' && (flow || gapAhead rest) then progress.cutValue
  else if c == '*' then
    progress.cutLeaf fun cursor => do
      let (name, next) ← anchorName cursor
      return (.alias name, next)
  else if c == '&' then
    progress.cutLeaf fun cursor => do
      let (name, next) ← anchorName cursor
      return (.anchor name, next)
  else if c == '!' then
    progress.cutLeaf fun cursor => let (name, next) := tagName cursor; .ok (.tag name, next)
  else if c == '|' && !flow then progress.cutBlock false
  else if c == '>' && !flow then progress.cutBlock true
  else if c == '\'' || c == '"' then
    progress.cutLeaf fun cursor => do
      let (text, next) ← quoted cursor
      return (.scalar text false, next)
  else if beginsPlain flow c rest then progress.cutPlain
  else .error .malformed

/-- Ends the text. -/
def finish (progress : Progress) : Result Progress :=
  (progress.unwindTo (-1)).dropPlace

/-- Cuts the rest of a text. The number bounds the tokens. -/
def cutAll : Nat → Progress → Result Progress
  | 0, progress => .ok progress
  | fuel + 1, progress => do
    let ready ← (progress.skipGaps (progress.cursor.rest.length + 1)).dropStale
    let settled := ready.unwindTo ready.cursor.column
    match settled.cursor.rest with
    | [] => settled.finish
    | c :: rest => cutAll fuel (← settled.cutToken c rest)

/-- Tokens from a number on, with the keys among them marked. -/
def marked (keys : List (Nat × Bool)) (number : Nat) : List Token → List Token
  | [] => []
  | token :: rest =>
    let before : List Token :=
      match keys.lookup number with
      | none => []
      | some begins => if begins then [.mappingStart, .key] else [.key]
    before ++ token :: marked keys (number + 1) rest

end Progress

def tokens (text : List Char) : Result (List Token) := do
  if text.all isPrintable then
    let all ← Progress.cutAll (text.length + 1) { cursor := { rest := text } }
    return Progress.marked all.keys 0 all.tokens.reverse
  else .error .malformed

end Scaffold.Yaml
