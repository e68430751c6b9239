import Scaffold.Json.Reader
import Scaffold.Text.Digit
import Scaffold.Text.Identifier

/-!
The grammar of written patterns: which texts are regular expressions. Beyond the nesting of groups and
the places of quantifiers it asks that references are to groups that are closed, that a class has no
range that runs backwards, and that what a look-behind may match has one length only.
-/

namespace Scaffold.Pattern.Grammar

open Text

/-- A character of a written pattern, or a character after a backslash. -/
inductive Token
  | plain (c : Char)
  | escaped (c : Char)
  deriving DecidableEq, Repr

/-- The tokens of a text. A backslash at the end, which escapes nothing, is none. -/
def tokens : List Char → List Token
  | [] => []
  | '\\' :: c :: rest => .escaped c :: tokens rest
  | c :: rest => if c = '\\' then [] else .plain c :: tokens rest

/-- A backslash that escapes nothing stands at the end of a text. -/
def dangles : List Char → Bool
  | [] => false
  | '\\' :: _ :: rest => dangles rest
  | c :: rest => c = '\\' || dangles rest

/-- Why a text is no pattern. -/
inductive Flaw
  /-- The grammar is broken. -/
  | broken
  /-- A number lies out of range, or the flags exclude each other. No caller expects this. -/
  | unfit (detail : String)
  deriving DecidableEq, Repr

/-- The largest length that is told apart from any larger one. -/
def longest : Nat := 4294967295

/-- The least and the greatest length of what a pattern matches. -/
structure Width where
  low : Nat
  high : Nat
  deriving DecidableEq, Repr

namespace Width

/-- No length at all. -/
def zero : Width := ⟨0, 0⟩

/-- One character. -/
def one : Width := ⟨1, 1⟩

/-- One after the other. -/
def add (first second : Width) : Width :=
  ⟨first.low + second.low, first.high + second.high⟩

/-- One or the other. -/
def either (first second : Width) : Width :=
  ⟨min first.low second.low, max first.high second.high⟩

/-- A number of repetitions. -/
def times (width : Width) (least most : Nat) : Width :=
  ⟨width.low * least, width.high * most⟩

/-- Lengths beyond the largest one are not told apart. -/
def capped (width : Width) : Width :=
  ⟨min width.low (longest - 1), min width.high longest⟩

end Width

/-- What is known while a pattern is read: the tokens ahead, the groups so far with the widths of those
that are closed, the names of groups with their numbers, how many groups stood before the outermost
look-behind, the groups that conditions ask for, the letters of the flags for the whole pattern, whether a
look-behind may match texts of several lengths, and whether a backslash stands behind the tokens. -/
structure State where
  ahead : List Token
  groups : List (Option Width) := []
  names : List (String × Nat) := []
  behind : Option Nat := none
  wanted : List Nat := []
  letters : List Char := []
  ragged : Bool := false
  dangling : Bool := false
  deriving Repr

/-- Blanks and comments are passed over in the whole pattern. -/
def State.spaced (state : State) : Bool :=
  state.letters.contains 'x'

/-- A reader of patterns. It fails with what is wrong first. -/
abbrev Reader := StateT State (Except Flaw)

/-- The grammar is broken. -/
def broken {α : Type} : Reader α := fun _ => .error .broken

/-- A number or the flags do not fit. -/
def unfit {α : Type} (detail : String) : Reader α := fun _ => .error (.unfit detail)

/-- The next token. -/
def peek : Reader (Option Token) := do
  return (← get).ahead.head?

/-- Takes the next token, if there is one. -/
def next? : Reader (Option Token) := do
  let token ← peek
  modify fun state => { state with ahead := state.ahead.tail }
  return token

/-- Takes the next token, which there has to be. -/
def next : Reader Token := do
  match ← next? with
  | some token => return token
  | none => broken

/-- Takes the next token if it is a given character. -/
def skipIf (c : Char) : Reader Bool := do
  if (← peek) = some (.plain c) then
    let _ ← next?
    return true
  else return false

/-- Takes a character that has to come. -/
def expect (c : Char) : Reader Unit := do
  if !(← skipIf c) then broken

/-- The characters of a class at the start of tokens. -/
def plainRun (p : Char → Bool) : List Token → List Char
  | .plain c :: rest => if p c then c :: plainRun p rest else []
  | _ => []

/-- Takes the characters of a class that come next, up to a number of them. -/
def takeRun (p : Char → Bool) (most : Option Nat) : Reader (List Char) := do
  let all := plainRun p (← get).ahead
  let run := match most with
    | some most => all.take most
    | none => all
  modify fun state => { state with ahead := state.ahead.drop run.length }
  return run

/-- The characters before a closing one. -/
def untilChar (closing : Char) : List Token → Option (List Char × List Token)
  | [] => none
  | .plain c :: rest =>
    if c = closing then some ([], rest)
    else (untilChar closing rest).map fun (chars, after) => (c :: chars, after)
  | .escaped c :: rest =>
    (untilChar closing rest).map fun (chars, after) => ('\\' :: c :: chars, after)

/-- Takes a nonempty text and the character that closes it. -/
def takeUntil (closing : Char) : Reader (List Char) := do
  match untilChar closing (← get).ahead with
  | some (c :: chars, after) =>
    modify fun state => { state with ahead := after }
    return c :: chars
  | _ => broken

def groupName (closing : Char) : Reader String := do
  let name ← takeUntil closing
  if isIdentifier name then return String.ofList name else broken

/-- A digit in base sixteen. -/
def isHex (c : Char) : Bool :=
  (Json.hexValue? c).isSome

/-- A digit in base eight. -/
def isOctal (c : Char) : Bool :=
  '0' ≤ c && c ≤ '7'

def valueOf (base : Nat) (digits : List Char) : Nat :=
  digits.foldl (fun value digit => value * base + (Json.hexValue? digit).getD 0) 0

/-- What a quantifier may follow. -/
inductive Role
  /-- A place: nothing to repeat. -/
  | anchor
  | repeated
  /-- Something to repeat. -/
  | unit
  deriving DecidableEq, Repr

/-- Something in a row: its role and its width. -/
structure Item where
  role : Role
  width : Width
  deriving DecidableEq, Repr

/-- An item of one character. -/
def single : Item := ⟨.unit, .one⟩

/-- An item of no character. -/
def place : Item := ⟨.anchor, .zero⟩

/-- What an escape stands for. -/
inductive Escape
  | char (code : Nat)
  | charClass
  deriving DecidableEq, Repr

def fixedCode (length : Nat) : Reader Escape := do
  let digits ← takeRun isHex (some length)
  let code := valueOf 16 digits
  if digits.length = length && code < 0x110000 then return .char code else broken

/-- Takes the rest of an escape that names a character by its code or by its name. -/
def codeEscape? (c : Char) : Reader (Option Escape) := do
  if c = 'x' then return some (← fixedCode 2)
  else if c = 'u' then return some (← fixedCode 4)
  else if c = 'U' then return some (← fixedCode 8)
  else if c = 'N' then
    expect '{'
    let _ ← takeUntil '}'
    return some (.char 0xfffd)
  else return none

/-- The characters that letters after a backslash stand for, but for the one whose meaning depends on
the place. -/
def letterCode? (c : Char) : Option Nat :=
  [('a', 7), ('f', 12), ('n', 10), ('r', 13), ('t', 9), ('v', 11), ('\\', 92)].lookup c

/-- A letter after a backslash names a class of characters. -/
def isClassLetter (c : Char) : Bool :=
  ['d', 'D', 's', 'S', 'w', 'W'].contains c

/-- Takes the rest of an escape inside a class. -/
def classEscape (c : Char) : Reader Escape := do
  if c = 'b' then return .char 8
  else if isClassLetter c then return .charClass
  else
    match letterCode? c with
    | some code => return .char code
    | none =>
      match ← codeEscape? c with
      | some code => return code
      | none =>
        if isOctal c then
          let code := valueOf 8 (c :: (← takeRun isOctal (some 2)))
          if code ≤ 255 then return .char code else broken
        else if c.isAlphanum then broken
        else return .char c.toNat

def closedWidth? (state : State) (group : Nat) : Option Width :=
  if group = 0 then none else (state.groups[group - 1]?).join

/-- Checks that a group may be asked for here: inside a look-behind it has to be closed and to stand
before it. -/
def checkBehind (group : Nat) : Reader Unit := do
  let state ← get
  match state.behind with
  | none => return
  | some before =>
    if (closedWidth? state group).isSome && group ≤ before then return else broken

/-- A reference to a group, which has to be closed. -/
def reference (group : Nat) : Reader Item := do
  match closedWidth? (← get) group with
  | some width =>
    checkBehind group
    return ⟨.unit, width⟩
  | none => broken

/-- Takes the rest of an escape that begins with a digit other than zero: a code in base eight, if
there are three digits for it, and otherwise the number of a group. -/
def numberEscape (c : Char) : Reader Item := do
  let more := plainRun Char.isDigit (← get).ahead
  -- Two more digits may complete a code; with fewer, or another digit among them, it is a group.
  match more with
  | d :: e :: _ =>
    if isOctal c && isOctal d && isOctal e then
      let _ ← takeRun Char.isDigit (some 2)
      if valueOf 8 [c, d, e] ≤ 255 then return single else broken
    else
      let _ ← takeRun Char.isDigit (some 1)
      reference (valueOf 10 [c, d])
  | [d] =>
    let _ ← takeRun Char.isDigit (some 1)
    reference (valueOf 10 [c, d])
  | [] => reference (valueOf 10 [c])

/-- Takes the rest of an escape outside a class. -/
def escape (c : Char) : Reader Item := do
  if ['A', 'b', 'B', 'Z'].contains c then return place
  else if isClassLetter c || (letterCode? c).isSome then return single
  else
    match ← codeEscape? c with
    | some _ => return single
    | none =>
      if c = '0' then
        let _ ← takeRun isOctal (some 2)
        return single
      else if c.isDigit then numberEscape c
      else if c.isAlpha then broken
      else return single

/-- What a token inside a class stands for. -/
def classMember : Token → Reader Escape
  | .plain c => return .char c.toNat
  | .escaped c => classEscape c

/-- Takes the rest of a class after its opening bracket, given whether it has members already. The
number bounds the steps. -/
def classRest : Nat → Bool → Reader Unit
  | 0, _ => broken
  | fuel + 1, started => do
    let token ← next
    -- A bracket that would leave the class empty is a member of it.
    if token = .plain ']' && started then return
    else
      let first ← classMember token
      if ← skipIf '-' then
        let token ← next
        -- A hyphen right before the end of the class stands for itself.
        if token = .plain ']' then return
        else
          match first, ← classMember token with
          | .char low, .char high => if high < low then broken else classRest fuel true
          | _, _ => broken
      else classRest fuel true

/-- The bounds between braces at the start of tokens, when they are a quantifier, and what follows. -/
def braceBounds? (tokens : List Token) : Option ((List Char × List Char) × List Token) :=
  let least := plainRun Char.isDigit tokens
  match tokens.drop least.length with
  | .plain ',' :: rest =>
    let most := plainRun Char.isDigit rest
    match rest.drop most.length with
    | .plain '}' :: after => some ((least, most), after)
    | _ => none
  | .plain '}' :: after => if least.isEmpty then none else some ((least, least), after)
  | _ => none

/-- What is wrong with the digits of a number of repetitions. -/
def excess? (digits : List Char) : Option String :=
  if Json.digitLimit < digits.length then some "too many digits"
  else if longest ≤ valueOf 10 digits then some "the repetition number is too large"
  else none

/-- The numbers of repetitions that a quantifier allows, if the character opens one. -/
def bounds? (c : Char) : Reader (Option (Nat × Nat)) := do
  if c = '*' then return some (0, longest)
  else if c = '+' then return some (1, longest)
  else if c = '?' then return some (0, 1)
  else if c = '{' then
    let state ← get
    match braceBounds? state.ahead with
    -- Braces that hold no bounds are plain characters.
    | none => return none
    | some ((least, most), after) =>
      match (excess? least).or (excess? most) with
      | some detail => if after.isEmpty && state.dangling then broken else unfit detail
      | none =>
        let low := valueOf 10 least
        let high := if most.isEmpty then longest else valueOf 10 most
        if low ≤ high then
          set { state with ahead := after }
          return some (low, high)
        else broken
  else return none

/-- What was read in a row: the width up to the latest item, and that item. -/
structure Row where
  before : Width := .zero
  latest : Option Item := none
  deriving Repr

namespace Row

def width (row : Row) : Width :=
  match row.latest with
  | some item => row.before.add item.width
  | none => row.before

def push (row : Row) (item : Item) : Row :=
  ⟨row.width, some item⟩

/-- A row whose latest item is repeated. -/
def repeated? (row : Row) (least most : Nat) : Option Row :=
  match row.latest with
  | some ⟨.unit, width⟩ => some ⟨row.before, some ⟨.repeated, width.times least most⟩⟩
  | _ => none

end Row

def flagLetters : List Char := ['i', 'm', 's', 'x', 'a', 't', 'u']

/-- Takes the letters of flags and the character that ends them. Flags on the character set exclude
each other. -/
def flagRun : Nat → List Char → Char → Reader (List Char × Char)
  | 0, _, _ => broken
  | fuel + 1, before, c => do
    if flagLetters.contains c then
      let clash := (c = 'a' && before.contains 'u') || (c = 'u' && before.contains 'a')
      if clash then broken
      else
        match ← next with
        | .plain d => flagRun fuel (c :: before) d
        | .escaped _ => broken
    else if c = ')' || c = '-' || c = ':' then return (before, c)
    else broken

/-- What flags between parentheses are for. -/
inductive Flags
  /-- The whole pattern. -/
  | whole (letters : List Char)
  /-- The group that they open, where they are turned on or off. -/
  | group (on off : List Char)
  deriving Repr

/-- Takes the letters of flags to turn off, and the colon after them. -/
def flagsOff (on : List Char) : Reader Flags := do
  match ← next with
  | .plain c =>
    let fuel := (← get).ahead.length + 1
    let (off, last) ← flagRun fuel [] c
    let allowed := off.all fun flag => flag != 'a' && flag != 'u' && flag != 't' && !on.contains flag
    if off.isEmpty || last != ':' || !allowed then broken else return .group on off
  | .escaped _ => broken

/-- Takes flags from their first character on. -/
def flags (c : Char) : Reader Flags := do
  if c = '-' then flagsOff []
  else if !flagLetters.contains c then broken
  else
    let fuel := (← get).ahead.length + 1
    let (on, last) ← flagRun fuel [] c
    if last = ')' then return .whole on
    else if on.contains 't' then broken
    else if last = ':' then return .group on []
    else flagsOff on

/-- Opens a group, with its name if it has one, and gives its number. -/
def openGroup (name : Option String) : Reader Nat := do
  let state ← get
  let group := state.groups.length + 1
  match name with
  | none =>
    set { state with groups := state.groups ++ [none] }
    return group
  | some name =>
    if (state.names.lookup name).isSome then broken
    else
      set { state with groups := state.groups ++ [none], names := (name, group) :: state.names }
      return group

def closeGroup (group : Nat) (width : Width) : Reader Unit :=
  modify fun state => { state with groups := state.groups.set (group - 1) (some width) }

/-- The number that no group has. -/
def groupLimit : Nat := 1073741823

/-- The number of the group that a condition asks for. -/
def conditionGroup : Reader Nat := do
  let name ← takeUntil ')'
  let state ← get
  if isIdentifier name then
    match state.names.lookup (String.ofList name) with
    | some number => return number
    | none => broken
  else
    let number := (name.filterMap digitValue?).foldl (fun value digit => value * 10 + digit) 0
    if name.all isDecimal && number != 0 && number < groupLimit then
      set { state with wanted := number :: state.wanted }
      return number
    else broken

/-- Passes over the rest of a comment inside parentheses. -/
def skipComment : Reader Unit := do
  match untilChar ')' (← get).ahead with
  | some (_, after) => modify fun state => { state with ahead := after }
  | none => broken

/-- Passes over the rest of a line. -/
def skipLine : Reader Unit :=
  modify fun state =>
    { state with ahead := (state.ahead.dropWhile (· != .plain '\n')).drop 1 }

/-- A blank that is passed over in a pattern whose blanks do not count. -/
def isSpacing (c : Char) : Bool :=
  [' ', '\t', '\n', '\r', '\x0b', '\x0c'].contains c

/-- What stands between parentheses. -/
inductive Group
  | item (item : Item)
  /-- A comment. -/
  | nothing
  /-- Flags for the whole pattern. -/
  | flags

mutual

/-- Takes alternatives, given whether blanks are passed over and whether these are the outermost ones
and the first of them. -/
def alternatives : Nat → Bool → Bool → Bool → Reader Width
  | 0, _, _, _ => broken
  | fuel + 1, spaced, outermost, first => do
    let row ← sequence fuel spaced (outermost && first) {}
    if ← skipIf '|' then
      let state ← get
      -- Flags at the front of the pattern hold in its later alternatives too.
      let others ← alternatives fuel (if outermost then state.spaced else spaced) outermost false
      return row.either others
    else return row

/-- Takes items in a row, after those that were read, up to the end of an alternative. -/
def sequence : Nat → Bool → Bool → Row → Reader Width
  | 0, _, _, _ => broken
  | fuel + 1, spaced, leading, row => do
    match ← peek with
    | none => return row.width.capped
    | some (.plain '|') => return row.width.capped
    | some (.plain ')') => return row.width.capped
    | some (.escaped c) =>
      let _ ← next?
      sequence fuel spaced leading (row.push (← escape c))
    | some (.plain c) =>
      let _ ← next?
      if spaced && isSpacing c then sequence fuel spaced leading row
      else if spaced && c = '#' then
        skipLine
        sequence fuel spaced leading row
      else if c = '[' then
        let _ ← skipIf '^'
        classRest fuel false
        sequence fuel spaced leading (row.push single)
      else if c = '^' || c = '$' then sequence fuel spaced leading (row.push place)
      else if c = '(' then
        match ← group fuel spaced with
        | .item item => sequence fuel spaced leading (row.push item)
        | .nothing => sequence fuel spaced leading row
        | .flags =>
          let state ← get
          -- Flags for the whole pattern stand before anything else of it.
          if leading && row.latest.isNone then sequence fuel state.spaced leading row else broken
      else
        match ← bounds? c with
        | none => sequence fuel spaced leading (row.push single)
        | some (least, most) =>
          match row.repeated? least most with
          | none => broken
          | some row =>
            -- A lazy or possessive sign changes what is tried first and not the width.
            if ← skipIf '?' then sequence fuel spaced leading row
            else
              let _ ← skipIf '+'
              sequence fuel spaced leading row

/-- Takes what stands between parentheses, after the opening one. -/
def group : Nat → Bool → Reader Group
  | 0, _ => broken
  | fuel + 1, spaced => do
    if ← skipIf '?' then
      match ← next with
      | .escaped _ => broken
      | .plain c =>
        if c = 'P' then namedGroup fuel spaced
        else if c = ':' then return .item ⟨.unit, ← inner fuel spaced⟩
        else if c = '>' then return .item ⟨.unit, ← inner fuel spaced⟩
        else if c = '#' then
          skipComment
          return .nothing
        else if c = '=' || c = '!' then
          let _ ← inner fuel spaced
          return .item ⟨.unit, .zero⟩
        else if c = '<' then lookBehind fuel spaced
        else if c = '(' then condition fuel spaced
        else
          match ← flags c with
          | .whole letters =>
            modify fun state => { state with letters := state.letters ++ letters }
            return .flags
          | .group on off =>
            return .item ⟨.unit, ← inner fuel ((spaced || on.contains 'x') && !off.contains 'x')⟩
    else capture fuel spaced none

/-- Takes the alternatives of a group and the closing parenthesis. -/
def inner : Nat → Bool → Reader Width
  | 0, _ => broken
  | fuel + 1, spaced => do
    let width ← alternatives fuel spaced false true
    expect ')'
    return width

def capture : Nat → Bool → Option String → Reader Group
  | 0, _, _ => broken
  | fuel + 1, spaced, name => do
    let number ← openGroup name
    let width ← inner fuel spaced
    closeGroup number width
    return .item ⟨.unit, width⟩

/-- Takes a group with a name, or a reference by name. -/
def namedGroup : Nat → Bool → Reader Group
  | 0, _ => broken
  | fuel + 1, spaced => do
    if ← skipIf '<' then
      let name ← groupName '>'
      capture fuel spaced (some name)
    else if ← skipIf '=' then
      let name ← groupName ')'
      match (← get).names.lookup name with
      | some number => return .item (← reference number)
      | none => broken
    else broken

/-- Takes a look-behind. What it may match has to have one length only, which the end tells. -/
def lookBehind : Nat → Bool → Reader Group
  | 0, _ => broken
  | fuel + 1, spaced => do
    let sign ← next
    if sign = .plain '=' || sign = .plain '!' then
      let outer := (← get).behind
      -- Inside another look-behind the groups before the outer one count.
      modify fun state => { state with behind := outer.or (some state.groups.length) }
      let width ← inner fuel spaced
      modify fun state =>
        { state with behind := outer, ragged := state.ragged || width.low != width.high }
      return .item ⟨.unit, .zero⟩
    else broken

/-- Takes a condition on a group with what applies when it matched, and otherwise. -/
def condition : Nat → Bool → Reader Group
  | 0, _ => broken
  | fuel + 1, spaced => do
    let number ← conditionGroup
    checkBehind number
    let yes ← sequence fuel spaced false {}
    let otherwise ← if ← skipIf '|' then sequence fuel spaced false {} else pure .zero
    expect ')'
    return .item ⟨.unit, ⟨min yes.low otherwise.low, max yes.high otherwise.high⟩⟩

end

/-- Takes a whole pattern. Its flags are looked at before anything is made of it. -/
def whole (fuel : Nat) : Reader Unit := do
  let _ ← alternatives fuel false true true
  let state ← get
  if state.dangling then broken
  else if state.letters.contains 'a' && state.letters.contains 'u' then
    unfit "ASCII and UNICODE flags are incompatible"
  else if state.ahead.isEmpty && state.wanted.all (· ≤ state.groups.length) && !state.ragged then return
  else broken

/-- What is wrong with a text as a pattern, if anything is. -/
def judge (text : List Char) : Except Flaw Unit :=
  let tokens := tokens text
  (whole (5 * tokens.length + 8)).run' { ahead := tokens, dangling := dangles text }

end Scaffold.Pattern.Grammar
