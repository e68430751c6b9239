import Scaffold.Error
import Scaffold.Render.Document
import Scaffold.Render.Token

/-!
Reading documents from tokens. A template that breaks the grammar is refused with the line where that
shows. The next token is looked at before anything else happens, so that a place that is no token
counts as soon as it is reached.
-/

namespace Scaffold.Render

/-- A reader of tokens: it gives a result and the remaining tokens, or the line of a fault. -/
abbrev Reader (α : Type) := StateT (List Token) (Except Nat) α

namespace Reader

def fault {α : Type} (line : Nat) : Reader α :=
  fun _ => .error line

/-- The next token. -/
def current : Reader Token :=
  fun tokens => .ok (tokens.headD ⟨1, .finish⟩, tokens)

/-- Goes on to the token after the next one. -/
def advance : Reader Unit := fun tokens =>
  match tokens with
  | _ :: next :: rest =>
    if next.kind = .failure then .error next.line else .ok ((), next :: rest)
  | other => .ok ((), other)

def at? (kind : TokenKind) : Reader Bool := do
  return (← current).kind == kind

/-- Goes past a token that has to be of a kind. -/
def expect (kind : TokenKind) : Reader Unit := do
  let token ← current
  if token.kind = kind then advance else fault token.line

/-- Goes past a token if it is of a kind. -/
def skipIf (kind : TokenKind) : Reader Bool := do
  if ← at? kind then
    advance
    return true
  else return false

/-- Goes past a name. -/
def anyName : Reader (String × Nat) := do
  let token ← current
  match token.kind with
  | .name name =>
    advance
    return (name, token.line)
  | _ => fault token.line

end Reader

open Reader

/-- The sign of a comparison. -/
def comparison? : TokenKind → Option Comparison
  | .operator "==" => some .equal
  | .operator "!=" => some .unequal
  | _ => none

/-- What a name stands for when it is a word of the language. -/
def wordValue? (name : String) : Option Value :=
  if name = "true" || name = "True" then some (.bool true)
  else if name = "false" || name = "False" then some (.bool false)
  else if name = "none" || name = "None" then some .null
  else none

/-- The quoted texts that follow each other, as one. -/
def moreText : Nat → Reader (List Char)
  | 0 => return []
  | fuel + 1 => do
    match (← current).kind with
    | .text chars =>
      advance
      return chars ++ (← moreText fuel)
    | _ => return []

/-- A member or an item after a dot. -/
def afterDot (owner : Expr) : Reader Expr := do
  let token ← current
  advance
  match token.kind with
  | .name name => return .member owner name
  | .integer index => return .item owner index
  | _ => fault token.line

/-- The members and items that follow an expression. -/
def postfixes : Nat → Expr → Reader Expr
  | 0, owner => return owner
  | fuel + 1, owner => do
    if ← skipIf (.operator ".") then postfixes fuel (← afterDot owner) else return owner

/-- A name with the names that follow it after dots. -/
def longName : Nat → String → Reader String
  | 0, name => return name
  | fuel + 1, name => do
    if ← skipIf (.operator ".") then
      let (next, _) ← anyName
      longName fuel (name ++ "." ++ next)
    else return name

mutual

/-- A name, a literal, or an expression between parentheses. -/
def primary : Nat → Reader Expr
  | 0 => do fault (← current).line
  | fuel + 1 => do
    let token ← current
    match token.kind with
    | .name name =>
      advance
      return (wordValue? name).elim (.name name) .literal
    | .text _ => return .literal (.text (String.ofList (← moreText (fuel + 1))))
    | .integer value =>
      advance
      return .literal (.int value)
    | .float value =>
      advance
      return .literal (.scalar (.float value))
    | .operator "(" =>
      advance
      let inner ← expression fuel
      expect (.operator ")")
      return inner
    | _ => fault token.line

/-- A primary expression with its members and filters. -/
def filtered : Nat → Reader Expr
  | 0 => do fault (← current).line
  | fuel + 1 => do
    let owner ← postfixes fuel (← primary fuel)
    filters fuel owner

/-- The filters that follow an expression. -/
def filters : Nat → Expr → Reader Expr
  | 0, subject => return subject
  | fuel + 1, subject => do
    if ← skipIf (.operator "|") then
      let (head, line) ← anyName
      let name ← longName fuel head
      let arguments ← callArguments fuel
      filters fuel (.filter subject name arguments line)
    else return subject

/-- The arguments between parentheses, if there are any parentheses. -/
def callArguments : Nat → Reader (List Expr)
  | 0 => return []
  | fuel + 1 => do
    if ← skipIf (.operator "(") then
      if ← skipIf (.operator ")") then return []
      else
        let first ← expression fuel
        moreArguments fuel [first]
    else return []

/-- The arguments after the first ones, up to the closing parenthesis. -/
def moreArguments : Nat → List Expr → Reader (List Expr)
  | 0, _ => do fault (← current).line
  | fuel + 1, before => do
    if ← skipIf (.operator ")") then return before
    else
      expect (.operator ",")
      if ← skipIf (.operator ")") then return before
      else
        let next ← expression fuel
        moreArguments fuel (before ++ [next])

/-- Comparisons of neighbours in a row. -/
def comparisons : Nat → Reader Expr
  | 0 => do fault (← current).line
  | fuel + 1 => do
    let first ← filtered fuel
    match ← moreComparisons fuel with
    | [] => return first
    | others => return .comparison first others

/-- The comparisons after the first operand. -/
def moreComparisons : Nat → Reader (List (Comparison × Expr))
  | 0 => return []
  | fuel + 1 => do
    match comparison? (← current).kind with
    | none => return []
    | some sign =>
      advance
      let operand ← filtered fuel
      return (sign, operand) :: (← moreComparisons fuel)

/-- A comparison, possibly negated. -/
def negated : Nat → Reader Expr
  | 0 => do fault (← current).line
  | fuel + 1 => do
    if ← skipIf (.name "not") then return .negation (← negated fuel) else comparisons fuel

/-- Operands joined by `and`. -/
def conjunctions : Nat → Reader Expr
  | 0 => do fault (← current).line
  | fuel + 1 => do
    let first ← negated fuel
    moreConjunctions fuel first

/-- The operands after the first ones joined by `and`. -/
def moreConjunctions : Nat → Expr → Reader Expr
  | 0, left => return left
  | fuel + 1, left => do
    if ← skipIf (.name "and") then
      let right ← negated fuel
      moreConjunctions fuel (.conjunction left right)
    else return left

/-- An expression: operands joined by `or`. -/
def expression : Nat → Reader Expr
  | 0 => do fault (← current).line
  | fuel + 1 => do
    let first ← conjunctions fuel
    moreDisjunctions fuel first

/-- The operands after the first ones joined by `or`. -/
def moreDisjunctions : Nat → Expr → Reader Expr
  | 0, left => return left
  | fuel + 1, left => do
    if ← skipIf (.name "or") then
      let right ← conjunctions fuel
      moreDisjunctions fuel (.disjunction left right)
    else return left

end

/-- The name of a loop's item. Words of the language are no names. -/
def loopTarget : Reader (String × Nat) := do
  let (name, line) ← anyName
  if (wordValue? name).isSome then fault line else return (name, line)

/-- The next token is one of several words. -/
def atWord (words : List String) : Reader Bool := do
  match (← current).kind with
  | .name name => return words.contains name
  | _ => return false

mutual

/-- The nodes up to a statement that begins with one of several words, which is then the next token;
without such words or without such a statement, up to the end. -/
def nodes : Nat → List String → Reader (List Node)
  | 0, _ => do fault (← current).line
  | fuel + 1, words => do
    let token ← current
    match token.kind with
    | .data chars =>
      advance
      return .text chars :: (← nodes fuel words)
    | .openExpression =>
      advance
      let inner ← expression fuel
      expect .closeExpression
      return .output inner :: (← nodes fuel words)
    | .openStatement =>
      advance
      if ← atWord words then return []
      else
        let node ← statement fuel
        expect .closeStatement
        return node :: (← nodes fuel words)
    | _ => return []

/-- The rest of a statement and the nodes up to one of several words, which has to come. -/
def body : Nat → List String → Reader (List Node)
  | 0, _ => do fault (← current).line
  | fuel + 1, words => do
    let _ ← skipIf (.operator ":")
    expect .closeStatement
    let inner ← nodes fuel words
    let token ← current
    if token.kind = .finish then fault token.line else return inner

/-- A statement from its first word on. -/
def statement : Nat → Reader Node
  | 0 => do fault (← current).line
  | fuel + 1 => do
    let token ← current
    match token.kind with
    | .name "for" =>
      advance
      let (target, line) ← loopTarget
      expect (.name "in")
      let items ← expression fuel
      let condition ← if ← skipIf (.name "if") then some <$> expression fuel else pure none
      let inner ← body fuel ["endfor", "else"]
      if ← skipIf (.name "else") then
        let otherwise ← body fuel ["endfor"]
        advance
        return .loop target line items condition inner otherwise
      else
        advance
        return .loop target line items condition inner []
    | .name "if" =>
      advance
      branches fuel []
    | _ => fault token.line

/-- The cases of a branch from a condition on, after those before. -/
def branches : Nat → List (Expr × List Node) → Reader Node
  | 0, _ => do fault (← current).line
  | fuel + 1, before => do
    let condition ← expression fuel
    let inner ← body fuel ["elif", "else", "endif"]
    let found := before ++ [(condition, inner)]
    if ← skipIf (.name "elif") then branches fuel found
    else if ← skipIf (.name "else") then
      let otherwise ← body fuel ["endif"]
      advance
      return .branch found otherwise
    else
      advance
      return .branch found []

end

/-- The document that tokens make up, or the line of a fault. -/
def Document.ofTokens (all : List Token) : Except Nat Document :=
  match all with
  | [] => .ok []
  | first :: _ =>
    if first.kind = .failure then .error first.line
    else (nodes (8 * all.length + 16) []).run' all

end Scaffold.Render
