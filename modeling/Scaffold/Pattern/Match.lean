import Scaffold.Pattern.Basic

/-!
Matching. A pattern is tried from the left; where it can go on in several ways they are tried in the
order of its parts, and the first that lets the rest match counts.
-/

namespace Scaffold.Pattern

/-- A place in a text, with the captures so far, the latest first. -/
structure State where
  rest : List Char
  captures : List (String × List Char)
  deriving Repr

/-- Goes on after the longest run of a class that lets the rest match. -/
def longest {α : Type} (holds : Char → Bool) (next : List Char → Option α) :
    List Char → Option α
  | [] => next []
  | c :: rest =>
    if holds c then (longest holds next rest).or (next (c :: rest)) else next (c :: rest)

/-- Goes on after the shortest run of a class that lets the rest match. -/
def shortestRun {α : Type} (holds : Char → Bool) (next : List Char → Option α) :
    List Char → Option α
  | [] => next []
  | c :: rest =>
    (next (c :: rest)).or (if holds c then shortestRun holds next rest else none)

/-- Goes on after one character of a class. -/
def single {α : Type} (holds : Char → Bool) (next : List Char → Option α) :
    List Char → Option α
  | [] => none
  | c :: rest => if holds c then next rest else none

/-- The text between two places, the second of which lies in the rest of the first. -/
def between (start finish : List Char) : List Char :=
  start.take (start.length - finish.length)

/-- Matches a pattern at a place and goes on from where it ends. -/
def run {α : Type} : Pattern → State → (State → Option α) → Option α
  | empty, state, next => next state
  | char c, state, next =>
    single (· == c) (fun rest => next { state with rest }) state.rest
  | one kind, state, next =>
    single kind.holds (fun rest => next { state with rest }) state.rest
  | many kind, state, next =>
    single kind.holds
      (fun rest => longest kind.holds (fun after => next { state with rest := after }) rest)
      state.rest
  | any kind, state, next =>
    longest kind.holds (fun rest => next { state with rest }) state.rest
  | few kind, state, next =>
    shortestRun kind.holds (fun rest => next { state with rest }) state.rest
  | optional body, state, next => (run body state next).or (next state)
  | append first second, state, next =>
    run first state fun middle => run second middle next
  | either first second, state, next => (run first state next).or (run second state next)
  | group body, state, next => run body state next
  | capture name body, state, next =>
    run body state fun after =>
      next { after with captures := (name, between state.rest after.rest) :: after.captures }
  | again name, state, next =>
    match state.captures.lookup name with
    | some text =>
      match text.isPrefixOf? state.rest with
      | some rest => next { state with rest }
      | none => none
    | none => none

/-- A match of a pattern: its captures, and what follows it. -/
structure Match where
  captures : List (String × List Char)
  rest : List Char
  deriving Repr

/-- The text captured under a name. -/
def Match.capture? (found : Match) (name : String) : Option (List Char) :=
  found.captures.lookup name

/-- The match at the start of a text, which is not to be empty if so demanded. -/
def matchHere? (pattern : Pattern) (nonempty : Bool) (text : List Char) : Option Match :=
  pattern.run ⟨text, []⟩ fun state =>
    if nonempty && state.rest.length == text.length then none
    else some ⟨state.captures, state.rest⟩

/-- The first match in a text. -/
def search? (pattern : Pattern) : List Char → Option Match
  | [] => pattern.matchHere? false []
  | c :: rest => (pattern.matchHere? false (c :: rest)).or (search? pattern rest)

/-- All matches in a text from the left, without overlap, where `skip` characters belong to the match
before. After an empty match the next one at the same place is not empty. -/
def matchesAfter (pattern : Pattern) : Nat → List Char → List Match
  | _ + 1, [] => []
  | skip + 1, _ :: rest => matchesAfter pattern skip rest
  | 0, [] => (pattern.matchHere? false []).toList
  | 0, c :: rest =>
    match pattern.matchHere? false (c :: rest) with
    | none => matchesAfter pattern 0 rest
    | some found =>
      if found.rest.length = rest.length + 1 then
        match pattern.matchHere? true (c :: rest) with
        | none => found :: matchesAfter pattern 0 rest
        | some next => found :: next :: matchesAfter pattern (rest.length - next.rest.length) rest
      else found :: matchesAfter pattern (rest.length - found.rest.length) rest

/-- All matches in a text from the left, without overlap. -/
def findMatches (pattern : Pattern) (text : List Char) : List Match :=
  matchesAfter pattern 0 text

end Scaffold.Pattern
