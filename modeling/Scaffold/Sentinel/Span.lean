import Scaffold.Error
import Scaffold.Sentinel.Mark

/-!
The units of a text. The sentinels have to alternate, a start sentinel first, and each start sentinel
has to name a generator. The first breach in the order of the text fails the whole text.
-/

namespace Scaffold.Sentinel

/-- A unit of a text: its generator, its identity if it has one of its own, and the offsets of the
whole unit and of the generated text between the sentinels. -/
structure Span where
  generator : String
  unitId : Option String
  start : Nat
  finish : Nat
  bodyStart : Nat
  bodyFinish : Nat
  deriving DecidableEq, Repr

namespace Span

/-- The identity of a unit: its own, or that of its generator. -/
def identity (span : Span) : String :=
  match span.unitId with
  | some id => if id = "" then span.generator else id
  | none => span.generator

/-- The generated text of a unit, without blanks at its end. -/
def body (span : Span) (text : List Char) : List Char :=
  Text.trimRight ((text.take span.bodyFinish).drop span.bodyStart)

end Span

/-- The offset where the generated text of a unit begins: after the line of its start sentinel, or
right after the sentinel when no line ends before the end sentinel. -/
def bodyOffset (text : List Char) (startFinish endStart : Nat) : Nat :=
  let between := (text.take endStart).drop startFinish
  if between.contains '\n' then startFinish + between.idxOf '\n' + 1 else startFinish

/-- The unit between two sentinels. -/
def spanOf (text : List Char) (path : Option String) (opening : Located (List Char))
    (closing : Located Unit) : Except Error Span :=
  let id := attributeValue? "id" opening.value
  let span (generator : String) : Span :=
    { generator, unitId := id, start := opening.start, finish := closing.finish
      bodyStart := bodyOffset text opening.finish closing.start, bodyFinish := closing.start }
  match attributeValue? "factory" opening.value with
  | some generator =>
    if generator = "" then missing id else .ok (span generator)
  | none => missing id
where
  /-- A start sentinel without a generator has the old form when it has an identity. -/
  missing (id : Option String) : Except Error Span :=
    match id with
    | some id => .error (.legacyMarker id path)
    | none => .error (.structural (.anonymousStart opening.start) path)

/-- The units that sentinels delimit, given the start sentinel that is open. -/
def spansFrom (text : List Char) (path : Option String) :
    Option (Located (List Char)) → List Mark → Except Error (List Span)
  | none, [] => .ok []
  | some opening, [] => .error (.structural (.unclosedStart opening.start) path)
  | none, .start mark :: rest => spansFrom text path (some mark) rest
  | some opening, .start mark :: _ =>
    .error (.structural (.nestedStart mark.start opening.start) path)
  | none, .finish mark :: _ => .error (.structural (.strayEnd mark.start) path)
  | some opening, .finish mark :: rest => do
    let span ← spanOf text path opening mark
    let others ← spansFrom text path none rest
    return span :: others

/-- The units of a text in order. The path is that of the text, if errors are to name it. -/
def findSpans (dialect : Dialect) (path : Option String) (text : List Char) :
    Except Error (List Span) :=
  spansFrom text path none (marks dialect text)

end Scaffold.Sentinel
