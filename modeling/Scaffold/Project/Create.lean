import Scaffold.Project.Basic

/-!
Creating units. A new file gets one unit; in a file with units the first one of the same identity is
replaced. A file with other content is left alone.
-/

namespace Scaffold.Project

open Sentinel

def replaceSpan (text : List Char) (span : Span) (unit : List Char) : List Char :=
  text.take span.start ++ unit ++ text.drop span.finish

/-- The first unit with an identity among those of a file. -/
def unitToReplace (target : Path) (identity : String) (spans : List Span) : Except Error Span :=
  if spans.isEmpty then
    .error (.alreadyExists target.toString
      "File holds unmarked content. Use sync to update marked files.")
  else
    match spans.find? fun span => span.identity == identity with
    | some span => .ok span
    | none =>
      .error (.alreadyExists target.toString
        ("File holds generation units for: " ++ Error.listed (spans.map Span.identity)))

/-- A path holds nothing yet: no file, or one with blanks only. -/
def isVacant (target : Path) : Work Bool := do
  if (← get).store.holds target then
    return (Text.trim (← Work.readFile target)).isEmpty
  else return true

/-- Puts a unit into a file. -/
def place (target : Path) (identity : String) (unit : List Char) (preview : Bool) : Work Action := do
  if ← isVacant target then
    if !preview then Work.writeNewFile target (unit ++ ['\n'])
    return .created
  else
    let text ← Work.readFile target
    let spans ← Work.ofResult (findSpans (Dialect.ofPath target) (some target.toString) text)
    let span ← Work.ofResult (unitToReplace target identity spans)
    commit target text (replaceSpan text span unit) preview

/-- The identity of a unit: its own if it has one, and that of its generator else. -/
def identityOf (generator : String) (unitId : Option String) : String :=
  match unitId with
  | some id => if id = "" then generator else id
  | none => generator

def createWith (generator : Generator) (params : Record) (target : Path) (unitId : Option String)
    (preview : Bool) : Work Action := do
  let text ← Work.ofResult (generator.render params)
  let unit := (Dialect.ofPath target).wrap text generator.name unitId
  place target (identityOf generator.name unitId) unit preview

def create (project : Project) (generator : String) (params : Record) (path : Path)
    (unitId : Option String) (preview : Bool) : Work Action := do
  let generator ← Work.ofResult (project.registry.resolve generator)
  createWith generator params (project.resolvePath path) unitId preview

end Scaffold.Project
