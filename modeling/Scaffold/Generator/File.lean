import Scaffold.Generator.Basic
import Scaffold.Generator.Head
import Scaffold.Sentinel.Dialect
import Scaffold.Store

/-!
Generators from template files. A file that does not load is reported and does not stop the files
after it.
-/

namespace Scaffold

open Text

/-- The ends of the names of template files. -/
def templateEndings : List String := [".j2", ".jinja", ".jinja2", ".template"]

def holdsSentinel (line : List Char) : Bool :=
  holds Sentinel.startTag line || holds Sentinel.endTag line

/-- The text without the lines that hold sentinels, and without blanks at its start. -/
def withoutSentinels (text : List Char) : List Char :=
  trimLeft ((wholeLines text).filter fun line => !holdsSentinel line).flatten

namespace Generator

def required (path : Path) (head : Record) (field : String) : Except Error String :=
  let value := (Keyed.field? head field).getD .null
  if value.truthy then .ok value.string else .error (.missingField path.toString field)

/-- A field of a head, null if it is not there. -/
def optional (head : Record) (field : String) : Value :=
  (Keyed.field? head field).getD .null

/-- The generator that the text of a template file declares. -/
def ofText (path : Path) (text : List Char) : Except Error Generator := do
  let (head, body) ← readHead (withoutSentinels (unifyBreaks text))
  let name ← required path head "name"
  let description ← required path head "description"
  let first := optional head "outputPath"
  let outputPath := if first.truthy then first else optional head "output_path"
  define name description body (optional head "params") (optional head "examples") outputPath

/-- The generator of a template file. -/
def load (store : Store) (path : Path) : Except Error Generator := do
  ofText path (← store.read path)

/-- The template files of a directory in order, or of all directories below it too. -/
def templateFiles (store : Store) (directory : Path) (recursive : Bool) : List Path :=
  let keys := if recursive then store.descendants directory else store.children directory
  (keys.map (Store.pathBelow directory)).filter fun path =>
    store.hasFile path && templateEndings.any fun ending => endsWith ending.toList path.name.toList

/-- What became of loading the files of a directory: the generators with their files, and what went
wrong. -/
structure Loaded where
  generators : List (Path × Generator) := []
  errors : List String := []

/-- Loads files in turn. A failure that no file is to blame for stops everything. -/
def loadAll (store : Store) : List Path → List Warning × Except Error Loaded
  | [] => ([], .ok {})
  | path :: rest =>
    match load store path with
    | .ok generator =>
      let (warnings, result) := loadAll store rest
      (warnings, result.map fun loaded =>
        { loaded with generators := (path, generator) :: loaded.generators })
    | .error error =>
      if error.errorClass = .misuse then ([], .error error)
      else
        let (warnings, result) := loadAll store rest
        (.templateNotLoaded path.toString error.message :: warnings, result.map fun loaded =>
          { loaded with errors := (path.toString ++ ": " ++ error.message) :: loaded.errors })

/-- Loads the template files of a directory. A directory that is not there has none. -/
def loadDirectory (store : Store) (directory : Path) (recursive : Bool) :
    List Warning × Except Error Loaded :=
  loadAll store (templateFiles store directory recursive)

end Generator

end Scaffold
