import Scaffold.Path
import Scaffold.Text.Case

/-!
Sentinel dialects. A unit of generated text stands between a start and an end sentinel, which are
comments in the syntax of the file around it; the file's extension tells the syntax.
-/

namespace Scaffold.Sentinel

/-- The mark of a start sentinel. -/
def startTag : List Char := "@codefactory:start".toList

/-- The mark of an end sentinel. -/
def endTag : List Char := "@codefactory:end".toList

/-- A comment syntax: what opens a comment, and what closes it unless that is the end of the line. -/
structure Dialect where
  name : String
  opener : List Char
  closer : List Char
  deriving DecidableEq, Repr

namespace Dialect

/-- Comments after two slashes. -/
def slash : Dialect := ⟨"slash", ['/', '/'], []⟩

/-- Comments after a number sign. -/
def hash : Dialect := ⟨"hash", ['#'], []⟩

/-- Comments of markup documents. -/
def html : Dialect := ⟨"html", "<!--".toList, "-->".toList⟩

/-- Comments of templates. -/
def template : Dialect := ⟨"template", ['{', '#'], ['#', '}']⟩

def extensions : List (Dialect × List String) :=
  [(slash, [".ts", ".tsx", ".js", ".jsx", ".mjs", ".cjs", ".go", ".rs", ".java", ".cs", ".cpp", ".c",
     ".h", ".hpp", ".swift", ".kt", ".scala", ".dart", ".php"]),
   (hash, [".py", ".rb", ".sh", ".bash", ".yaml", ".yml", ".toml", ".r"]),
   (html, [".md", ".html", ".htm", ".xml", ".vue", ".svelte"]),
   (template, [".j2", ".jinja", ".jinja2", ".template", ".hbs"])]

/-- The dialect of files with an extension, when the extension is a known one. -/
def ofExtension? (extension : List Char) : Option Dialect :=
  let lowered := String.ofList (Text.lower extension)
  (extensions.find? fun entry => entry.2.contains lowered).map (·.1)

/-- The dialect of a file. A file with an unknown extension takes comments after slashes. -/
def ofPath (path : Path) : Dialect :=
  (ofExtension? path.extension).getD slash

/-- A file has one of the extensions of sources. -/
def isSource (path : Path) : Bool :=
  (ofExtension? path.extension).isSome

def comment (dialect : Dialect) (text : List Char) : List Char :=
  dialect.opener ++ [' '] ++ text ++
    (if dialect.closer.isEmpty then [] else ' ' :: dialect.closer)

/-- An attribute of a start sentinel. -/
def attributeText (name : String) (value : String) : List Char :=
  name.toList ++ ['=', '"'] ++ value.toList ++ ['"']

/-- The start sentinel of a unit. An identity that is empty or that of the generator is left out. -/
def start (dialect : Dialect) (generator : String) (unitId : Option String) : List Char :=
  let identity :=
    match unitId with
    | some id => if id = "" || id = generator then [] else ' ' :: attributeText "id" id
    | none => []
  dialect.comment (startTag ++ [' '] ++ attributeText "factory" generator ++ identity)

/-- The end sentinel of a unit. -/
def finish (dialect : Dialect) : List Char :=
  dialect.comment endTag

/-- A generated text between its sentinels. Line feeds at its end are dropped. -/
def wrap (dialect : Dialect) (body : List Char) (generator : String) (unitId : Option String) :
    List Char :=
  dialect.start generator unitId ++ ['\n'] ++ Text.dropRightWhile (· == '\n') body ++ ['\n'] ++
    dialect.finish

end Dialect

/-- A text holds the mark of a start sentinel. -/
def hasStart (text : List Char) : Bool :=
  Text.holds startTag text

end Scaffold.Sentinel
