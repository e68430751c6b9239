import Scaffold.Text.Line

/-!
Paths of files: names separated by slashes. Empty names and single dots are dropped when a path is
read; a double dot stays, because what it means depends on the files.
-/

namespace Scaffold

/-- Where a path starts: at the current directory, or at the root, which one or two slashes name. -/
inductive Anchor
  | relative
  | root
  | doubleRoot
  deriving DecidableEq, Repr, Inhabited

/-- A path: where it starts, and its names in order. -/
structure Path where
  anchor : Anchor
  names : List String
  deriving DecidableEq, Repr, Inhabited

namespace Path

/-- Where a written path starts. -/
def anchorOf : List Char → Anchor
  | '/' :: '/' :: '/' :: _ => .root
  | '/' :: '/' :: _ => .doubleRoot
  | '/' :: _ => .root
  | _ => .relative

def ofString (text : String) : Path :=
  let names := (Text.splitOn '/' text.toList).map String.ofList
  ⟨anchorOf text.toList, names.filter fun name => name != "" && name != "."⟩

/-- The written form of where a path starts. -/
def anchorText : Anchor → String
  | .relative => ""
  | .root => "/"
  | .doubleRoot => "//"

/-- The written form of a path; the empty relative path is a dot. -/
def toString (path : Path) : String :=
  if path.anchor = .relative && path.names.isEmpty then "."
  else anchorText path.anchor ++ "/".intercalate path.names

/-- A path that starts at the root. -/
def isAbsolute (path : Path) : Bool :=
  path.anchor != .relative

/-- A path seen from a directory: an absolute one stands alone. -/
def join (directory path : Path) : Path :=
  if path.isAbsolute then path else ⟨directory.anchor, directory.names ++ path.names⟩

def child (directory : Path) (name : String) : Path :=
  ⟨directory.anchor, directory.names ++ [name]⟩

/-- Names with every double dot taken back together with the name before it. -/
def settleNames (names : List String) : List String :=
  (names.foldl (fun settled name => if name = ".." then settled.tail else name :: settled) []).reverse

/-- The path seen from a directory that is given from the root, without double dots. -/
def settle (path directory : Path) : Path :=
  ⟨.root, settleNames (directory.join path).names⟩

/-- The path without its last name. -/
def parent (path : Path) : Path :=
  ⟨path.anchor, path.names.dropLast⟩

/-- The last name, empty when there is none. -/
def name (path : Path) : String :=
  path.names.getLast?.getD ""

/-- The end of a name from its last dot on, unless the dot is its first or last character. -/
def extensionOf (name : List Char) : List Char :=
  let tail := (name.reverse.takeWhile (· != '.')).reverse
  if tail.length < name.length && !tail.isEmpty && tail.length + 1 < name.length then '.' :: tail
  else []

/-- The extension of a path with its dot, empty when there is none. -/
def extension (path : Path) : List Char :=
  extensionOf path.name.toList

/-- The order of paths: name by name, each name by the codes of its characters. -/
def le (first second : Path) : Bool :=
  !(decide (second.names < first.names))

end Path

end Scaffold
