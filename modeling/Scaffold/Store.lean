import Scaffold.Error
import Scaffold.Path

/-!
The store of files and directories. Every entry has the list of names that leads to it from the root;
a path is followed name by name, so that a double dot goes back from a directory that exists.
-/

namespace Scaffold

/-- What a file holds: a text, or bytes that are no text. -/
inductive Content
  | text (chars : List Char)
  | bytes (raw : List UInt8)
  deriving DecidableEq, Repr

/-- An entry of the store. -/
inductive Node
  | directory
  | file (content : Content)
  deriving DecidableEq, Repr

/-- The names that lead from the root to an entry. -/
abbrev Key := List String

/-- Files and directories, and the current directory. The root is always there. -/
structure Store where
  entries : List (Key × Node)
  here : Key
  deriving Repr

namespace Store

/-- The entry at a place. -/
def node? (store : Store) (key : Key) : Option Node :=
  if key.isEmpty then some .directory else store.entries.lookup key

/-- The entries with one of them set; a new one comes last. -/
def setEntry (key : Key) (node : Node) : List (Key × Node) → List (Key × Node)
  | [] => [(key, node)]
  | entry :: rest =>
    if entry.1 = key then (key, node) :: rest else entry :: setEntry key node rest

/-- The store with the entry at a place set. -/
def set (store : Store) (key : Key) (node : Node) : Store :=
  { store with entries := setEntry key node store.entries }

/-- The store without the entry at a place. -/
def erase (store : Store) (key : Key) : Store :=
  { store with entries := store.entries.filter fun entry => entry.1 != key }

/-- Why a path leads nowhere. -/
inductive Obstruction
  | missing
  | throughFile
  deriving DecidableEq, Repr

/-- One step from a place along a name. Only a directory has places below it. -/
def step (store : Store) (key : Key) (name : String) : Except Obstruction Key :=
  match store.node? key with
  | none => .error .missing
  | some (.file _) => .error .throughFile
  | some .directory => .ok (if name = ".." then key.dropLast else key ++ [name])

/-- The place that a path leads to. The entry there need not exist, its directory does. -/
def place (store : Store) (path : Path) : Except Obstruction Key :=
  path.names.foldlM store.step (if path.anchor = .relative then store.here else [])

/-- The failure of an operation on a path that leads nowhere. -/
def Obstruction.failure (path : Path) : Obstruction → Error
  | missing => .fileNotFound path.toString
  | throughFile => .notADirectory path.toString

/-- The entry that a path leads to. -/
def find? (store : Store) (path : Path) : Option Node :=
  match store.place path with
  | .ok key => store.node? key
  | .error _ => none

/-- Something is at a path. -/
def holds (store : Store) (path : Path) : Bool :=
  (store.find? path).isSome

def hasFile (store : Store) (path : Path) : Bool :=
  match store.find? path with
  | some (.file _) => true
  | _ => false

def hasDirectory (store : Store) (path : Path) : Bool :=
  store.find? path == some .directory

/-- The text of a file. -/
def read (store : Store) (path : Path) : Except Error (List Char) :=
  match store.place path with
  | .error obstruction => .error (obstruction.failure path)
  | .ok key =>
    match store.node? key with
    | none => .error (.fileNotFound path.toString)
    | some .directory => .error (.isADirectory path.toString)
    | some (.file (.bytes _)) => .error .undecodable
    | some (.file (.text chars)) => .ok chars

/-- The store with a text written to a file. Its directory has to exist. -/
def write (store : Store) (path : Path) (text : List Char) : Except Error Store :=
  match store.place path with
  | .error obstruction => .error (obstruction.failure path)
  | .ok key =>
    match store.node? key with
    | some .directory => .error (.isADirectory path.toString)
    | some (.file _) => .ok (store.set key (.file (.text text)))
    | none =>
      match store.node? key.dropLast with
      | some .directory => .ok (store.set key (.file (.text text)))
      | some (.file _) => .error (.notADirectory path.toString)
      | none => .error (.fileNotFound path.toString)

/-- The store with one directory made, given what to do when the directory above is missing. A
directory that is there already is left as it is. -/
def makeDirectory (store : Store) (path : Path) (ifMissing : Except Error Store) :
    Except Error Store :=
  match store.place path with
  | .error .missing => ifMissing
  | .error .throughFile => .error (.notADirectory path.toString)
  | .ok key =>
    match store.node? key with
    | some .directory => .ok store
    | some (.file _) => .error (.fileExists path.toString)
    | none =>
      match store.node? key.dropLast with
      | some .directory => .ok (store.set key .directory)
      | some (.file _) => .error (.notADirectory path.toString)
      | none => ifMissing

/-- The store with a directory made, and those above it; the number bounds how many. -/
def makeDirectoriesUpTo : Nat → Store → Path → Except Error Store
  | 0, store, path => store.makeDirectory path (.error (.fileNotFound path.toString))
  | levels + 1, store, path =>
    store.makeDirectory path do
      let above ← makeDirectoriesUpTo levels store path.parent
      above.makeDirectory path (.error (.fileNotFound path.toString))

/-- The store with a directory made, and those above it as needed. -/
def makeDirectories (store : Store) (path : Path) : Except Error Store :=
  makeDirectoriesUpTo path.names.length store path

/-- The store with nothing but the current directory and those above it. -/
def withOnly (here : Key) : Store :=
  ⟨(List.range here.length).map fun count => (here.take (count + 1), .directory), here⟩

/-- The store with a file put at a path, and the directories above it. A path that cannot lead to a
file changes nothing. -/
def withFile (store : Store) (path : Path) (content : Content) : Store :=
  match store.makeDirectories path.parent with
  | .error _ => store
  | .ok larger =>
    match larger.place path with
    | .ok key => larger.set key (.file content)
    | .error _ => larger

/-- The names that lead from one place to another below it. -/
def below? (top key : Key) : Option Key :=
  match top.isPrefixOf? key with
  | some (name :: rest) => some (name :: rest)
  | _ => none

/-- The order of lists of names. -/
def keyLe (first second : Key) : Bool :=
  !decide (second < first)

/-- The names that lead from a directory to each entry below it, in order. -/
def descendants (store : Store) (directory : Path) : List Key :=
  match store.place directory with
  | .error _ => []
  | .ok top =>
    if store.node? top = some .directory then
      (store.entries.filterMap fun entry => below? top entry.1).mergeSort keyLe
    else []

/-- The names of the entries of a directory, in order. -/
def children (store : Store) (directory : Path) : List Key :=
  (store.descendants directory).filter fun key => key.length == 1

def pathBelow (directory : Path) (key : Key) : Path :=
  ⟨directory.anchor, directory.names ++ key⟩

end Store

end Scaffold
