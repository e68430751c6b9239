import Scaffold.Yaml.Node
import Scaffold.Yaml.Plain

/-!
Reading YAML texts as values. A mapping keeps the order in which its keys first come, and of two
entries with one key the later value counts. A mapping takes the entries of others in under the key
`<<`; its own come after them.
-/

namespace Scaffold.Yaml

def taggedKind? (name : List Char) : Option ScalarKind :=
  [("!!null", .null), ("!!bool", .bool), ("!!int", .int), ("!!float", .float),
    ("!!timestamp", .date), ("!!str", ScalarKind.text)].lookup (String.ofList name)

/-- The kind of a scalar by its tag, and else by how it is written. Only tags of YAML itself name
kinds. -/
def scalarKind (text : List Char) (plain : Bool) (tag : Option (List Char)) : Result ScalarKind :=
  match tag with
  | none => .ok (if plain then kindOf text else .text)
  | some ['!'] => .ok (kindOf text)
  | some name =>
    match taggedKind? name with
    | some kind => .ok kind
    | none => .error .malformed

def checkTag (own : String) (tag : Option (List Char)) : Result Unit :=
  match tag with
  | none => .ok ()
  | some name => if name == ['!'] || name == own.toList then .ok () else .error .malformed

/-- What a key of a mapping is for. -/
inductive EntryRole
  | merge
  /-- The sign for a value stands for itself as a key. -/
  | sign
  | ordinary
  deriving DecidableEq, Repr

/-- What the key that a node writes is for. -/
def entryRole : Node → EntryRole
  | .scalar text true none =>
    match kindOf text with
    | .merge => .merge
    | .default => .sign
    | _ => .ordinary
  | _ => .ordinary

/-- The entries that a value gives to the mapping that takes it in: those of a map, or of the maps of
a list, where earlier maps count more. -/
def mergedEntries : Value → Result Record
  | .map entries => .ok entries
  | .list items => do
    let all ← items.mapM fun item =>
      match item with
      | .map entries => Except.ok entries
      | _ => .error .malformed
    return (all.reverse.flatten)
  | _ => .error .malformed

namespace Node

mutual

def toValue : Node → Result Value
  | .scalar text plain tag => do valueAs (← scalarKind text plain tag) text
  | .sequence items tag => do
    checkTag "!!seq" tag
    return .list (← toValues items)
  | .mapping entries tag => do
    checkTag "!!map" tag
    let (merged, own) ← toEntries entries
    return .map (Keyed.ofEntries (merged ++ own))

def toValues : List Node → Result (List Value)
  | [] => .ok []
  | node :: rest => do
    let value ← toValue node
    return value :: (← toValues rest)

/-- The entries that a mapping takes in, and its own. A key is a scalar. -/
def toEntries : List (Node × Node) → Result (Record × Record)
  | [] => .ok ([], [])
  | (key, value) :: rest => do
    match entryRole key with
    | .merge =>
      let taken ← mergedEntries (← toValue value)
      let (merged, own) ← toEntries rest
      return (taken ++ merged, own)
    | .sign =>
      let given ← toValue value
      let (merged, own) ← toEntries rest
      return (merged, (.text "=", given) :: own)
    | .ordinary =>
      match ← toValue key with
      | .scalar name =>
        let given ← toValue value
        let (merged, own) ← toEntries rest
        return (merged, (name, given) :: own)
      | _ => .error .malformed

end

end Node

/-- The value that a text writes; nothing is null. -/
def read (text : List Char) : Result Value := do
  match ← Node.ofTokens (← tokens text) with
  | some node => node.toValue
  | none => return .null

end Scaffold.Yaml
