import Scaffold.Yaml.Token

/-!
YAML documents as trees. An alias stands for the node that its anchor marks, and an entry of a list
that is written with a colon is a mapping of its own.
-/

namespace Scaffold.Yaml

/-- A node: a scalar as written, a sequence or a mapping, with the tag it has, if any. -/
inductive Node
  | scalar (text : List Char) (plain : Bool) (tag : Option (List Char))
  | sequence (items : List Node) (tag : Option (List Char))
  | mapping (entries : List (Node × Node)) (tag : Option (List Char))
  deriving Repr, Inhabited

namespace Node

/-- The node of nothing at all. -/
def empty : Node := .scalar [] true none

/-- The tokens that remain and the nodes with anchors. -/
structure Tree where
  ahead : List Token
  anchors : List (List Char × Node) := []

/-- A reader of nodes. -/
abbrev Reader := StateT Tree Result

/-- The text breaks the grammar. -/
def broken {α : Type} : Reader α := fun _ => .error .malformed

/-- The next token. -/
def peek : Reader (Option Token) := do
  return (← get).ahead.head?

/-- Goes past the next token. -/
def advance : Reader Unit :=
  modify fun tree => { tree with ahead := tree.ahead.tail }

/-- Goes past a token if it is the next one. -/
def skipIf (token : Token) : Reader Bool := do
  if (← peek) = some token then
    advance
    return true
  else return false

/-- Goes past a token that has to come. -/
def expect (token : Token) : Reader Unit := do
  if !(← skipIf token) then broken

/-- One of several tokens, or the end, is next. -/
def atAny (tokens : List Token) : Reader Bool := do
  match ← peek with
  | some token => return tokens.contains token
  | none => return true

/-- The anchor and the tag before a node, in either order. -/
def properties : Reader (Option (List Char) × Option (List Char)) := do
  match ← peek with
  | some (.anchor name) =>
    advance
    match ← peek with
    | some (.tag tag) =>
      advance
      return (some name, some tag)
    | _ => return (some name, none)
  | some (.tag tag) =>
    advance
    match ← peek with
    | some (.anchor name) =>
      advance
      return (some name, some tag)
    | _ => return (none, some tag)
  | _ => return (none, none)

/-- Marks a node by an anchor, if there is one. An anchor marks one node only. -/
def mark (anchor : Option (List Char)) (node : Node) : Reader Node := do
  match anchor with
  | none => return node
  | some name =>
    let tree ← get
    if (tree.anchors.lookup name).isSome then broken
    else
      set { tree with anchors := (name, node) :: tree.anchors }
      return node

mutual

/-- A node. The first truth value tells whether indented collections may stand here, the second
whether a sequence may stand without indentation. -/
def node : Nat → Bool → Bool → Reader Node
  | 0, _, _ => broken
  | fuel + 1, block, level => do
    match ← peek with
    | some (.alias name) =>
      advance
      match (← get).anchors.lookup name with
      | some found => return found
      | none => broken
    | _ =>
      let (anchor, tag) ← properties
      let content ← contentOf fuel block level anchor.isSome tag
      mark anchor content

/-- What a node holds, after its anchor and its tag. -/
def contentOf : Nat → Bool → Bool → Bool → Option (List Char) → Reader Node
  | 0, _, _, _, _ => broken
  | fuel + 1, block, level, anchored, tag => do
    match ← peek with
    | some .entry =>
      -- An entry with no indentation of its own belongs here only on the level of a mapping.
      if level then return .sequence (← levelItems fuel) tag
      else if anchored || tag.isSome then return .scalar [] true tag
      else broken
    | some (.scalar text plain) =>
      advance
      return .scalar text plain tag
    | some .openList =>
      advance
      return .sequence (← listItems fuel true) tag
    | some .openMap =>
      advance
      return .mapping (← mapEntries fuel true) tag
    | some .sequenceStart =>
      if block then
        advance
        return .sequence (← blockItems fuel) tag
      else if anchored || tag.isSome then return .scalar [] true tag
      else broken
    | some .mappingStart =>
      if block then
        advance
        return .mapping (← blockEntries fuel) tag
      else if anchored || tag.isSome then return .scalar [] true tag
      else broken
    | _ => if anchored || tag.isSome then return .scalar [] true tag else broken

/-- A node, or nothing before one of several tokens. -/
def nodeOr : Nat → Bool → Bool → List Token → Reader Node
  | 0, _, _, _ => broken
  | fuel + 1, block, level, ends => do
    if ← atAny ends then return empty else node fuel block level

/-- The items of an indented sequence. -/
def blockItems : Nat → Reader (List Node)
  | 0 => broken
  | fuel + 1 => do
    if ← skipIf .entry then
      let item ← nodeOr fuel true false [.entry, .blockEnd]
      return item :: (← blockItems fuel)
    else
      expect .blockEnd
      return []

/-- The items of a sequence on the level of the mapping around it. -/
def levelItems : Nat → Reader (List Node)
  | 0 => broken
  | fuel + 1 => do
    if ← skipIf .entry then
      let item ← nodeOr fuel true false [.entry, .key, .value, .blockEnd]
      return item :: (← levelItems fuel)
    else return []

/-- The entries of an indented mapping. -/
def blockEntries : Nat → Reader (List (Node × Node))
  | 0 => broken
  | fuel + 1 => do
    if ← atAny [.key, .value] then
      let key ← if ← skipIf .key then nodeOr fuel true true [.key, .value, .blockEnd] else broken
      let value ←
        if ← skipIf .value then nodeOr fuel true true [.key, .value, .blockEnd] else pure empty
      return (key, value) :: (← blockEntries fuel)
    else
      expect .blockEnd
      return []

/-- The items of a list between brackets, given whether none came before. -/
def listItems : Nat → Bool → Reader (List Node)
  | 0, _ => broken
  | fuel + 1, first => do
    if ← skipIf .closeList then return []
    else
      if !first then expect .separator
      if ← skipIf .key then
        let key ← nodeOr fuel false false [.value, .separator, .closeList]
        let value ←
          if ← skipIf .value then nodeOr fuel false false [.separator, .closeList] else pure empty
        return .mapping [(key, value)] none :: (← listItems fuel false)
      else if ← skipIf .closeList then return []
      else
        let item ← node fuel false false
        return item :: (← listItems fuel false)

/-- The entries of a map between brackets, given whether none came before. -/
def mapEntries : Nat → Bool → Reader (List (Node × Node))
  | 0, _ => broken
  | fuel + 1, first => do
    if ← skipIf .closeMap then return []
    else
      if !first then expect .separator
      if ← skipIf .key then
        let key ← nodeOr fuel false false [.value, .separator, .closeMap]
        let value ←
          if ← skipIf .value then nodeOr fuel false false [.separator, .closeMap] else pure empty
        return (key, value) :: (← mapEntries fuel false)
      else if ← skipIf .closeMap then return []
      else
        let key ← node fuel false false
        return (key, empty) :: (← mapEntries fuel false)

end

/-- Goes past marks at the end of a document. -/
def skipEnds : Nat → Reader Unit
  | 0 => return
  | fuel + 1 => do
    if ← skipIf .documentEnd then skipEnds fuel

/-- The root of a document. It may be nothing only after a mark at the start of the document. -/
def root (fuel : Nat) : Reader Node := do
  if ← skipIf .documentStart then nodeOr fuel true false [.documentStart, .documentEnd]
  else node fuel true false

/-- The only document, if there is one. -/
def document (fuel : Nat) : Reader (Option Node) := do
  if (← peek).isNone then return none
  else
    let found ← root fuel
    skipEnds fuel
    if (← peek).isNone then return some found else broken

/-- The document that tokens make up, if there is one. -/
def ofTokens (tokens : List Token) : Result (Option Node) :=
  (document (6 * tokens.length + 8)).run' { ahead := tokens }

end Node

end Scaffold.Yaml
