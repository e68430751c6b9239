import Scaffold.Number.Binary64

/-!
Dynamic values: the data that parameters, template files and manifests hold. A map keeps its entries
in the order in which their keys first came; its keys are scalars of any kind.
-/

namespace Scaffold

/-- A value without parts. -/
inductive Scalar
  | null
  | bool (value : Bool)
  | int (value : Int)
  | float (value : Binary64)
  | text (value : String)
  | date (year month day : Nat)
  deriving DecidableEq, Repr, Inhabited

/-- A scalar, a list, or a map with scalar keys. -/
inductive Value
  | scalar (value : Scalar)
  | list (items : List Value)
  | map (entries : List (Scalar × Value))
  deriving Repr, Inhabited

/-- Things of one kind by scalar keys, in the order in which the keys first came. -/
abbrev Keyed (α : Type) := List (Scalar × α)

/-- The entries of a map, with their keys in order. -/
abbrev Record := Keyed Value

namespace Scalar

/-- The number that a scalar counts as in comparisons: truth values count as zero and one. -/
def asInt? : Scalar → Option Int
  | bool value => some (if value then 1 else 0)
  | int value => some value
  | _ => none

/-- A floating-point number is compared with another scalar by numerical value. -/
def floatSame (x : Binary64) : Scalar → Bool
  | float y => x.same y
  | other => other.asInt?.any fun value => x.compareInt? value == some .eq

/-- Equality of scalars. Numbers of both kinds and truth values compare by numerical value; what is
not a number differs even from itself. -/
def same (x y : Scalar) : Bool :=
  match x, y with
  | float a, b => floatSame a b
  | a, float b => floatSame b a
  | a, b =>
    match a.asInt?, b.asInt? with
    | some m, some n => m == n
    | _, _ => a == b

/-- The name of a scalar's kind, as messages give it. -/
def kindName : Scalar → String
  | null => "NoneType"
  | bool _ => "bool"
  | int _ => "int"
  | float _ => "float"
  | text _ => "str"
  | date .. => "date"

/-- A scalar counts as true unless it is null, false, zero or the empty text. -/
def truthy : Scalar → Bool
  | null => false
  | bool value => value
  | int value => value != 0
  | float value => !value.isZero
  | text value => value != ""
  | date .. => true

end Scalar

namespace Keyed

variable {α : Type}

/-- What stands under a key. -/
def get? (entries : Keyed α) (key : Scalar) : Option α :=
  (entries.find? fun entry => entry.1.same key).map (·.2)

/-- What stands under a key that is a text. -/
def field? (entries : Keyed α) (name : String) : Option α :=
  get? entries (.text name)

/-- The entries with a key set. A key that is present keeps its place and its first form; a new one
goes to the end. -/
def insert (entries : Keyed α) (key : Scalar) (value : α) : Keyed α :=
  match entries with
  | [] => [(key, value)]
  | entry :: rest =>
    if entry.1.same key then (entry.1, value) :: rest else entry :: insert rest key value

/-- The entries with those of another list set in turn. -/
def merge (entries others : Keyed α) : Keyed α :=
  others.foldl (fun merged entry => insert merged entry.1 entry.2) entries

/-- The entries in turn; of two entries with one key the later value counts. -/
def ofEntries (entries : List (Scalar × α)) : Keyed α :=
  merge [] entries

def erase (entries : Keyed α) (key : Scalar) : Keyed α :=
  entries.filter fun entry => !entry.1.same key

end Keyed

namespace Value

/-- The absent value. -/
abbrev null : Value := .scalar .null

/-- A truth value. -/
abbrev bool (value : Bool) : Value := .scalar (.bool value)

/-- An integer. -/
abbrev int (value : Int) : Value := .scalar (.int value)

abbrev text (value : String) : Value := .scalar (.text value)

/-- A map with texts as keys. -/
def object (fields : List (String × Value)) : Value :=
  .map (fields.map fun field => (.text field.1, field.2))

def text? : Value → Option String
  | scalar (.text value) => some value
  | _ => none

def entries? : Value → Option Record
  | map entries => some entries
  | _ => none

/-- The name of a value's kind, as messages give it. -/
def kindName : Value → String
  | scalar value => value.kindName
  | list _ => "list"
  | map _ => "dict"

/-- A value counts as true unless it is null, false, zero or empty. -/
def truthy : Value → Bool
  | scalar value => value.truthy
  | list items => !items.isEmpty
  | map entries => !entries.isEmpty

def isNull : Value → Bool
  | scalar .null => true
  | _ => false

/-- The value of a key that is a text, when the value is a map that has it. -/
def field? (value : Value) (name : String) : Option Value :=
  value.entries?.bind (Keyed.field? · name)

mutual

/-- Equality of values: of lists item by item, of maps entry by entry in any order. -/
def same : Value → Value → Bool
  | scalar x, scalar y => x.same y
  | list xs, list ys => sameItems xs ys
  | map xs, map ys => xs.length == ys.length && sameEntries xs ys
  | _, _ => false

/-- Equality of lists, item by item. -/
def sameItems : List Value → List Value → Bool
  | [], [] => true
  | x :: xs, y :: ys => same x y && sameItems xs ys
  | _, _ => false

/-- Every entry has an equal one in another record. -/
def sameEntries : List (Scalar × Value) → Record → Bool
  | [], _ => true
  | (key, value) :: rest, others =>
    (match Keyed.get? others key with
      | some other => same value other
      | none => false) && sameEntries rest others

end

end Value

end Scaffold
