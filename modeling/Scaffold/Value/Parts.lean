import Scaffold.Error

/-!
Values as collections: the parts that a value is gone through by, the keys it may stand as, and the
record that it gives. A value of another kind is a failure that names the kind.
-/

namespace Scaffold.Value

def typeName : Value → String
  | scalar (.date ..) => "datetime.date"
  | value => value.kindName

/-- The parts of a value that is gone through: the characters of a text, the items of a list, the keys
of a map. -/
def parts : Value → Except Error (List Value)
  | list items => .ok items
  | map entries => .ok (entries.map fun entry => .scalar entry.1)
  | scalar (.text text) => .ok (text.toList.map fun c => .text (String.ofList [c]))
  | other => .error (.wrongKind s!"'{other.typeName}' object is not iterable")

/-- A value as a key. Only scalars are keys. -/
def asKey : Value → Except Error Scalar
  | scalar value => .ok value
  | other => .error (.wrongKind s!"unhashable type: '{other.typeName}'")

/-- The key and the value that one of the parts of a value gives, which has two parts itself. -/
def asEntry (place : Nat) (part : Value) : Except Error (Scalar × Value) :=
  match part.parts with
  | .error _ =>
    .error (.wrongKind s!"cannot convert dictionary update sequence element #{place} to a sequence")
  | .ok [key, value] => do return (← key.asKey, value)
  | .ok others =>
    .error (.badValue
      (s!"dictionary update sequence element #{place} has length {others.length}; " ++
        "2 is required"))

/-- The entries that parts give in turn, from a place on. -/
def asEntries (place : Nat) : List Value → Except Error (List (Scalar × Value))
  | [] => .ok []
  | part :: rest => do
    let entry ← part.asEntry place
    return entry :: (← asEntries (place + 1) rest)

/-- The record that a value gives: a map itself, and of other values the pairs that their parts are. -/
def record : Value → Except Error Record
  | map entries => .ok entries
  | other => do return Keyed.ofEntries (← asEntries 0 (← other.parts))

end Scaffold.Value
