import Mathlib.Data.List.Basic
import Scaffold.Text.Blank
import Scaffold.Text.Digit
import Scaffold.Text.Identifier
import Scaffold.Text.Word

/-!
The notation of patterns. A written pattern is read letter by letter, with the groups that are open at
each letter, as a regular expression in the usual sense, which stands for a language. References are not
read, nor is what means something else than itself and is none of the signs known here.
-/

namespace Scaffold.Notation

open Text

/-! ### Regular expressions -/

/-- A member of a set of characters. -/
inductive Member
  | char (c : Char)
  | range (low high : Char)
  | digit
  | word
  | blank
  | solid
  deriving DecidableEq, Repr

def Member.holds : Member → Char → Bool
  | char d, c => c == d
  | range low high, c => low ≤ c && c ≤ high
  | digit, c => isDecimal c
  | word, c => isWord c
  | blank, c => isBlank c
  | solid, c => !isBlank c

/-- A set of characters: some members, or anything but these. -/
structure CharSet where
  negated : Bool
  members : List Member
  deriving DecidableEq, Repr

def CharSet.holds (set : CharSet) (c : Char) : Bool :=
  set.members.any (·.holds c) != set.negated

/-- How often something is repeated. -/
inductive Quantity
  | optional
  | any
  | many
  deriving DecidableEq, Repr

def Quantity.allows : Quantity → Nat → Prop
  | optional, count => count ≤ 1
  | any, _ => True
  | many, count => 1 ≤ count

/-- A regular expression. Whether a repetition is lazy makes no difference to its language. -/
inductive Regex
  | empty
  | one (set : CharSet)
  | repeated (quantity : Quantity) (lazily : Bool) (body : Regex)
  | append (first second : Regex)
  | either (first second : Regex)
  | group (name : Option String) (body : Regex)
  deriving DecidableEq, Repr

namespace Regex

/-- The language of an expression. -/
def Matches : Regex → List Char → Prop
  | empty, text => text = []
  | one set, text => ∃ c, text = [c] ∧ set.holds c = true
  | repeated quantity _ body, text =>
    ∃ parts : List (List Char), text = parts.flatten ∧ (∀ part ∈ parts, body.Matches part) ∧
      quantity.allows parts.length
  | append first second, text =>
    ∃ front back, text = front ++ back ∧ first.Matches front ∧ second.Matches back
  | either first second, text => first.Matches text ∨ second.Matches text
  | group _ body, text => body.Matches text

/-- Expressions one after the other. -/
def sequence (parts : List Regex) : Regex :=
  parts.foldr append empty

/-- One character that stands for itself. -/
def char (c : Char) : Regex :=
  one ⟨false, [.char c]⟩

/-- The expression with a sign for a quantity behind it, unless it has one. -/
def quantified? (quantity : Quantity) : Regex → Option Regex
  | repeated .. => none
  | body => some (repeated quantity false body)

/-- The expression with a question mark behind it: behind another quantity that makes it lazy. -/
def questioned? : Regex → Option Regex
  | repeated _ true _ => none
  | repeated quantity false body => some (repeated quantity true body)
  | body => some (repeated .optional false body)

end Regex

/-! ### Reading -/

/-- What a character means after a backslash. -/
def escapedMember? (c : Char) : Option Member :=
  if c = 'd' then some .digit
  else if c = 'w' then some .word
  else if c = 's' then some .blank
  else if c = 'S' then some .solid
  else if c = 'n' then some (.char '\n')
  else if c.isAlphanum then none
  else some (.char c)

/-- The members of a set between brackets. -/
def members? : List Char → Option (List Member)
  | [] => some []
  | '\\' :: c :: rest => do return (← escapedMember? c) :: (← members? rest)
  | low :: '-' :: high :: rest =>
    if low.isAlphanum && high.isAlphanum && low ≤ high then
      do return .range low high :: (← members? rest)
    else none
  | c :: rest =>
    if c = '\\' ∨ c = '-' ∨ c = '[' then none else do return .char c :: (← members? rest)

/-- The set between brackets, which is not to be empty. -/
def bracket? (letters : List Char) : Option CharSet := do
  let set ← match letters with
    | '^' :: letters => (members? letters).map (⟨true, ·⟩)
    | letters => (members? letters).map (⟨false, ·⟩)
  if set.members.isEmpty then none else some set

/-- Alternatives as they are read: those that are complete, and the parts of the last one so far. -/
structure Rows where
  complete : List (List Regex)
  row : List Regex

namespace Rows

def none : Rows := ⟨[], []⟩

def regex (rows : Rows) : Regex :=
  rows.complete.foldr (fun row others => .either (.sequence row) others) (.sequence rows.row)

def push (rows : Rows) (part : Regex) : Rows :=
  { rows with row := rows.row ++ [part] }

/-- Further alternatives, the first of which goes on with the last one so far. -/
def add (rows : Rows) : Rows → Rows
  | ⟨[], row⟩ => ⟨rows.complete, rows.row ++ row⟩
  | ⟨first :: complete, row⟩ => ⟨rows.complete ++ (rows.row ++ first) :: complete, row⟩

end Rows

/-- The place where the reading of a pattern is: between its parts, after a backslash, in brackets,
after the signs that open a group, or in the name of a group. -/
inductive Mode
  | plain
  | escape
  | bracket (letters : List Char)
  | opened
  | asked
  | titled
  | name (letters : List Char)
  deriving DecidableEq, Repr

/-- What is known while a pattern is read: the names of the groups so far, the groups that are open with
what stands before each of them, and the alternatives in the innermost one. -/
structure Reading where
  names : List String
  outside : List (Option String × Rows)
  rows : Rows
  mode : Mode

namespace Reading

def start : Reading :=
  ⟨[], [], .none, .plain⟩

def push (reading : Reading) (part : Regex) : Reading :=
  { reading with rows := reading.rows.push part, mode := .plain }

def openGroup (reading : Reading) (name : Option String) : Reading :=
  { reading with outside := (name, reading.rows) :: reading.outside, rows := .none, mode := .plain }

def closeGroup? (reading : Reading) : Option Reading :=
  match reading.outside with
  | [] => none
  | (name, rows) :: outside =>
    some { reading with outside, rows := rows.push (.group name reading.rows.regex) }

/-- Something else in place of the last part. -/
def change? (reading : Reading) (change : Regex → Option Regex) : Option Reading := do
  let part ← change (← reading.rows.row.getLast?)
  return { reading with rows := { reading.rows with row := reading.rows.row.dropLast ++ [part] } }

/-- The group of a name, which is to be a new identifier. -/
def nameGroup? (reading : Reading) (letters : List Char) : Option Reading :=
  let name := String.ofList letters
  if isIdentifier letters && !reading.names.contains name then
    some ({ reading with names := reading.names ++ [name] }.openGroup (some name))
  else none

/-- A sign between the parts of a pattern. -/
def sign? (reading : Reading) (c : Char) : Option Reading :=
  if c = '\\' then some { reading with mode := .escape }
  else if c = '[' then some { reading with mode := .bracket [] }
  else if c = '(' then some { reading with mode := .opened }
  else if c = ')' then reading.closeGroup?
  else if c = '|' then
    some { reading with rows := ⟨reading.rows.complete ++ [reading.rows.row], []⟩ }
  else if c = '*' then reading.change? (Regex.quantified? .any)
  else if c = '+' then reading.change? (Regex.quantified? .many)
  else if c = '?' then reading.change? Regex.questioned?
  else if c = '.' then some (reading.push (.one ⟨true, [.char '\n']⟩))
  else if c = '^' ∨ c = '$' ∨ c = '{' ∨ c = '}' ∨ c = ']' then none
  else some (reading.push (.char c))

/-- One letter of a written pattern. -/
def step (reading : Reading) (c : Char) : Option Reading :=
  match reading.mode with
  | .plain => reading.sign? c
  | .escape => (escapedMember? c).map fun member => reading.push (.one ⟨false, [member]⟩)
  | .bracket letters =>
    if c = ']' then (bracket? letters).map fun set => reading.push (.one set)
    else some { reading with mode := .bracket (letters ++ [c]) }
  | .opened => if c = '?' then some { reading with mode := .asked } else none
  | .asked =>
    if c = ':' then some (reading.openGroup none)
    else if c = 'P' then some { reading with mode := .titled }
    else none
  | .titled => if c = '<' then some { reading with mode := .name [] } else none
  | .name letters =>
    if c = '>' then reading.nameGroup? letters
    else some { reading with mode := .name (letters ++ [c]) }

end Reading

/-- The expression that is written, if the text is a pattern in the notation. -/
def read? (text : List Char) : Option Regex := do
  let reading ← text.foldlM Reading.step .start
  if reading.mode = .plain ∧ reading.outside.length = 0 then some reading.rows.regex else none

/-! ### What is read -/

section Reading

variable {names : List String} {outside : List (Option String × Rows)} {rows : Rows} {part : Regex}

namespace Rows

theorem add_none (rows : Rows) : rows.add .none = rows := by
  rw [none, add, List.append_nil]

theorem none_add (rows : Rows) : Rows.none.add rows = rows := by
  obtain ⟨_ | ⟨first, complete⟩, row⟩ := rows <;> rfl

theorem add_row (rows : Rows) (front back : List Regex) :
    (rows.add ⟨[], front⟩).add ⟨[], back⟩ = rows.add ⟨[], front ++ back⟩ := by
  simp only [add, List.append_assoc]

/-- A bar between alternatives completes the last of the first ones. -/
theorem add_bar (rows one other : Rows) :
    Rows.add ⟨(rows.add one).complete ++ [(rows.add one).row], []⟩ other =
      rows.add ⟨one.complete ++ one.row :: other.complete, other.row⟩ := by
  obtain ⟨_ | ⟨first, complete⟩, row⟩ := one <;> obtain ⟨_ | ⟨first', complete'⟩, row'⟩ := other <;>
    simp [add]

end Rows

/-- A sign for a quantity is about the part before it. -/
theorem change?_push (change : Regex → Option Regex) :
    Reading.change? ⟨names, outside, rows.push part, .plain⟩ change =
      (change part).map fun part => ⟨names, outside, rows.push part, .plain⟩ := by
  simp only [Reading.change?, Rows.push, List.getLast?_concat, List.dropLast_concat,
    Option.bind_eq_bind, Option.bind_some]
  cases change part <;> rfl

/-- The letters of a name are read up to the sign that closes it. -/
theorem foldlM_letters {letters : List Char} (absent : '>' ∉ letters) (before : List Char) :
    letters.foldlM Reading.step ⟨names, outside, rows, .name before⟩ =
      some ⟨names, outside, rows, .name (before ++ letters)⟩ := by
  induction letters generalizing before with
  | nil => simp
  | cons c letters ih =>
    rw [List.mem_cons, not_or] at absent
    have first : Reading.step ⟨names, outside, rows, .name before⟩ c =
        some ⟨names, outside, rows, .name (before ++ [c])⟩ := if_neg (Ne.symm absent.1)
    rw [List.foldlM_cons, first, Option.bind_eq_bind, Option.bind_some, ih absent.2,
      List.append_assoc]
    rfl

end Reading

/-! ### Languages -/

variable {set : CharSet} {text : List Char} {lazily : Bool} {body : Regex}

namespace Regex

theorem matches_sequence_append {front back : List Regex} :
    (sequence (front ++ back)).Matches text ↔
      ∃ before behind, text = before ++ behind ∧ (sequence front).Matches before ∧
        (sequence back).Matches behind := by
  induction front generalizing text with
  | nil =>
    constructor
    · exact fun whole => ⟨[], text, rfl, rfl, whole⟩
    · rintro ⟨_, behind, rfl, rfl, whole⟩
      exact whole
  | cons part front ih =>
    change (∃ first rest, text = first ++ rest ∧ part.Matches first ∧
      (sequence (front ++ back)).Matches rest) ↔ _
    constructor
    · rintro ⟨first, rest, rfl, here, more⟩
      obtain ⟨before, behind, rfl, early, late⟩ := ih.mp more
      exact ⟨first ++ before, behind, (List.append_assoc _ _ _).symm, ⟨first, before, rfl, here, early⟩,
        late⟩
    · rintro ⟨_, behind, rfl, ⟨first, before, rfl, here, early⟩, late⟩
      exact ⟨first, before ++ behind, List.append_assoc _ _ _, here,
        ih.mpr ⟨before, behind, rfl, early, late⟩⟩

theorem matches_sequence_singleton {part : Regex} :
    (sequence [part]).Matches text ↔ part.Matches text := by
  constructor
  · rintro ⟨front, _, rfl, whole, rfl⟩
    rwa [List.append_nil]
  · exact fun whole => ⟨text, [], (List.append_nil text).symm, whole, rfl⟩

theorem matches_char {c : Char} : (char c).Matches text ↔ text = [c] := by
  simp [char, Matches, CharSet.holds, Member.holds]

theorem matches_optional :
    (repeated .optional lazily body).Matches text ↔ body.Matches text ∨ text = [] := by
  constructor
  · rintro ⟨parts, rfl, each, few⟩
    match parts, few with
    | [], _ => exact .inr rfl
    | [part], _ =>
      rw [List.flatten_singleton]
      exact .inl (each part List.mem_cons_self)
  · rintro (once | rfl)
    · exact ⟨[text], by simp, by simpa using once, Nat.le_refl 1⟩
    · exact ⟨[], rfl, by simp, Nat.zero_le 1⟩

/-- A repeated set matches the texts of its characters. -/
theorem flatten_of_matches_one {parts : List (List Char)}
    (each : ∀ part ∈ parts, (one set).Matches part) :
    parts.flatten.length = parts.length ∧ ∀ c ∈ parts.flatten, set.holds c = true := by
  induction parts with
  | nil => simp
  | cons part parts ih =>
    obtain ⟨⟨c, rfl, here⟩, later⟩ := List.forall_mem_cons.mp each
    obtain ⟨long, all⟩ := ih later
    rw [List.flatten_cons]
    exact ⟨by simp [long], List.forall_mem_cons.mpr ⟨here, all⟩⟩

theorem matches_repeated_one {quantity : Quantity} :
    (repeated quantity lazily (one set)).Matches text ↔
      (∀ c ∈ text, set.holds c = true) ∧ quantity.allows text.length := by
  constructor
  · rintro ⟨parts, rfl, each, allowed⟩
    obtain ⟨long, all⟩ := flatten_of_matches_one each
    exact ⟨all, long ▸ allowed⟩
  · rintro ⟨all, allowed⟩
    refine ⟨text.map ([·]), ?_, ?_, by rwa [List.length_map]⟩
    · rw [← List.flatMap_def, List.flatMap_singleton']
    · rw [List.forall_mem_map]
      exact fun c member => ⟨c, rfl, all c member⟩

end Regex

/-- One of the alternatives matches. -/
theorem Rows.matches_regex {rows : Rows} : rows.regex.Matches text ↔
    (∃ row ∈ rows.complete, (Regex.sequence row).Matches text) ∨
      (Regex.sequence rows.row).Matches text := by
  obtain ⟨complete, row⟩ := rows
  induction complete with
  | nil => simp [regex]
  | cons first complete ih =>
    change (Regex.sequence first).Matches text ∨ (Rows.regex ⟨complete, row⟩).Matches text ↔ _
    rw [ih]
    simp only [List.mem_cons, exists_eq_or_imp, or_assoc]

end Scaffold.Notation
