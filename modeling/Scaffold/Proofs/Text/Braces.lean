import Mathlib.Data.List.Basic
import Scaffold.Text.Line

/-!
Braces matched as brackets. A text closes braces that were opened before it when somewhere in it more
are closed than opened; how many it closes and opens on the whole does not tell that.
-/

namespace Scaffold.Text

/-- How many braces are open behind a text, given how many are open before it; none if it closes one
that is not open. -/
def openBraces (depth : Nat) : List Char → Option Nat
  | [] => some depth
  | c :: rest =>
    if c = '{' then openBraces (depth + 1) rest
    else if c = '}' then if depth = 0 then none else openBraces (depth - 1) rest
    else openBraces depth rest

/-- A character is a brace. -/
def isBrace (c : Char) : Bool :=
  c == '{' || c == '}'

/-- The braces of a text are matched with each other. -/
def IsBalanced (text : List Char) : Prop :=
  openBraces 0 text = some 0

instance (text : List Char) : Decidable (IsBalanced text) :=
  inferInstanceAs (Decidable (_ = _))

variable {text front back : List Char} {c : Char} {depth final : Nat}

/-- On the whole a text opens as many braces as it closes and leaves open. -/
theorem count_of_openBraces (matched : openBraces depth text = some final) :
    depth + text.count '{' = final + text.count '}' := by
  induction text generalizing depth with
  | nil =>
    obtain rfl := Option.some.inj matched
    rfl
  | cons c rest ih =>
    rw [openBraces] at matched
    split at matched
    · next opens =>
      have counted := ih matched
      rw [opens, List.count_cons_self, List.count_cons_of_ne (by decide)]
      omega
    · next noOpening =>
      rw [List.count_cons_of_ne noOpening]
      split at matched
      · next closes =>
        split at matched
        · cases matched
        · next some =>
          have counted := ih matched
          rw [closes, List.count_cons_self]
          omega
      · next noClosing =>
        rw [List.count_cons_of_ne noClosing]
        exact ih matched

theorem openBraces_append (front back : List Char) :
    openBraces depth (front ++ back) = (openBraces depth front).bind (openBraces · back) := by
  induction front generalizing depth with
  | nil => rfl
  | cons c front ih =>
    rw [List.cons_append, openBraces, openBraces]
    split
    · exact ih
    · split
      · split
        · rfl
        · exact ih
      · exact ih

/-- Text without braces changes nothing. -/
theorem openBraces_of_free (free : ∀ c ∈ text, isBrace c = false) :
    openBraces depth text = some depth := by
  induction text with
  | nil => rfl
  | cons c text ih =>
    obtain ⟨here, free⟩ := List.forall_mem_cons.mp free
    simp only [isBrace, Bool.or_eq_false_iff, beq_eq_false_iff_ne] at here
    rw [openBraces, if_neg here.1, if_neg here.2, ih free]

/-- Balanced texts one after the other, with text without braces between, are balanced. -/
theorem isBalanced_joinWith {separator : List Char} {parts : List (List Char)}
    (free : ∀ c ∈ separator, isBrace c = false) (balanced : ∀ part ∈ parts, IsBalanced part) :
    IsBalanced (joinWith separator parts) := by
  induction parts with
  | nil => rfl
  | cons part parts ih =>
    obtain ⟨here, more⟩ := List.forall_mem_cons.mp balanced
    cases parts with
    | nil => exact here
    | cons next parts =>
      rw [IsBalanced, joinWith.eq_3 _ _ _ (List.cons_ne_nil _ _), openBraces_append, openBraces_append, here,
        Option.bind_some, openBraces_of_free free, Option.bind_some, ih more]

/-! ### The first brace -/

theorem exists_first_brace (some : ∃ c ∈ text, isBrace c = true) :
    ∃ front c back, text = front ++ c :: back ∧ (∀ d ∈ front, isBrace d = false) ∧
      isBrace c = true := by
  obtain ⟨c, member, brace⟩ := some
  induction text with
  | nil => cases member
  | cons d text ih =>
    cases here : isBrace d with
    | true => exact ⟨[], d, text, rfl, by simp, here⟩
    | false =>
      have later : c ∈ text := by
        rcases List.mem_cons.mp member with rfl | later
        · rw [here] at brace
          cases brace
        · exact later
      obtain ⟨front, e, back, rfl, free, brace⟩ := ih later
      exact ⟨d :: front, e, back, rfl, List.forall_mem_cons.mpr ⟨here, free⟩, brace⟩

/-- In balanced text the first brace opens. -/
theorem IsBalanced.first (balanced : IsBalanced (front ++ c :: back))
    (free : ∀ d ∈ front, isBrace d = false) (brace : isBrace c = true) : c = '{' := by
  rw [IsBalanced, openBraces_append, openBraces_of_free free, Option.bind_some, openBraces] at balanced
  by_contra other
  have closes : c = '}' := by simpa [isBrace, other] using brace
  rw [if_neg other, if_pos closes, if_pos rfl] at balanced
  cases balanced

/-- A brace that opens, with no brace behind it, stays open. -/
theorem openBraces_ne_zero (free : ∀ c ∈ back, isBrace c = false) :
    openBraces depth (front ++ '{' :: back) ≠ some 0 := by
  induction front generalizing depth with
  | nil => simp [openBraces, openBraces_of_free free]
  | cons c front ih =>
    rw [List.cons_append, openBraces]
    split
    · exact ih
    · split
      · split
        · simp
        · exact ih
      · exact ih

/-- In balanced text an opening brace is followed by another brace. -/
theorem IsBalanced.behind (balanced : IsBalanced (front ++ '{' :: back)) :
    ∃ c ∈ back, isBrace c = true := by
  by_contra free
  exact openBraces_ne_zero (by simpa using free) balanced

end Scaffold.Text
