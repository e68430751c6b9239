import Scaffold.Proofs.Json.Numbers
import Scaffold.Proofs.Json.Strings

/-!
The line breaks of a text that is written. Only line feeds break its lines, since a carriage return in a
string is escaped; so the text is the same after all line breaks have been unified.
-/

namespace Scaffold.Json

variable {digits text : List Char} {found : Scalar}

theorem Decimal.return_not_mem (decimal : Decimal digits) : '\r' ∉ digits :=
  fun inside => Bool.false_ne_true (decimal _ inside)

theorem decimal_significant (n : Nat) : Decimal (Binary64.significant n) := by
  unfold Binary64.significant
  extract_lets whole front
  split
  · exact decimal_zeros 1
  · intro c inside
    have kept := (List.dropWhile_sublist _).subset (List.mem_reverse.mp inside)
    exact decimal_toDigits n c (List.mem_reverse.mp kept)

theorem return_not_mem_layout (decimal : Decimal digits) (leading : Int) :
    '\r' ∉ Binary64.layout digits leading := by
  have free := decimal.return_not_mem
  have front (count : Nat) : '\r' ∉ digits.take count := fun inside => free (List.mem_of_mem_take inside)
  have back (count : Nat) : '\r' ∉ digits.drop count := fun inside => free (List.mem_of_mem_drop inside)
  have power := (decimal_toDigits leading.natAbs).return_not_mem
  have tail : '\r' ∉ digits.tail := fun inside => free (List.mem_of_mem_tail inside)
  unfold Binary64.layout
  dsimp only
  split_ifs <;> simp [List.mem_replicate, free, front, back, tail, power]

theorem return_not_mem_floatText (number : Binary64) : '\r' ∉ floatText number := by
  cases number with
  | notANumber => decide
  | infinite negative => cases negative <;> decide
  | finite negative mantissa exponent =>
    have sign : '\r' ∉ if negative then ['-'] else [] := by cases negative <;> decide
    rw [floatText, Binary64.text]
    · dsimp only
      split
      · exact List.not_mem_append sign (by decide)
      · exact List.not_mem_append sign (return_not_mem_layout (decimal_significant _) _)
    all_goals simp

theorem return_not_mem_stringText (chars : List Char) : '\r' ∉ stringText chars := by
  simp only [stringText, List.cons_append, List.mem_cons, List.mem_append, List.mem_flatMap, List.not_mem_nil,
    or_false, not_or, not_exists, not_and]
  exact ⟨by decide, fun c _ => return_not_mem_escapedChar c, by decide⟩

theorem return_not_mem_scalarText (run : scalarText found = .ok text) : '\r' ∉ text := by
  cases found with
  | null =>
    cases run
    decide
  | bool value =>
    cases run
    cases value <;> decide
  | int value =>
    rw [scalarText] at run
    split at run
    · cases run
    · cases run
      have digits (n : Nat) := (decimal_toDigits n).return_not_mem
      cases value <;> simp [intText, digits]
  | float value =>
    cases run
    exact return_not_mem_floatText value
  | text value =>
    cases run
    exact return_not_mem_stringText _
  | date => cases run

theorem return_not_mem_followedBy {first next : Written} (front : '\r' ∉ first.text) (back : '\r' ∉ next.text) :
    '\r' ∉ (first.followedBy next).text := by
  unfold Written.followedBy
  split
  · exact front
  · exact List.not_mem_append front back

theorem return_not_mem_lineBreak (layout : Layout) (level : Nat) : '\r' ∉ layout.lineBreak level := by
  cases layout <;> simp [Layout.lineBreak, List.mem_replicate]

theorem return_not_mem_separator (layout : Layout) (level : Nat) : '\r' ∉ layout.separator level := by
  cases layout <;> simp [Layout.separator, Layout.lineBreak, List.mem_replicate]

theorem return_not_mem_beforeItem {before : List Char} (free : '\r' ∉ before) (item : Value) :
    '\r' ∉ (beforeItem before item).text := by
  unfold beforeItem
  split
  · split
    · simp
    · exact free
  · exact free

mutual

/-- Nothing that is written holds a carriage return. -/
theorem return_not_mem_write (layout : Layout) (level : Nat) :
    (found : Value) → '\r' ∉ (write layout level found).text
  | .scalar found => by
    rw [write]
    split
    · next run => exact return_not_mem_scalarText run
    · simp
  | .list [] => by
    rw [write]
    decide
  | .list (item :: rest) => by
    have opening : '\r' ∉ '[' :: layout.lineBreak (level + 1) := by
      simp [return_not_mem_lineBreak]
    have closing : '\r' ∉ layout.lineBreak level ++ [']'] := by
      simp [return_not_mem_lineBreak]
    have first := return_not_mem_followedBy (return_not_mem_beforeItem opening item)
      (return_not_mem_write layout (level + 1) item)
    rw [write]
    exact return_not_mem_followedBy
      (return_not_mem_followedBy first (return_not_mem_writeItems layout (level + 1) rest)) closing
  | .map [] => by
    rw [write]
    decide
  | .map (entry :: rest) => by
    have opening : '\r' ∉ '{' :: layout.lineBreak (level + 1) := by
      simp [return_not_mem_lineBreak]
    have closing : '\r' ∉ layout.lineBreak level ++ ['}'] := by
      simp [return_not_mem_lineBreak]
    have none : '\r' ∉ ([] : List Char) := by simp
    rw [write]
    exact return_not_mem_followedBy
      (return_not_mem_followedBy
        (return_not_mem_followedBy opening (return_not_mem_writeEntry layout (level + 1) none entry))
        (return_not_mem_writeEntries layout (level + 1) rest)) closing

theorem return_not_mem_writeItems (layout : Layout) (level : Nat) :
    (items : List Value) → '\r' ∉ (writeItems layout level items).text
  | [] => by simp [writeItems]
  | item :: rest => by
    rw [writeItems]
    exact return_not_mem_followedBy
      (return_not_mem_followedBy
        (return_not_mem_beforeItem (return_not_mem_separator layout level) item)
        (return_not_mem_write layout level item))
      (return_not_mem_writeItems layout level rest)

theorem return_not_mem_writeEntry (layout : Layout) (level : Nat) {before : List Char} (free : '\r' ∉ before) :
    (entry : Scalar × Value) → '\r' ∉ (writeEntry layout level before entry).text
  | (key, value) => by
    rw [writeEntry]
    split
    · next name _ =>
      have front : '\r' ∉ before ++ stringText name ++ [':', ' '] :=
        List.not_mem_append (List.not_mem_append free (return_not_mem_stringText name)) (by decide)
      exact return_not_mem_followedBy front (return_not_mem_write layout level value)
    · simp

theorem return_not_mem_writeEntries (layout : Layout) (level : Nat) :
    (entries : List (Scalar × Value)) → '\r' ∉ (writeEntries layout level entries).text
  | [] => by simp [writeEntries]
  | entry :: rest => by
    rw [writeEntries]
    exact return_not_mem_followedBy
      (return_not_mem_writeEntry layout level (return_not_mem_separator layout level) entry)
      (return_not_mem_writeEntries layout level rest)

end

end Scaffold.Json
