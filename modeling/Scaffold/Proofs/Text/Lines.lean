import Scaffold.Proofs.Text.Scan
import Scaffold.Text.Line

/-!
Texts taken apart: lines at their separators, and any text at the first or the last character of a
kind, which has one place.
-/

namespace Scaffold.Text

variable {separator c c' : Char} {row front back front' back' rest : List Char}
  {rows : List (List Char)}

/-! ### The first and the last character of a kind -/

/-- The first character of a kind has one place. -/
theorem first_unique {p : Char → Bool} (same : front ++ c :: back = front' ++ c' :: back')
    (free : ∀ d ∈ front, p d = false) (free' : ∀ d ∈ front', p d = false)
    (here : p c = true) (here' : p c' = true) : front = front' ∧ c = c' ∧ back = back' := by
  induction front generalizing front' with
  | nil =>
    cases front' with
    | nil =>
      obtain ⟨rfl, rfl⟩ := List.cons.inj same
      exact ⟨rfl, rfl, rfl⟩
    | cons d front' =>
      obtain ⟨rfl, _⟩ := List.cons.inj same
      rw [free' c List.mem_cons_self] at here
      cases here
  | cons d front ih =>
    obtain ⟨other, free⟩ := List.forall_mem_cons.mp free
    cases front' with
    | nil =>
      obtain ⟨rfl, _⟩ := List.cons.inj same
      rw [other] at here'
      cases here'
    | cons e front' =>
      rw [List.cons_append, List.cons_append] at same
      obtain ⟨rfl, tails⟩ := List.cons.inj same
      obtain ⟨rfl, rest⟩ := ih tails free (List.forall_mem_cons.mp free').2
      exact ⟨rfl, rest⟩

/-- The last occurrence of a character has one place. -/
theorem last_unique (same : front ++ c :: back = front' ++ c :: back') (absent : c ∉ back)
    (absent' : c ∉ back') : front = front' ∧ back = back' := by
  rcases List.append_eq_append_iff.mp same with ⟨more, split, split'⟩ | ⟨more, split, split'⟩
  · cases more with
    | nil => exact ⟨by simpa using split.symm, (List.cons.inj split').2⟩
    | cons d more => exact absurd (by simp [(List.cons.inj split').2]) absent
  · cases more with
    | nil => exact ⟨by simpa using split, (List.cons.inj split').2.symm⟩
    | cons d more => exact absurd (by simp [(List.cons.inj split').2]) absent'

/-! ### Lines -/

/-- A piece without the separator is cut off before it. -/
theorem splitOn_append_cons (absent : separator ∉ row) (rest : List Char) :
    splitOn separator (row ++ separator :: rest) = row :: splitOn separator rest := by
  induction row with
  | nil =>
    obtain ⟨piece, pieces, split⟩ := List.exists_cons_of_ne_nil (splitOn_ne_nil separator rest)
    rw [List.nil_append, splitOn, split]
    exact if_pos rfl
  | cons c row ih =>
    rw [List.mem_cons, not_or] at absent
    rw [List.cons_append, splitOn, ih absent.2]
    exact if_neg (Ne.symm absent.1)

theorem splitOn_of_absent {text : List Char} (absent : separator ∉ text) :
    splitOn separator text = [text] := by
  induction text with
  | nil => rfl
  | cons c text ih =>
    rw [List.mem_cons, not_or] at absent
    simp [splitOn, ih absent.2, Ne.symm absent.1]

/-- The first separator has one place. -/
theorem append_cons_inj (absent : separator ∉ row)
    (absent' : separator ∉ front) :
    row ++ separator :: rest = front ++ separator :: back ↔ row = front ∧ rest = back := by
  constructor
  · intro same
    have pieces := congrArg (splitOn separator) same
    rw [splitOn_append_cons absent, splitOn_append_cons absent'] at pieces
    obtain ⟨rfl, _⟩ := List.cons.inj pieces
    exact ⟨rfl, (List.cons.inj (List.append_cancel_left same)).2⟩
  · rintro ⟨rfl, rfl⟩
    rfl

/-- The first of several lines ends at a line feed, and the others are the lines behind that. -/
theorem exists_of_lines {text line : List Char} {more : List (List Char)} (split : lines text = line :: more)
    (filled : more ≠ []) : ∃ rest, text = line ++ '\n' :: rest ∧ '\n' ∉ line ∧ lines rest = more := by
  by_cases broken : '\n' ∈ text
  · obtain ⟨row, rest, rfl, absent⟩ := List.eq_append_cons_of_mem broken
    rw [lines, splitOn_append_cons absent] at split
    obtain ⟨rfl, rfl⟩ := List.cons.inj split
    exact ⟨rest, rfl, absent, rfl⟩
  · rw [lines, splitOn_of_absent broken] at split
    exact absurd (List.cons.inj split).2.symm filled

/-- A line of a text begins at an offset: a stretch without line feed between two line feeds or ends of the
text. -/
def LineAt (text : List Char) (start : Nat) (line : List Char) : Prop :=
  ∃ front back, text = front ++ (line ++ back) ∧ front.length = start ∧ '\n' ∉ line ∧
    (∀ c ∈ front.getLast?, c = '\n') ∧ ∀ c ∈ back.head?, c = '\n'

theorem lineAt_iff_of_absent {text line : List Char} {start : Nat} (absent : '\n' ∉ text) :
    LineAt text start line ↔ start = 0 ∧ line = text := by
  constructor
  · rintro ⟨front, back, rfl, rfl, _, begins, ends⟩
    rw [List.mem_append, List.mem_append, not_or, not_or] at absent
    obtain rfl : front = [] := by
      by_contra filled
      have feed := List.getLast_mem filled
      rw [begins _ (List.getLast?_eq_some_getLast filled)] at feed
      exact absent.1 feed
    obtain rfl : back = [] := by
      by_contra filled
      have feed := List.head_mem filled
      rw [ends _ (List.head?_eq_some_head filled)] at feed
      exact absent.2.2 feed
    simp
  · rintro ⟨rfl, rfl⟩
    exact ⟨[], [], by simp, rfl, absent, nofun, nofun⟩

/-- The lines of a text are its first line, and those behind the line feed that ends it. -/
theorem lineAt_append_cons {line : List Char} {start : Nat} (absent : '\n' ∉ row) :
    LineAt (row ++ '\n' :: rest) start line ↔
      (start = 0 ∧ line = row) ∨ ∃ later, start = row.length + 1 + later ∧ LineAt rest later line := by
  constructor
  · rintro ⟨front, back, split, rfl, free, begins, ends⟩
    rcases List.eq_nil_or_concat' front with rfl | ⟨front, c, rfl⟩
    · refine .inl ⟨rfl, ?_⟩
      -- it begins with the text, so it ends at the first line feed
      cases back with
      | nil =>
        rw [List.nil_append, List.append_nil] at split
        exact absurd (by simp [← split]) free
      | cons d back =>
        obtain rfl := ends d rfl
        have plain {part : List Char} (free : '\n' ∉ part) : ∀ d ∈ part, (d == '\n') = false := by
          intro d member
          rw [beq_eq_false_iff_ne]
          exact fun same => free (same ▸ member)
        exact (first_unique split.symm (plain free) (plain absent) rfl rfl).1
    · obtain rfl := begins c (by simp)
      -- it begins behind a line feed: behind that of the first line, or later
      rw [List.append_assoc, List.singleton_append] at split
      obtain ⟨more, rfl⟩ := append_cons_split absent split.symm
      rw [List.append_assoc] at split
      have behind := List.append_cancel_left split
      cases more with
      | nil =>
        obtain ⟨_, rfl⟩ := List.cons.inj behind
        exact .inr ⟨0, by simp, [], back, rfl, rfl, free, nofun, ends⟩
      | cons d more =>
        rw [List.cons_append, List.cons.injEq] at behind
        obtain ⟨rfl, rfl⟩ := behind
        refine .inr ⟨more.length + 1, ?_, more ++ ['\n'], back, by simp, by simp, free, by simp, ends⟩
        simp only [List.length_append, List.length_cons, List.length_nil]
        omega
  · rintro (⟨rfl, rfl⟩ | ⟨later, rfl, front, back, rfl, rfl, free, begins, ends⟩)
    · exact ⟨[], '\n' :: rest, rfl, rfl, absent, nofun, by simp⟩
    · refine ⟨row ++ '\n' :: front, back, by simp, ?_, free, ?_, ends⟩
      · simp only [List.length_append, List.length_cons]
        omega
      · intro c last
        cases front with
        | nil => simpa using last.symm
        | cons d front => exact begins c (by simpa using last)

theorem line_induction {motive : List Char → Prop} (last : ∀ row, '\n' ∉ row → motive row)
    (line : ∀ row rest, '\n' ∉ row → motive rest → motive (row ++ '\n' :: rest)) (text : List Char) :
    motive text := by
  by_cases absent : '\n' ∈ text
  · obtain ⟨row, rest, split, free⟩ := List.eq_append_cons_of_mem absent
    have shorter : rest.length < text.length := by
      rw [split, List.length_append, List.length_cons]
      omega
    rw [split]
    exact line row rest free (line_induction last line rest)
  · exact last text absent
termination_by text.length

/-! ### Lines with their line feeds -/

theorem wholeLines_line (absent : '\n' ∉ row) (rest : List Char) :
    wholeLines (row ++ '\n' :: rest) = (row ++ ['\n']) :: wholeLines rest := by
  induction row with
  | nil => exact if_pos rfl
  | cons c row ih =>
    rw [List.mem_cons, not_or] at absent
    rw [List.cons_append, wholeLines, if_neg (Ne.symm absent.1), ih absent.2, List.cons_append]

/-- The lines of two texts, the first of which a line feed ends. -/
theorem wholeLines_append (front back : List Char) :
    wholeLines (front ++ '\n' :: back) = wholeLines (front ++ ['\n']) ++ wholeLines back := by
  induction front using line_induction with
  | last row absent => rw [wholeLines_line absent, wholeLines_line absent]; rfl
  | line row rest absent ih =>
    rw [List.append_assoc, List.cons_append, wholeLines_line absent, ih, List.append_assoc, List.cons_append,
      wholeLines_line absent, List.cons_append]

/-- The line breaks before a line feed and those behind it are unified apart. -/
theorem unifyBreaks_append_line (front : List Char) :
    ∃ unified, ∀ back, unifyBreaks (front ++ '\n' :: back) = unified ++ '\n' :: unifyBreaks back := by
  induction front using unifyBreaks.induct with
  | case1 => exact ⟨[], fun back => by simp [unifyBreaks]⟩
  | case2 rest ih =>
    obtain ⟨unified, ih⟩ := ih
    exact ⟨'\n' :: unified, fun back => by simp [unifyBreaks, ih]⟩
  | case3 c rest single ih =>
    obtain ⟨unified, ih⟩ := ih
    by_cases joined : c = '\r' ∧ rest = []
    · obtain ⟨rfl, rfl⟩ := joined
      exact ⟨[], fun back => by simp [unifyBreaks]⟩
    · refine ⟨(if c = '\r' then '\n' else c) :: unified, fun back => ?_⟩
      rw [List.cons_append, unifyBreaks, ih, List.cons_append]
      intro more carriage split
      cases rest with
      | nil => exact joined ⟨carriage, rfl⟩
      | cons d rest => exact single rest carriage (by rw [(List.cons.inj split).1])

/-- A line without carriage returns stays as it is. -/
theorem unifyBreaks_line (noReturn : '\r' ∉ row) (rest : List Char) :
    unifyBreaks (row ++ '\n' :: rest) = row ++ '\n' :: unifyBreaks rest := by
  induction row with
  | nil => simp [unifyBreaks]
  | cons c row ih =>
    rw [List.mem_cons, not_or] at noReturn
    rw [List.cons_append, unifyBreaks, if_neg (Ne.symm noReturn.1), ih noReturn.2, List.cons_append]
    exact fun _ same => absurd same (Ne.symm noReturn.1)

/-! ### Joined pieces -/

theorem forall_mem_joinWith {p : Char → Prop} {separator : List Char} (between : ∀ c ∈ separator, p c)
    (within : ∀ row ∈ rows, ∀ c ∈ row, p c) : ∀ c ∈ joinWith separator rows, p c := by
  induction rows with
  | nil => simp [joinWith]
  | cons row rows ih =>
    obtain ⟨here, more⟩ := List.forall_mem_cons.mp within
    cases rows with
    | nil => exact here
    | cons next rows =>
      rw [joinWith.eq_3 _ _ _ (List.cons_ne_nil _ _), List.forall_mem_append, List.forall_mem_append]
      exact ⟨⟨here, between⟩, ih more⟩

theorem mem_joinWith {separator : List Char} (member : row ∈ rows) (within : c ∈ row) :
    c ∈ joinWith separator rows := by
  induction rows with
  | nil => cases member
  | cons next rows ih =>
    cases rows with
    | nil =>
      obtain rfl := List.mem_singleton.mp member
      exact within
    | cons other rows =>
      rw [joinWith.eq_3 _ _ _ (List.cons_ne_nil _ _)]
      rcases List.mem_cons.mp member with rfl | later
      · exact List.mem_append_left _ (List.mem_append_left _ within)
      · exact List.mem_append_right _ (ih later)

/-- Pieces that are joined and ended by a separator are ended by it each. -/
theorem joinWith_append_separator (row : List Char) (rows : List (List Char)) (between : List Char) :
    joinWith between (row :: rows) ++ between = (row :: rows).flatMap (· ++ between) := by
  induction rows generalizing row with
  | nil => simp [joinWith]
  | cons next rows ih =>
    rw [joinWith.eq_3 _ _ _ (List.cons_ne_nil _ _), List.append_assoc, ih]
    rfl

/-- A character of joined pieces that is not of the separator stands in one of them. -/
theorem joinWith_split (other : c ≠ separator) (absent : c ∉ rest)
    (split : joinWith [separator] rows ++ rest = front ++ c :: back) :
    ∃ row ∈ rows, ∃ before behind more, row = before ++ c :: behind ∧ back = behind ++ more := by
  induction rows generalizing front with
  | nil =>
    rw [joinWith, List.nil_append] at split
    exact absurd (by simp [split]) absent
  | cons row rows ih =>
    -- a character behind the first piece stands in one of the others
    have tail : ∃ tail, joinWith [separator] (row :: rows) ++ rest = row ++ tail ∧
        ∀ front, tail = front ++ c :: back →
          ∃ row ∈ rows, ∃ before behind more, row = before ++ c :: behind ∧ back = behind ++ more := by
      cases rows with
      | nil => exact ⟨rest, rfl, fun front split => absurd (by simp [split]) absent⟩
      | cons next rows =>
        refine ⟨separator :: (joinWith [separator] (next :: rows) ++ rest), by simp [joinWith], ?_⟩
        intro front split
        cases front with
        | nil =>
          obtain ⟨rfl, _⟩ := List.cons.inj split
          exact absurd rfl other
        | cons d front =>
          obtain ⟨_, split⟩ := List.cons.inj split
          exact ih split
    obtain ⟨tail, whole, later⟩ := tail
    rw [whole] at split
    rcases List.append_eq_append_iff.mp split with ⟨more, inFront, inTail⟩ | ⟨more, inRow, inBack⟩
    · obtain ⟨row', member, found⟩ := later more inTail
      exact ⟨row', List.mem_cons_of_mem _ member, found⟩
    · cases more with
      | nil =>
        obtain ⟨row', member, found⟩ := later [] inBack.symm
        exact ⟨row', List.mem_cons_of_mem _ member, found⟩
      | cons d more =>
        obtain ⟨rfl, rfl⟩ := List.cons.inj inBack
        exact ⟨row, List.mem_cons_self, front, more, tail, inRow, rfl⟩

end Scaffold.Text
