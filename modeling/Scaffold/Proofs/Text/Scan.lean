import Mathlib.Data.List.Basic
import Mathlib.Data.List.TakeWhile
import Scaffold.Text.Scan

/-!
Cutting a text with a scanner. What is recognised is taken off the text as a whole, and the cutting
goes on with the rest as if it were a text of its own.
-/

namespace Scaffold.Text

theorem afterPrefix?_eq_some {front text rest : List Char} :
    afterPrefix? front text = some rest ↔ text = front ++ rest := by
  rw [afterPrefix?, List.isPrefixOf?_eq_some_iff_append_eq]
  exact eq_comm

/-- What follows the longest run of a class: the text is the run and the rest, and the rest does not
begin with a character of the class. -/
theorem dropWhile_eq_iff {p : Char → Bool} {text rest : List Char} :
    text.dropWhile p = rest ↔
      ∃ run, (∀ c ∈ run, p c = true) ∧ text = run ++ rest ∧ ∀ c ∈ rest.head?, p c = false := by
  constructor
  · rintro rfl
    refine ⟨text.takeWhile p, fun c => List.mem_takeWhile_imp, ?_, ?_⟩
    · exact List.takeWhile_append_dropWhile.symm
    · intro c first
      have stopped := List.head?_dropWhile_not p text
      rw [Option.mem_def.mp first] at stopped
      simpa using stopped
  · rintro ⟨run, all, rfl, stopped⟩
    rw [List.dropWhile_append_of_pos all]
    cases rest with
    | nil => rfl
    | cons c rest => rw [List.dropWhile_cons_of_neg (by simp [stopped c rfl])]

/-- The longest run of a class at the start of a text. -/
theorem takeWhile_append {p : Char → Bool} {run rest : List Char} (all : ∀ c ∈ run, p c = true)
    (stopped : ∀ c ∈ rest.head?, p c = false) : (run ++ rest).takeWhile p = run := by
  rw [List.takeWhile_append_of_pos all]
  cases rest with
  | nil => simp
  | cons c rest => rw [List.takeWhile_cons_of_neg (by simp [stopped c rfl]), List.append_nil]

/-- A text without a character that begins a text is over before that character. -/
theorem append_cons_split {c : Char} {part rest front back : List Char} (absent : c ∉ part)
    (split : front ++ c :: back = part ++ rest) : ∃ more, front = part ++ more := by
  rcases List.append_eq_append_iff.mp split with ⟨more, inPart, reach⟩ | ⟨more, inFront, _⟩
  · cases more with
    | nil => exact ⟨[], by simpa using inPart.symm⟩
    | cons d more =>
      obtain ⟨rfl, _⟩ := List.cons.inj reach
      exact absurd (by simp [inPart]) absent
  · exact ⟨more, inFront⟩

/-- A text without a character is a part of what stands before that character or of what stands
behind it. -/
theorem infix_append_cons {c : Char} {part front back : List Char} (absent : c ∉ part) :
    part <:+: front ++ c :: back ↔ part <:+: front ∨ part <:+: back := by
  constructor
  · rintro ⟨before, after, split⟩
    rcases List.append_eq_append_iff.mp split with ⟨more, inFront, _⟩ | ⟨more, reach, inBack⟩
    · exact .inl ⟨before, more, inFront.symm⟩
    cases more with
    | nil => exact .inl ⟨before, [], by simpa using reach⟩
    | cons d more =>
      obtain ⟨rfl, rfl⟩ := List.cons.inj inBack
      rcases List.append_eq_append_iff.mp reach with ⟨cut, _, inPart⟩ | ⟨cut, _, behind⟩
      · exact absurd (by simp [inPart]) absent
      cases cut with
      | nil =>
        rw [List.nil_append] at behind
        exact absurd (by rw [← behind]; exact List.mem_cons_self) absent
      | cons e cut =>
        obtain ⟨_, rfl⟩ := List.cons.inj behind
        exact .inr ⟨cut, after, rfl⟩
  · rintro (within | within)
    · exact List.infix_append_of_infix_left within
    · exact List.infix_append_of_infix_right (List.infix_cons within)

theorem holds_iff {word text : List Char} : holds word text = true ↔ word <:+: text := by
  rw [holds]
  induction text with
  | nil => cases word <;> simp [after?, afterPrefix?]
  | cons c text ih =>
    rw [after?, Option.isSome_or, Bool.or_eq_true, ih, List.infix_cons_iff, afterPrefix?,
      Option.isSome_iff_exists]
    simp only [List.isPrefixOf?_eq_some_iff_append_eq]
    exact Iff.rfl

variable {α : Type} {scan : Scan α}

/-- What a scanner recognises is not empty, and what it returns is the rest of the text. -/
def Consuming (scan : Scan α) : Prop :=
  ∀ text value rest, scan text = some (value, rest) → ∃ used, used ≠ [] ∧ text = used ++ rest

theorem piecesAfter_eq_pieces (scan : Scan α) (skip : Nat) (text : List Char) :
    piecesAfter scan skip text = pieces scan (text.drop skip) := by
  induction text generalizing skip with
  | nil => cases skip <;> rfl
  | cons c rest ih =>
    cases skip with
    | zero => rfl
    | succ skip => exact ih skip

theorem pieces_none {c : Char} {rest : List Char} (missed : scan (c :: rest) = none) :
    pieces scan (c :: rest) = .char c :: pieces scan rest := by
  rw [pieces, piecesAfter, missed]
  rfl

theorem pieces_some {used rest : List Char} {value : α} (nonempty : used ≠ [])
    (found : scan (used ++ rest) = some (value, rest)) :
    pieces scan (used ++ rest) = .found value used :: pieces scan rest := by
  cases used with
  | nil => exact absurd rfl nonempty
  | cons c tail =>
    have width : (tail ++ rest).length - rest.length = tail.length := by simp
    rw [List.cons_append] at found ⊢
    rw [pieces, piecesAfter, found]
    simp only [width, List.take_left', piecesAfter_eq_pieces, List.drop_left']

/-- Where nothing is recognised in the front of a text, its characters stand alone. -/
theorem pieces_append_of_none {front back : List Char}
    (missed : ∀ before after, front = before ++ after → after ≠ [] → scan (after ++ back) = none) :
    pieces scan (front ++ back) = front.map .char ++ pieces scan back := by
  induction front with
  | nil => rfl
  | cons c rest ih =>
    have here : scan (c :: (rest ++ back)) = none := missed [] (c :: rest) rfl (by simp)
    rw [List.cons_append, pieces_none here, ih]
    · rfl
    · rintro before after rfl nonempty
      exact missed (c :: before) after rfl nonempty

/-- Induction along the pieces of a text. -/
theorem scan_induction {motive : List Char → Prop} (consuming : Consuming scan) (nil : motive [])
    (char : ∀ c rest, scan (c :: rest) = none → motive rest → motive (c :: rest))
    (found : ∀ used rest value, used ≠ [] → scan (used ++ rest) = some (value, rest) →
      motive rest → motive (used ++ rest)) (text : List Char) : motive text := by
  match text with
  | [] => exact nil
  | c :: rest =>
    cases scanned : scan (c :: rest) with
    | none => exact char c rest scanned (scan_induction consuming nil char found rest)
    | some result =>
      obtain ⟨value, after⟩ := result
      obtain ⟨used, nonempty, split⟩ := consuming _ _ _ scanned
      have shorter : after.length < (c :: rest).length := by
        rw [split, List.length_append]
        have positive := List.length_pos_iff.mpr nonempty
        omega
      rw [split] at scanned ⊢
      exact found used after value nonempty scanned
        (scan_induction consuming nil char found after)
termination_by text.length
decreasing_by
  · exact Nat.lt_succ_self rest.length
  · exact shorter

/-- No piece of a text is empty. -/
theorem pieces_filled (consuming : Consuming scan) (text : List Char) :
    ∀ piece ∈ pieces scan text, piece.source ≠ [] := by
  induction text using scan_induction consuming with
  | nil => exact nofun
  | char c rest missed ih =>
    rw [pieces_none missed]
    exact List.forall_mem_cons.mpr ⟨List.cons_ne_nil _ _, ih⟩
  | found used rest value filled found ih =>
    rw [pieces_some filled found]
    exact List.forall_mem_cons.mpr ⟨filled, ih⟩

theorem findAll_none {c : Char} {rest : List Char} (missed : scan (c :: rest) = none) :
    findAll scan (c :: rest) = findAll scan rest := by
  rw [findAll, pieces_none missed]
  rfl

theorem findAll_some {used rest : List Char} {value : α} (nonempty : used ≠ [])
    (found : scan (used ++ rest) = some (value, rest)) :
    findAll scan (used ++ rest) = value :: findAll scan rest := by
  rw [findAll, pieces_some nonempty found]
  rfl

/-- All that is recognised in a text is recognised at some place of it. -/
theorem mem_findAll (consuming : Consuming scan) {text : List Char} {value : α}
    (listed : value ∈ findAll scan text) :
    ∃ front used rest, text = front ++ (used ++ rest) ∧ scan (used ++ rest) = some (value, rest) := by
  induction text using scan_induction consuming with
  | nil => cases listed
  | char c rest missed ih =>
    obtain ⟨front, used, more, split, found⟩ := ih (findAll_none missed ▸ listed)
    exact ⟨c :: front, used, more, by rw [split]; rfl, found⟩
  | found used rest other filled found ih =>
    rcases List.mem_cons.mp (findAll_some filled found ▸ listed) with rfl | later
    · exact ⟨[], used, rest, rfl, found⟩
    · obtain ⟨front, used', more, split, found'⟩ := ih later
      exact ⟨used ++ front, used', more, by rw [split, List.append_assoc], found'⟩

/-- A text without carriage returns has its line breaks in the one form. -/
theorem unifyBreaks_eq_self {text : List Char} (absent : '\r' ∉ text) : unifyBreaks text = text := by
  induction text with
  | nil => rfl
  | cons c text ih =>
    rw [List.mem_cons, not_or] at absent
    rw [unifyBreaks, if_neg (Ne.symm absent.1), ih absent.2]
    intro rest same
    exact absurd same (Ne.symm absent.1)

end Scaffold.Text
