import Mathlib.Data.List.TakeWhile
import Scaffold.Proofs.Text.Scan
import Scaffold.Text.Blank

/-!
Trimming. Nothing is left of a text of blanks, and only of such a text. What stands between blanks is
left when it neither begins nor ends with one.
-/

namespace Scaffold.Text

theorem trim_eq_nil {text : List Char} : trim text = [] ↔ ∀ c ∈ text, isBlank c = true := by
  rw [trim, trimRight, dropRightWhile, List.reverse_eq_nil_iff, List.dropWhile_eq_nil_iff]
  simp only [List.mem_reverse]
  constructor
  · intro blank
    obtain ⟨front, all, split, _⟩ := dropWhile_eq_iff.mp (Eq.refl (trimLeft text))
    intro c member
    rw [split, List.mem_append] at member
    exact member.elim (all c) (blank c)
  · intro blank c member
    exact blank c ((List.dropWhile_suffix isBlank).subset member)

theorem trimLeft_spec (text : List Char) :
    ∃ blanks, (∀ c ∈ blanks, isBlank c = true) ∧ text = blanks ++ trimLeft text ∧
      ∀ c ∈ (trimLeft text).head?, isBlank c = false :=
  dropWhile_eq_iff.mp rfl

theorem trimRight_spec (text : List Char) :
    ∃ blanks, (∀ c ∈ blanks, isBlank c = true) ∧ text = trimRight text ++ blanks ∧
      ∀ c ∈ (trimRight text).getLast?, isBlank c = false := by
  obtain ⟨run, all, split, stopped⟩ := trimLeft_spec text.reverse
  refine ⟨run.reverse, ?_, ?_, ?_⟩
  · intro c member
    exact all c (List.mem_reverse.mp member)
  · rw [trimRight, dropRightWhile, ← List.reverse_append]
    exact List.reverse_eq_iff.mp split
  · rw [trimRight, dropRightWhile, List.getLast?_reverse]
    exact stopped

theorem trimLeft_append (blanks : List Char) {text : List Char}
    (all : ∀ c ∈ blanks, isBlank c = true) (begins : ∀ c ∈ text.head?, isBlank c = false) :
    trimLeft (blanks ++ text) = text :=
  dropWhile_eq_iff.mpr ⟨blanks, all, rfl, begins⟩

theorem dropRightWhile_eq_self {p : Char → Bool} {text : List Char}
    (ends : ∀ c ∈ text.getLast?, p c = false) : dropRightWhile p text = text := by
  have begins : ∀ c ∈ text.reverse.head?, p c = false := by rwa [List.head?_reverse]
  exact List.reverse_eq_iff.mpr (dropWhile_eq_iff.mpr ⟨[], by simp, rfl, begins⟩)

theorem trimRight_eq_self {text : List Char} (ends : ∀ c ∈ text.getLast?, isBlank c = false) :
    trimRight text = text :=
  dropRightWhile_eq_self ends

/-- Trimming leaves a text as it is if it neither begins nor ends with a blank. -/
theorem trim_eq_self_iff {text : List Char} : trim text = text ↔
    (∀ c ∈ text.head?, isBlank c = false) ∧ ∀ c ∈ text.getLast?, isBlank c = false := by
  constructor
  · intro same
    obtain ⟨front, _, split, begins⟩ := trimLeft_spec text
    obtain ⟨back, _, split', ends⟩ := trimRight_spec (trimLeft text)
    rw [← trim, same] at split' ends
    have lengths := congrArg List.length split
    rw [split', List.length_append, List.length_append] at lengths
    have noFront : front = [] := List.length_eq_zero_iff.mp (by omega)
    rw [noFront, List.nil_append] at split
    rw [← split] at begins
    exact ⟨begins, ends⟩
  · rintro ⟨begins, ends⟩
    have left : trimLeft text = text := trimLeft_append [] (by simp) begins
    rw [trim, left, trimRight_eq_self ends]

/-- A text is not empty and neither begins nor ends with a blank. -/
structure Tight (text : List Char) : Prop where
  filled : text ≠ []
  begins : ∀ c ∈ text.head?, isBlank c = false
  ends : ∀ c ∈ text.getLast?, isBlank c = false

theorem tight_of_forall {text : List Char} (filled : text ≠ [])
    (solid : ∀ c ∈ text, isBlank c = false) : Tight text :=
  ⟨filled, fun c first => solid c (List.mem_of_mem_head? first),
    fun c final => solid c (List.mem_of_getLast? final)⟩

theorem trim_between {front core back : List Char} (before : ∀ c ∈ front, isBlank c = true)
    (after : ∀ c ∈ back, isBlank c = true) (tight : Tight core) :
    trim (front ++ (core ++ back)) = core := by
  have opened : trimLeft (front ++ (core ++ back)) = core ++ back := by
    refine trimLeft_append front before ?_
    rw [List.head?_append_of_ne_nil _ tight.filled]
    exact tight.begins
  rw [trim, opened, trimRight, dropRightWhile_append_of_all after]
  exact trimRight_eq_self tight.ends

theorem Tight.trim_eq {text : List Char} (tight : Tight text) : trim text = text := by
  have whole := @trim_between [] text [] (by simp) (by simp) tight
  rwa [List.append_nil, List.nil_append] at whole

namespace Tight

variable {text other : List Char}

theorem precede (tight : Tight text) {front : List Char}
    (begins : ∀ c ∈ front.head?, isBlank c = false) : Tight (front ++ text) := by
  cases front with
  | nil => exact tight
  | cons c front =>
    refine ⟨List.cons_ne_nil _ _, begins, ?_⟩
    rw [List.getLast?_append_of_ne_nil _ tight.filled]
    exact tight.ends

theorem follow (tight : Tight text) {back : List Char}
    (ends : ∀ c ∈ back.getLast?, isBlank c = false) : Tight (text ++ back) := by
  by_cases empty : back = []
  · rw [empty, List.append_nil]
    exact tight
  refine ⟨List.append_ne_nil_of_left_ne_nil tight.filled _, ?_, ?_⟩
  · rw [List.head?_append_of_ne_nil _ tight.filled]
    exact tight.begins
  · rw [List.getLast?_append_of_ne_nil _ empty]
    exact ends

theorem append (tight : Tight text) (between : List Char) (tight' : Tight other) :
    Tight (text ++ (between ++ other)) := by
  refine tight.follow ?_
  rw [List.getLast?_append_of_ne_nil _ tight'.filled]
  exact tight'.ends

end Tight

/-- Induction along a text, a run of blanks at a time. -/
theorem blanks_induction {motive : List Char → Prop} (nil : motive [])
    (solid : ∀ c rest, isBlank c = false → motive rest → motive (c :: rest))
    (blanks : ∀ run rest, run ≠ [] → (∀ c ∈ run, isBlank c = true) →
      (∀ c ∈ rest.head?, isBlank c = false) → motive rest → motive (run ++ rest))
    (text : List Char) : motive text := by
  match text with
  | [] => exact nil
  | c :: rest =>
    cases blank : isBlank c with
    | false => exact solid c rest blank (blanks_induction nil solid blanks rest)
    | true =>
      obtain ⟨run, all, split, stopped⟩ := trimLeft_spec rest
      have shorter : (trimLeft rest).length ≤ rest.length :=
        (List.dropWhile_suffix isBlank).length_le
      have whole := blanks (c :: run) (trimLeft rest) (List.cons_ne_nil c run)
        (List.forall_mem_cons.mpr ⟨blank, all⟩) stopped
        (blanks_induction nil solid blanks (trimLeft rest))
      rwa [List.cons_append, ← split] at whole
termination_by text.length
decreasing_by
  · exact Nat.lt_succ_self rest.length
  · exact Nat.lt_succ_of_le shorter

end Scaffold.Text
