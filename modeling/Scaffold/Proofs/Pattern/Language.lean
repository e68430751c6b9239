import Scaffold.Proofs.Pattern.Searching

/-!
The texts that a pattern fits, in terms of its parts. For patterns that refer to no capture they are a
language: what a part fits depends neither on what stands before it nor on what follows.
-/

namespace Scaffold.Pattern

variable {pattern first second body : Pattern} {start finish : State} {kind : CharClass} {name : String}
  {text used rest : List Char} {captures captures' : List (String × List Char)} {c : Char}

/-- A pattern refers to no capture. -/
def isFree : Pattern → Bool
  | append first second => first.isFree && second.isFree
  | either first second => first.isFree && second.isFree
  | optional body | group body | capture _ body => body.isFree
  | again _ => false
  | empty | char _ | one _ | many _ | any _ | few _ => true

/-- Without references it does not matter what was captured before. -/
theorem Leads.rebase (leads : pattern.Leads start finish) (free : pattern.isFree = true)
    (captures : List (String × List Char)) :
    ∃ captures', pattern.Leads ⟨start.rest, captures⟩ ⟨finish.rest, captures'⟩ := by
  induction pattern generalizing start finish captures with
  | empty | char | one | many | any | few =>
    obtain ⟨run, takes, split, _⟩ := (leads_iff_takes rfl).mp leads
    exact ⟨captures, (leads_iff_takes rfl).mpr ⟨run, takes, split, rfl⟩⟩
  | optional body ih =>
    rcases leads with inside | rfl
    · obtain ⟨captures', inside⟩ := ih inside free captures
      exact ⟨captures', .inl inside⟩
    · exact ⟨captures, .inr rfl⟩
  | append first second ih ih' =>
    obtain ⟨free, free'⟩ := Bool.and_eq_true_iff.mp free
    obtain ⟨middle, one, other⟩ := leads
    obtain ⟨between, one⟩ := ih one free captures
    obtain ⟨captures', other⟩ := ih' other free' between
    exact ⟨captures', _, one, other⟩
  | either first second ih ih' =>
    obtain ⟨free, free'⟩ := Bool.and_eq_true_iff.mp free
    rcases leads with one | other
    · obtain ⟨captures', one⟩ := ih one free captures
      exact ⟨captures', .inl one⟩
    · obtain ⟨captures', other⟩ := ih' other free' captures
      exact ⟨captures', .inr other⟩
  | group body ih => exact ih leads free captures
  | capture name body ih =>
    obtain ⟨after, inside, same, _⟩ := leads
    obtain ⟨captures', inside⟩ := ih inside free captures
    rw [same]
    exact ⟨(name, between start.rest after.rest) :: captures', ⟨after.rest, captures'⟩, inside, rfl, rfl⟩
  | again => cases free

/-- A pattern without references fits a text if it leads over it anywhere. -/
theorem fits_iff_leads (free : pattern.isFree = true) (rest : List Char)
    (captures : List (String × List Char)) : pattern.fits used = true ↔
      ∃ captures', pattern.Leads ⟨used ++ rest, captures⟩ ⟨rest, captures'⟩ := by
  rw [fits_iff]
  constructor
  · rintro ⟨_, leads⟩
    exact (leads.frame (List.append_nil used).symm rest).rebase free captures
  · rintro ⟨_, leads⟩
    have alone := leads.frame rfl []
    rw [List.append_nil] at alone
    exact alone.rebase free []

/-! ### The parts of a pattern -/

theorem fits_empty : empty.fits text = true ↔ text = [] := by
  simp only [fits_iff, Leads, State.mk.injEq]
  constructor
  · rintro ⟨_, same, _⟩
    exact same.symm
  · rintro rfl
    exact ⟨[], rfl, rfl⟩

theorem fits_char : (char c).fits text = true ↔ text = [c] := by
  simp [fits_iff, Leads]

theorem fits_one : (one kind).fits text = true ↔ ∃ c, text = [c] ∧ kind.holds c = true := by
  simp only [fits_iff, Leads]
  constructor
  · rintro ⟨_, c, here, split, _⟩
    exact ⟨c, split, here⟩
  · rintro ⟨c, split, here⟩
    exact ⟨[], c, here, split, rfl⟩

theorem fits_many :
    (many kind).fits text = true ↔ text ≠ [] ∧ ∀ c ∈ text, kind.holds c = true := by
  simp only [fits_iff, Leads, List.append_nil]
  constructor
  · rintro ⟨_, run, filled, all, rfl, _⟩
    exact ⟨filled, all⟩
  · rintro ⟨filled, all⟩
    exact ⟨[], text, filled, all, rfl, rfl⟩

theorem fits_any : (any kind).fits text = true ↔ ∀ c ∈ text, kind.holds c = true := by
  simp only [fits_iff, Leads, List.append_nil]
  constructor
  · rintro ⟨_, run, all, rfl, _⟩
    exact all
  · exact fun all => ⟨[], text, all, rfl, rfl⟩

theorem fits_few : (few kind).fits text = true ↔ ∀ c ∈ text, kind.holds c = true := by
  simp only [fits_iff, Leads, List.append_nil]
  constructor
  · rintro ⟨_, run, all, rfl, _⟩
    exact all
  · exact fun all => ⟨[], text, all, rfl, rfl⟩

theorem fits_optional :
    (optional body).fits text = true ↔ body.fits text = true ∨ text = [] := by
  rw [fits_iff, ← fits_empty, fits_iff, fits_iff, ← exists_or]
  rfl

theorem fits_either :
    (either first second).fits text = true ↔ first.fits text = true ∨ second.fits text = true := by
  simp only [fits_iff, Leads, exists_or]

theorem fits_group : (group body).fits text = true ↔ body.fits text = true := by
  simp only [fits_iff, Leads]

theorem fits_capture : (capture name body).fits text = true ↔ body.fits text = true := by
  simp only [fits_iff, Leads]
  constructor
  · rintro ⟨_, ⟨rest, captures⟩, inside, rfl, _⟩
    exact ⟨captures, inside⟩
  · rintro ⟨captures, inside⟩
    exact ⟨_, ⟨[], captures⟩, inside, rfl, rfl⟩

/-- A second part without references fits on its own. -/
theorem fits_append (free : second.isFree = true) : (append first second).fits text = true ↔
    ∃ front back, text = front ++ back ∧ first.fits front = true ∧ second.fits back = true := by
  constructor
  · intro fitting
    obtain ⟨_, ⟨back, between⟩, one, other⟩ := fits_iff.mp fitting
    obtain ⟨front, rfl⟩ := one.used
    have alone := one.frame rfl []
    rw [List.append_nil] at alone
    refine ⟨front, back, rfl, fits_iff.mpr ⟨_, alone⟩, ?_⟩
    rw [fits_iff_leads free [] between, List.append_nil]
    exact ⟨_, other⟩
  · rintro ⟨front, back, rfl, one, other⟩
    obtain ⟨between, one⟩ := fits_iff.mp one
    obtain ⟨captures, other⟩ := (fits_iff_leads free [] between).mp other
    rw [List.append_nil] at other
    exact fits_iff.mpr ⟨captures, _, one.frame (List.append_nil front).symm back, other⟩

/-! ### Several parts -/

theorem isFree_sequence (parts : List Pattern) : (sequence parts).isFree = parts.all isFree := by
  induction parts with
  | nil => rfl
  | cons part parts ih =>
    rw [List.all_cons, ← ih]
    rfl

theorem fits_sequence_cons {part : Pattern} {parts : List Pattern} (free : parts.all isFree = true) :
    (sequence (part :: parts)).fits text = true ↔ ∃ front back, text = front ++ back ∧
      part.fits front = true ∧ (sequence parts).fits back = true :=
  fits_append ((isFree_sequence parts).trans free)

theorem fits_choice {patterns : List Pattern} (filled : patterns ≠ []) :
    (choice patterns).fits text = true ↔ ∃ pattern ∈ patterns, pattern.fits text = true := by
  induction patterns with
  | nil => exact absurd rfl filled
  | cons pattern patterns ih =>
    cases patterns with
    | nil => simp [choice]
    | cons next patterns =>
      change (either pattern (choice (next :: patterns))).fits text = true ↔ _
      rw [fits_either, ih (List.cons_ne_nil next patterns)]
      simp only [List.mem_cons, exists_eq_or_imp]

theorem fits_literal {word : List Char} : (literal word).fits text = true ↔ text = word := by
  rw [fits_iff]
  simp only [leads_literal, List.append_nil]
  constructor
  · rintro ⟨_, same, _⟩
    exact same
  · exact fun same => ⟨[], same, rfl⟩

end Scaffold.Pattern
