import Scaffold.Proofs.Text.Trim

/-!
Texts that differ in their blanks only: each run of blanks of the one is some other run in the other,
and what stands between the runs is the same.
-/

namespace Scaffold.Text

/-- A text with other runs of blanks in place of its own. -/
inductive Respaced : List Char → List Char → Prop
  | nil : Respaced [] []
  | solid (c : Char) {text other : List Char} (solid : isBlank c = false)
      (more : Respaced text other) : Respaced (c :: text) (c :: other)
  | blanks {run run' text other : List Char} (filled : run ≠ []) (filled' : run' ≠ [])
      (blank : ∀ c ∈ run, isBlank c = true) (blank' : ∀ c ∈ run', isBlank c = true)
      (stopped : ∀ c ∈ text.head?, isBlank c = false) (more : Respaced text other) :
      Respaced (run ++ text) (run' ++ other)

namespace Respaced

variable {text other : List Char} {c : Char}

theorem refl (text : List Char) : Respaced text text := by
  induction text using blanks_induction with
  | nil => exact nil
  | solid c rest here ih => exact solid c here ih
  | blanks run rest filled blank stopped ih => exact blanks filled filled blank blank stopped ih

/-- The other text begins as the text does, or both begin with blanks. -/
theorem head (respaced : Respaced text other) (first : c ∈ other.head?) :
    c ∈ text.head? ∨ isBlank c = true ∧ ∃ d ∈ text.head?, isBlank d = true := by
  cases respaced with
  | nil => cases first
  | solid => exact .inl first
  | @blanks run run' _ _ filled filled' blank blank' =>
    obtain ⟨d, run, rfl⟩ := List.exists_cons_of_ne_nil filled
    obtain ⟨e, run', rfl⟩ := List.exists_cons_of_ne_nil filled'
    obtain rfl := Option.some.inj first
    exact .inr ⟨blank' e List.mem_cons_self, d, rfl, blank d List.mem_cons_self⟩

theorem head_solid (respaced : Respaced text other) (begins : ∀ c ∈ text.head?, isBlank c = false) :
    ∀ c ∈ other.head?, isBlank c = false := by
  intro c first
  rcases respaced.head first with same | ⟨_, d, here, blank⟩
  · exact begins c same
  · rw [begins d here] at blank
    cases blank

theorem eq_nil_iff (respaced : Respaced text other) : text = [] ↔ other = [] := by
  cases respaced with
  | nil => simp
  | solid => simp
  | blanks filled filled' => simp [filled, filled']

theorem forall_isBlank (respaced : Respaced text other) (blank : ∀ c ∈ text, isBlank c = true) :
    ∀ c ∈ other, isBlank c = true := by
  induction respaced with
  | nil => exact blank
  | solid c here =>
    rw [blank c List.mem_cons_self] at here
    cases here
  | blanks _ _ _ blank' _ _ ih =>
    rw [List.forall_mem_append] at blank ⊢
    exact ⟨blank', ih blank.2⟩

theorem getLast?_ne_of_blank {front run : List Char} (ends : ∀ c ∈ front.getLast?, isBlank c = false)
    (filled : run ≠ []) (blank : ∀ c ∈ run, isBlank c = true) : front.getLast? ≠ run.getLast? := by
  intro last
  rw [last, List.getLast?_eq_some_getLast filled] at ends
  have solid := ends _ rfl
  rw [blank _ (List.getLast_mem filled)] at solid
  cases solid

/-- Where a part of the text ends in no blank, the other text is cut in the same way. -/
theorem split {front back : List Char} (respaced : Respaced (front ++ back) other)
    (ends : ∀ c ∈ front.getLast?, isBlank c = false) :
    ∃ front' back', other = front' ++ back' ∧ Respaced front front' ∧ Respaced back back' := by
  generalize form : front ++ back = text at respaced
  induction respaced generalizing front with
  | nil =>
    obtain ⟨rfl, rfl⟩ := List.append_eq_nil_iff.mp form
    exact ⟨[], [], rfl, nil, nil⟩
  | @solid c text other here more ih =>
    cases front with
    | nil =>
      obtain rfl : back = c :: text := form
      exact ⟨[], c :: other, rfl, nil, solid c here more⟩
    | cons d front =>
      obtain ⟨rfl, same⟩ := List.cons.inj form
      have later : ∀ c ∈ front.getLast?, isBlank c = false := by
        cases front with
        | nil => simp
        | cons e front => exact ends
      obtain ⟨front', back', rfl, one, two⟩ := ih later same
      exact ⟨d :: front', back', rfl, solid d here one, two⟩
  | @blanks run run' text other filled filled' blank blank' stopped more ih =>
    rcases List.append_eq_append_iff.mp form with ⟨rest, inRun, _⟩ | ⟨rest, inFront, same⟩
    · -- the part lies within the blanks, so it is empty
      cases front with
      | nil =>
        obtain rfl : back = run ++ text := form
        exact ⟨[], _, rfl, nil, blanks filled filled' blank blank' stopped more⟩
      | cons d front =>
        have inside : ∀ c ∈ d :: front, isBlank c = true :=
          fun c member => blank c (inRun ▸ List.mem_append_left _ member)
        exact absurd rfl (getLast?_ne_of_blank ends (List.cons_ne_nil d front) inside)
    · -- the part goes on behind the blanks
      by_cases whole : rest = []
      · rw [inFront, whole, List.append_nil] at ends
        exact absurd rfl (getLast?_ne_of_blank ends filled blank)
      · have later : ∀ c ∈ rest.getLast?, isBlank c = false := by
          rwa [inFront, List.getLast?_append_of_ne_nil _ whole] at ends
        have begins : ∀ c ∈ rest.head?, isBlank c = false := by
          rwa [same, List.head?_append_of_ne_nil _ whole] at stopped
        obtain ⟨front', back', rfl, one, two⟩ := ih later same.symm
        refine ⟨run' ++ front', back', (List.append_assoc _ _ _).symm, ?_, two⟩
        rw [inFront]
        exact blanks filled filled' blank blank' begins one

/-- Behind the trimmed text the other one has blanks at most. -/
theorem trimRight (respaced : Respaced text other) :
    ∃ core back, other = core ++ back ∧ (∀ c ∈ back, isBlank c = true) ∧
      Respaced (Text.trimRight text) core := by
  obtain ⟨blanks, all, form, ends⟩ := trimRight_spec text
  rw [form] at respaced
  obtain ⟨core, back, split, one, two⟩ := respaced.split ends
  exact ⟨core, back, split, two.forall_isBlank all, one⟩

theorem symm (respaced : Respaced text other) : Respaced other text := by
  induction respaced with
  | nil => exact nil
  | solid c here _ ih => exact solid c here ih
  | blanks filled filled' blank blank' stopped more ih =>
    exact blanks filled' filled blank' blank (more.head_solid stopped) ih

/-- Behind blanks in front of the text the other one has the same. -/
theorem trimLeft (respaced : Respaced text other) :
    Respaced (Text.trimLeft text) (Text.trimLeft other) := by
  cases respaced with
  | nil => exact nil
  | @solid c _ _ here more =>
    rw [Text.trimLeft, Text.trimLeft, List.dropWhile_cons_of_neg (by simp [here]),
      List.dropWhile_cons_of_neg (by simp [here])]
    exact solid c here more
  | blanks _ _ blank blank' stopped more =>
    rwa [trimLeft_append _ blank stopped, trimLeft_append _ blank' (more.head_solid stopped)]

/-- More blanks in front, if there are some in front or none at all. -/
theorem precede (respaced : Respaced text other) (run run' : List Char)
    (blank : ∀ c ∈ run, isBlank c = true) (blank' : ∀ c ∈ run', isBlank c = true)
    (same : run = [] ↔ run' = []) : Respaced (run ++ text) (run' ++ other) := by
  by_cases empty : run = []
  · rw [empty, same.mp empty]
    exact respaced
  have empty' : run' ≠ [] := empty ∘ same.mpr
  cases respaced with
  | nil =>
    have alone := blanks empty empty' blank blank' (by simp) nil
    rwa [List.append_nil, List.append_nil] at alone ⊢
  | solid c here more =>
    exact blanks empty empty' blank blank' (by simpa using here) (solid c here more)
  | blanks _ _ more more' stopped rest =>
    rw [← List.append_assoc, ← List.append_assoc]
    exact blanks (List.append_ne_nil_of_left_ne_nil empty _)
      (List.append_ne_nil_of_left_ne_nil empty' _) (List.forall_mem_append.mpr ⟨blank, more⟩)
      (List.forall_mem_append.mpr ⟨blank', more'⟩) stopped rest

theorem append {front front' : List Char} (respaced : Respaced front front')
    (rest : Respaced text other) : Respaced (front ++ text) (front' ++ other) := by
  induction respaced with
  | nil => exact rest
  | solid c here _ ih => exact solid c here ih
  | blanks filled filled' blank blank' _ _ ih =>
    rw [List.append_assoc, List.append_assoc]
    exact ih.precede _ _ blank blank' (by simp [filled, filled'])

end Respaced

end Scaffold.Text
