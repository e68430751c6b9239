import Scaffold.Proofs.Template.PathTag
import Scaffold.Proofs.Text.Respaced
import Scaffold.Template.Variables

/-!
The names that a template uses. What is found does not depend on which blanks there are, and all that
is found behind some place of a text is found in the whole text as well.
-/

namespace Scaffold.Template

open Text

variable {text other rest : List Char} {name : String} {tag : ForTag}

/-! ### Other blanks -/

/-- A scanner recognises the same where there are other blanks. -/
def BlankFree {α : Type} (scan : Scan α) : Prop :=
  ∀ {text other}, Respaced text other → ∀ {value rest}, scan text = some (value, rest) →
    ∃ rest', scan other = some (value, rest') ∧ Respaced rest rest'

section Scanner

variable {α : Type} {scan : Scan α}

theorem BlankFree.none (free : BlankFree scan) (respaced : Respaced text other)
    (missed : scan text = none) : scan other = none := by
  by_contra present
  obtain ⟨⟨value, rest⟩, found⟩ := Option.ne_none_iff_exists'.mp present
  obtain ⟨rest', found', _⟩ := free respaced.symm found
  rw [missed] at found'
  cases found'

/-- Induction along the pieces of two texts that differ in their blanks only. -/
theorem BlankFree.induction {motive : List Char → List Char → Prop} (free : BlankFree scan)
    (consuming : Consuming scan) (nil : motive [] [])
    (char : ∀ c text other, isBlank c = false → scan (c :: text) = .none →
      scan (c :: other) = .none → motive text other → motive (c :: text) (c :: other))
    (found : ∀ used used' rest rest' value, used ≠ [] → used' ≠ [] →
      scan (used ++ rest) = some (value, rest) → scan (used' ++ rest') = some (value, rest') →
        motive rest rest' → motive (used ++ rest) (used' ++ rest'))
    (blanks : ∀ run run' text other, run ≠ [] → run' ≠ [] → (∀ c ∈ run, isBlank c = true) →
      (∀ c ∈ run', isBlank c = true) → motive text other → motive (run ++ text) (run' ++ other))
    (respaced : Respaced text other) : motive text other := by
  induction size : text.length using Nat.strong_induction_on generalizing text other with
  | _ size ih =>
    subst size
    cases respaced with
    | nil => exact nil
    | @solid c text other here more =>
      cases scanned : scan (c :: text) with
      | none =>
        exact char c text other here scanned (free.none (.solid c here more) scanned)
          (ih _ (Nat.lt_succ_self text.length) more rfl)
      | some result =>
        obtain ⟨value, rest⟩ := result
        obtain ⟨rest', scanned', later⟩ := free (.solid c here more) scanned
        obtain ⟨used, filled, split⟩ := consuming _ _ _ scanned
        obtain ⟨used', filled', split'⟩ := consuming _ _ _ scanned'
        have shorter : rest.length < (c :: text).length := by
          have positive := List.length_pos_iff.mpr filled
          rw [split, List.length_append]
          omega
        have reached := ih _ shorter later rfl
        rw [split] at scanned ⊢
        rw [split'] at scanned' ⊢
        exact found used used' rest rest' value filled filled' scanned scanned' reached
    | @blanks run run' text other filled filled' blank blank' _ more =>
      have shorter : text.length < (run ++ text).length := by
        have positive := List.length_pos_iff.mpr filled
        rw [List.length_append]
        omega
      exact blanks run run' text other filled filled' blank blank' (ih _ shorter more rfl)

theorem eraseAll_none {c : Char} (missed : scan (c :: rest) = none) :
    eraseAll scan (c :: rest) = c :: eraseAll scan rest := by
  rw [eraseAll, pieces_none missed]
  rfl

theorem eraseAll_append_of_none {front back : List Char}
    (missed : ∀ before after, front = before ++ after → after ≠ [] → scan (after ++ back) = none) :
    eraseAll scan (front ++ back) = front ++ eraseAll scan back := by
  rw [eraseAll, pieces_append_of_none missed, List.filterMap_append, List.filterMap_map]
  exact congrArg (· ++ _) List.filterMap_some

end Scanner

/-- What stands between an opening and the word behind it holds no brace, nor a sign of an opening at
its start. -/
theorem afterOpening?_eq_some_cons {sign c : Char} (other : c ≠ '{' ∧ c ≠ '%')
    (found : afterOpening? ['{', sign] text = some (c :: rest)) :
    ∃ tail, text = '{' :: sign :: tail ∧ Passed tail (c :: rest) ∧
      ∀ d ∈ tail.head?, d ≠ '{' ∧ d ≠ '%' := by
  obtain ⟨tail, cut, trimmed⟩ := Option.map_eq_some_iff.mp found
  refine ⟨tail, afterPrefix?_eq_some.mp cut, ?_, ?_⟩
  · rw [← trimmed]
    exact (passed_dropOptional (by decide) tail).trans (passed_dropWhile rfl _)
  · intro d first
    obtain ⟨more, rfl⟩ := List.head?_eq_some_iff.mp first
    by_cases dash : d = '-'
    · rw [dash]
      decide
    · rw [dropOptional, if_neg dash, trimLeft] at trimmed
      cases blank : isBlank d with
      | true => constructor <;> rintro rfl <;> cases blank
      | false =>
        rw [List.dropWhile_cons_of_neg (by simp [blank])] at trimmed
        obtain ⟨rfl, _⟩ := List.cons.inj trimmed
        exact other

/-- A name that is found begins with a brace and a sign, and what it is found by holds no other
brace. -/
theorem usedName?_passed (found : usedName? text = some (name, rest)) :
    ∃ sign tail, text = '{' :: sign :: tail ∧ (sign = '{' ∨ sign = '%') ∧ Passed tail rest ∧
      ∀ c ∈ tail.head?, c ≠ '{' ∧ c ≠ '%' := by
  rw [usedName?] at found
  split at found
  · next tag after head =>
    obtain ⟨rfl, rfl⟩ := Prod.mk.inj (Option.some.inj found)
    obtain ⟨after, opened, passed⟩ := forHead?_eq_some head
    obtain ⟨tail, form, front, first⟩ := afterOpening?_eq_some_cons (by decide) opened
    exact ⟨'%', tail, form, .inr rfl, front.trans passed, first⟩
  · obtain ⟨after, opened, named⟩ := Option.bind_eq_some_iff.mp found
    obtain ⟨filled, all, split, _⟩ := word?_eq_some.mp named
    obtain ⟨c, word, letters⟩ := List.exists_cons_of_ne_nil filled
    have other : c ≠ '{' ∧ c ≠ '%' := by
      have here := all c (by simp [letters])
      constructor <;> rintro rfl <;> cases here
    rw [split, letters] at opened
    obtain ⟨tail, form, front, first⟩ := afterOpening?_eq_some_cons other opened
    have back : Passed (c :: (word ++ rest)) rest := by
      have whole := passed_word? named
      rwa [split, letters] at whole
    exact ⟨'{', tail, form, .inl rfl, front.trans back, first⟩

theorem atBrace_usedName? : AtBrace usedName? := by
  intro c rest other
  rw [usedName?, forHead?, expressionHead?, afterOpening?_of_ne other, afterOpening?_of_ne other]
  rfl

/-- One more character in front loses no name. -/
theorem findAll_usedName?_cons (c : Char) (text : List Char) :
    findAll usedName? text ⊆ findAll usedName? (c :: text) := by
  cases found : usedName? (c :: text) with
  | none => rw [findAll_none found]; exact List.Subset.refl _
  | some result =>
    obtain ⟨name, rest⟩ := result
    obtain ⟨sign, tail, form, known, ⟨used, absent, split⟩, head⟩ := usedName?_passed found
    obtain ⟨rfl, rfl⟩ := List.cons.inj form
    -- The second sign of the opening begins no tag of its own.
    have missed : usedName? (sign :: tail) = none := by
      by_contra present
      obtain ⟨⟨other, after⟩, again⟩ := Option.ne_none_iff_exists'.mp present
      obtain ⟨sign', tail', form', known', _⟩ := usedName?_passed again
      obtain ⟨rfl, rfl⟩ := List.cons.inj form'
      obtain ⟨noBrace, noPercent⟩ := head sign' rfl
      exact known'.elim noBrace noPercent
    have all : findAll usedName? ('{' :: sign :: tail) = name :: findAll usedName? rest := by
      subst split
      have filled : '{' :: sign :: used ≠ [] := List.cons_ne_nil _ _
      exact findAll_some filled found
    rw [all, findAll_none missed, split, atBrace_usedName?.findAll_append absent]
    exact List.subset_cons_self _ _

/-- What is found behind some place of a text is found in the whole text. -/
theorem findAll_usedName?_suffix (suffix : other <:+ text) :
    findAll usedName? other ⊆ findAll usedName? text := by
  obtain ⟨front, rfl⟩ := suffix
  induction front with
  | nil => exact List.Subset.refl _
  | cons c front ih => exact List.Subset.trans ih (findAll_usedName?_cons c (front ++ other))

end Scaffold.Template
