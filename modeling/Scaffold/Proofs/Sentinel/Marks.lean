import Mathlib.Data.List.Infix
import Scaffold.Proofs.Sentinel.Dialect
import Scaffold.Proofs.Sentinel.Locate

/-!
The form of sentinels: an opener, a gap and a mark, and what belongs to the comment behind it. An end
sentinel holds no other opener, so that no sentinel begins inside it, while the attributes of a start
sentinel may hold anything on their line.
-/

namespace Scaffold.Sentinel

open Text

/-- What all marks begin with. -/
def stem : List Char := "@codefactory:".toList

theorem stem_prefix_startTag : stem <+: startTag := by decide

theorem stem_prefix_endTag : stem <+: endTag := by decide

variable {dialect : Dialect} {tag text rest : List Char}

theorem afterMark?_eq_some (marked : stem <+: tag) :
    afterMark? dialect tag text = some rest ↔
      ∃ gaps, (∀ c ∈ gaps, isGap c = true) ∧ text = dialect.opener ++ (gaps ++ (tag ++ rest)) ∧
        ∀ c ∈ rest.head?, isWord c = false := by
  obtain ⟨more, rfl⟩ := marked
  have stopped : ∀ c ∈ (stem ++ more ++ rest).head?, isGap c = false := by
    rintro c ⟨⟩
    decide
  simp only [afterMark?, Option.bind_eq_bind, Option.bind_eq_some_iff, afterPrefix?_eq_some]
  constructor
  · rintro ⟨inner, rfl, after, skipped, found⟩
    obtain ⟨gaps, all, rfl, _⟩ := dropWhile_eq_iff.mp skipped
    cases after with
    | nil =>
      cases found
      exact ⟨gaps, all, rfl, fun c first => nomatch first⟩
    | cons c after =>
      simp only at found
      by_cases word : isWord c = true
      · rw [if_pos word] at found
        cases found
      · rw [if_neg word] at found
        cases found
        refine ⟨gaps, all, rfl, ?_⟩
        rintro d ⟨⟩
        exact Bool.eq_false_iff.mpr word
  · rintro ⟨gaps, all, rfl, apart⟩
    refine ⟨_, rfl, rest, dropWhile_eq_iff.mpr ⟨gaps, all, rfl, stopped⟩, ?_⟩
    cases rest with
    | nil => rfl
    | cons c rest =>
      simp only
      rw [if_neg (by rw [apart c rfl]; exact Bool.false_ne_true)]

/-- A comment has one mark. -/
theorem afterMark?_exclusive {other : List Char}
    (started : afterMark? dialect startTag text = some rest)
    (ended : afterMark? dialect endTag text = some other) : False := by
  simp only [afterMark?, Option.bind_eq_bind, Option.bind_eq_some_iff, afterPrefix?_eq_some]
    at started ended
  obtain ⟨inner, rfl, after, begun, _⟩ := started
  obtain ⟨inner', same, after', finished, _⟩ := ended
  obtain rfl := List.append_cancel_left same
  rw [begun] at finished
  have lengths : startTag.take 14 = endTag.take 14 := by
    have firsts := congrArg (List.take 14) finished
    rwa [List.take_append_of_le_length (by decide), List.take_append_of_le_length (by decide)] at firsts
  exact absurd lengths (by decide)

theorem afterCloser?_eq_some (stopped : ∀ c ∈ dialect.closer.head?, isGap c = false)
    (closed : dialect.closer ≠ []) :
    afterCloser? dialect text = some rest ↔
      ∃ gaps, (∀ c ∈ gaps, isGap c = true) ∧ text = gaps ++ (dialect.closer ++ rest) := by
  rw [afterCloser?, afterPrefix?_eq_some, dropWhile_eq_iff]
  obtain ⟨c, closer, same⟩ := List.exists_cons_of_ne_nil closed
  rw [same] at stopped ⊢
  constructor
  · rintro ⟨gaps, all, split, _⟩
    exact ⟨gaps, all, split⟩
  · rintro ⟨gaps, all, split⟩
    exact ⟨gaps, all, split, stopped⟩

/-- A text begins with attributes that end at the first closer of their line, a gap before it being
part of the closer, and the rest follows. -/
def UntilCloser (dialect : Dialect) (text attributes rest : List Char) : Prop :=
  ∃ back, text = attributes ++ back ∧ back ≠ [] ∧ afterCloser? dialect back = some rest ∧
    (∀ c ∈ attributes, isBreak c = false) ∧
    ∀ before after, attributes = before ++ after → after ≠ [] →
      afterCloser? dialect (after ++ back) = none

theorem untilCloser_nil :
    UntilCloser dialect text [] rest ↔ text ≠ [] ∧ afterCloser? dialect text = some rest := by
  constructor
  · rintro ⟨back, rfl, filled, ended, _, _⟩
    exact ⟨filled, ended⟩
  · rintro ⟨filled, ended⟩
    refine ⟨text, rfl, filled, ended, by simp, ?_⟩
    intro before after vacant nonempty
    exact absurd (List.append_eq_nil_iff.mp vacant.symm).2 nonempty

theorem untilCloser_cons {c : Char} {attributes : List Char} :
    UntilCloser dialect text (c :: attributes) rest ↔
      ∃ tail, text = c :: tail ∧ afterCloser? dialect text = none ∧ isBreak c = false ∧
        UntilCloser dialect tail attributes rest := by
  constructor
  · rintro ⟨back, rfl, filled, ended, line, first⟩
    refine ⟨attributes ++ back, rfl, first [] _ rfl (List.cons_ne_nil _ _), line c List.mem_cons_self,
      back, rfl, filled, ended, fun d member => line d (List.mem_cons_of_mem _ member), ?_⟩
    intro before after split nonempty
    exact first (c :: before) after (by rw [split]; rfl) nonempty
  · rintro ⟨_, rfl, missed, unbroken, back, rfl, filled, ended, line, first⟩
    refine ⟨back, rfl, filled, ended, List.forall_mem_cons.mpr ⟨unbroken, line⟩, ?_⟩
    intro before after split nonempty
    cases before with
    | nil =>
      rw [List.nil_append] at split
      rw [← split]
      exact missed
    | cons d before => exact first before after (List.cons.inj split).2 nonempty

theorem attributesUntil?_eq_some {attributes : List Char} :
    attributesUntil? dialect text = some (attributes, rest) ↔
      UntilCloser dialect text attributes rest := by
  induction text generalizing attributes with
  | nil => cases attributes <;> simp [attributesUntil?, untilCloser_nil, untilCloser_cons]
  | cons c tail ih =>
    cases attributes with
    | nil =>
      rw [untilCloser_nil, attributesUntil?]
      cases afterCloser? dialect (c :: tail) with
      | some after => simp
      | none => cases isBreak c <;> simp
    | cons d attributes =>
      rw [untilCloser_cons, attributesUntil?]
      cases afterCloser? dialect (c :: tail) with
      | some after => simp
      | none =>
        constructor
        · intro found
          by_cases broken : isBreak c = true
          · simp [broken] at found
          · rw [if_neg broken, Option.map_eq_some_iff] at found
            obtain ⟨⟨chars, after⟩, found, same⟩ := found
            cases same
            exact ⟨tail, rfl, rfl, Bool.eq_false_iff.mpr broken, ih.mp found⟩
        · rintro ⟨_, split, _, unbroken, ended⟩
          obtain ⟨rfl, rfl⟩ := List.cons.inj split
          simp [unbroken, ih.mpr ended]

/-- A start sentinel is an opener, a gap, the mark and text of the comment. -/
theorem startMark?_split {attributes : List Char}
    (found : startMark? dialect text = some (attributes, rest)) :
    ∃ after, afterMark? dialect startTag text = some after ∧ ∃ used, after = used ++ rest := by
  rw [startMark?, Option.bind_eq_some_iff] at found
  obtain ⟨after, marked, found⟩ := found
  refine ⟨after, marked, ?_⟩
  by_cases unclosed : dialect.closer.isEmpty = true
  · rw [if_pos unclosed] at found
    cases found
    exact ⟨_, List.takeWhile_append_dropWhile.symm⟩
  · rw [if_neg unclosed] at found
    obtain ⟨back, rfl, _, ended, _⟩ := attributesUntil?_eq_some.mp found
    rw [afterCloser?, afterPrefix?_eq_some] at ended
    refine ⟨attributes ++ (back.takeWhile isGap ++ dialect.closer), ?_⟩
    rw [List.append_assoc, List.append_assoc, ← ended, List.takeWhile_append_dropWhile]

theorem startMark?_consuming (regular : dialect.Regular) : Consuming (startMark? dialect) := by
  intro text attributes rest found
  obtain ⟨after, marked, used, rfl⟩ := startMark?_split found
  obtain ⟨gaps, _, rfl, _⟩ := (afterMark?_eq_some stem_prefix_startTag).mp marked
  refine ⟨dialect.opener ++ (gaps ++ (startTag ++ used)), ?_, by simp only [List.append_assoc]⟩
  exact List.append_ne_nil_of_left_ne_nil regular.opener_ne_nil _

/-- An end sentinel is an opener and text of the comment without another one. -/
theorem endMark?_split (regular : dialect.Regular) {value : Unit}
    (found : endMark? dialect text = some (value, rest)) :
    (∃ after, afterMark? dialect endTag text = some after) ∧
      ∃ core, core ≠ [] ∧ dialect.lead ∉ core ∧ text = dialect.opener ++ core ++ rest := by
  rw [endMark?, Option.bind_eq_some_iff] at found
  obtain ⟨after, marked, found⟩ := found
  refine ⟨⟨after, marked⟩, ?_⟩
  obtain ⟨gaps, all, rfl, _⟩ := (afterMark?_eq_some stem_prefix_endTag).mp marked
  have noGap : ∀ {gaps : List Char}, (∀ c ∈ gaps, isGap c = true) → dialect.lead ∉ gaps := by
    intro gaps all member
    have gap := all _ member
    rw [regular.leadGap] at gap
    cases gap
  by_cases unclosed : dialect.closer.isEmpty = true
  · rw [if_pos unclosed] at found
    cases found
    refine ⟨gaps ++ endTag, List.append_ne_nil_of_right_ne_nil _ (by decide), ?_, ?_⟩
    · simp [noGap all, regular.leadEnd]
    · simp only [List.append_assoc]
  · rw [if_neg unclosed, Option.map_eq_some_iff] at found
    obtain ⟨_, ended, same⟩ := found
    cases same
    have closed : dialect.closer ≠ [] := by simpa using unclosed
    obtain ⟨more, blank, rfl⟩ := (afterCloser?_eq_some regular.closer_head closed).mp ended
    refine ⟨gaps ++ (endTag ++ (more ++ dialect.closer)), ?_, ?_, ?_⟩
    · exact List.append_ne_nil_of_right_ne_nil _ (List.append_ne_nil_of_left_ne_nil (by decide) _)
    · simp [noGap all, noGap blank, regular.leadEnd, regular.leadCloser]
    · simp only [List.append_assoc]

theorem endMark?_consuming (regular : dialect.Regular) : Consuming (endMark? dialect) := by
  intro text value rest found
  obtain ⟨_, core, _, _, split⟩ := endMark?_split regular found
  exact ⟨_, List.append_ne_nil_of_left_ne_nil regular.opener_ne_nil _, split⟩

end Scaffold.Sentinel
