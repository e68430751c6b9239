import Mathlib.Data.Bool.AllAny
import Scaffold.Proofs.Text.Scan
import Scaffold.Sentinel.Mark

/-!
What the dialects of files have in common. No comment opens inside a sentinel: the character that
opens comments stands nowhere else in it, and where an opener has it twice, both are needed.
-/

namespace Scaffold.Sentinel

open Text

namespace Dialect

/-- The dialects that files have. -/
def standard : List Dialect := [slash, hash, html, template]

theorem ofPath_standard (path : Path) : ofPath path ∈ standard := by
  unfold ofPath ofExtension?
  cases found : extensions.find? fun entry =>
      entry.2.contains (String.ofList (Text.lower path.extension)) with
  | none =>
    simp only [found]
    exact List.mem_cons_self
  | some entry =>
    have member := List.mem_of_find?_eq_some found
    have known : ∀ entry ∈ extensions, entry.1 ∈ standard := by decide
    simp only [found]
    exact known entry member

/-- The character that comments of a dialect begin with. -/
def lead (dialect : Dialect) : Char :=
  dialect.opener.headD ' '

/-- The shape that lets sentinels be told apart: the leading character of comments is no gap and no
word character, it stands in no mark and no closer, and in the opener it comes once, or twice and
nothing else. A closer has no character that a mark begins with or that can stand around the values of
attributes. -/
structure Regular (dialect : Dialect) : Prop where
  opener : dialect.opener = [dialect.lead, dialect.lead] ∨
    ∃ tail, dialect.opener = dialect.lead :: tail ∧ dialect.lead ∉ tail
  leadGap : isGap dialect.lead = false
  leadWord : isWord dialect.lead = false
  leadStart : dialect.lead ∉ startTag
  leadEnd : dialect.lead ∉ endTag
  leadCloser : dialect.lead ∉ dialect.closer
  closer : ∀ c ∈ dialect.closer, isGap c = false ∧ isWord c = false ∧ c ∉ ['"', '=', '@']

theorem regular_of_standard {dialect : Dialect} (known : dialect ∈ standard) : dialect.Regular := by
  simp only [standard, List.mem_cons, List.not_mem_nil, or_false] at known
  have opener : dialect.opener = [dialect.lead, dialect.lead] ∨
      ∃ tail, dialect.opener = dialect.lead :: tail ∧ dialect.lead ∉ tail := by
    rcases known with rfl | rfl | rfl | rfl
    · exact .inl rfl
    · exact .inr ⟨[], rfl, by decide⟩
    · exact .inr ⟨['!', '-', '-'], rfl, by decide⟩
    · exact .inr ⟨['#'], rfl, by decide⟩
  have closer : ∀ c ∈ dialect.closer, isGap c = false ∧ isWord c = false ∧ c ∉ ['"', '=', '@'] := by
    refine List.all_iff_forall_prop.mp ?_
    rcases known with rfl | rfl | rfl | rfl <;> decide
  rcases known with rfl | rfl | rfl | rfl <;>
    exact ⟨opener, by decide, by decide, by decide, by decide, by decide, closer⟩

namespace Regular

variable {dialect : Dialect} (regular : dialect.Regular)

include regular in
theorem opener_ne_nil : dialect.opener ≠ [] := by
  rcases regular.opener with twice | ⟨tail, once, _⟩
  · rw [twice]
    exact List.cons_ne_nil _ _
  · rw [once]
    exact List.cons_ne_nil _ _

include regular in
theorem opener_head : dialect.opener.head? = some dialect.lead := by
  rcases regular.opener with twice | ⟨tail, once, _⟩
  · rw [twice]
    rfl
  · rw [once]
    rfl

include regular in
theorem closer_head : ∀ c ∈ dialect.closer.head?, isGap c = false := by
  intro c first
  exact (regular.closer c (List.mem_of_mem_head? first)).1

include regular in
/-- Behind an opener and a text without the leading character no other opener begins before the end
of that text. -/
theorem opener_apart {core rest front more : List Char} (plain : dialect.lead ∉ core)
    (filled : core ≠ []) (moved : front ≠ [])
    (split : dialect.opener ++ core ++ rest = front ++ (dialect.opener ++ more)) :
    ∃ middle, front = dialect.opener ++ core ++ middle ∧ rest = middle ++ (dialect.opener ++ more) := by
  rcases List.append_eq_append_iff.mp split with ⟨middle, behind, after⟩ | ⟨cut, before, after⟩
  · exact ⟨middle, behind, after⟩
  by_cases vacant : cut = []
  · subst vacant
    exact ⟨[], by simpa using before.symm, by simpa using after.symm⟩
  -- The other opener would begin at `cut`, inside this one or inside `core`.
  obtain ⟨c, cut, rfl⟩ := List.exists_cons_of_ne_nil vacant
  have begins : c = dialect.lead := by
    have heads := congrArg List.head? after
    rw [List.head?_append_of_ne_nil _ regular.opener_ne_nil, regular.opener_head] at heads
    exact (Option.some.inj heads).symm
  subst begins
  rcases List.append_eq_append_iff.mp before with ⟨inner, _, inCore⟩ | ⟨inner, inOpener, shared⟩
  · exact absurd (by simp [inCore]) plain
  cases inner with
  | nil =>
    rw [List.nil_append] at shared
    exact absurd (by rw [← shared]; exact List.mem_cons_self) plain
  | cons d inner =>
    obtain ⟨rfl, rfl⟩ := List.cons.inj shared
    obtain ⟨first, front, rfl⟩ := List.exists_cons_of_ne_nil moved
    rcases regular.opener with twice | ⟨tail, once, single⟩
    · -- The second of the two leading characters would have to be followed by a third one.
      rw [twice, List.cons_append] at inOpener
      obtain ⟨_, short⟩ := List.cons.inj inOpener
      have alone : inner = [] := by
        have lengths := congrArg List.length short
        simp only [List.length_cons, List.length_nil, List.length_append] at lengths
        exact List.length_eq_zero_iff.mp (by omega)
      obtain ⟨d, core, rfl⟩ := List.exists_cons_of_ne_nil filled
      rw [twice, alone] at after
      have next : dialect.lead = d := (List.cons.inj (List.cons.inj after).2).1
      exact absurd (by rw [next]; exact List.mem_cons_self) plain
    · rw [once, List.cons_append] at inOpener
      have again : dialect.lead ∈ tail := by
        rw [(List.cons.inj inOpener).2]
        exact List.mem_append_right _ List.mem_cons_self
      exact absurd again single

end Regular

end Dialect

end Scaffold.Sentinel
