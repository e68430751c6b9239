import Scaffold.Proofs.Render.LineTokens
import Scaffold.Proofs.Render.TagTokens

/-!
The steps by which a template is cut into tokens, each with what it passes of the text. The analysis
looks at the template without its comments; where no comment begins in what a step passes, the text
without comments is passed alike.
-/

namespace Scaffold.Render

open Text Template

variable {text rest after : List Char} {kind : TokenKind} {c : Char} {opening : Opening}
  {brackets : List String} {afterDot : Bool} {fuel line latest : Nat}

/-! ### Passing text without comments -/

/-- Behind a front in which no comment begins. -/
def Uncommented (text rest : List Char) : Prop :=
  ∃ front, text = front ++ rest ∧ withoutComments text = front ++ withoutComments rest

namespace Uncommented

theorem trans (first : Uncommented text rest) (second : Uncommented rest after) :
    Uncommented text after := by
  obtain ⟨front, rfl, shown⟩ := first
  obtain ⟨front', rfl, shown'⟩ := second
  exact ⟨front ++ front', by simp, by rw [shown, shown', List.append_assoc]⟩

theorem isSuffix (uncommented : Uncommented text rest) : rest <:+ text := by
  obtain ⟨front, rfl, _⟩ := uncommented
  exact List.suffix_append front rest

theorem suffix (uncommented : Uncommented text rest) :
    withoutComments rest <:+ withoutComments text := by
  obtain ⟨front, _, shown⟩ := uncommented
  exact ⟨front, shown.symm⟩

/-- What is found behind such a front is found in the whole text. -/
theorem subset (uncommented : Uncommented text rest) :
    findAll usedName? (withoutComments rest) ⊆ findAll usedName? (withoutComments text) :=
  findAll_usedName?_suffix uncommented.suffix

theorem cons (missed : comment? (c :: text) = none) : Uncommented (c :: text) text :=
  ⟨[c], rfl, eraseAll_none missed⟩

end Uncommented

theorem commentMark_of_comment? (found : (comment? text).isSome = true) : commentMark <+: text := by
  obtain ⟨⟨value, rest⟩, found⟩ := Option.isSome_iff_exists.mp found
  obtain ⟨after, opened, _⟩ := Option.bind_eq_some_iff.mp found
  exact ⟨after, (afterPrefix?_eq_some.mp opened).symm⟩

theorem comment?_eq_none (unmarked : ¬ commentMark <+: text) : comment? text = none := by
  rw [← Option.not_isSome_iff_eq_none]
  exact fun present => unmarked (commentMark_of_comment? present)

/-- The character behind the brace of an opening. -/
def Opening.sign : Opening → Char
  | .expression => '{'
  | .statement => '%'
  | .comment => '#'

/-- The tags with words, by their openings. -/
inductive Opens : Opening → TokenKind → Prop
  | expression : Opens .expression .openExpression
  | statement : Opens .statement .openStatement

end Scaffold.Render
