import Scaffold.Proofs.Render.PropsDocument
import Scaffold.Proofs.Template.BareLine

/-!
The document of a line of literal texts and placeholders. It is that of the line without the blanks in the
placeholders, so the line is rendered as its texts with the values in place of the placeholders.
-/

namespace Scaffold.Render

open Text Template

variable {text rest : List Char} {c : Char} {line : BareLine}

/-! ### Texts without tags -/

theorem opening?_eq_none (shut : c = '{' → ∀ d ∈ rest.head?, d ∉ ['{', '%', '#']) :
    opening? (c :: rest) = none := by
  unfold opening?
  split
  · next same =>
    obtain ⟨rfl, rfl⟩ := List.cons.inj same
    exact absurd (by simp) (shut rfl '{' rfl)
  · next same =>
    obtain ⟨rfl, rfl⟩ := List.cons.inj same
    exact absurd (by simp) (shut rfl '%' rfl)
  · next same =>
    obtain ⟨rfl, rfl⟩ := List.cons.inj same
    exact absurd (by simp) (shut rfl '#' rfl)
  · rfl

/-- A text in which nothing opens, nor with a brace behind it, opens nothing before the brace. -/
theorem unopened_of_untagged (untagged : Untagged (text ++ ['{'])) : Unopened text := by
  intro rest
  induction text with
  | nil => rfl
  | cons c text ih =>
    have shut : c = '{' → ∀ d ∈ (text ++ rest).head?, d ∉ ['{', '%', '#'] := by
      intro brace
      have apart := untagged.apart brace
      cases text with
      | nil => simp at apart
      | cons => exact apart
    rw [List.cons_append, untilOpening, opening?_eq_none shut]
    simp only [ih untagged.tail]
    rfl

theorem untilOpening_of_untagged (untagged : Untagged text) : untilOpening text = (text, none) := by
  induction text with
  | nil => rfl
  | cons c text ih =>
    rw [untilOpening, opening?_eq_none untagged.apart]
    simp only [ih untagged.tail]

/-! ### The line -/

/-- The blanks in the placeholders leave no token. -/
theorem tokens_bareLine (shaped : line.Shaped) (inLine : '\n' ∉ line.source ∧ '\r' ∉ line.source) :
    tokens line.source = paramTokens line.toParamLine := by
  rw [tokens, unifyBreaks_eq_self inLine.2, paramTokens, BareLine.places_toParamLine,
    List.flatMap_map]
  refine Cuts.flatMap (fun slot listed _ _ _ _ cuts => ?_) (fun _ before latest => ?_) _
    (Nat.lt_succ_self _)
  · obtain ⟨text, inside⟩ := BareLine.absent_slot listed inLine.1
    rw [Slot.source, List.append_assoc, List.append_assoc, slot.braced_append]
    exact Cuts.braced (unopened_of_untagged (shaped.texts slot listed)) text (shaped.blank slot listed)
      inside (shaped.names slot listed) cuts
  · obtain rfl : before = 1 := by simpa using latest
    exact Cuts.last (untilOpening_of_untagged shaped.last)

theorem compile_bareLine (shaped : line.Shaped) (renderable : line.Renderable) :
    compile line.source = .ok (paramDocument line.toParamLine) :=
  compile_of_tokens (tokens_bareLine shaped renderable.inLine) renderable.free

end Scaffold.Render
