import Mathlib.Data.List.Basic
import Scaffold.Project.Sync
import Scaffold.Proofs.Sentinel.Spans

/-!
Putting units into a text. A text whose spans are in order is its units woven into the texts between
them, and what is assembled from it has other units and the same texts between them.
-/

namespace Scaffold

namespace Project

open Sentinel

/-- The text from an offset up to the first of some spans. -/
def before (text : List Char) (offset : Nat) : List Span → List Char
  | [] => text.drop offset
  | span :: _ => (text.take span.start).drop offset

/-- The texts that follow spans, each up to the next one. -/
def between (text : List Char) : List Span → List (List Char)
  | [] => []
  | span :: rest => before text span.finish rest :: between text rest

theorem between_length (text : List Char) (spans : List Span) :
    (between text spans).length = spans.length := by
  induction spans with
  | nil => rfl
  | cons span rest ih => rw [between, List.length_cons, List.length_cons, ih]

theorem assemble_eq_weave (text : List Char) {spans : List Span} {units : List (List Char)}
    (paired : units.length = spans.length) (offset : Nat) :
    assemble text offset (spans.zip units) = weave (before text offset spans) units (between text spans) := by
  induction spans generalizing units offset with
  | nil =>
    cases units with
    | nil => simp [assemble, weave, before]
    | cons unit units => cases paired
  | cons span rest ih =>
    cases units with
    | nil => cases paired
    | cons unit units =>
      rw [List.zip_cons_cons, assemble, ih (Nat.succ.inj paired), between, weave_cons, before,
        List.append_assoc]

/-- A text is cut at an offset that lies between two others. -/
theorem drop_take_append {text : List Char} {first middle : Nat} (order : first ≤ middle) :
    (text.take middle).drop first ++ text.drop middle = text.drop first := by
  have rest : text.drop middle = (text.drop first).drop (middle - first) := by
    rw [List.drop_drop, Nat.add_sub_cancel' order]
  rw [List.drop_take, rest, List.take_append_drop]

theorem weave_source {text : List Char} {spans : List Span} {offset : Nat}
    (ordered : InOrder text.length offset spans) :
    weave (before text offset spans) (spans.map (·.source text)) (between text spans) =
      text.drop offset := by
  induction spans generalizing offset with
  | nil => simp [weave, before]
  | cons span rest ih =>
    obtain ⟨behind, wide, _, ordered⟩ := ordered
    rw [List.map_cons, between, weave_cons, ih ordered, Span.source,
      drop_take_append (Nat.le_of_lt wide), before, drop_take_append behind]

end Project

end Scaffold
