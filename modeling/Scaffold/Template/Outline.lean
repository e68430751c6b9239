import Scaffold.Template.Tag

/-!
The outline of a template: its outermost loops and the text between them. Loop tags are matched as
brackets; a closing tag outside any loop is plain text. Main statement: an outline loses nothing of
the template.
-/

namespace Scaffold.Template

open Text

inductive LoopTag
  | opens (tag : ForTag)
  | closes
  deriving DecidableEq, Repr

def loopTag? (text : List Char) : Option (LoopTag × List Char) :=
  match forTag? text with
  | some (tag, rest) => some (.opens tag, rest)
  | none => (endTag? text).map fun (_, rest) => (.closes, rest)

/-- An outermost loop: the texts of its two tags, what stands between them, and whether that holds
another loop. -/
structure LoopSpan where
  tag : ForTag
  opening : List Char
  inner : List Char
  nested : Bool
  closing : List Char
  deriving DecidableEq, Repr

/-- The text of a loop with its tags. -/
def LoopSpan.source (span : LoopSpan) : List Char :=
  span.opening ++ span.inner ++ span.closing

/-- A template from a place outside any loop on: some text, and then its end, or a loop and the
outline after it, or a loop that is never closed. -/
inductive Outline
  | done (text : List Char)
  | loop (text : List Char) (span : LoopSpan) (rest : Outline)
  | unclosed (text : List Char) (tag : ForTag) (remainder : List Char)
  deriving Repr

/-- What follows the opening tag of a loop: the text up to its closing tag, whether that holds
another loop, and the closing tag with the outline after it, if the loop is closed. -/
structure Remainder where
  inner : List Char
  nested : Bool
  closing : Option (List Char × Outline)

namespace Outline

/-- The outline with more text in front. -/
def precede (chars : List Char) : Outline → Outline
  | done text => done (chars ++ text)
  | loop text span rest => loop (chars ++ text) span rest
  | unclosed text tag remainder => unclosed (chars ++ text) tag remainder

def source : Outline → List Char
  | done text => text
  | loop text span rest => text ++ span.source ++ rest.source
  | unclosed text _ remainder => text ++ remainder

def ofLoop (tag : ForTag) (opening : List Char) (after : Remainder) : Outline :=
  match after.closing with
  | some (closing, rest) => loop [] ⟨tag, opening, after.inner, after.nested, closing⟩ rest
  | none => unclosed [] tag (opening ++ after.inner)

end Outline

namespace Remainder

/-- The remainder with more text in front. -/
def precede (chars : List Char) (after : Remainder) : Remainder :=
  { after with inner := chars ++ after.inner }

/-- The text that a remainder stands for. -/
def source (after : Remainder) : List Char :=
  after.inner ++
    match after.closing with
    | some (closing, rest) => closing ++ rest.source
    | none => []

end Remainder

mutual

def outlineOf : List (Piece LoopTag) → Outline
  | [] => .done []
  | .char c :: rest => (outlineOf rest).precede [c]
  | .found .closes source :: rest => (outlineOf rest).precede source
  | .found (.opens tag) source :: rest => .ofLoop tag source (remainderOf 0 rest)

/-- The pieces after a loop's opening tag, with the number of inner loops that are open. -/
def remainderOf : Nat → List (Piece LoopTag) → Remainder
  | _, [] => ⟨[], false, none⟩
  | depth, .char c :: rest => (remainderOf depth rest).precede [c]
  | depth, .found (.opens _) source :: rest =>
    { (remainderOf (depth + 1) rest).precede source with nested := true }
  | 0, .found .closes source :: rest => ⟨[], false, some (source, outlineOf rest)⟩
  | depth + 1, .found .closes source :: rest => (remainderOf depth rest).precede source

end

/-- The outline of a template without comments. -/
def outline (text : List Char) : Outline :=
  outlineOf (pieces loopTag? text)

theorem Outline.source_precede (chars : List Char) (o : Outline) :
    (o.precede chars).source = chars ++ o.source := by
  cases o <;> simp [Outline.precede, Outline.source]

theorem Outline.source_ofLoop (tag : ForTag) (opening : List Char) (after : Remainder) :
    (Outline.ofLoop tag opening after).source = opening ++ after.source := by
  unfold Outline.ofLoop Remainder.source
  split <;> simp_all [Outline.source, LoopSpan.source]

theorem Remainder.source_precede (chars : List Char) (after : Remainder) :
    (after.precede chars).source = chars ++ after.source := by
  simp [Remainder.precede, Remainder.source]

theorem source_outlineOf (items : List (Piece LoopTag)) :
    (outlineOf items).source = items.flatMap Piece.source ∧
      ∀ depth, (remainderOf depth items).source = items.flatMap Piece.source := by
  induction items with
  | nil => exact ⟨rfl, fun _ => rfl⟩
  | cons piece rest ih =>
    obtain ⟨outside, inside⟩ := ih
    refine ⟨?_, fun depth => ?_⟩
    · rcases piece with c | ⟨tag | _, source⟩
      · simp [outlineOf, Outline.source_precede, outside, Piece.source]
      · simp [outlineOf, Outline.source_ofLoop, inside, Piece.source]
      · simp [outlineOf, Outline.source_precede, outside, Piece.source]
    · rcases piece with c | ⟨tag | _, source⟩
      · simp [remainderOf, Remainder.source_precede, inside, Piece.source]
      · rw [remainderOf]
        have step := Remainder.source_precede source (remainderOf (depth + 1) rest)
        simp only [Remainder.source] at step ⊢
        rw [step]
        simpa [Piece.source, Remainder.source] using inside (depth + 1)
      · cases depth with
        | zero => simp [remainderOf, Remainder.source, outside, Piece.source]
        | succ depth => simp [remainderOf, Remainder.source_precede, inside, Piece.source]

/-- An outline loses nothing of its text. -/
theorem source_outline (text : List Char) : (outline text).source = text := by
  rw [outline, (source_outlineOf _).1, pieces_source]

end Scaffold.Template
