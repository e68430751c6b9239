import Scaffold.Proofs.Template.Outline
import Scaffold.Proofs.Template.PathTag

/-!
Loops inside loops. The template language nests every loop; the analysis knows only those over a
name, and every closing tag. Main statement: a loop that holds other loops is left out as a whole, up
to its own closing tag, exactly when all that it holds go over names.
-/

namespace Scaffold.Template

open Text

/-- A text with properly nested loops: its end, or a character or a loop and what follows. -/
inductive Nesting
  | done
  | char (c : Char) (rest : Nesting)
  | loop (tag : PathTag) (opening : List Char) (inner : Nesting) (closing : List Char)
      (rest : Nesting)
  deriving DecidableEq, Repr

/-- The loop goes over a field, so that the analysis does not see its opening tag. -/
def PathTag.dotted (tag : PathTag) : Bool :=
  !tag.fields.isEmpty

namespace Nesting

/-- The pieces of the text, in their order. -/
def pieces : Nesting → List (Piece NestTag)
  | done => []
  | char c rest => .char c :: rest.pieces
  | loop tag opening inner closing rest =>
    .found (.opens tag) opening :: (inner.pieces ++ .found .closes closing :: rest.pieces)

/-- The text. -/
def source : Nesting → List Char
  | done => []
  | char c rest => c :: rest.source
  | loop _ opening inner closing rest => opening ++ (inner.source ++ (closing ++ rest.source))

/-- The opening tags of all loops at any depth. -/
def tags : Nesting → List PathTag
  | done => []
  | char _ rest => rest.tags
  | loop tag _ inner _ rest => tag :: (inner.tags ++ rest.tags)

/-- One text behind another. -/
def append : Nesting → Nesting → Nesting
  | done, back => back
  | char c rest, back => char c (rest.append back)
  | loop tag opening inner closing rest, back => loop tag opening inner closing (rest.append back)

/-- What the analysis sees of the pieces. -/
def seen (nesting : Nesting) : List (Piece LoopTag) :=
  nesting.pieces.flatMap visible

/-- The outline of the text as the analysis sees it. -/
def outline (nesting : Nesting) : Outline :=
  outlineOf nesting.seen

/-- The number of the loops whose opening tags the analysis does not see. -/
def hidden (nesting : Nesting) : Nat :=
  nesting.tags.countP PathTag.dotted

/-- The analysis sees some loop. -/
def shows (nesting : Nesting) : Bool :=
  nesting.tags.any (!·.dotted)

end Nesting

/-- The loops of a template, comments left out, are nested as given. -/
def Nests (template : List Char) (nesting : Nesting) : Prop :=
  pieces nestTag? (withoutComments template) = nesting.pieces

/-! ### What the analysis makes of nested loops -/

theorem remainderOf_map_char_append (depth : Nat) (chars : List Char)
    (items : List (Piece LoopTag)) :
    remainderOf depth (chars.map .char ++ items) = (remainderOf depth items).precede chars := by
  induction chars with
  | nil => rfl
  | cons c chars ih =>
    rw [List.map_cons, List.cons_append, remainderOf, ih]
    rfl

namespace Nesting

variable {tag : PathTag} {opening closing : List Char} {inner rest : Nesting}

theorem seen_char (c : Char) (rest : Nesting) : (char c rest).seen = .char c :: rest.seen :=
  rfl

theorem seen_loop_plain {tag : ForTag} :
    (loop ⟨tag, []⟩ opening inner closing rest).seen =
      .found (.opens tag) opening :: (inner.seen ++ .found .closes closing :: rest.seen) := by
  simp [seen, pieces, visible]

theorem seen_loop_dotted {tag : ForTag} {c : Char} {fields : List Char} :
    (loop ⟨tag, c :: fields⟩ opening inner closing rest).seen =
      opening.map .char ++ (inner.seen ++ .found .closes closing :: rest.seen) := by
  simp [seen, pieces, visible]

theorem hidden_loop : (loop tag opening inner closing rest).hidden =
    (if tag.dotted then 1 else 0) + inner.hidden + rest.hidden := by
  simp only [hidden, tags, List.countP_cons, List.countP_append]
  omega

theorem shows_loop : (loop tag opening inner closing rest).shows =
    (!tag.dotted || (inner.shows || rest.shows)) := by
  simp [shows, tags, List.any_append]

/-- Inside a loop, properly nested loops are passed as long as the closing tags of hidden ones do not
close it. -/
theorem remainderOf_seen (nesting : Nesting) {depth : Nat} (few : nesting.hidden ≤ depth)
    (more : List (Piece LoopTag)) :
    remainderOf depth (nesting.seen ++ more) =
      ⟨nesting.source ++ (remainderOf (depth - nesting.hidden) more).inner,
        nesting.shows || (remainderOf (depth - nesting.hidden) more).nested,
        (remainderOf (depth - nesting.hidden) more).closing⟩ := by
  induction nesting generalizing depth more with
  | done => rfl
  | char c rest ih =>
    rw [seen_char, List.cons_append, remainderOf, ih few]
    rfl
  | loop tag opening inner closing rest inside behind =>
    obtain ⟨tag, _ | ⟨c, fields⟩⟩ := tag
    · rw [hidden_loop] at few ⊢
      have few : inner.hidden + rest.hidden ≤ depth := by simpa [PathTag.dotted] using few
      have level : depth + 1 - inner.hidden = (depth - inner.hidden) + 1 := by omega
      have last : depth - inner.hidden - rest.hidden = depth - (inner.hidden + rest.hidden) := by omega
      rw [seen_loop_plain, List.cons_append, List.append_assoc, List.cons_append, remainderOf,
        inside (by omega), level, remainderOf, behind (by omega), last]
      simp [Remainder.precede, source, shows_loop, PathTag.dotted]
    · rw [hidden_loop] at few ⊢
      have few : 1 + inner.hidden + rest.hidden ≤ depth := by simpa [PathTag.dotted] using few
      have level : depth - inner.hidden = (depth - (1 + inner.hidden)) + 1 := by omega
      have last : depth - (1 + inner.hidden) - rest.hidden =
        depth - (1 + inner.hidden + rest.hidden) := by omega
      rw [seen_loop_dotted, List.append_assoc, List.append_assoc, List.cons_append,
        remainderOf_map_char_append, inside (by omega), level, remainderOf, behind (by omega), last]
      simp [Remainder.precede, source, shows_loop, PathTag.dotted, Bool.or_assoc]

/-- No tag of the text is empty. -/
def Filled (nesting : Nesting) : Prop :=
  ∀ piece ∈ nesting.pieces, piece.source ≠ []

theorem Filled.loop (filled : (loop tag opening inner closing rest).Filled) :
    opening ≠ [] ∧ inner.Filled ∧ closing ≠ [] ∧ rest.Filled := by
  simp only [Filled, pieces, List.forall_mem_cons, List.forall_mem_append] at filled
  exact filled

theorem Filled.append {front back : Nesting} (filled : (front.append back).Filled) :
    front.Filled ∧ back.Filled := by
  induction front with
  | done => exact ⟨fun _ member => (List.not_mem_nil member).elim, filled⟩
  | char c rest ih =>
    obtain ⟨first, rest⟩ := List.forall_mem_cons.mp filled
    exact ⟨List.forall_mem_cons.mpr ⟨first, (ih rest).1⟩, (ih rest).2⟩
  | loop tag opening inner closing rest _ ih =>
    obtain ⟨opens, filled, closes, filled'⟩ := Filled.loop filled
    simp only [Filled, pieces, List.forall_mem_cons, List.forall_mem_append]
    exact ⟨⟨opens, filled, closes, (ih filled').1⟩, (ih filled').2⟩

end Nesting

/-- Pieces after which the analysis is outside of every loop again, if it was outside before. -/
def Returns (items : List (Piece LoopTag)) : Prop :=
  ∃ o, Outline.Closed o ∧ ∀ more, outlineOf (items ++ more) = o.append (outlineOf more)

/-- Pieces within which a loop that the analysis has entered is over, with less than so many
characters inside, and after which the analysis is outside of every loop. -/
def Leaves (items : List (Piece LoopTag)) (width depth : Nat) : Prop :=
  ∃ inner nested closing o, List.length inner < width ∧ Outline.Closed o ∧
    ∀ more, remainderOf depth (items ++ more) =
      ⟨inner, nested, some (closing, o.append (outlineOf more))⟩

section Leaving

variable {items items' : List (Piece LoopTag)} {depth width : Nat}

theorem Returns.append (returns : Returns items) (returns' : Returns items') :
    Returns (items ++ items') := by
  obtain ⟨o, closed, outside⟩ := returns
  obtain ⟨o', closed', outside'⟩ := returns'
  refine ⟨o.append o', closed.append closed', fun more => ?_⟩
  rw [List.append_assoc, outside, outside', Outline.append_assoc]

theorem returns_chars (chars : List Char) : Returns (chars.map .char) :=
  ⟨.done chars, trivial, fun more => outlineOf_map_char chars more⟩

theorem returns_closes (closing : List Char) : Returns [.found .closes closing] :=
  ⟨.done closing, trivial, fun _ => rfl⟩

/-- A loop that the analysis leaves leads outside of every loop. -/
theorem Leaves.returns {tag : ForTag} {opening : List Char} (leaves : Leaves items width 0) :
    Returns (.found (.opens tag) opening :: items) := by
  obtain ⟨inner, nested, closing, o, _, closed, inside⟩ := leaves
  refine ⟨.loop [] ⟨tag, opening, inner, nested, closing⟩ o, closed, fun more => ?_⟩
  rw [List.cons_append, outlineOf, inside]
  rfl

theorem Leaves.append (leaves : Leaves items width depth) (returns : Returns items') {width' : Nat}
    (wider : width ≤ width') : Leaves (items ++ items') width' depth := by
  obtain ⟨inner, nested, closing, o, short, closed, inside⟩ := leaves
  obtain ⟨o', closed', outside⟩ := returns
  refine ⟨inner, nested, closing, o.append o', short.trans_le wider, closed.append closed',
    fun more => ?_⟩
  rw [List.append_assoc, inside, outside, Outline.append_assoc]

theorem Leaves.text (chars : List Char) (leaves : Leaves items width depth) :
    Leaves (chars.map .char ++ items) (chars.length + width) depth := by
  obtain ⟨inner, nested, closing, o, short, closed, inside⟩ := leaves
  refine ⟨chars ++ inner, nested, closing, o, ?_, closed, fun more => ?_⟩
  · rw [List.length_append]
    exact Nat.add_lt_add_left short _
  · rw [List.append_assoc, remainderOf_map_char_append, inside]
    rfl

theorem Leaves.opens (tag : ForTag) (chars : List Char)
    (leaves : Leaves items width (depth + 1)) :
    Leaves (.found (.opens tag) chars :: items) (chars.length + width) depth := by
  obtain ⟨inner, nested, closing, o, short, closed, inside⟩ := leaves
  refine ⟨chars ++ inner, true, closing, o, ?_, closed, fun more => ?_⟩
  · rw [List.length_append]
    exact Nat.add_lt_add_left short _
  · rw [List.cons_append, remainderOf, inside]
    rfl

theorem Leaves.closes (chars : List Char) (leaves : Leaves items width depth) :
    Leaves (.found .closes chars :: items) (chars.length + width) (depth + 1) := by
  obtain ⟨inner, nested, closing, o, short, closed, inside⟩ := leaves
  refine ⟨chars ++ inner, nested, closing, o, ?_, closed, fun more => ?_⟩
  · rw [List.length_append]
    exact Nat.add_lt_add_left short _
  · rw [List.cons_append, remainderOf, inside]
    rfl

/-- The closing tag of the loop that was entered leaves it. -/
theorem Returns.leaves (returns : Returns items) (closing : List Char) (positive : 0 < width) :
    Leaves (.found .closes closing :: items) width 0 := by
  obtain ⟨o, closed, outside⟩ := returns
  refine ⟨[], false, closing, o, positive, closed, fun more => ?_⟩
  rw [List.cons_append, remainderOf, outside]

end Leaving

namespace Nesting

variable {tag : PathTag} {opening closing : List Char} {inner rest : Nesting}

/-- Nested loops of which fewer are hidden than there are loops to close are passed. -/
theorem leaves_behind (nesting : Nesting) {depth width : Nat} {items : List (Piece LoopTag)}
    (few : nesting.hidden ≤ depth) (leaves : Leaves items width (depth - nesting.hidden)) :
    Leaves (nesting.seen ++ items) (nesting.source.length + width) depth := by
  obtain ⟨inner, nested, closing, o, short, closed, inside⟩ := leaves
  refine ⟨nesting.source ++ inner, nesting.shows || nested, closing, o, ?_, closed, fun more => ?_⟩
  · rw [List.length_append]
    exact Nat.add_lt_add_left short _
  · rw [List.append_assoc, remainderOf_seen nesting few, inside]

/-- The inside of a loop, its closing tag and what follows, entered at a depth that they reduce to
nothing: the analysis leaves at the closing tag, or before it, or behind it. -/
theorem leaves_inside (filled : closing ≠ []) (returns : Returns rest.seen)
    (within : ∀ depth < inner.hidden, Leaves inner.seen inner.source.length depth)
    (behind : ∀ depth < rest.hidden, Leaves rest.seen rest.source.length depth)
    {depth : Nat} (few : depth < inner.hidden + rest.hidden + 1) :
    Leaves (inner.seen ++ .found .closes closing :: rest.seen)
      (inner.source ++ (closing ++ rest.source)).length depth := by
  have positive := List.length_pos_iff.mpr filled
  simp only [List.length_append]
  rcases Nat.lt_or_ge depth inner.hidden with before | reached
  · exact (within depth before).append ((returns_closes closing).append returns) (by omega)
  · refine leaves_behind inner reached ?_
    cases level : depth - inner.hidden with
    | zero => exact returns.leaves closing (by omega)
    | succ left => exact (behind left (by omega)).closes closing

/-- Outside of any loop, the analysis is outside again behind properly nested loops, whichever of
them it sees. Inside a loop it leaves within them, if more of them are hidden than there are loops to
close. -/
theorem returns_and_leaves (nesting : Nesting) (filled : nesting.Filled) :
    Returns nesting.seen ∧
      ∀ depth < nesting.hidden, Leaves nesting.seen nesting.source.length depth := by
  induction nesting with
  | done =>
    exact ⟨returns_chars [], fun depth few => absurd few (Nat.not_lt_zero depth)⟩
  | char c rest ih =>
    obtain ⟨returns, leaves⟩ := ih fun piece member => filled piece (List.mem_cons_of_mem _ member)
    refine ⟨(returns_chars [c]).append returns, fun depth few => ?_⟩
    have longer := (leaves depth few).text [c]
    rwa [Nat.add_comm] at longer
  | loop tag opening inner closing rest inside behind =>
    obtain ⟨_, filled, closes, filled'⟩ := filled.loop
    obtain ⟨returns, within⟩ := inside filled
    obtain ⟨returns', behind⟩ := behind filled'
    have leaves : ∀ depth < inner.hidden + rest.hidden + 1, Leaves _ _ depth :=
      fun depth few => leaves_inside closes returns' within behind few
    obtain ⟨tag, _ | ⟨c, fields⟩⟩ := tag
    · rw [seen_loop_plain]
      refine ⟨(leaves 0 (Nat.succ_pos _)).returns, fun depth few => ?_⟩
      rw [hidden_loop] at few
      have few : depth < inner.hidden + rest.hidden := by simpa [PathTag.dotted] using few
      have longer := (leaves (depth + 1) (Nat.succ_lt_succ few)).opens tag opening
      rwa [← List.length_append] at longer
    · rw [seen_loop_dotted]
      refine ⟨(returns_chars opening).append
        (returns.append ((returns_closes closing).append returns')), fun depth few => ?_⟩
      rw [hidden_loop] at few
      have few : depth < 1 + inner.hidden + rest.hidden := by simpa [PathTag.dotted] using few
      have longer := (leaves depth (by omega)).text opening
      rwa [← List.length_append] at longer

theorem seen_append (front back : Nesting) : (front.append back).seen = front.seen ++ back.seen := by
  induction front with
  | done => rfl
  | char c rest ih => rw [append, seen_char, ih, seen_char, List.cons_append]
  | loop tag opening inner closing rest _ ih =>
    simp only [seen, append, pieces, List.flatMap_cons, List.flatMap_append, List.append_assoc] at ih ⊢
    rw [ih]

theorem source_seen (nesting : Nesting) : nesting.seen.flatMap Piece.source = nesting.source := by
  induction nesting with
  | done => rfl
  | char c rest ih => exact congrArg (c :: ·) ih
  | loop tag opening inner closing rest inside behind =>
    obtain ⟨tag, _ | ⟨c, fields⟩⟩ := tag
    · rw [seen_loop_plain]
      simp [Piece.source, source, inside, behind]
    · have letters : (opening.map Piece.char).flatMap (Piece.source (α := LoopTag)) = opening := by
        simp [List.flatMap_map, Piece.source]
      rw [seen_loop_dotted]
      simp [letters, Piece.source, source, inside, behind]

theorem source_outline (nesting : Nesting) : nesting.outline.source = nesting.source := by
  rw [outline, (source_outlineOf _).1, source_seen]

theorem outlineOf_seen_append (nesting : Nesting) (filled : nesting.Filled)
    (more : List (Piece LoopTag)) : outlineOf (nesting.seen ++ more) =
      nesting.outline.append (outlineOf more) := by
  obtain ⟨o, _, outside⟩ := (nesting.returns_and_leaves filled).1
  have alone := outside []
  rw [List.append_nil, outlineOf, Outline.append_done_nil] at alone
  rw [outside, outline, alone]

theorem closed_outline (nesting : Nesting) (filled : nesting.Filled) : nesting.outline.Closed := by
  obtain ⟨o, closed, outside⟩ := (nesting.returns_and_leaves filled).1
  have alone := outside []
  rw [List.append_nil, outlineOf, Outline.append_done_nil] at alone
  rwa [outline, alone]

theorem hidden_eq_zero {nesting : Nesting} :
    nesting.hidden = 0 ↔ ∀ tag ∈ nesting.tags, tag.fields = [] := by
  simp [hidden, List.countP_eq_zero, PathTag.dotted]

theorem shows_of_tags {nesting : Nesting} (plain : ∀ tag ∈ nesting.tags, tag.fields = [])
    (some : nesting.tags ≠ []) : nesting.shows = true := by
  obtain ⟨tag, member⟩ := List.exists_mem_of_ne_nil _ some
  exact List.any_eq_true.mpr ⟨tag, member, by simp [PathTag.dotted, plain tag member]⟩

/-- A loop over a name is taken as a whole exactly when all loops within it go over names. -/
theorem outline_loop_iff {tag : ForTag} (filled : inner.Filled) (some : inner.tags ≠ []) :
    (loop ⟨tag, []⟩ opening inner closing rest).outline =
        .loop [] ⟨tag, opening, inner.source, true, closing⟩ rest.outline ↔
      ∀ tag ∈ inner.tags, tag.fields = [] := by
  rw [outline, seen_loop_plain, outlineOf]
  constructor
  · intro whole
    rw [← hidden_eq_zero]
    by_contra hides
    obtain ⟨inside, nested, closing', o, short, _, leaves⟩ :=
      (inner.returns_and_leaves filled).2 0 (Nat.pos_of_ne_zero hides)
    rw [leaves] at whole
    obtain ⟨_, same, _⟩ := Outline.loop.inj whole
    have cut : inside = inner.source := (LoopSpan.mk.inj same).2.2.1
    rw [cut] at short
    exact absurd short (Nat.lt_irrefl _)
  · intro plain
    have none := hidden_eq_zero.mpr plain
    rw [remainderOf_seen inner none.le, none, remainderOf]
    simp [Outline.ofLoop, shows_of_tags plain some, outline]

end Nesting

theorem filled_of_nests {template : List Char} {nesting : Nesting} (nests : Nests template nesting) :
    nesting.Filled := by
  rw [Nesting.Filled, ← nests]
  exact pieces_filled nestTag?_consuming _

theorem outline_of_nests {template : List Char} {nesting : Nesting} (nests : Nests template nesting) :
    outline (withoutComments template) = nesting.outline := by
  rw [outline, pieces_loopTag?, nests]
  rfl

/-- A loop over a name that holds other loops is taken as one, up to its own closing tag, exactly
when all loops within it go over names, whatever stands before and behind it. Lenient analysis then
leaves it out with a warning, and its blocks are those of the text before the loop and those of the
text behind it; strict analysis stops at the first obstacle before the loop, or else at the loop. -/
theorem nested_loop_left_out_iff {template : List Char} {front inner back : Nesting} {tag : ForTag}
    {opening closing : List Char}
    (nests : Nests template (front.append (.loop ⟨tag, []⟩ opening inner closing back)))
    (nested : inner.tags ≠ []) :
    let span : LoopSpan := ⟨tag, opening, inner.source, true, closing⟩
    let before := Analysis.ofOutline [] [] front.outline
    let behind := Analysis.ofOutline (front.source ++ span.source) before.placeholders back.outline
    let first := before.obstacle?.getD (tag.collection, .nested)
    (outline (withoutComments template) = front.outline.append (.loop [] span back.outline) ↔
      ∀ tag ∈ inner.tags, tag.fields = []) ∧
    ((∀ tag ∈ inner.tags, tag.fields = []) →
      analyze false template =
        (before.warnings ++ .skippedLoop tag.collection Obstacle.nested.reason :: behind.warnings,
          .ok (before.blocks ++ behind.blocks)) ∧
      analyze true template = ([], .error (.unsupportedPattern first.1 first.2.reason))) := by
  intro span before behind first
  have filled := filled_of_nests nests
  have whole := outline_of_nests nests
  obtain ⟨filledFront, filledLoop⟩ := filled.append
  obtain ⟨_, filledInner, _, filledBack⟩ := filledLoop.loop
  rw [Nesting.outline, Nesting.seen_append, Nesting.outlineOf_seen_append front filledFront] at whole
  have closed := front.closed_outline filledFront
  have taken : outline (withoutComments template) =
      front.outline.append (.loop [] span back.outline) ↔ ∀ tag ∈ inner.tags, tag.fields = [] := by
    rw [← Nesting.outline_loop_iff filledInner nested, whole]
    exact ⟨closed.append_cancel, fun same => congrArg front.outline.append same⟩
  refine ⟨taken, fun plain => ?_⟩
  have analysis : Analysis.ofTemplate template =
      behind.precede (before.findings ++ [.loop ⟨tag.collection, none, some .nested⟩]) := by
    rw [Analysis.ofTemplate, taken.mpr plain, Analysis.ofOutline_append_loop closed,
      List.nil_append, List.append_nil, front.source_outline]
    rfl
  obtain ⟨warnings, blocks, obstacle⟩ :=
    Analysis.leaves_out before behind tag.collection .nested
  have all : (behind.precede (before.findings ++
      [.loop ⟨tag.collection, none, some .nested⟩])).unclosed = none :=
    Analysis.unclosed_of_closed (back.closed_outline filledBack) _ _
  constructor
  · rw [analyze, analysis, if_neg Bool.false_ne_true, warnings, Analysis.lenient, all, ← blocks]
    rfl
  · rw [analyze, analysis, if_pos rfl, Analysis.strict, obstacle]

/-- A loop that holds another one, with a placeholder behind both. -/
theorem nested_loop_left_out_of_rows :
    let template := ("\x7b% for a in xs %\x7d\x7b% for b in ys %\x7d\x7b% endfor %\x7d" ++
      "\x7b% endfor %\x7d\x7b\x7b c \x7d\x7d").toList
    let closing := "\x7b% endfor %\x7d".toList
    let inner : Nesting := .loop ⟨⟨"b", "ys"⟩, []⟩ "\x7b% for b in ys %\x7d".toList .done closing .done
    let back : Nesting := "\x7b\x7b c \x7d\x7d".toList.foldr .char .done
    Nests template (Nesting.append .done
      (.loop ⟨⟨"a", "xs"⟩, []⟩ "\x7b% for a in xs %\x7d".toList inner closing back)) ∧
    inner.tags ≠ [] ∧
    analyze false template = ([.skippedLoop "xs" "nested loops are not supported"],
      .ok [.param ⟨"c", "\x7b\x7b c \x7d\x7d".toList, .identifier⟩]) ∧
    analyze true template =
      ([], .error (.unsupportedPattern "xs" "nested loops are not supported")) := by
  intro template closing inner back
  have nests : Nests template (Nesting.append .done
      (.loop ⟨⟨"a", "xs"⟩, []⟩ "\x7b% for a in xs %\x7d".toList inner closing back)) := by
    rfl
  have nested : inner.tags ≠ [] := List.cons_ne_nil _ _
  obtain ⟨lenient, strict⟩ := (nested_loop_left_out_iff nests nested).2 (by decide)
  exact ⟨nests, nested, lenient, strict⟩

-- a loop over a field is not seen, so that its closing tag ends the loop around it
example : analyze false ("\x7b% for a in xs %\x7d\x7b% for b in a.items %\x7d\x7b\x7b b \x7d\x7d" ++
    "\x7b% endfor %\x7d\x7b\x7b c \x7d\x7d\x7b% endfor %\x7d").toList =
    ([.skippedLoop "xs" "loop body references neither item fields nor the item"],
      .ok [.param ⟨"c", "\x7b\x7b c \x7d\x7d\x7b% endfor %\x7d".toList, .identifier⟩]) := by
  rfl

end Scaffold.Template
