import Scaffold.Proofs.Template.Outline
import Scaffold.Proofs.Text.Braces

/-!
The block that encloses a scalar loop. It is opened by the last header before the loop whose brace is
still open there, braces being matched as brackets. The analysis looks at the last header alone, and
only counts braces. Main statement: when the two agree, and what the analysis takes for the container
when they do not.
-/

namespace Scaffold.Template

open Text

/-- The lines after a header leave its block open: expressions and tags left out, they close no brace
that they have not opened. -/
def staysOpen (between : List (List Char)) : Bool :=
  (openBraces 0 (eraseAll markup? (joinWith ['\n'] between))).isSome

/-- The header of the innermost block that is open behind lines, the latest line first; the second
argument holds the lines after them. -/
def enclosingFrom : List (List Char) → List (List Char) → Option (List Char)
  | [], _ => none
  | line :: earlier, between =>
    if isContainerHeader (trim line) && staysOpen between then some (trim line)
    else enclosingFrom earlier (line :: between)

/-- The header of the innermost block for properties that is open at the end of a text. -/
def enclosing? (preceding : List Char) : Option (List Char) :=
  enclosingFrom (lines preceding).reverse []

variable {line header found : List Char} {between earlier later : List (List Char)}
  {preceding : List Char}

/-- A block that stays open is not closed more often than opened. -/
theorem closesMore_eq_false (stays : staysOpen between = true) : closesMore between = false := by
  obtain ⟨depth, matched⟩ := Option.isSome_iff_exists.mp stays
  have counted := count_of_openBraces matched
  exact decide_eq_false (by omega)

/-! ### What encloses -/

theorem enclosingFrom_append (none : ∀ line ∈ later, isContainerHeader (trim line) = false)
    (earlier between : List (List Char)) :
    enclosingFrom (later ++ earlier) between = enclosingFrom earlier (later.reverse ++ between) := by
  induction later generalizing between with
  | nil => rfl
  | cons line later ih =>
    obtain ⟨plain, none⟩ := List.forall_mem_cons.mp none
    rw [List.cons_append, enclosingFrom, plain, Bool.false_and, if_neg Bool.false_ne_true, ih none,
      List.reverse_cons, List.append_assoc]
    rfl

theorem enclosingFrom_eq_some : enclosingFrom earlier between = some found ↔
    ∃ outer header inner, earlier = inner ++ header :: outer ∧ isContainerHeader (trim header) ∧
      staysOpen (inner.reverse ++ between) ∧ found = trim header ∧
      ∀ front line back, inner = front ++ line :: back → isContainerHeader (trim line) →
        staysOpen (front.reverse ++ between) = false := by
  induction earlier generalizing between with
  | nil => simp [enclosingFrom]
  | cons line earlier ih =>
    rw [enclosingFrom]
    cases here : isContainerHeader (trim line) && staysOpen between with
    | true =>
      -- the nearest line is the one that is found
      obtain ⟨opens, stays⟩ := Bool.and_eq_true_iff.mp here
      rw [if_pos rfl]
      constructor
      · intro same
        refine ⟨earlier, line, [], rfl, opens, stays, (Option.some.inj same).symm, ?_⟩
        simp
      · rintro ⟨outer, header, _ | ⟨first, inner⟩, split, _, _, rfl, closed⟩
        · obtain ⟨rfl, rfl⟩ := List.cons.inj split
          rfl
        · obtain ⟨rfl, rfl⟩ := List.cons.inj split
          have := closed [] line inner rfl opens
          rw [List.reverse_nil, List.nil_append, stays] at this
          cases this
    | false =>
      -- the nearest line is passed, and stands between the lines before it and the loop
      rw [if_neg Bool.false_ne_true, ih]
      constructor
      · rintro ⟨outer, header, inner, rfl, opens, stays, rfl, closed⟩
        refine ⟨outer, header, line :: inner, rfl, opens, by simpa using stays, rfl, ?_⟩
        rintro (_ | ⟨first, front⟩) last back split opens'
        · obtain ⟨rfl, rfl⟩ := List.cons.inj split
          simpa [opens'] using here
        · obtain ⟨rfl, rfl⟩ := List.cons.inj split
          simpa using closed front last back rfl opens'
      · rintro ⟨outer, header, _ | ⟨first, inner⟩, split, opens, stays, rfl, closed⟩
        · obtain ⟨rfl, rfl⟩ := List.cons.inj split
          rw [opens, Bool.true_and] at here
          rw [List.reverse_nil, List.nil_append, here] at stays
          cases stays
        · obtain ⟨rfl, rfl⟩ := List.cons.inj split
          refine ⟨outer, header, inner, rfl, opens, by simpa using stays, rfl, ?_⟩
          intro front last back split opens'
          have := closed (line :: front) last back (by rw [split]; rfl) opens'
          simpa using this

/-- The enclosing header is the last one whose block stays open. -/
theorem enclosing?_eq_some : enclosing? preceding = some found ↔
    ∃ outer header inner, lines preceding = outer ++ header :: inner ∧
      isContainerHeader (trim header) ∧ staysOpen inner ∧ found = trim header ∧
      ∀ front line back, inner = front ++ line :: back → isContainerHeader (trim line) →
        staysOpen back = false := by
  rw [enclosing?, enclosingFrom_eq_some]
  constructor
  · rintro ⟨outer, header, inner, split, opens, stays, rfl, closed⟩
    refine ⟨outer.reverse, header, inner.reverse, ?_, opens, by simpa using stays, rfl, ?_⟩
    · rw [← List.reverse_inj, split]
      simp
    · intro front line back split opens'
      have := closed back.reverse line front.reverse (by rw [← List.reverse_inj, split]; simp) opens'
      simpa using this
  · rintro ⟨outer, header, inner, split, opens, stays, rfl, closed⟩
    refine ⟨outer.reverse, header, inner.reverse, ?_, opens, by simpa using stays, rfl, ?_⟩
    · rw [split]
      simp
    · intro front line back split opens'
      have := closed back.reverse line front.reverse (by rw [← List.reverse_inj, split]; simp) opens'
      simpa using this

/-! ### What the analysis takes -/

theorem containerFrom_append (none : ∀ line ∈ later, isContainerHeader (trim line) = false)
    (earlier between : List (List Char)) :
    containerFrom (later ++ earlier) between = containerFrom earlier (later.reverse ++ between) := by
  induction later generalizing between with
  | nil => rfl
  | cons line later ih =>
    obtain ⟨plain, none⟩ := List.forall_mem_cons.mp none
    rw [List.cons_append, containerFrom, plain, if_neg Bool.false_ne_true, ih none,
      List.reverse_cons, List.append_assoc]
    rfl

/-- What encloses the end of a text, read off at its last header. -/
theorem enclosing?_last (split : lines preceding = earlier ++ header :: between)
    (opens : isContainerHeader (trim header) = true)
    (last : ∀ line ∈ between, isContainerHeader (trim line) = false) :
    enclosing? preceding =
      if staysOpen between then some (trim header)
      else enclosingFrom earlier.reverse (header :: between) := by
  have reversed : (lines preceding).reverse = between.reverse ++ header :: earlier.reverse := by
    simp [split]
  rw [enclosing?, reversed, enclosingFrom_append (by simpa using last), List.reverse_reverse,
    List.append_nil, enclosingFrom, opens, Bool.true_and]

/-- The analysis looks at the last header alone. -/
theorem container?_last (split : lines preceding = earlier ++ header :: between)
    (opens : isContainerHeader (trim header) = true)
    (last : ∀ line ∈ between, isContainerHeader (trim line) = false) :
    container? preceding = if closesMore between then none else some (trim header) := by
  have reversed : (lines preceding).reverse = between.reverse ++ header :: earlier.reverse := by
    simp [split]
  rw [container?, reversed, containerFrom_append (by simpa using last), List.reverse_reverse,
    List.append_nil, containerFrom, if_pos opens]

/-- Without a header there is no container. -/
theorem container?_none (plain : ∀ line ∈ lines preceding, isContainerHeader (trim line) = false) :
    container? preceding = none ∧ enclosing? preceding = none := by
  have plain : ∀ line ∈ (lines preceding).reverse, isContainerHeader (trim line) = false := by
    simpa using plain
  have nothing := containerFrom_append plain [] []
  have nothing' := enclosingFrom_append plain [] []
  rw [List.append_nil] at nothing nothing'
  exact ⟨nothing, nothing'⟩

/-- The block of a loop that writes out its items as they are. -/
def scalarBlock (preceding : List Char) (span : LoopSpan) : LoopBlock where
  name := span.tag.collection
  body := trim span.inner
  item := span.tag.item
  scalar := true
  container := container? preceding

theorem readLoop_scalar {span : LoopSpan} (flat : span.nested = false)
    (fieldless : fieldsUsed span.tag.item (trim span.inner) = [])
    (written : findAll (itemReference? span.tag.item) (trim span.inner) ≠ [])
    (preceding : List Char) :
    readLoop preceding span = ⟨span.tag.collection, some (scalarBlock preceding span),
      if (container? preceding).isNone then some .noContainer else none⟩ := by
  have written : (findAll (itemReference? span.tag.item) (trim span.inner)).isEmpty = false := by
    simpa using written
  simp only [readLoop, flat, fieldless, written]
  rfl

/-- A loop that stands between closed outlines and writes out its items as they are. -/
structure ScalarLoop (template : List Char) (front : Outline) (span : LoopSpan) (rest : Outline) :
    Prop where
  cut : outline (withoutComments template) = front.append (.loop [] span rest)
  closed : front.Closed
  flat : span.nested = false
  fieldless : fieldsUsed span.tag.item (trim span.inner) = []
  written : findAll (itemReference? span.tag.item) (trim span.inner) ≠ []

variable {template : List Char} {front rest : Outline} {span : LoopSpan}

/-- The analysis finds a block for each scalar loop. Its container is the header of the innermost
block that is open before the loop, when the block of the last header stays open. When that is closed,
the analysis has no container if more braces are closed than opened behind the header, and the closed
block if braces are opened again; it is right only if the blocks further out give the same. -/
theorem container_encloses_iff (loop : ScalarLoop template front span rest) :
    ∃ block obstacle behind,
      (Analysis.ofTemplate template).findings = (Analysis.ofOutline [] [] front).findings ++
        .loop ⟨span.tag.collection, some block, obstacle⟩ :: behind ∧
      block.scalar = true ∧
      ((∀ line ∈ lines front.source, isContainerHeader (trim line) = false) →
        block.container = none ∧ enclosing? front.source = none) ∧
      ∀ outer header between, lines front.source = outer ++ header :: between →
        isContainerHeader (trim header) = true →
        (∀ line ∈ between, isContainerHeader (trim line) = false) →
        block.container = (if closesMore between then none else some (trim header)) ∧
        (block.container = enclosing? front.source ↔
          staysOpen between = true ∨
            enclosingFrom outer.reverse (header :: between) = block.container) := by
  have read := readLoop_scalar loop.flat loop.fieldless loop.written front.source
  have findings : ∃ behind, (Analysis.ofTemplate template).findings =
      (Analysis.ofOutline [] [] front).findings ++
        .loop (readLoop front.source span) :: behind := by
    rw [Analysis.ofTemplate, loop.cut, Analysis.ofOutline_append_loop loop.closed, List.nil_append]
    exact ⟨_, List.append_assoc _ _ _⟩
  obtain ⟨behind, findings⟩ := findings
  rw [read] at findings
  refine ⟨_, _, behind, findings, rfl, container?_none, ?_⟩
  intro outer header between split opens last
  have taken : (scalarBlock front.source span).container = _ := container?_last split opens last
  refine ⟨taken, ?_⟩
  rw [enclosing?_last split opens last]
  cases stays : staysOpen between with
  | true => simp [taken, closesMore_eq_false stays]
  | false => simpa using eq_comm

/-- A block that is closed before the loop, inside one that is not. -/
theorem container_encloses_of_inner_block :
    let head := "interface AProps \x7b\n  b: interface BProps \x7b\n  \x7d\n".toList
    let opening := "\x7b% for p in ps %\x7d".toList
    let inner := "\n  \x7b\x7b p \x7d\x7d;\n".toList
    let closing := "\x7b% endfor %\x7d".toList
    let rest := "\n\x7d".toList
    let span : LoopSpan := ⟨⟨"p", "ps"⟩, opening, inner, false, closing⟩
    let template := head ++ opening ++ inner ++ closing ++ rest
    ScalarLoop template (.done head) span (.done rest) ∧
    enclosing? head = some "interface AProps \x7b".toList ∧
    ∃ block obstacle behind,
      (Analysis.ofTemplate template).findings =
        .loop ⟨"ps", some block, obstacle⟩ :: behind ∧ block.container = none := by
  intro head opening inner closing rest span template
  have loop : ScalarLoop template (.done head) span (.done rest) :=
    ⟨by rfl, trivial, rfl, by decide, by decide⟩
  obtain ⟨block, obstacle, behind, findings, _, _, taken⟩ := container_encloses_iff loop
  obtain ⟨container, _⟩ := taken ["interface AProps \x7b".toList] "  b: interface BProps \x7b".toList
    ["  \x7d".toList, []] (by decide) (by decide) (by decide)
  exact ⟨loop, by decide, block, obstacle, behind, findings, container⟩

end Scaffold.Template
