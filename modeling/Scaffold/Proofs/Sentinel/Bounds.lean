import Scaffold.Proofs.Sentinel.LineByLine
import Scaffold.Proofs.Sentinel.Replaced

/-!
The bounds of units. A unit begins with its start sentinel and ends with its end sentinel, and no two units
overlap. Its generated text stands between the two exactly when the start sentinel is over before the end
sentinel begins. That may fail on one line only: what follows the mark of a start sentinel belongs to it, up
to the closer of the comment or the end of the line, and an end sentinel may stand there.
-/

namespace Scaffold.Sentinel

open Text

variable {dialect : Dialect} {text attributes rest : List Char} {path : Option String}
  {opening : Located (List Char)} {closing : Located Unit} {span : Span} {spans : List Span}
  {pairs : List (Located (List Char) × Located Unit)}

/-- A unit reaches from its start sentinel to its end sentinel. Its body begins behind the start sentinel and
ends where the end sentinel begins. -/
structure Span.DelimitedBy (span : Span) (dialect : Dialect) (text : List Char)
    (opening : Located (List Char)) (closing : Located Unit) : Prop where
  begun : opening.At (startMark? dialect) text
  ended : closing.At (endMark? dialect) text
  start : span.start = opening.start
  opened : opening.finish ≤ span.bodyStart
  start_lt : span.start < span.bodyStart ∧ span.start < span.bodyFinish
  bodyFinish : span.bodyFinish = closing.start
  finish : span.finish = closing.finish
  lt_finish : span.bodyFinish < span.finish
  finish_le : span.finish ≤ text.length

/-- A line ends between two offsets of a text. -/
def LineEnds (text : List Char) (start finish : Nat) : Prop :=
  ∃ c ∈ (text.take finish).drop start, isBreak c = true

/-! ### Sentinels on one line -/

theorem isBreak_of_isGap {c : Char} (gap : isGap c = true) : isBreak c = false := by
  simp only [isGap, Bool.or_eq_true, beq_iff_eq] at gap
  rcases gap with rfl | rfl <;> rfl

/-- No line ends within a start sentinel. -/
theorem startMark?_line (unbroken : dialect.Unbroken)
    (found : startMark? dialect text = some (attributes, rest)) :
    ∃ used, text = used ++ rest ∧ ∀ c ∈ used, isBreak c = false := by
  rw [startMark?, Option.bind_eq_some_iff] at found
  obtain ⟨after, marked, found⟩ := found
  obtain ⟨gaps, blank, rfl, _⟩ := (afterMark?_eq_some stem_prefix_startTag).mp marked
  have behind : ∃ used, after = used ++ rest ∧ ∀ c ∈ used, isBreak c = false := by
    by_cases unclosed : dialect.closer.isEmpty = true
    · rw [if_pos unclosed] at found
      cases found
      exact ⟨_, List.takeWhile_append_dropWhile.symm, fun c member => by simpa using List.mem_takeWhile_imp member⟩
    · rw [if_neg unclosed] at found
      obtain ⟨back, rfl, _, ended, line, _⟩ := attributesUntil?_eq_some.mp found
      rw [afterCloser?, afterPrefix?_eq_some] at ended
      refine ⟨attributes ++ (back.takeWhile isGap ++ dialect.closer), ?_, ?_⟩
      · rw [List.append_assoc, List.append_assoc, ← ended, List.takeWhile_append_dropWhile]
      · simp only [List.forall_mem_append]
        exact ⟨line, fun c member => isBreak_of_isGap (List.mem_takeWhile_imp member), unbroken.closer⟩
  obtain ⟨used, rfl, line⟩ := behind
  refine ⟨dialect.opener ++ (gaps ++ (startTag ++ used)), by simp only [List.append_assoc], ?_⟩
  simp only [List.forall_mem_append]
  exact ⟨unbroken.opener, fun c member => isBreak_of_isGap (blank c member),
    List.all_iff_forall_prop.mp (by decide), line⟩

/-- A start sentinel without a closer ends with its line. -/
theorem startMark?_ends (unclosed : dialect.closer = [])
    (found : startMark? dialect text = some (attributes, rest)) : ∀ c ∈ rest.head?, isBreak c = true := by
  rw [startMark?, Option.bind_eq_some_iff] at found
  obtain ⟨after, _, found⟩ := found
  rw [if_pos (List.isEmpty_iff.mpr unclosed)] at found
  cases found
  obtain ⟨_, _, _, stopped⟩ := dropWhile_eq_iff.mp (rfl : after.dropWhile (!isBreak ·) = _)
  exact fun c first => by simpa using stopped c first

/-- A line that ends between the two sentinels ends behind the start sentinel. -/
theorem finish_le_of_lineEnds (unbroken : dialect.Unbroken) (begun : opening.At (startMark? dialect) text)
    (ends : LineEnds text opening.start closing.start) : opening.finish ≤ closing.start := by
  by_contra early
  obtain ⟨c, member, broken⟩ := ends
  obtain ⟨front, used, rest, rfl, _, found, start, finish⟩ := begun
  obtain ⟨same, split, line⟩ := startMark?_line unbroken found
  obtain rfl := List.append_cancel_right split
  rw [start, List.drop_take, List.drop_left, List.take_append_of_le_length (by omega)] at member
  rw [line c (List.mem_of_mem_take member)] at broken
  cases broken

/-- Without a closer, the start sentinel is over only where its line is: the end sentinel cannot follow it
at once. -/
theorem lineEnds_of_finish_le (regular : dialect.Regular) (unbroken : dialect.Unbroken)
    (unclosed : dialect.closer = []) (begun : opening.At (startMark? dialect) text)
    (ended : closing.At (endMark? dialect) text) (ordered : opening.finish ≤ closing.start) :
    LineEnds text opening.start closing.start := by
  obtain ⟨front, used, rest, rfl, _, found, start, finish⟩ := begun
  obtain ⟨before, last, behind, split, _, foundEnd, startEnd, _⟩ := ended
  obtain ⟨_, core, _, _, form⟩ := endMark?_split regular foundEnd
  rw [← List.append_assoc] at split
  obtain ⟨between, rfl⟩ : front ++ used <+: before :=
    List.prefix_of_prefix_length_le (List.prefix_append _ rest) (split ▸ List.prefix_append before _)
      (by rw [List.length_append]; omega)
  rw [List.append_assoc (front ++ used)] at split
  obtain rfl := List.append_cancel_left split
  have stopped := startMark?_ends unclosed found
  cases between with
  | nil =>
    have leads : (last ++ behind).head? = some dialect.lead := by
      rw [form, List.append_assoc, List.head?_append_of_ne_nil _ regular.opener_ne_nil, regular.opener_head]
    have broken := stopped dialect.lead (by rw [List.nil_append, leads]; rfl)
    rw [unbroken.opener _ (List.mem_of_mem_head? regular.opener_head)] at broken
    cases broken
  | cons c between =>
    refine ⟨c, ?_, stopped c rfl⟩
    rw [start, startEnd, ← List.append_assoc, ← List.append_assoc, List.take_left, List.append_assoc, List.drop_left]
    exact List.mem_append_right _ List.mem_cons_self

/-! ### The body of a unit -/

/-- The body begins no later than it ends exactly when the start sentinel is over by then. -/
theorem bodyOffset_le_iff {startFinish endStart : Nat} (within : endStart ≤ text.length) :
    bodyOffset text startFinish endStart ≤ endStart ↔ startFinish ≤ endStart := by
  refine ⟨(le_bodyOffset text startFinish endStart).trans, fun ordered => ?_⟩
  unfold bodyOffset
  simp only
  split
  case isFalse => exact ordered
  case isTrue broken =>
    have inside := List.idxOf_lt_length_of_mem (List.contains_iff_mem.mp broken)
    rw [List.length_drop, List.length_take_of_le within] at inside
    omega

theorem Span.body_eq_nil (crossed : span.bodyFinish ≤ span.bodyStart) : span.body text = [] := by
  have vacant : (text.take span.bodyFinish).drop span.bodyStart = [] :=
    List.drop_eq_nil_of_le ((List.length_take_le _ _).trans crossed)
  rw [body, vacant]
  rfl

/-- Of the two sentinels of a unit the start sentinel comes first. -/
theorem start_lt_of_mem_pairs (regular : dialect.Regular) (paired : marks dialect text = pairMarks pairs)
    {pair : Located (List Char) × Located Unit} (member : pair ∈ pairs) : pair.1.start < pair.2.start := by
  obtain ⟨started, ended⟩ := mem_of_marks_eq paired pair member
  have sorted := marks_pairwise regular text
  rw [paired, pairMarks, List.pairwise_flatMap] at sorted
  have first : pair.1.start ≤ pair.2.start :=
    (List.pairwise_cons.mp (sorted.1 pair member)).1 _ List.mem_cons_self
  have wide := (endMarks_at regular _ ended).start_lt
  by_contra late
  have apart := finish_le_start regular (endMarks_at regular _ ended) (startMarks_at regular _ started)
    (by omega)
  omega

theorem delimitedBy_of_spanOf (here : spanOf text path opening closing = .ok span)
    (begun : opening.At (startMark? dialect) text) (ended : closing.At (endMark? dialect) text)
    (first : opening.start < closing.start) : span.DelimitedBy dialect text opening closing := by
  obtain ⟨_, _, _, rfl⟩ := spanOf_eq_ok.mp here
  exact {
    begun, ended, start := rfl, opened := le_bodyOffset _ _ _
    start_lt := ⟨begun.start_lt.trans_le (le_bodyOffset _ _ _), first⟩
    bodyFinish := rfl, finish := rfl, lt_finish := ended.start_lt, finish_le := ended.finish_le }

theorem InOrder.pairwise {limit offset : Nat} (ordered : InOrder limit offset spans) :
    spans.Pairwise fun one other => one.finish ≤ other.start := by
  induction spans generalizing offset with
  | nil => exact .nil
  | cons span spans ih =>
    obtain ⟨_, _, _, ordered⟩ := ordered
    exact .cons (fun other later => (ordered.bounds other later).1) (ih ordered)

/-- Every unit is delimited by two sentinels of its text and ends no later than the next one starts. Its body
begins no later than it ends exactly when the start sentinel is over before the end sentinel begins, and the
body is empty otherwise. A line that ends between the two is enough for it, and in a dialect of line comments
nothing less is. -/
theorem findSpans_bounds (known : dialect ∈ Dialect.standard) (found : findSpans dialect path text = .ok spans) :
    (∀ span ∈ spans, ∃ opening ∈ startMarks dialect text, ∃ closing ∈ endMarks dialect text,
      span.DelimitedBy dialect text opening closing ∧
        (span.bodyStart ≤ span.bodyFinish ↔ opening.finish ≤ closing.start) ∧
        (span.bodyFinish < span.bodyStart → span.body text = []) ∧
        (LineEnds text span.start span.bodyFinish → span.bodyStart ≤ span.bodyFinish) ∧
        (dialect.closer = [] → span.bodyStart ≤ span.bodyFinish →
          LineEnds text span.start span.bodyFinish)) ∧
      spans.Pairwise fun one other => one.finish ≤ other.start := by
  have regular := Dialect.regular_of_standard known
  have unbroken := Dialect.unbroken_of_standard known
  refine ⟨fun span member => ?_, (findSpans_inOrder regular found).pairwise⟩
  obtain ⟨pairs, paired, spanned⟩ := findSpans_eq_ok.mp found
  obtain ⟨pair, listed, here⟩ := spanned.mem span member
  obtain ⟨started, stopped⟩ := mem_of_marks_eq paired pair listed
  have begun := startMarks_at regular _ started
  have ended := endMarks_at regular _ stopped
  have delimited := delimitedBy_of_spanOf here begun ended (start_lt_of_mem_pairs regular paired listed)
  have parted : span.bodyStart ≤ span.bodyFinish ↔ pair.1.finish ≤ pair.2.start := by
    obtain ⟨_, _, _, rfl⟩ := spanOf_eq_ok.mp here
    exact bodyOffset_le_iff ended.start_lt_length.le
  refine ⟨pair.1, started, pair.2, stopped, delimited, parted, fun crossed => Span.body_eq_nil crossed.le, ?_, ?_⟩
  · intro ends
    rw [delimited.start, delimited.bodyFinish] at ends
    exact parted.mpr (finish_le_of_lineEnds unbroken begun ends)
  · intro unclosed ordered
    rw [delimited.start, delimited.bodyFinish]
    exact lineEnds_of_finish_le regular unbroken unclosed begun ended (parted.mp ordered)

/-- A text whose sentinels stand on one line, so that the start sentinel takes in the end sentinel. -/
def crossedText : List Char :=
  "// @codefactory:start factory=\"x\" // @codefactory:end".toList

theorem findSpans_crossedText : findSpans .slash none crossedText = .ok [⟨"x", none, 0, 53, 53, 34⟩] := by
  cbv

/-- The end sentinel begins before the start sentinel is over, so that the body ends before it begins. -/
theorem findSpans_bounds_of_crossed :
    findSpans .slash none crossedText = .ok [⟨"x", none, 0, 53, 53, 34⟩] ∧
      (∃ opening ∈ startMarks .slash crossedText, ∃ closing ∈ endMarks .slash crossedText,
        (⟨"x", none, 0, 53, 53, 34⟩ : Span).DelimitedBy .slash crossedText opening closing ∧
          closing.start < opening.finish) ∧
      (⟨"x", none, 0, 53, 53, 34⟩ : Span).body crossedText = [] ∧ ¬ LineEnds crossedText 0 34 := by
  have known : Dialect.slash ∈ Dialect.standard := by decide
  obtain ⟨opening, started, closing, ended, delimited, parted, vacant, ends, _⟩ :=
    (findSpans_bounds known findSpans_crossedText).1 _ List.mem_cons_self
  have crossed : ¬ (53 : Nat) ≤ 34 := by decide
  exact ⟨findSpans_crossedText,
    ⟨opening, started, closing, ended, delimited, Nat.lt_of_not_le (mt parted.mpr crossed)⟩,
    vacant (by decide), mt ends crossed⟩

end Scaffold.Sentinel
