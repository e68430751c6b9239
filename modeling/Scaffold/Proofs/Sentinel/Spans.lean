import Mathlib.Data.List.Forall2
import Scaffold.Proofs.Outcome
import Scaffold.Proofs.Sentinel.Marks
import Scaffold.Sentinel.Span

/-!
The units of a text. When the sentinels pair up, the units follow each other without overlap: an end
sentinel is over before the next start sentinel begins.
-/

namespace Scaffold.Sentinel

variable {dialect : Dialect} {text : List Char} {path : Option String}

theorem startMarks_at (regular : dialect.Regular) :
    ∀ mark ∈ startMarks dialect text, mark.At (startMark? dialect) text :=
  locate_at (startMark?_consuming regular) text

theorem endMarks_at (regular : dialect.Regular) :
    ∀ mark ∈ endMarks dialect text, mark.At (endMark? dialect) text :=
  locate_at (endMark?_consuming regular) text

/-- No comment begins inside an end sentinel. -/
theorem finish_le_of_opener (regular : dialect.Regular) {closing : Located Unit} {front more : List Char}
    (ended : closing.At (endMark? dialect) text) (split : text = front ++ (dialect.opener ++ more))
    (order : closing.start < front.length) : closing.finish ≤ front.length := by
  obtain ⟨before, used, rest, split', _, found, start, finish⟩ := ended
  obtain ⟨_, core, filled, plain, form⟩ := endMark?_split regular found
  obtain rfl := List.append_cancel_right form
  rw [split'] at split
  obtain ⟨moved, rfl⟩ : before <+: front :=
    List.prefix_of_prefix_length_le (List.prefix_append _ _) (split ▸ List.prefix_append front _)
      (by omega)
  rw [List.append_assoc before] at split
  have tail := List.append_cancel_left split
  have shifted : moved ≠ [] := by
    rintro rfl
    rw [List.append_nil] at order
    omega
  obtain ⟨middle, behind, _⟩ := regular.opener_apart plain filled shifted tail
  have reaches := congrArg List.length behind
  rw [List.length_append] at reaches ⊢
  omega

/-- No start sentinel begins inside an end sentinel. -/
theorem finish_le_start (regular : dialect.Regular) {closing : Located Unit}
    {opening : Located (List Char)} (ended : closing.At (endMark? dialect) text)
    (started : opening.At (startMark? dialect) text) (order : closing.start ≤ opening.start) :
    closing.finish ≤ opening.start := by
  obtain ⟨front, used, rest, split, _, found, start, _⟩ := started
  obtain ⟨after, tagged, _⟩ := startMark?_split found
  rcases Nat.lt_or_eq_of_le order with later | same
  · obtain ⟨gaps, _, form, _⟩ := (afterMark?_eq_some stem_prefix_startTag).mp tagged
    rw [start]
    exact finish_le_of_opener regular ended (form ▸ split) (start ▸ later)
  · obtain ⟨front', used', rest', split', _, found', start', _⟩ := ended
    obtain ⟨⟨other, tagged'⟩, _⟩ := endMark?_split regular found'
    obtain ⟨rfl, here⟩ := List.append_inj (split'.symm.trans split) (by omega)
    rw [here] at tagged'
    exact absurd tagged' fun tagged' => afterMark?_exclusive tagged tagged'

theorem mem_marks {mark : Mark} :
    mark ∈ marks dialect text ↔
      (∃ opening ∈ startMarks dialect text, .start opening = mark) ∨
        ∃ closing ∈ endMarks dialect text, .finish closing = mark := by
  rw [marks, List.mem_merge, List.mem_map, List.mem_map]

theorem start_mem_marks {opening : Located (List Char)} :
    .start opening ∈ marks dialect text ↔ opening ∈ startMarks dialect text := by
  simp [mem_marks]

theorem finish_mem_marks {closing : Located Unit} :
    .finish closing ∈ marks dialect text ↔ closing ∈ endMarks dialect text := by
  simp [mem_marks]

/-- The sentinels of a text come by their offsets. -/
theorem marks_pairwise (regular : dialect.Regular) (text : List Char) :
    (marks dialect text).Pairwise fun first second => first.offset ≤ second.offset := by
  have starts : ((startMarks dialect text).map Mark.start).Pairwise
      fun first second => first.offset ≤ second.offset := by
    rw [List.pairwise_map]
    refine (locate_pairwise (startMark?_consuming regular) text).imp_of_mem ?_
    intro first second member _ apart
    exact Nat.le_trans (Nat.le_of_lt (startMarks_at regular first member).start_lt) apart
  have finishes : ((endMarks dialect text).map Mark.finish).Pairwise
      fun first second => first.offset ≤ second.offset := by
    rw [List.pairwise_map]
    refine (locate_pairwise (endMark?_consuming regular) text).imp_of_mem ?_
    intro first second member _ apart
    exact Nat.le_trans (Nat.le_of_lt (endMarks_at regular first member).start_lt) apart
  have merged : (marks dialect text).Pairwise
      fun first second => decide (first.offset ≤ second.offset) = true := by
    apply List.pairwise_merge
    · intro a b c one two
      exact decide_eq_true (Nat.le_trans (of_decide_eq_true one) (of_decide_eq_true two))
    · intro a b
      simp only [Bool.or_eq_true, decide_eq_true_eq]
      omega
    · exact starts.imp fun le => decide_eq_true le
    · exact finishes.imp fun le => decide_eq_true le
  exact merged.imp fun le => of_decide_eq_true le

/-- The sentinels of units in turn. -/
def pairMarks (pairs : List (Located (List Char) × Located Unit)) : List Mark :=
  pairs.flatMap fun pair => [.start pair.1, .finish pair.2]

theorem spanOf_eq_ok {opening : Located (List Char)} {closing : Located Unit} {span : Span} :
    spanOf text path opening closing = .ok span ↔
      ∃ generator, attributeValue? "factory" opening.value = some generator ∧ generator ≠ "" ∧
        span = {
          generator, unitId := attributeValue? "id" opening.value, start := opening.start
          finish := closing.finish, bodyStart := bodyOffset text opening.finish closing.start
          bodyFinish := closing.start } := by
  have refused : ∀ id, spanOf.missing path opening id ≠ .ok span := by
    intro id run
    cases id <;> cases run
  unfold spanOf
  cases factory : attributeValue? "factory" opening.value with
  | none =>
    simp only [reduceCtorEq, false_and, exists_false, iff_false]
    exact refused _
  | some generator =>
    simp only [Option.some.injEq]
    by_cases vacant : generator = ""
    · rw [if_pos vacant]
      constructor
      · intro run
        exact absurd run (refused _)
      · rintro ⟨_, rfl, filled, _⟩
        exact absurd vacant filled
    · rw [if_neg vacant]
      constructor
      · intro run
        exact ⟨generator, rfl, vacant, (Except.ok.inj run).symm⟩
      · rintro ⟨_, rfl, _, rfl⟩
        rfl

/-- Each pair of sentinels makes a unit. -/
def Spanned (text : List Char) (path : Option String)
    (pairs : List (Located (List Char) × Located Unit)) (spans : List Span) : Prop :=
  List.Forall₂ (fun pair span => spanOf text path pair.1 pair.2 = .ok span) pairs spans

/-- A text has units when its sentinels are pairs of a start and an end, and each pair makes a unit. -/
theorem spansFrom_eq_ok {marks : List Mark} {spans : List Span} :
    spansFrom text path none marks = .ok spans ↔
      ∃ pairs, marks = pairMarks pairs ∧ Spanned text path pairs spans := by
  constructor
  · intro run
    match marks with
    | [] =>
      cases run
      exact ⟨[], rfl, .nil⟩
    | .finish mark :: rest => cases run
    | [.start opening] => cases run
    | .start opening :: .start mark :: rest => cases run
    | .start opening :: .finish closing :: rest =>
      rw [spansFrom, spansFrom] at run
      obtain ⟨span, here, run⟩ := bind_eq_ok.mp run
      obtain ⟨others, later, same⟩ := bind_eq_ok.mp run
      cases same
      obtain ⟨pairs, rfl, spanned⟩ := spansFrom_eq_ok.mp later
      exact ⟨(opening, closing) :: pairs, rfl, .cons here spanned⟩
  · rintro ⟨pairs, rfl, spanned⟩
    induction spanned with
    | nil => rfl
    | cons here _ ih =>
      exact bind_eq_ok.mpr ⟨_, here, bind_eq_ok.mpr ⟨_, ih, rfl⟩⟩

theorem mem_of_marks_eq {pairs : List (Located (List Char) × Located Unit)}
    (paired : marks dialect text = pairMarks pairs) :
    ∀ pair ∈ pairs, pair.1 ∈ startMarks dialect text ∧ pair.2 ∈ endMarks dialect text := by
  intro pair member
  rw [← start_mem_marks, ← finish_mem_marks, paired]
  exact ⟨List.mem_flatMap.mpr ⟨pair, member, by simp⟩, List.mem_flatMap.mpr ⟨pair, member, by simp⟩⟩

theorem findSpans_eq_ok {spans : List Span} :
    findSpans dialect path text = .ok spans ↔
      ∃ pairs, marks dialect text = pairMarks pairs ∧ Spanned text path pairs spans :=
  spansFrom_eq_ok

theorem Spanned.mem {pairs : List (Located (List Char) × Located Unit)} {spans : List Span}
    (spanned : Spanned text path pairs spans) :
    ∀ span ∈ spans, ∃ pair ∈ pairs, spanOf text path pair.1 pair.2 = .ok span := by
  induction spanned with
  | nil => exact fun span member => nomatch member
  | @cons pair first pairs spans here _ ih =>
    intro span member
    rcases List.mem_cons.mp member with rfl | member
    · exact ⟨pair, List.mem_cons_self, here⟩
    · obtain ⟨other, later, found⟩ := ih span member
      exact ⟨other, List.mem_cons_of_mem _ later, found⟩

/-- Every unit lies between two sentinels of the text. -/
theorem findSpans_mem {spans : List Span} (found : findSpans dialect path text = .ok spans) :
    ∀ span ∈ spans, ∃ opening ∈ startMarks dialect text, ∃ closing ∈ endMarks dialect text,
      spanOf text path opening closing = .ok span := by
  intro span member
  obtain ⟨pairs, paired, spanned⟩ := findSpans_eq_ok.mp found
  obtain ⟨pair, listed, here⟩ := spanned.mem span member
  obtain ⟨started, ended⟩ := mem_of_marks_eq paired pair listed
  exact ⟨pair.1, started, pair.2, ended, here⟩

/-- Every end sentinel of a text with units ends a unit. -/
theorem finish_mem_of_findSpans {spans : List Span}
    (found : findSpans dialect path text = .ok spans) :
    ∀ closing ∈ endMarks dialect text, closing.finish ∈ spans.map Span.finish := by
  intro closing member
  obtain ⟨pairs, paired, spanned⟩ := findSpans_eq_ok.mp found
  rw [← finish_mem_marks, paired] at member
  clear paired found
  induction spanned with
  | nil => cases member
  | @cons pair span pairs spans here _ ih =>
    obtain ⟨_, _, _, rfl⟩ := spanOf_eq_ok.mp here
    rcases List.mem_cons.mp member with impossible | member
    · cases impossible
    rcases List.mem_cons.mp member with same | member
    · cases same
      exact List.mem_cons_self
    · exact List.mem_cons_of_mem _ (ih member)

/-- Spans lie between two offsets, one after the other and without overlap, and each has its body
within it. -/
def InOrder (limit : Nat) : Nat → List Span → Prop
  | offset, [] => offset ≤ limit
  | offset, span :: rest =>
    offset ≤ span.start ∧ span.start < span.finish ∧
      (span.start ≤ span.bodyStart ∧ span.bodyFinish ≤ span.finish) ∧ InOrder limit span.finish rest

theorem le_bodyOffset (text : List Char) (startFinish endStart : Nat) :
    startFinish ≤ bodyOffset text startFinish endStart := by
  unfold bodyOffset
  simp only
  split <;> omega

theorem InOrder.le {limit offset : Nat} {spans : List Span} (ordered : InOrder limit offset spans) :
    offset ≤ limit := by
  induction spans generalizing offset with
  | nil => exact ordered
  | cons span rest ih =>
    obtain ⟨behind, wide, _, ordered⟩ := ordered
    have reached := ih ordered
    omega

theorem inOrder_of_pairs (regular : dialect.Regular)
    {pairs : List (Located (List Char) × Located Unit)} {spans : List Span} {offset : Nat}
    (spanned : Spanned text path pairs spans)
    (starts : ∀ pair ∈ pairs, pair.1.At (startMark? dialect) text)
    (finishes : ∀ pair ∈ pairs, pair.2.At (endMark? dialect) text)
    (sorted : (pairMarks pairs).Pairwise fun first second => first.offset ≤ second.offset)
    (first : ∀ pair ∈ pairs.head?, offset ≤ pair.1.start) (inside : offset ≤ text.length) :
    InOrder text.length offset spans := by
  induction spanned generalizing offset with
  | nil => exact inside
  | @cons pair span pairs spans here _ ih =>
    obtain ⟨generator, _, _, rfl⟩ := spanOf_eq_ok.mp here
    obtain ⟨fromStart, sorted⟩ := List.pairwise_cons.mp sorted
    obtain ⟨fromFinish, sorted⟩ := List.pairwise_cons.mp sorted
    have ended := finishes pair List.mem_cons_self
    have within : pair.1.start ≤ pair.2.start := fromStart _ List.mem_cons_self
    refine ⟨first pair rfl, Nat.lt_of_le_of_lt within ended.start_lt,
      ⟨?_, Nat.le_of_lt ended.start_lt⟩, ?_⟩
    · have opened := (starts pair List.mem_cons_self).start_lt
      exact Nat.le_trans (Nat.le_of_lt opened) (le_bodyOffset _ _ _)
    refine ih (fun other later => starts other (List.mem_cons_of_mem _ later))
      (fun other later => finishes other (List.mem_cons_of_mem _ later)) sorted ?_ ended.finish_le
    intro next follows
    cases pairs with
    | nil => cases follows
    | cons other pairs =>
      cases follows
      exact finish_le_start regular ended (starts _ (List.mem_cons_of_mem _ List.mem_cons_self))
        (fromFinish _ List.mem_cons_self)

/-- The units of a text lie one after the other in it. -/
theorem findSpans_inOrder (regular : dialect.Regular) {spans : List Span}
    (found : findSpans dialect path text = .ok spans) : InOrder text.length 0 spans := by
  obtain ⟨pairs, paired, spanned⟩ := findSpans_eq_ok.mp found
  have listed := mem_of_marks_eq paired
  refine inOrder_of_pairs regular spanned ?_ ?_ (paired ▸ marks_pairwise regular text)
    (fun pair _ => Nat.zero_le _) (Nat.zero_le _)
  · exact fun pair member => startMarks_at regular _ (listed pair member).1
  · exact fun pair member => endMarks_at regular _ (listed pair member).2

/-- The text that a span covers, sentinels included. -/
def Span.source (span : Span) (text : List Char) : List Char :=
  (text.take span.finish).drop span.start

/-- A first text, and then units with the texts that follow them. -/
def weave (first : List Char) (units between : List (List Char)) : List Char :=
  first ++ (List.zipWith (· ++ ·) units between).flatten

theorem weave_cons (first unit filler : List Char) (units between : List (List Char)) :
    weave first (unit :: units) (filler :: between) = first ++ (unit ++ weave filler units between) := by
  simp only [weave, List.zipWith_cons_cons, List.flatten_cons, List.append_assoc]

end Scaffold.Sentinel
