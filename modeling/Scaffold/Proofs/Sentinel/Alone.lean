import Scaffold.Proofs.Sentinel.Written

/-!
A unit that is alone in its text. Its own sentinels are always found, whatever stands between them;
so the text has this unit and no other exactly when no other sentinels are found.
-/

namespace Scaffold.Sentinel

open Text

variable {dialect : Dialect} {draft : Draft} {text back : List Char} {path : Option String}

/-- A start sentinel that begins inside the mark of another one begins with it. -/
theorem start_eq_zero (regular : dialect.Regular) {opening : Located (List Char)}
    (found : opening.At (startMark? dialect) (dialect.opener ++ (' ' :: startTag) ++ back))
    (early : opening.start < (dialect.opener ++ ' ' :: startTag).length) : opening.start = 0 := by
  obtain ⟨front, used, rest, split, _, scanned, start, _⟩ := found
  obtain ⟨after, marked, _⟩ := startMark?_split scanned
  obtain ⟨gaps, _, form, _⟩ := (afterMark?_eq_some stem_prefix_startTag).mp marked
  by_contra later
  have moved : front ≠ [] := by
    rintro rfl
    exact later start
  obtain ⟨middle, reach, _⟩ := regular.opener_apart (regular.lead_not_mem regular.leadStart)
    (List.cons_ne_nil _ _) moved (form ▸ split)
  have lengths := congrArg List.length reach
  rw [List.length_append] at lengths
  omega

theorem text_append (dialect : Dialect) (draft : Draft) (back : List Char) :
    draft.text dialect ++ back =
      draft.opening dialect ++ (draft.inner ++ (dialect.finish ++ back)) := by
  rw [Draft.text_eq, List.append_assoc, List.append_assoc]

/-- The start sentinel of a unit is found at the beginning of its text. -/
theorem opening_mem_startMarks (regular : dialect.Regular) (legible : draft.Legible dialect)
    (back : List Char) :
    ⟨Dialect.attributesOf draft.generator draft.unitId, 0, (draft.opening dialect).length⟩ ∈
      startMarks dialect (draft.text dialect ++ back) := by
  have scanned := Dialect.startMark?_start regular legible.generator legible.unitId
    (inner_ended draft (dialect.finish ++ back))
  have filled := regular.start_ne_nil draft.generator draft.unitId
  have here : Located.At ⟨Dialect.attributesOf draft.generator draft.unitId, 0,
      (draft.opening dialect).length⟩ (startMark? dialect) (draft.text dialect ++ back) :=
    ⟨[], _, _, text_append dialect draft back, filled, scanned, rfl, (Nat.zero_add _).symm⟩
  obtain ⟨mark, member, first, _⟩ := @locate_covers _ _ (startMark?_consuming regular) [] _ _ _
    (List.append_ne_nil_of_left_ne_nil filled _) scanned
  rw [List.nil_append, ← Draft.opening, ← text_append] at member
  rwa [← (startMarks_at regular mark member).eq here (Nat.le_zero.mp first)]

/-- The end sentinel of a unit is found at the end of its text. -/
theorem finish_mem_endMarks (regular : dialect.Regular) (draft : Draft)
    (bounded : Bounded dialect back) :
    ⟨(), (draft.opening dialect).length + draft.inner.length, (draft.text dialect).length⟩ ∈
      endMarks dialect (draft.text dialect ++ back) := by
  have scanned := Dialect.endMark?_finish regular bounded
  have split : draft.text dialect ++ back =
      (draft.opening dialect ++ draft.inner) ++ (dialect.finish ++ back) := by
    rw [text_append, List.append_assoc]
  have here : Located.At ⟨(), (draft.opening dialect).length + draft.inner.length,
      (draft.text dialect).length⟩ (endMark? dialect) (draft.text dialect ++ back) := by
    refine ⟨_, _, _, split, regular.finish_ne_nil, scanned, List.length_append.symm, ?_⟩
    rw [Draft.text_eq, ← List.append_assoc, List.length_append]
  obtain ⟨mark, member, before, behind⟩ := @locate_covers _ _ (endMark?_consuming regular)
    (draft.opening dialect ++ draft.inner) _ _ _
    (List.append_ne_nil_of_left_ne_nil regular.finish_ne_nil _) scanned
  rw [← split] at member
  have found := endMarks_at regular mark member
  have reached : mark.start = (draft.opening dialect ++ draft.inner).length := by
    refine Nat.le_antisymm before (Nat.not_lt.mp fun order => ?_)
    obtain ⟨more, opens⟩ := opener_prefix_finish dialect back
    rw [← opens] at split
    have stopped := finish_le_of_opener regular found split order
    omega
  rwa [← found.eq here (reached.trans List.length_append)]

/-- A text that begins with a unit and has one sentinel of each kind has this unit only. -/
theorem findSpans_alone (regular : dialect.Regular) (legible : draft.Legible dialect)
    (bounded : Bounded dialect back)
    (starts : (startMarks dialect (draft.text dialect ++ back)).length = 1)
    (finishes : (endMarks dialect (draft.text dialect ++ back)).length = 1) (path : Option String) :
    ∃ span, findSpans dialect path (draft.text dialect ++ back) = .ok [span] ∧
      draft.ReadAs dialect (draft.text dialect ++ back) span ∧
      span.start = 0 ∧ span.finish = (draft.text dialect).length := by
  obtain ⟨opening, onlyStart⟩ := List.length_eq_one_iff.mp starts
  obtain ⟨closing, onlyFinish⟩ := List.length_eq_one_iff.mp finishes
  have first := opening_mem_startMarks regular legible back
  have last := finish_mem_endMarks regular draft bounded
  rw [onlyStart, List.mem_singleton] at first
  rw [onlyFinish, List.mem_singleton] at last
  have paired : marks dialect (draft.text dialect ++ back) = pairMarks [(opening, closing)] := by
    rw [marks, onlyStart, onlyFinish, List.map_singleton, List.map_singleton, ← first,
      List.cons_merge_cons_pos _ _ _ (decide_eq_true (Nat.zero_le _))]
    simp [pairMarks]
  obtain ⟨span, here, read⟩ := legible.spanOf_eq_ok path [] back
  simp only [List.nil_append, List.length_nil, Nat.zero_add] at here read
  refine ⟨span, findSpans_eq_ok.mpr ⟨_, paired, .cons ?_ .nil⟩, read, ?_⟩
  · rw [← first, ← last]
    exact here
  · obtain ⟨_, _, _, rfl⟩ := spanOf_eq_ok.mp here
    exact ⟨rfl, rfl⟩

/-- A start sentinel is at least as long as its mark. -/
theorem start_add_le {opening : Located (List Char)} (found : opening.At (startMark? dialect) text) :
    opening.start + startTag.length ≤ text.length := by
  obtain ⟨front, used, rest, rfl, _, scanned, start, _⟩ := found
  obtain ⟨after, marked, _⟩ := startMark?_split scanned
  obtain ⟨gaps, _, form, _⟩ := (afterMark?_eq_some stem_prefix_startTag).mp marked
  rw [form, start]
  simp only [List.length_append]
  omega

theorem InOrder.split {limit offset : Nat} {front back : List Span} {span : Span}
    (ordered : InOrder limit offset (front ++ span :: back)) :
    InOrder span.start offset front ∧ span.start < span.finish ∧ InOrder limit span.finish back := by
  induction front generalizing offset with
  | nil =>
    obtain ⟨behind, wide, _, ordered⟩ := ordered
    exact ⟨behind, wide, ordered⟩
  | cons first front ih =>
    obtain ⟨behind, wide, within, ordered⟩ := ordered
    obtain ⟨before, after⟩ := ih ordered
    exact ⟨⟨behind, wide, within, before⟩, after⟩

/-- Each unit that is found begins with a start sentinel. -/
theorem exists_opening (regular : dialect.Regular) {spans : List Span}
    (found : findSpans dialect path text = .ok spans) {span : Span} (listed : span ∈ spans) :
    ∃ opening : Located (List Char), opening.start = span.start ∧
      opening.At (startMark? dialect) text := by
  obtain ⟨opening, started, _, _, here⟩ := findSpans_mem found span listed
  obtain ⟨_, _, _, rfl⟩ := spanOf_eq_ok.mp here
  exact ⟨opening, rfl, startMarks_at regular opening started⟩

/-- A unit that leaves room for one more character only begins at the start of the text. -/
theorem start_eq_zero_of_length (regular : dialect.Regular) (draft : Draft) {opening : Located (List Char)}
    (started : opening.At (startMark? dialect) (draft.text dialect ++ ['\n'])) (near : opening.start ≤ 1) :
    opening.start = 0 := by
  have form : draft.text dialect ++ ['\n'] = dialect.opener ++ (' ' :: startTag) ++
      (Dialect.attributesOf draft.generator draft.unitId ++ dialect.ending ++
        (draft.inner ++ (dialect.finish ++ ['\n']))) := by
    rw [text_append, Draft.opening, Dialect.start_eq]
    simp only [List.append_assoc, List.cons_append]
  rw [form] at started
  refine start_eq_zero regular started ?_
  have long : startTag.length = 18 := rfl
  rw [List.length_append, List.length_cons]
  omega

/-- When putting a unit in the place of a unit of its text and a line feed changes nothing, the text
has no other units. -/
theorem eq_singleton_of_replaced (regular : dialect.Regular) (draft : Draft) {spans : List Span} {span : Span}
    (found : findSpans dialect path (draft.text dialect ++ ['\n']) = .ok spans) (listed : span ∈ spans)
    (put : (draft.text dialect ++ ['\n']).take span.start ++ draft.text dialect ++
      (draft.text dialect ++ ['\n']).drop span.finish = draft.text dialect ++ ['\n']) :
    spans = [span] := by
  obtain ⟨opening, same, started⟩ := exists_opening regular found listed
  have within {other : Span} (member : other ∈ spans) :
      other.start + startTag.length ≤ (draft.text dialect).length + 1 := by
    obtain ⟨later, equal, begins⟩ := exists_opening regular found member
    rw [← equal]
    exact (start_add_le begins).trans_eq List.length_append
  obtain ⟨front, back, rfl⟩ := List.append_of_mem listed
  obtain ⟨before, wide, after⟩ := (findSpans_inOrder regular found).split
  have ends := after.le
  -- the unit that is put takes up the whole text but one character
  have lengths := congrArg List.length put
  simp only [List.length_append, List.length_take, List.length_drop, List.length_singleton] at lengths ends
  have first : opening.start = 0 := start_eq_zero_of_length regular draft started (by omega)
  have noneBefore : front = [] := by
    cases front with
    | nil => rfl
    | cons other front =>
      obtain ⟨_, wide, _, ordered⟩ := before
      have reached := ordered.le
      omega
  have noneAfter : back = [] := by
    cases back with
    | nil => rfl
    | cons other back =>
      have fits := @within other (by simp)
      have long : startTag.length = 18 := rfl
      have behind : span.finish ≤ other.start := after.1
      omega
  rw [noneBefore, noneAfter, List.nil_append]

/-- A text with one unit has one sentinel of each kind. -/
theorem length_marks_of_singleton {span : Span} (found : findSpans dialect path text = .ok [span]) :
    (startMarks dialect text).length = 1 ∧ (endMarks dialect text).length = 1 := by
  obtain ⟨pairs, paired, spanned⟩ := findSpans_eq_ok.mp found
  obtain ⟨pair, _, _, nothing, rfl⟩ := List.forall₂_cons_right_iff.mp spanned
  obtain rfl := List.forall₂_nil_right_iff.mp nothing
  obtain ⟨opening, closing⟩ := mem_of_marks_eq paired pair List.mem_cons_self
  have counted := congrArg List.length paired
  rw [marks, List.length_merge, List.length_map, List.length_map] at counted
  have some := List.length_pos_of_mem opening
  have others := List.length_pos_of_mem closing
  have two : (pairMarks [pair]).length = 2 := rfl
  omega

/-- A unit that can be found in any text is alone in its own. -/
theorem length_marks_of_clean (regular : dialect.Regular) (clean : draft.Clean dialect) :
    (startMarks dialect (draft.text dialect ++ ['\n'])).length = 1 ∧
      (endMarks dialect (draft.text dialect ++ ['\n'])).length = 1 := by
  have apart : ∀ filler ∈ [['\n']], Free filler ∧ Bounded dialect filler :=
    List.forall_mem_singleton.mpr ⟨by decide, bounded_lineFeed dialect⟩
  have paired : [['\n']].length = [draft].length := rfl
  obtain ⟨spans, found, read⟩ := findSpans_weave regular none paired
    (List.forall_mem_singleton.mpr clean) free_nil apart
  obtain ⟨span, _, _, nothing, rfl⟩ := List.forall₂_cons_left_iff.mp read
  obtain rfl := List.forall₂_nil_left_iff.mp nothing
  have alone : findSpans dialect none (draft.text dialect ++ ['\n']) = .ok [span] := by
    simpa [weave] using found
  exact length_marks_of_singleton alone

end Scaffold.Sentinel
