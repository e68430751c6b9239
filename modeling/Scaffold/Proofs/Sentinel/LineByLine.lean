import Mathlib
import Scaffold.Proofs.Sentinel.Replaced

/-!
Sentinels and lines. No sentinel goes beyond its line; so two texts with a line feed between them have the
sentinels of the first and those of the second, and where these pair up in each text, the units as well.
-/

namespace Scaffold.Sentinel

open Text

variable {α : Type} {scan : Scan α} {dialect : Dialect} {word front back : List Char}

/-! ### Scanners that stay within a line -/

/-- What is recognised before a line feed does not depend on what stands behind it. -/
def WithinLine (scan : Scan α) : Prop :=
  ∀ front back, scan (front ++ '\n' :: back) =
    (scan front).map fun (value, rest) => (value, rest ++ '\n' :: back)

/-- A line feed cuts a text for a scanner that stays within a line. -/
theorem pieces_append_line (consuming : Consuming scan) (within : WithinLine scan) (front back : List Char) :
    pieces scan (front ++ '\n' :: back) = pieces scan front ++ .char '\n' :: pieces scan back := by
  have nothing : scan [] = none := by
    by_contra found
    obtain ⟨⟨value, rest⟩, found⟩ := Option.ne_none_iff_exists'.mp found
    obtain ⟨used, filled, vacant⟩ := consuming [] value rest found
    exact filled (List.append_eq_nil_iff.mp vacant.symm).1
  induction front using scan_induction consuming with
  | nil =>
    have missed := within [] back
    rw [nothing] at missed
    exact pieces_none missed
  | char c rest missed ih =>
    have missedLonger := within (c :: rest) back
    rw [missed, List.cons_append] at missedLonger
    rw [pieces_none missed, List.cons_append, pieces_none missedLonger, ih]
    rfl
  | found used rest value filled found ih =>
    have foundLonger := within (used ++ rest) back
    rw [found, List.append_assoc] at foundLonger
    rw [pieces_some filled found, List.append_assoc, pieces_some filled foundLonger, ih]
    rfl

theorem dropWhile_append_line {p : Char → Bool} (stops : p '\n' = false) :
    (front ++ '\n' :: back).dropWhile p = front.dropWhile p ++ '\n' :: back := by
  induction front with
  | nil => rw [List.nil_append, List.dropWhile_cons_of_neg (by simp [stops])]; rfl
  | cons c rest ih =>
    rw [List.cons_append, List.dropWhile_cons, List.dropWhile_cons, ih]
    split <;> rfl

theorem takeWhile_append_line {p : Char → Bool} (stops : p '\n' = false) :
    (front ++ '\n' :: back).takeWhile p = front.takeWhile p := by
  induction front with
  | nil => rw [List.nil_append, List.takeWhile_cons_of_neg (by simp [stops])]; rfl
  | cons c rest ih => rw [List.cons_append, List.takeWhile_cons, List.takeWhile_cons, ih]

theorem afterPrefix?_append_line (absent : '\n' ∉ word) :
    afterPrefix? word (front ++ '\n' :: back) = (afterPrefix? word front).map (· ++ '\n' :: back) := by
  ext rest
  rw [afterPrefix?_eq_some, Option.map_eq_some_iff]
  constructor
  · intro split
    obtain ⟨more, rfl⟩ := append_cons_split absent split
    rw [List.append_assoc] at split
    exact ⟨more, afterPrefix?_eq_some.mpr rfl, List.append_cancel_left split⟩
  · rintro ⟨more, found, rfl⟩
    rw [afterPrefix?_eq_some.mp found, List.append_assoc]

/-- No line ends within what opens and what closes a comment. -/
structure Dialect.Unbroken (dialect : Dialect) : Prop where
  opener : ∀ c ∈ dialect.opener, isBreak c = false
  closer : ∀ c ∈ dialect.closer, isBreak c = false

theorem Dialect.unbroken_of_standard (known : dialect ∈ standard) : dialect.Unbroken := by
  simp only [standard, List.mem_cons, List.not_mem_nil, or_false] at known
  rcases known with rfl | rfl | rfl | rfl <;>
    exact ⟨List.all_iff_forall_prop.mp (by decide), List.all_iff_forall_prop.mp (by decide)⟩

theorem lineFeed_not_mem (unbroken : ∀ c ∈ word, isBreak c = false) : '\n' ∉ word :=
  fun member => Bool.noConfusion (unbroken _ member)

theorem carriageReturn_not_mem (unbroken : ∀ c ∈ word, isBreak c = false) : '\r' ∉ word :=
  fun member => Bool.noConfusion (unbroken _ member)

theorem afterMark?_append_line (unbroken : dialect.Unbroken) (absent : '\n' ∉ word) :
    afterMark? dialect word (front ++ '\n' :: back) =
      (afterMark? dialect word front).map (· ++ '\n' :: back) := by
  unfold afterMark?
  rw [afterPrefix?_append_line (lineFeed_not_mem unbroken.opener)]
  cases afterPrefix? dialect.opener front with
  | none => rfl
  | some inner =>
    simp only [Option.map_some, Option.bind_eq_bind, Option.bind_some]
    rw [dropWhile_append_line rfl, afterPrefix?_append_line absent]
    cases afterPrefix? word (inner.dropWhile isGap) with
    | none => rfl
    | some rest =>
      cases rest with
      | nil => rfl
      | cons c rest =>
        simp only [Option.map_some, Option.bind_some, List.cons_append]
        split <;> rfl

theorem afterCloser?_append_line (unbroken : dialect.Unbroken) (front back : List Char) :
    afterCloser? dialect (front ++ '\n' :: back) = (afterCloser? dialect front).map (· ++ '\n' :: back) := by
  rw [afterCloser?, dropWhile_append_line rfl, afterPrefix?_append_line (lineFeed_not_mem unbroken.closer)]
  rfl

theorem attributesUntil?_within (unbroken : dialect.Unbroken) (closed : dialect.closer ≠ []) :
    WithinLine (attributesUntil? dialect) := by
  intro front back
  induction front with
  | nil =>
    have nothing : afterCloser? dialect [] = none := by
      obtain ⟨c, closer, same⟩ := List.exists_cons_of_ne_nil closed
      rw [afterCloser?, same]
      rfl
    have missed := afterCloser?_append_line unbroken [] back
    rw [nothing, List.nil_append] at missed
    rw [List.nil_append, attributesUntil?, attributesUntil?, missed]
    rfl
  | cons c rest ih =>
    have longer := afterCloser?_append_line unbroken (c :: rest) back
    rw [List.cons_append] at longer
    rw [List.cons_append, attributesUntil?, attributesUntil?, longer, ih]
    cases afterCloser? dialect (c :: rest) with
    | some after => rfl
    | none =>
      simp only [Option.map_none]
      split
      · rfl
      · rw [Option.map_map, Option.map_map]
        rfl

theorem startMark?_within (unbroken : dialect.Unbroken) : WithinLine (startMark? dialect) := by
  intro front back
  rw [startMark?, afterMark?_append_line unbroken (by decide), startMark?, Option.bind_map, Option.map_bind]
  congr 1
  funext rest
  rw [Function.comp_apply, Function.comp_apply]
  split
  · rw [takeWhile_append_line rfl, dropWhile_append_line rfl]
    rfl
  · next closed => exact attributesUntil?_within unbroken (by simpa using closed) rest back

theorem endMark?_within (unbroken : dialect.Unbroken) : WithinLine (endMark? dialect) := by
  intro front back
  rw [endMark?, afterMark?_append_line unbroken (by decide), endMark?, Option.bind_map, Option.map_bind]
  congr 1
  funext rest
  rw [Function.comp_apply, Function.comp_apply]
  split
  · rfl
  · rw [afterCloser?_append_line unbroken, Option.map_map, Option.map_map]
    rfl

/-! ### Sentinels of two texts -/

/-- Something found, when the text before it has grown. -/
def Located.moved (mark : Located α) (distance : Nat) : Located α :=
  ⟨mark.value, mark.start + distance, mark.finish + distance⟩

/-- A sentinel, when the text before it has grown. -/
def Mark.moved (distance : Nat) : Mark → Mark
  | .start mark => .start (mark.moved distance)
  | .finish mark => .finish (mark.moved distance)

theorem Mark.offset_moved (distance : Nat) (mark : Mark) : (mark.moved distance).offset = mark.offset + distance := by
  cases mark <;> rfl

theorem locatedFrom_append (offset : Nat) (pieces others : List (Piece α)) :
    locatedFrom offset (pieces ++ others) =
      locatedFrom offset pieces ++ locatedFrom (offset + (pieces.flatMap Piece.source).length) others := by
  induction pieces generalizing offset with
  | nil => rfl
  | cons piece rest ih =>
    cases piece with
    | char c =>
      rw [List.cons_append, locatedFrom, locatedFrom, ih, List.flatMap_cons, List.length_append, Nat.add_assoc]
      rfl
    | found value source =>
      rw [List.cons_append, locatedFrom, locatedFrom, ih, List.flatMap_cons, List.length_append, Nat.add_assoc]
      rfl

theorem locatedFrom_moved (offset distance : Nat) (pieces : List (Piece α)) :
    locatedFrom (offset + distance) pieces = (locatedFrom offset pieces).map (·.moved distance) := by
  induction pieces generalizing offset with
  | nil => rfl
  | cons piece rest ih =>
    cases piece with
    | char c => rw [locatedFrom, locatedFrom, ← ih, Nat.add_right_comm]
    | found value source =>
      rw [locatedFrom, locatedFrom, List.map_cons, ← ih, Nat.add_right_comm]
      rfl

theorem locate_append_line (consuming : Consuming scan) (within : WithinLine scan) (front back : List Char) :
    locate scan (front ++ '\n' :: back) =
      locate scan front ++ (locate scan back).map (·.moved (front.length + 1)) := by
  unfold locate
  rw [pieces_append_line consuming within, locatedFrom_append, pieces_source, locatedFrom, ← locatedFrom_moved,
    Nat.add_assoc]

section Merging

variable {le : α → α → Bool} {firsts lasts others behind : List α}

theorem merge_append_left (before : ∀ one ∈ firsts, ∀ other ∈ behind, le one other = true) :
    (firsts ++ lasts).merge behind le = firsts ++ lasts.merge behind le := by
  cases behind with
  | nil => rw [List.merge_right, List.merge_right]
  | cons other behind =>
    induction firsts with
    | nil => rfl
    | cons first firsts ih =>
      obtain ⟨here, later⟩ := List.forall_mem_cons.mp before
      rw [List.cons_append, List.cons_merge_cons_pos le _ _ (here other List.mem_cons_self), ih later]
      rfl

theorem merge_append_right (after : ∀ one ∈ lasts, ∀ other ∈ others, le one other = false) :
    lasts.merge (others ++ behind) le = others ++ lasts.merge behind le := by
  cases lasts with
  | nil => rw [List.nil_merge, List.nil_merge]
  | cons last lasts =>
    induction others with
    | nil => rfl
    | cons other others ih =>
      have apart := after last List.mem_cons_self other List.mem_cons_self
      rw [List.cons_append, List.cons_merge_cons_neg le _ _ (Bool.eq_false_iff.mp apart),
        ih fun one listed another more => after one listed another (List.mem_cons_of_mem _ more)]
      rfl

/-- Where all of two lists comes before all of two others, they are merged apart. -/
theorem merge_append (before : ∀ one ∈ firsts, ∀ other ∈ behind, le one other = true)
    (after : ∀ one ∈ lasts, ∀ other ∈ others, le one other = false) :
    (firsts ++ lasts).merge (others ++ behind) le = firsts.merge others le ++ lasts.merge behind le := by
  induction firsts generalizing others with
  | nil => rw [List.nil_append, List.nil_merge, merge_append_right after]
  | cons first firsts ih =>
    obtain ⟨_, later⟩ := List.forall_mem_cons.mp before
    induction others with
    | nil => rw [List.nil_append, List.merge_right, merge_append_left before]
    | cons other others ihOthers =>
      rw [List.cons_append, List.cons_append, List.cons_merge_cons, List.cons_merge_cons]
      split
      · have rest := ih later after
        rw [List.cons_append] at rest
        rw [rest, List.cons_append]
      · have rest := ihOthers fun one listed another more =>
          after one listed another (List.mem_cons_of_mem _ more)
        rw [List.cons_append] at rest
        rw [rest, List.cons_append]

end Merging

/-- Moved sentinels are merged as they were. -/
theorem merge_moved (starts : List (Located (List Char))) (ends : List (Located Unit)) (distance : Nat) :
    ((starts.map (·.moved distance)).map Mark.start).merge ((ends.map (·.moved distance)).map Mark.finish)
        (fun first second => first.offset ≤ second.offset) =
      ((starts.map Mark.start).merge (ends.map Mark.finish)
        fun first second => first.offset ≤ second.offset).map (Mark.moved distance) := by
  have same (one other : Mark) : decide (one.offset ≤ other.offset) =
      decide ((one.moved distance).offset ≤ (other.moved distance).offset) := by
    rw [decide_eq_decide, Mark.offset_moved, Mark.offset_moved, Nat.add_le_add_iff_right]
  have merged := @List.map_merge _ _ (Mark.moved distance) (fun first second => first.offset ≤ second.offset)
    (fun first second => first.offset ≤ second.offset) (starts.map .start) (ends.map .finish)
    fun one _ other _ => same one other
  rw [merged, List.map_map, List.map_map, List.map_map, List.map_map]
  rfl

/-- The sentinels of two texts with a line feed between them are those of both. -/
theorem marks_append_line (known : dialect ∈ Dialect.standard) (front back : List Char) :
    marks dialect (front ++ '\n' :: back) =
      marks dialect front ++ (marks dialect back).map (Mark.moved (front.length + 1)) := by
  have regular := Dialect.regular_of_standard known
  have unbroken := Dialect.unbroken_of_standard known
  rw [marks, startMarks, endMarks, locate_append_line (startMark?_consuming regular) (startMark?_within unbroken),
    locate_append_line (endMark?_consuming regular) (endMark?_within unbroken), List.map_append, List.map_append,
    merge_append, merge_moved]
  · rfl
  · intro one first other second
    obtain ⟨mark, listed, rfl⟩ := List.mem_map.mp first
    obtain ⟨_, moved, rfl⟩ := List.mem_map.mp second
    obtain ⟨_, _, rfl⟩ := List.mem_map.mp moved
    have here := (startMarks_at regular mark listed).start_lt_length
    refine decide_eq_true ?_
    simp only [Mark.offset, Located.moved]
    omega
  · intro one first other second
    obtain ⟨_, moved, rfl⟩ := List.mem_map.mp first
    obtain ⟨_, _, rfl⟩ := List.mem_map.mp moved
    obtain ⟨mark, listed, rfl⟩ := List.mem_map.mp second
    have here := (endMarks_at regular mark listed).start_lt_length
    refine decide_eq_false ?_
    simp only [Mark.offset, Located.moved]
    omega

/-! ### Units of two texts -/

variable {path : Option String} {opening : Located (List Char)} {closing : Located Unit} {span : Span}

theorem bodyOffset_append (startFinish : Nat) {endStart : Nat} (within : endStart ≤ front.length)
    (back : List Char) : bodyOffset (front ++ back) startFinish endStart = bodyOffset front startFinish endStart := by
  rw [bodyOffset, List.take_append_of_le_length within, bodyOffset]

theorem bodyOffset_moved (front back : List Char) (startFinish endStart : Nat) :
    bodyOffset (front ++ back) (startFinish + front.length) (endStart + front.length) =
      bodyOffset back startFinish endStart + front.length := by
  have between : ((front ++ back).take (endStart + front.length)).drop (startFinish + front.length) =
      (back.take endStart).drop startFinish := by
    rw [Nat.add_comm endStart, Nat.add_comm startFinish, List.take_length_add_append,
      List.drop_length_add_append]
  simp only [bodyOffset, between]
  split <;> omega

/-- A unit is the same with more text behind it. -/
theorem spanOf_append (here : spanOf front path opening closing = .ok span)
    (within : closing.start ≤ front.length) (back : List Char) :
    spanOf (front ++ back) path opening closing = .ok span := by
  obtain ⟨generator, given, filled, rfl⟩ := spanOf_eq_ok.mp here
  exact spanOf_eq_ok.mpr ⟨generator, given, filled, by rw [bodyOffset_append _ within]⟩

/-- A unit is moved with its sentinels. -/
theorem spanOf_moved (here : spanOf back path opening closing = .ok span) (front : List Char) :
    spanOf (front ++ back) path (opening.moved front.length) (closing.moved front.length) =
      .ok (span.moved 0 front.length) := by
  obtain ⟨generator, given, filled, rfl⟩ := spanOf_eq_ok.mp here
  refine spanOf_eq_ok.mpr ⟨generator, given, filled, ?_⟩
  simp only [Span.moved, Located.moved, Nat.sub_zero, bodyOffset_moved]

theorem Span.body_append (within : span.bodyFinish ≤ front.length) (back : List Char) :
    span.body (front ++ back) = span.body front := by
  rw [body, List.take_append_of_le_length within, body]

theorem Span.body_moved (span : Span) (front back : List Char) :
    (span.moved 0 front.length).body (front ++ back) = span.body back := by
  simp only [body, moved, Nat.sub_zero]
  rw [Nat.add_comm span.bodyFinish, Nat.add_comm span.bodyStart, List.take_length_add_append,
    List.drop_length_add_append]

theorem pairMarks_moved (pairs : List (Located (List Char) × Located Unit)) (distance : Nat) :
    pairMarks (pairs.map fun pair => (pair.1.moved distance, pair.2.moved distance)) =
      (pairMarks pairs).map (Mark.moved distance) := by
  rw [pairMarks, List.flatMap_map, pairMarks, List.map_flatMap]
  rfl

section Spanned

variable {pairs : List (Located (List Char) × Located Unit)} {spans : List Span}

theorem Spanned.append (spanned : Spanned front path pairs spans)
    (within : ∀ pair ∈ pairs, pair.2.start ≤ front.length) (back : List Char) :
    Spanned (front ++ back) path pairs spans := by
  have both := (List.forall₂_and_left pairs spans).mpr ⟨within, spanned⟩
  exact both.imp fun _ _ ⟨inside, here⟩ => spanOf_append here inside back

theorem Spanned.moved (spanned : Spanned back path pairs spans) (front : List Char) :
    Spanned (front ++ back) path
      (pairs.map fun pair => (pair.1.moved front.length, pair.2.moved front.length))
      (spans.map (·.moved 0 front.length)) := by
  rw [Spanned, List.forall₂_map_left_iff, List.forall₂_map_right_iff]
  exact List.Forall₂.imp (fun _ _ here => spanOf_moved here front) spanned

end Spanned

/-- Two texts with a line feed between them have the units of the first and, moved by what stands before
them, those of the second. -/
theorem findSpans_append_line (known : dialect ∈ Dialect.standard) {spans others : List Span}
    (found : findSpans dialect path front = .ok spans) (foundOthers : findSpans dialect path back = .ok others) :
    findSpans dialect path (front ++ '\n' :: back) = .ok (spans ++ others.map (·.moved 0 (front.length + 1))) ∧
      (∀ span ∈ spans, span.body (front ++ '\n' :: back) = span.body front) ∧
      ∀ span ∈ others, (span.moved 0 (front.length + 1)).body (front ++ '\n' :: back) = span.body back := by
  have regular := Dialect.regular_of_standard known
  have regroup : front ++ '\n' :: back = (front ++ ['\n']) ++ back := by simp
  have reach : (front ++ ['\n']).length = front.length + 1 := List.length_append
  obtain ⟨pairs, paired, spanned⟩ := findSpans_eq_ok.mp found
  obtain ⟨otherPairs, pairedOthers, spannedOthers⟩ := findSpans_eq_ok.mp foundOthers
  refine ⟨findSpans_eq_ok.mpr ⟨pairs ++ otherPairs.map fun pair =>
    (pair.1.moved (front.length + 1), pair.2.moved (front.length + 1)), ?_, ?_⟩, ?_, ?_⟩
  · rw [marks_append_line known, paired, pairedOthers, ← pairMarks_moved]
    exact List.flatMap_append.symm
  · have moved := spannedOthers.moved (front ++ ['\n'])
    rw [reach, ← regroup] at moved
    refine List.rel_append (spanned.append (fun pair listed => ?_) _) moved
    exact (endMarks_at regular pair.2 (mem_of_marks_eq paired pair listed).2).start_lt_length.le
  · intro span listed
    obtain ⟨opening, _, closing, ended, here⟩ := findSpans_mem found span listed
    obtain ⟨_, _, _, rfl⟩ := spanOf_eq_ok.mp here
    exact Span.body_append (endMarks_at regular closing ended).start_lt_length.le _
  · intro span _
    have same := span.body_moved (front ++ ['\n']) back
    rwa [reach, ← regroup] at same

/-- A text whose lines end in two characters, up to its unit at the end. -/
def returnsText : List Char :=
  "// @codefactory:start factory=\"x\"\r\none\r\n// @codefactory:end".toList

/-- A text with a unit between blanks and a carriage return; it has no body. -/
def blanksText : List Char :=
  "  // @codefactory:start factory=\"y\" id=\"z\"\n// @codefactory:end \r".toList

theorem findSpans_returnsText : findSpans .slash none returnsText = .ok [⟨"x", none, 0, 59, 35, 40⟩] := by
  cbv

theorem findSpans_blanksText : findSpans .slash none blanksText = .ok [⟨"y", some "z", 2, 62, 43, 43⟩] := by
  cbv

/-- No line feed ends the first text, and the second one begins behind one. -/
theorem findSpans_append_line_of_returns :
    findSpans .slash none returnsText = .ok [⟨"x", none, 0, 59, 35, 40⟩] ∧
      findSpans .slash none blanksText = .ok [⟨"y", some "z", 2, 62, 43, 43⟩] ∧
      findSpans .slash none (returnsText ++ '\n' :: blanksText) =
        .ok [⟨"x", none, 0, 59, 35, 40⟩, ⟨"y", some "z", 62, 122, 103, 103⟩] ∧
      (⟨"x", none, 0, 59, 35, 40⟩ : Span).body (returnsText ++ '\n' :: blanksText) = "one".toList := by
  have known : Dialect.slash ∈ Dialect.standard := by decide
  obtain ⟨both, bodies, _⟩ := findSpans_append_line known findSpans_returnsText findSpans_blanksText
  exact ⟨findSpans_returnsText, findSpans_blanksText, both,
    (bodies _ List.mem_cons_self).trans (by decide +kernel)⟩

end Scaffold.Sentinel
