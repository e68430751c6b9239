import Scaffold.Proofs.Sentinel.Attributes
import Scaffold.Proofs.Sentinel.Free
import Scaffold.Proofs.Sentinel.Spans

/-!
Texts with written units. Where marks stand in sentinels only, the sentinels that are found in such a
text are those that were written, and its units are the written ones.
-/

namespace Scaffold.Sentinel

open Text

variable {dialect : Dialect} {tag front back : List Char}

/-- A unit that is to be written. -/
structure Draft where
  generator : String
  unitId : Option String
  body : List Char

namespace Draft

/-- The text of a unit. -/
def text (dialect : Dialect) (draft : Draft) : List Char :=
  dialect.wrap draft.body draft.generator draft.unitId

/-- The start sentinel of a unit. -/
def opening (dialect : Dialect) (draft : Draft) : List Char :=
  dialect.start draft.generator draft.unitId

/-- What stands between the sentinels of a unit. -/
def inner (draft : Draft) : List Char :=
  '\n' :: (dropRightWhile (· == '\n') draft.body ++ ['\n'])

theorem text_eq (dialect : Dialect) (draft : Draft) :
    draft.text dialect = draft.opening dialect ++ (draft.inner ++ dialect.finish) := by
  simp [text, Dialect.wrap, inner, opening]

/-- A unit whose names its sentinel can hold. -/
structure Legible (dialect : Dialect) (draft : Draft) : Prop where
  named : draft.generator ≠ ""
  generator : dialect.Quotable draft.generator
  unitId : ∀ id ∈ draft.unitId, dialect.Quotable id

/-- A unit that can be found once it is written: its sentinel can hold its names, and no mark stands
in the names or in the body. -/
structure Clean (dialect : Dialect) (draft : Draft) : Prop where
  named : draft.generator ≠ ""
  generator : dialect.Quotable draft.generator
  unitId : ∀ id ∈ draft.unitId, dialect.Quotable id
  freeGenerator : Free draft.generator.toList
  freeUnitId : ∀ id ∈ draft.unitId, Free id.toList
  freeBody : Free draft.body

end Draft

/-- No word comes right behind a comment that has no closer. -/
def Bounded (dialect : Dialect) (filler : List Char) : Prop :=
  dialect.closer = [] → ∀ c ∈ filler.head?, isWord c = false

theorem bounded_lineFeed (dialect : Dialect) : Bounded dialect ['\n'] := by
  rintro _ c ⟨⟩
  decide

theorem dropRightWhile_prefix_self (p : Char → Bool) (text : List Char) : dropRightWhile p text <+: text := by
  rw [dropRightWhile, ← List.reverse_suffix, List.reverse_reverse]
  exact List.dropWhile_suffix p

theorem Dialect.Regular.at_not_mem_ending (regular : dialect.Regular) : '@' ∉ dialect.ending := by
  unfold ending
  split
  · exact List.not_mem_nil
  · rw [List.mem_cons]
    rintro (impossible | member)
    · exact absurd impossible (by decide)
    · exact (regular.closer _ member).2.2 (by decide)

namespace Draft.Clean

variable {draft : Draft}

theorem legible (clean : draft.Clean dialect) : draft.Legible dialect :=
  ⟨clean.named, clean.generator, clean.unitId⟩

theorem free_inner (clean : draft.Clean dialect) : Free draft.inner := by
  have kept := free_of_infix (dropRightWhile_prefix_self (· == '\n') draft.body).isInfix clean.freeBody
  rw [inner, ← List.nil_append ('\n' :: _), free_append_cons (by decide), free_append_cons (by decide)]
  exact ⟨free_nil, kept, free_nil⟩

theorem free_attributes (clean : draft.Clean dialect) :
    Free (Dialect.attributesOf draft.generator draft.unitId) := by
  intro within
  rcases Dialect.infix_attributesOf (by decide) (by decide) within with
    within | within | within | ⟨id, own, within⟩
  · exact absurd within (by decide)
  · exact clean.freeGenerator within
  · exact absurd within (by decide)
  · exact clean.freeUnitId id own within

/-- Behind the mark of a start sentinel there is no other mark up to the end sentinel. -/
theorem free_tail (regular : dialect.Regular) (clean : draft.Clean dialect) :
    Free (Dialect.attributesOf draft.generator draft.unitId ++ (dialect.ending ++ draft.inner)) := by
  have inner := clean.free_inner
  unfold Dialect.ending
  split
  · rw [Draft.inner] at inner ⊢
    rw [List.nil_append, free_append_cons (by decide)]
    exact ⟨clean.free_attributes, free_of_infix (List.infix_cons (List.infix_refl _)) inner⟩
  · rw [List.cons_append, free_append_cons (by decide)]
    refine ⟨clean.free_attributes, free_append ?_ inner⟩
    exact fun member => (regular.closer _ member).2.2 (by decide)

end Draft.Clean

theorem opener_prefix_text (dialect : Dialect) (draft : Draft) (rest : List Char) :
    dialect.opener <+: draft.text dialect ++ rest := by
  rw [Draft.text_eq, Draft.opening, Dialect.start_eq]
  simp only [List.append_assoc]
  exact List.prefix_append _ _

/-- What follows a unit is the end of the text or does not run into its end sentinel. -/
theorem weave_bounded (regular : dialect.Regular) {filler : List Char}
    (bounded : Bounded dialect filler) (drafts : List Draft) (between : List (List Char)) :
    Bounded dialect (weave filler (drafts.map (·.text dialect)) between) := by
  intro closed c first
  cases filler with
  | cons d filler =>
    refine bounded closed c ?_
    rw [weave] at first
    exact first
  | nil =>
    cases drafts with
    | nil => cases first
    | cons draft drafts =>
      cases between with
      | nil => cases first
      | cons filler between =>
        rw [List.map_cons, weave_cons, List.nil_append] at first
        obtain ⟨behind, same⟩ := opener_prefix_text dialect draft
          (weave filler (drafts.map (·.text dialect)) between)
        rw [← same, List.head?_append_of_ne_nil _ regular.opener_ne_nil, regular.opener_head] at first
        cases first
        exact regular.leadWord

/-- The sentinels of units that are written one after the other, the first of them at an offset. -/
def pairsOf (dialect : Dialect) : Nat → List Draft → List (List Char) →
    List (Located (List Char) × Located Unit)
  | offset, draft :: drafts, filler :: between =>
    (⟨Dialect.attributesOf draft.generator draft.unitId, offset,
        offset + (draft.opening dialect).length⟩,
      ⟨(), offset + (draft.opening dialect).length + draft.inner.length,
        offset + (draft.text dialect).length⟩) ::
      pairsOf dialect (offset + (draft.text dialect).length + filler.length) drafts between
  | _, _, _ => []

section Weaving

variable {drafts : List Draft} {first filler : List Char} {between : List (List Char)}

theorem Dialect.Regular.lead_not_mem (regular : dialect.Regular) (absent : dialect.lead ∉ tag) :
    dialect.lead ∉ ' ' :: tag := by
  rw [List.mem_cons]
  rintro (same | member)
  · have gap := regular.leadGap
    rw [same] at gap
    cases gap
  · exact absent member

theorem Dialect.Regular.start_ne_nil (regular : dialect.Regular) (generator : String)
    (unitId : Option String) : dialect.start generator unitId ≠ [] := by
  rw [Dialect.start_eq]
  exact List.append_ne_nil_of_left_ne_nil regular.opener_ne_nil _

theorem Dialect.Regular.finish_ne_nil (regular : dialect.Regular) : dialect.finish ≠ [] := by
  rw [Dialect.finish_eq]
  exact List.append_ne_nil_of_left_ne_nil regular.opener_ne_nil _

theorem opener_prefix_finish (dialect : Dialect) (rest : List Char) :
    dialect.opener <+: dialect.finish ++ rest := by
  rw [Dialect.finish_eq, List.append_assoc]
  exact List.prefix_append _ _

/-- An end sentinel is no start sentinel. -/
theorem startMark?_finish (regular : dialect.Regular) (bounded : Bounded dialect back) :
    startMark? dialect (dialect.finish ++ back) = none := by
  by_contra found
  obtain ⟨⟨attributes, rest⟩, found⟩ := Option.ne_none_iff_exists'.mp found
  obtain ⟨after, started, _⟩ := startMark?_split found
  obtain ⟨⟨other, ended⟩, _⟩ := endMark?_split regular (Dialect.endMark?_finish regular bounded)
  exact afterMark?_exclusive started ended

/-- A start sentinel is no end sentinel. -/
theorem endMark?_opening (regular : dialect.Regular) {draft : Draft} (clean : draft.Clean dialect)
    (ended : dialect.closer = [] → ∀ c ∈ back.head?, isBreak c = true) :
    endMark? dialect (draft.opening dialect ++ back) = none := by
  by_contra found
  obtain ⟨⟨value, rest⟩, found⟩ := Option.ne_none_iff_exists'.mp found
  obtain ⟨⟨after, ended'⟩, _⟩ := endMark?_split regular found
  obtain ⟨other, started, _⟩ :=
    startMark?_split (Dialect.startMark?_start regular clean.generator clean.unitId ended)
  exact afterMark?_exclusive started ended'

theorem inner_ended (draft : Draft) (rest : List Char) :
    dialect.closer = [] → ∀ c ∈ (draft.inner ++ rest).head?, isBreak c = true := by
  rintro _ c ⟨⟩
  rfl

/-- The start sentinel of a unit is found, and the end sentinel is passed over up to its mark: what
ends its comment is left with the text that follows. -/
theorem startMarks_text (regular : dialect.Regular) {draft : Draft} (clean : draft.Clean dialect)
    (bounded : Bounded dialect back) (offset : Nat) :
    locatedFrom offset (pieces (startMark? dialect) (draft.text dialect ++ back)) =
      ⟨Dialect.attributesOf draft.generator draft.unitId, offset,
          offset + (draft.opening dialect).length⟩ ::
        locatedFrom (offset + (draft.opening dialect).length + draft.inner.length +
          (dialect.opener ++ ' ' :: endTag).length)
          (pieces (startMark? dialect) (dialect.ending ++ back)) := by
  have regroup : dialect.finish ++ back =
      dialect.opener ++ (' ' :: endTag) ++ (dialect.ending ++ back) := by
    rw [Dialect.finish_eq]
    simp only [List.append_assoc, List.cons_append]
  have missed := startMark?_finish regular bounded
  rw [regroup] at missed
  rw [Draft.text_eq, List.append_assoc, List.append_assoc, Draft.opening,
    locatedFrom_found (regular.start_ne_nil _ _)
      (Dialect.startMark?_start regular clean.generator clean.unitId (inner_ended draft _)),
    locatedFrom_free regular stem_prefix_startTag startMark?_tagged clean.free_inner
      (.inr (opener_prefix_finish dialect _)),
    regroup, locatedFrom_comment regular stem_prefix_startTag startMark?_tagged
      (regular.lead_not_mem regular.leadEnd) (List.cons_ne_nil _ _) missed]

/-- The end sentinel of a unit is found, and the start sentinel is passed over up to its mark: its
attributes are left with what is inside. -/
theorem endMarks_text (regular : dialect.Regular) {draft : Draft} (clean : draft.Clean dialect)
    (bounded : Bounded dialect back) (offset : Nat) :
    locatedFrom offset (pieces (endMark? dialect) (draft.text dialect ++ back)) =
      ⟨(), offset + (draft.opening dialect).length + draft.inner.length,
          offset + (draft.text dialect).length⟩ ::
        locatedFrom (offset + (draft.text dialect).length) (pieces (endMark? dialect) back) := by
  have regroup : draft.opening dialect ++ (draft.inner ++ (dialect.finish ++ back)) =
      dialect.opener ++ (' ' :: startTag) ++
        ((Dialect.attributesOf draft.generator draft.unitId ++ (dialect.ending ++ draft.inner)) ++
          (dialect.finish ++ back)) := by
    rw [Draft.opening, Dialect.start_eq]
    simp only [List.append_assoc, List.cons_append]
  have missed := endMark?_opening regular clean (inner_ended draft (dialect.finish ++ back))
  rw [regroup] at missed
  have inside : offset + (dialect.opener ++ ' ' :: startTag).length +
      (Dialect.attributesOf draft.generator draft.unitId ++ (dialect.ending ++ draft.inner)).length =
        offset + (draft.opening dialect).length + draft.inner.length := by
    rw [Draft.opening, Dialect.start_eq]
    simp only [List.length_append, List.length_cons]
    omega
  have whole : offset + (draft.text dialect).length =
      offset + (draft.opening dialect).length + draft.inner.length + dialect.finish.length := by
    rw [Draft.text_eq, List.length_append, List.length_append]
    omega
  rw [whole, Draft.text_eq, List.append_assoc, List.append_assoc, regroup,
    locatedFrom_comment regular stem_prefix_endTag endMark?_tagged
      (regular.lead_not_mem regular.leadStart) (List.cons_ne_nil _ _) missed,
    locatedFrom_free regular stem_prefix_endTag endMark?_tagged (clean.free_tail regular)
      (.inr (opener_prefix_finish dialect _)),
    locatedFrom_found regular.finish_ne_nil (Dialect.endMark?_finish regular bounded), inside]

theorem weave_nil (first : List Char) (between : List (List Char)) : weave first [] between = first := by
  simp [weave]

/-- The start sentinels of a woven text are those of its units. -/
theorem startMarks_weave (regular : dialect.Regular) (offset : Nat)
    (paired : between.length = drafts.length) (clean : ∀ draft ∈ drafts, draft.Clean dialect)
    (free : Free first) (apart : ∀ filler ∈ between, Free filler ∧ Bounded dialect filler) :
    locatedFrom offset (pieces (startMark? dialect)
        (weave first (drafts.map (·.text dialect)) between)) =
      (pairsOf dialect (offset + first.length) drafts between).map Prod.fst := by
  induction drafts generalizing first between offset with
  | nil =>
    rw [List.map_nil, weave_nil, locatedFrom_eq_nil regular stem_prefix_startTag startMark?_tagged free]
    cases between <;> rfl
  | cons draft drafts ih =>
    cases between with
    | nil => cases paired
    | cons filler between =>
      obtain ⟨freeFiller, bounded⟩ := apart filler List.mem_cons_self
      have regroup : dialect.ending ++ weave filler (drafts.map (·.text dialect)) between =
          weave (dialect.ending ++ filler) (drafts.map (·.text dialect)) between := by
        simp only [weave, List.append_assoc]
      have reached : offset + first.length + (draft.opening dialect).length + draft.inner.length +
          (dialect.opener ++ ' ' :: endTag).length + (dialect.ending ++ filler).length =
            offset + first.length + (draft.text dialect).length + filler.length := by
        rw [Draft.text_eq, Dialect.finish_eq]
        simp only [List.length_append, List.length_cons]
        omega
      rw [List.map_cons, weave_cons,
        locatedFrom_free regular stem_prefix_startTag startMark?_tagged free
          (.inr (opener_prefix_text dialect draft _)),
        startMarks_text regular (clean draft List.mem_cons_self)
          (weave_bounded regular bounded drafts between),
        regroup, ih _ (Nat.succ.inj paired)
          (fun other later => clean other (List.mem_cons_of_mem _ later))
          (free_append regular.at_not_mem_ending freeFiller)
          (fun other later => apart other (List.mem_cons_of_mem _ later)), reached]
      rfl

/-- The end sentinels of a woven text are those of its units. -/
theorem endMarks_weave (regular : dialect.Regular) (offset : Nat)
    (paired : between.length = drafts.length) (clean : ∀ draft ∈ drafts, draft.Clean dialect)
    (free : Free first) (apart : ∀ filler ∈ between, Free filler ∧ Bounded dialect filler) :
    locatedFrom offset (pieces (endMark? dialect)
        (weave first (drafts.map (·.text dialect)) between)) =
      (pairsOf dialect (offset + first.length) drafts between).map Prod.snd := by
  induction drafts generalizing first between offset with
  | nil =>
    rw [List.map_nil, weave_nil, locatedFrom_eq_nil regular stem_prefix_endTag endMark?_tagged free]
    cases between <;> rfl
  | cons draft drafts ih =>
    cases between with
    | nil => cases paired
    | cons filler between =>
      obtain ⟨freeFiller, bounded⟩ := apart filler List.mem_cons_self
      rw [List.map_cons, weave_cons,
        locatedFrom_free regular stem_prefix_endTag endMark?_tagged free
          (.inr (opener_prefix_text dialect draft _)),
        endMarks_text regular (clean draft List.mem_cons_self)
          (weave_bounded regular bounded drafts between),
        ih _ (Nat.succ.inj paired) (fun other later => clean other (List.mem_cons_of_mem _ later))
          freeFiller (fun other later => apart other (List.mem_cons_of_mem _ later))]
      rfl

/-- Sentinels of units whose offsets increase are merged into pairs. -/
theorem merge_pairMarks {pairs : List (Located (List Char) × Located Unit)}
    (sorted : (pairMarks pairs).Pairwise fun first second => first.offset < second.offset) :
    List.merge ((pairs.map Prod.fst).map Mark.start) ((pairs.map Prod.snd).map Mark.finish)
      (fun first second => first.offset ≤ second.offset) = pairMarks pairs := by
  induction pairs with
  | nil => simp [pairMarks]
  | cons pair rest ih =>
    have split : pairMarks (pair :: rest) = .start pair.1 :: .finish pair.2 :: pairMarks rest := rfl
    rw [split] at sorted ⊢
    obtain ⟨fromStart, sorted⟩ := List.pairwise_cons.mp sorted
    obtain ⟨fromFinish, sorted⟩ := List.pairwise_cons.mp sorted
    have within := fromStart _ List.mem_cons_self
    simp only [List.map_cons]
    rw [List.cons_merge_cons_pos _ _ _ (decide_eq_true (Nat.le_of_lt within))]
    cases rest with
    | nil => simp [pairMarks]
    | cons other rest =>
      have later : (Mark.finish pair.2).offset < (Mark.start other.1).offset :=
        fromFinish _ List.mem_cons_self
      have turn := ih sorted
      simp only [List.map_cons] at turn ⊢
      rw [List.cons_merge_cons_neg _ _ _ (by simpa using later), turn]

theorem pairsOf_offset_le (dialect : Dialect) (offset : Nat) (drafts : List Draft)
    (between : List (List Char)) :
    ∀ mark ∈ pairMarks (pairsOf dialect offset drafts between), offset ≤ mark.offset := by
  induction drafts generalizing offset between with
  | nil => simp [pairsOf, pairMarks]
  | cons draft drafts ih =>
    cases between with
    | nil => simp [pairsOf, pairMarks]
    | cons filler between =>
      intro mark member
      rcases List.mem_cons.mp member with rfl | member
      · exact Nat.le_refl _
      rcases List.mem_cons.mp member with rfl | member
      · simp only [Mark.offset]
        omega
      · have later := ih _ between mark member
        omega

theorem pairsOf_pairwise (regular : dialect.Regular) (offset : Nat) (drafts : List Draft)
    (between : List (List Char)) :
    (pairMarks (pairsOf dialect offset drafts between)).Pairwise
      fun first second => first.offset < second.offset := by
  induction drafts generalizing offset between with
  | nil => simp [pairsOf, pairMarks]
  | cons draft drafts ih =>
    cases between with
    | nil => simp [pairsOf, pairMarks]
    | cons filler between =>
      have opened := List.length_pos_iff.mpr
        (regular.start_ne_nil draft.generator draft.unitId)
      have finished := List.length_pos_iff.mpr regular.finish_ne_nil
      have whole : (draft.text dialect).length = (dialect.start draft.generator draft.unitId).length +
          (draft.inner.length + dialect.finish.length) := by
        rw [Draft.text_eq, List.length_append, List.length_append, Draft.opening]
      refine .cons ?_ (.cons ?_ (ih _ between))
      · intro mark member
        rcases List.mem_cons.mp member with rfl | member
        · simp only [Mark.offset, Draft.opening]
          omega
        · have later := pairsOf_offset_le dialect _ drafts between mark member
          change offset < mark.offset
          omega
      · intro mark member
        have later := pairsOf_offset_le dialect _ drafts between mark member
        change offset + (dialect.start draft.generator draft.unitId).length + draft.inner.length <
          mark.offset
        omega

/-- The sentinels of a woven text are those of its units, in turn. -/
theorem marks_weave (regular : dialect.Regular) (paired : between.length = drafts.length)
    (clean : ∀ draft ∈ drafts, draft.Clean dialect) (free : Free first)
    (apart : ∀ filler ∈ between, Free filler ∧ Bounded dialect filler) :
    marks dialect (weave first (drafts.map (·.text dialect)) between) =
      pairMarks (pairsOf dialect first.length drafts between) := by
  have starts := startMarks_weave regular 0 paired clean free apart
  have finishes := endMarks_weave regular 0 paired clean free apart
  rw [Nat.zero_add] at starts finishes
  rw [marks, startMarks, locate, starts, endMarks, locate, finishes]
  exact merge_pairMarks (pairsOf_pairwise regular _ _ _)

/-- A span of a text is that of a unit. -/
structure Draft.ReadAs (dialect : Dialect) (text : List Char) (draft : Draft) (span : Span) : Prop where
  generator : span.generator = draft.generator
  unitId : span.unitId = Dialect.ownId draft.generator draft.unitId
  source : span.source text = draft.text dialect
  body : span.body text = trimRight draft.body

/-- Line feeds at the end are blanks at the end. -/
theorem trimRight_dropRightWhile (text : List Char) :
    trimRight (dropRightWhile (· == '\n') text) = trimRight text := by
  have split : text = dropRightWhile (· == '\n') text ++ (text.reverse.takeWhile (· == '\n')).reverse := by
    rw [dropRightWhile, ← List.reverse_append, List.takeWhile_append_dropWhile, List.reverse_reverse]
  conv => rhs; rw [split]
  refine (dropRightWhile_append_of_all ?_).symm
  intro c member
  have feed := List.mem_takeWhile_imp (List.mem_reverse.mp member)
  rw [eq_of_beq feed]
  decide

theorem drop_take_middle (front middle back : List Char) :
    ((front ++ (middle ++ back)).take (front.length + middle.length)).drop front.length = middle := by
  rw [List.drop_take, List.drop_left, Nat.add_sub_cancel_left, List.take_left]

/-- The pair of sentinels around a unit makes its span. -/
theorem Draft.Legible.spanOf_eq_ok {draft : Draft} (legible : draft.Legible dialect) (path : Option String)
    (front back : List Char) :
    ∃ span, spanOf (front ++ (draft.text dialect ++ back)) path
        ⟨Dialect.attributesOf draft.generator draft.unitId, front.length,
          front.length + (draft.opening dialect).length⟩
        ⟨(), front.length + (draft.opening dialect).length + draft.inner.length,
          front.length + (draft.text dialect).length⟩ = .ok span ∧
      draft.ReadAs dialect (front ++ (draft.text dialect ++ back)) span := by
  have inside := drop_take_middle (front ++ draft.opening dialect) draft.inner (dialect.finish ++ back)
  rw [List.append_assoc, ← List.append_assoc draft.inner, ← List.append_assoc (draft.opening dialect),
    ← Draft.text_eq, List.length_append] at inside
  have begins : bodyOffset (front ++ (draft.text dialect ++ back))
      (front.length + (draft.opening dialect).length)
      (front.length + (draft.opening dialect).length + draft.inner.length) =
        front.length + (draft.opening dialect).length + 1 := by
    rw [bodyOffset]
    simp only [inside]
    rw [if_pos (by simp [Draft.inner]), Draft.inner, List.idxOf_cons_self]
  refine ⟨_, Sentinel.spanOf_eq_ok.mpr ⟨draft.generator,
    Dialect.attributeValue?_factory legible.generator legible.unitId, legible.named, rfl⟩, ?_⟩
  constructor
  · rfl
  · exact Dialect.attributeValue?_id legible.generator legible.unitId
  · exact drop_take_middle front (draft.text dialect) back
  · simp only [Span.body]
    rw [begins, ← List.drop_drop, inside, Draft.inner, List.drop_one, List.tail_cons, trimRight,
      dropRightWhile_append_of_all (List.forall_mem_singleton.mpr rfl)]
    exact trimRight_dropRightWhile draft.body

/-- The pairs of sentinels of a woven text make the spans of its units. -/
theorem pairsOf_spanned (paired : between.length = drafts.length)
    (clean : ∀ draft ∈ drafts, draft.Clean dialect) (path : Option String) (front first : List Char) :
    ∃ spans, Spanned (weave (front ++ first) (drafts.map (·.text dialect)) between) path
        (pairsOf dialect (front ++ first).length drafts between) spans ∧
      List.Forall₂ (Draft.ReadAs dialect (weave (front ++ first) (drafts.map (·.text dialect)) between))
        drafts spans := by
  induction drafts generalizing front first between with
  | nil => exact ⟨[], by cases between <;> exact .nil, .nil⟩
  | cons draft drafts ih =>
    cases between with
    | nil => cases paired
    | cons filler between =>
      have legible := (clean draft List.mem_cons_self).legible
      obtain ⟨span, here, read⟩ := legible.spanOf_eq_ok path (front ++ first)
        (weave filler (drafts.map (·.text dialect)) between)
      obtain ⟨spans, spanned, others⟩ := ih (Nat.succ.inj paired)
        (fun other later => clean other (List.mem_cons_of_mem _ later))
        (front ++ first ++ draft.text dialect) filler
      have regroup : weave (front ++ first ++ draft.text dialect ++ filler)
          (drafts.map (·.text dialect)) between =
            front ++ first ++ (draft.text dialect ++ weave filler (drafts.map (·.text dialect)) between) := by
        simp only [weave, List.append_assoc]
      rw [regroup] at spanned others
      rw [List.map_cons, weave_cons]
      refine ⟨span :: spans, .cons here ?_, .cons read others⟩
      have reached : (front ++ first ++ draft.text dialect ++ filler).length =
          (front ++ first).length + (draft.text dialect).length + filler.length := by
        simp only [List.length_append]
      rw [reached] at spanned
      exact spanned

/-- The units of a woven text are those that were written: they are found in turn, with their
generators, their identities and their bodies. -/
theorem findSpans_weave (regular : dialect.Regular) (path : Option String)
    (paired : between.length = drafts.length) (clean : ∀ draft ∈ drafts, draft.Clean dialect)
    (free : Free first) (apart : ∀ filler ∈ between, Free filler ∧ Bounded dialect filler) :
    ∃ spans, findSpans dialect path (weave first (drafts.map (·.text dialect)) between) = .ok spans ∧
      List.Forall₂ (Draft.ReadAs dialect (weave first (drafts.map (·.text dialect)) between))
        drafts spans := by
  obtain ⟨spans, spanned, read⟩ := pairsOf_spanned paired clean path [] first
  rw [List.nil_append] at spanned read
  exact ⟨spans, findSpans_eq_ok.mpr ⟨_, marks_weave regular paired clean free apart, spanned⟩, read⟩

end Weaving

end Scaffold.Sentinel
