import Scaffold.Proofs.Sentinel.Locate
import Scaffold.Proofs.Sentinel.LineByLine
import Scaffold.Proofs.Template.Outline
import Scaffold.Proofs.Template.PathTag
import Scaffold.Template.Variables

/-!
Loop tags as brackets. The tags of a text are counted with a depth, where a closing tag at depth zero does
not count. Main statement: a text has an outline without open loops exactly when the depth is zero at its end,
and the loops of the outline are then the outermost groups that the depth tells.
-/

namespace Scaffold.Template

open Text Sentinel

variable {text rest : List Char} {depth offset : Nat}

/-! ### The loop tags of a text -/

def LoopTag.isOpening : LoopTag → Bool
  | opens _ => true
  | closes => false

def loopTags (text : List Char) : List (Located LoopTag) :=
  locate loopTag? text

/-- A loop tag is a brace and something without another one. -/
theorem loopTag?_passed {tag : LoopTag} (found : loopTag? text = some (tag, rest)) :
    ∃ tail, text = '{' :: (tail ++ rest) ∧ '{' ∉ tail := by
  cases scanned : nestTag? text with
  | none =>
    rw [loopTag?_of_none scanned] at found
    cases found
  | some result =>
    obtain ⟨other, after⟩ := result
    obtain ⟨tail, split, absent⟩ := nestTag?_passed scanned
    have same : after = rest := by
      match other with
      | .closes =>
        rw [loopTag?_of_closes scanned] at found
        exact (Prod.mk.inj (Option.some.inj found)).2
      | .opens ⟨head, []⟩ =>
        rw [loopTag?_of_opens scanned] at found
        exact (Prod.mk.inj (Option.some.inj found)).2
      | .opens ⟨head, _ :: _⟩ =>
        rw [loopTag?_of_dotted scanned] at found
        cases found
    exact ⟨tail, same ▸ split, absent⟩

section Brace

variable {α : Type} {scan : Scan α}
  (passed : ∀ text value rest, scan text = some (value, rest) → ∃ tail, text = '{' :: (tail ++ rest) ∧ '{' ∉ tail)

include passed

/-- What begins with a brace is not empty. -/
theorem consuming_of_brace : Consuming scan := by
  intro text value rest found
  obtain ⟨tail, split, _⟩ := passed _ _ _ found
  exact ⟨'{' :: tail, List.cons_ne_nil _ _, split⟩

/-- Nothing that begins with a brace is recognised where there is no other one. -/
theorem solid_of_brace : Solid scan := by
  intro before after rest tag early beyond found
  obtain ⟨c, before, rfl⟩ := List.exists_cons_of_ne_nil early
  obtain ⟨d, after, rfl⟩ := List.exists_cons_of_ne_nil beyond
  obtain ⟨tail, split, absent⟩ := passed _ _ _ found
  rw [List.cons_append, List.cons.injEq, ← List.append_assoc] at split
  obtain ⟨_, split⟩ := split
  obtain rfl := List.append_cancel_right split
  by_contra other
  obtain ⟨⟨_, _⟩, inner⟩ := Option.ne_none_iff_exists'.mp other
  obtain ⟨_, begins, _⟩ := passed _ _ _ inner
  obtain ⟨rfl, _⟩ := List.cons.inj begins
  exact absent (by simp)

end Brace

theorem loopTag?_consuming : Consuming loopTag? :=
  consuming_of_brace fun _ _ _ => loopTag?_passed

theorem loopTag?_solid : Solid loopTag? :=
  solid_of_brace fun _ _ _ => loopTag?_passed

theorem forTag?_passed {tag : ForTag} (found : forTag? text = some (tag, rest)) :
    ∃ tail, text = '{' :: (tail ++ rest) ∧ '{' ∉ tail :=
  @loopTag?_passed text rest (.opens tag) (by rw [loopTag?, found])

/-- A text goes over the collections that the opening tags of loops anywhere in it name. -/
theorem mem_collectionNames {name : String} :
    name ∈ collectionNames text ↔ ∃ tag : Located ForTag, tag.At forTag? text ∧ tag.value.collection = name := by
  rw [collectionNames, List.mem_map]
  simp only [mem_findAll_iff (consuming_of_brace fun _ _ _ => forTag?_passed)
    (solid_of_brace fun _ _ _ => forTag?_passed)]
  constructor
  · rintro ⟨_, ⟨tag, at_, rfl⟩, named⟩
    exact ⟨tag, at_, named⟩
  · rintro ⟨tag, at_, named⟩
    exact ⟨_, ⟨tag, at_, rfl⟩, named⟩

/-- The loop tags of a text are all that are recognised anywhere in it. -/
theorem mem_loopTags {tag : Located LoopTag} : tag ∈ loopTags text ↔ tag.At loopTag? text :=
  mem_locate_iff loopTag?_consuming loopTag?_solid

theorem loopTags_pairwise (text : List Char) :
    (loopTags text).Pairwise fun first second => first.finish ≤ second.start :=
  locate_pairwise loopTag?_consuming text

/-! ### Depth -/

/-- The depth behind a loop tag. A closing tag outside all loops does not count. -/
def LoopTag.depthBehind (depth : Nat) : LoopTag → Nat
  | opens _ => depth + 1
  | closes => depth - 1

/-- The depth behind loop tags, counted from a depth before them. -/
def depthFrom (depth : Nat) (tags : List (Located LoopTag)) : Nat :=
  tags.foldl (fun depth tag => tag.value.depthBehind depth) depth

/-- The depth never falls to zero along loop tags. -/
def StaysOpen (depth : Nat) (tags : List (Located LoopTag)) : Prop :=
  ∀ part, part <+: tags → 0 < depthFrom depth part

def OnlyCloses (tags : List (Located LoopTag)) : Prop :=
  ∀ tag ∈ tags, tag.value = .closes

/-- The depth, zero before loop tags, is positive all along them. -/
def NeverCloses (tags : List (Located LoopTag)) : Prop :=
  ∀ part, part <+: tags → part ≠ [] → 0 < depthFrom 0 part

section Depth

variable {tag : Located LoopTag} {tags first second : List (Located LoopTag)}

theorem depthFrom_cons : depthFrom depth (tag :: tags) = depthFrom (tag.value.depthBehind depth) tags :=
  rfl

theorem depthFrom_append : depthFrom depth (first ++ second) = depthFrom (depthFrom depth first) second :=
  List.foldl_append

theorem staysOpen_nil : StaysOpen depth [] ↔ 0 < depth := by
  simp [StaysOpen, depthFrom]

theorem staysOpen_cons :
    StaysOpen depth (tag :: tags) ↔ 0 < depth ∧ StaysOpen (tag.value.depthBehind depth) tags := by
  constructor
  · intro stays
    exact ⟨stays [] List.nil_prefix, fun part within => stays (tag :: part) (List.cons_prefix_cons.mpr ⟨rfl, within⟩)⟩
  · rintro ⟨positive, stays⟩ part within
    rcases List.prefix_cons_iff.mp within with rfl | ⟨later, rfl, inside⟩
    · exact positive
    · exact stays later inside

theorem OnlyCloses.depth_zero (closes : OnlyCloses tags) : depthFrom 0 tags = 0 := by
  induction tags with
  | nil => rfl
  | cons tag tags ih =>
    obtain ⟨here, later⟩ := List.forall_mem_cons.mp closes
    rw [depthFrom_cons, here]
    exact ih later

theorem neverCloses_nil : NeverCloses [] :=
  fun _ within filled => absurd (List.prefix_nil.mp within) filled

theorem neverCloses_cons : NeverCloses (tag :: tags) ↔ StaysOpen (tag.value.depthBehind 0) tags := by
  constructor
  · exact fun never part within => never (tag :: part) (List.cons_prefix_cons.mpr ⟨rfl, within⟩) (List.cons_ne_nil _ _)
  · intro stays part within filled
    rcases List.prefix_cons_iff.mp within with rfl | ⟨later, rfl, inside⟩
    · exact absurd rfl filled
    · exact stays later inside

end Depth

/-! ### Groups -/

/-- A group of loop tags: the tag that opens its loop, with its offsets, the tags inside, and the offsets of
the tag that closes its loop. -/
structure Group where
  tag : ForTag
  start : Nat
  bodyStart : Nat
  inner : List (Located LoopTag)
  bodyFinish : Nat
  finish : Nat
  deriving DecidableEq, Repr

namespace Group

def opening (group : Group) : Located LoopTag :=
  ⟨.opens group.tag, group.start, group.bodyStart⟩

def closing (group : Group) : Located LoopTag :=
  ⟨.closes, group.bodyFinish, group.finish⟩

def tags (group : Group) : List (Located LoopTag) :=
  group.opening :: (group.inner ++ [group.closing])

theorem tags_append (group : Group) (back : List (Located LoopTag)) :
    group.tags ++ back = group.opening :: (group.inner ++ group.closing :: back) := by
  rw [tags, List.cons_append, List.append_assoc]
  rfl

/-- The group holds no opening tag but its own. -/
def isFlat (group : Group) : Bool :=
  group.inner.all fun tag => !tag.value.isOpening

/-- The depth stays positive from the opening tag of a group up to its closing tag, and is zero behind
that. -/
structure Balanced (group : Group) : Prop where
  stays : StaysOpen 1 group.inner
  ends : depthFrom 0 group.tags = 0

/-- A balanced group of loop tags, before which the depth is zero. -/
def Outermost (tags : List (Located LoopTag)) (group : Group) : Prop :=
  group.Balanced ∧ ∃ front back, tags = front ++ (group.tags ++ back) ∧ depthFrom 0 front = 0

end Group

/-- Loop tags are grouped: between the groups only closing tags are left. -/
inductive Grouped : List (Located LoopTag) → List Group → Prop
  | none {tags : List (Located LoopTag)} : OnlyCloses tags → Grouped tags []
  | group {front back : List (Located LoopTag)} {group : Group} {groups : List Group} :
    OnlyCloses front → group.Balanced → Grouped back groups →
      Grouped (front ++ (group.tags ++ back)) (group :: groups)

section Groups

variable {group other : Group} {groups : List Group} {tags front back front' back' : List (Located LoopTag)}

theorem Grouped.depth_zero (grouped : Grouped tags groups) : depthFrom 0 tags = 0 := by
  induction grouped with
  | none closes => exact closes.depth_zero
  | group closes balanced later ih => rw [depthFrom_append, depthFrom_append, closes.depth_zero, balanced.ends, ih]

/-- Two balanced groups that begin at one place are the same. -/
theorem Group.Balanced.unique (balanced : group.Balanced) (balanced' : other.Balanced)
    (same : group.tags ++ back = other.tags ++ back') : group = other := by
  -- A group that went on beyond the other would have depth zero inside.
  have within {one two : Group} {ahead behind : List (Located LoopTag)} (balanced : one.Balanced)
      (balanced' : two.Balanced) (begin_ : one.opening = two.opening)
      (same : one.inner ++ one.closing :: ahead = two.inner ++ two.closing :: behind)
      (more : List (Located LoopTag)) (longer : two.inner = one.inner ++ more) : more = [] := by
    cases more with
    | nil => rfl
    | cons tag more =>
      rw [longer, List.append_assoc] at same
      obtain ⟨rfl, _⟩ := List.cons.inj (List.append_cancel_left same)
      have shut := balanced.ends
      have positive := balanced'.stays (one.inner ++ [one.closing])
        ⟨more, by rw [longer, List.append_assoc]; rfl⟩
      rw [Group.tags, depthFrom_cons] at shut
      have deep : one.opening.value.depthBehind 0 = 1 := rfl
      rw [deep] at shut
      omega
  rw [Group.tags_append, Group.tags_append, List.cons.injEq] at same
  obtain ⟨begins, same⟩ := same
  have inner : group.inner = other.inner := by
    rcases List.append_eq_append_iff.mp same with ⟨more, longer, _⟩ | ⟨more, longer, _⟩
    · rw [longer, within balanced balanced' begins same more longer, List.append_nil]
    · rw [longer, within balanced' balanced begins.symm same.symm more longer, List.append_nil]
  rw [inner] at same
  obtain ⟨ends, _⟩ := List.cons.inj (List.append_cancel_left same)
  obtain ⟨tag, start, bodyStart, _, bodyFinish, finish⟩ := group
  obtain ⟨tag', start', bodyStart', _, bodyFinish', finish'⟩ := other
  simp_all [Group.opening, Group.closing]

/-- A balanced group behind another one begins at a place where the depth is zero. -/
theorem Group.Balanced.behind (balanced : group.Balanced) (balanced' : other.Balanced)
    (shallow : depthFrom 0 front = 0) (same : group.tags ++ back = front ++ (other.tags ++ back')) :
    other = group ∨ ∃ front, back = front ++ (other.tags ++ back') ∧ depthFrom 0 front = 0 := by
  cases front with
  | nil => exact .inl (balanced.unique balanced' same).symm
  | cons tag front =>
    rw [Group.tags_append, List.cons_append, List.cons.injEq] at same
    obtain ⟨rfl, same⟩ := same
    rw [depthFrom_cons] at shallow
    change depthFrom 1 front = 0 at shallow
    have beyond (more : List (Located LoopTag)) (longer : group.inner = front ++ more) : False := by
      have positive := balanced.stays front ⟨more, longer.symm⟩
      omega
    rcases List.append_eq_append_iff.mp same with ⟨more, rfl, ahead⟩ | ⟨more, longer, _⟩
    · cases more with
      | nil => exact (beyond [] (by simp)).elim
      | cons tag more =>
        rw [List.cons_append, List.cons.injEq] at ahead
        obtain ⟨rfl, ahead⟩ := ahead
        have whole : depthFrom 0 (group.tags ++ more) = 0 := by
          rw [group.tags_append]
          exact shallow
        rw [depthFrom_append, balanced.ends] at whole
        exact .inr ⟨more, ahead, whole⟩
    · exact (beyond more longer).elim

theorem Grouped.mem_iff (grouped : Grouped tags groups) : group ∈ groups ↔ group.Outermost tags := by
  induction grouped with
  | none closes =>
    refine ⟨nofun, fun ⟨_, front, back, split, _⟩ => ?_⟩
    have opening := closes group.opening (by simp [split, Group.tags])
    cases opening
  | @group front back first groups closes balanced later ih =>
    rw [List.mem_cons, ih]
    constructor
    · rintro (rfl | ⟨balanced', front', back', rfl, shallow⟩)
      · exact ⟨balanced, front, back, rfl, closes.depth_zero⟩
      · refine ⟨balanced', front ++ (first.tags ++ front'), back', by simp only [List.append_assoc], ?_⟩
        rw [depthFrom_append, depthFrom_append, closes.depth_zero, balanced.ends, shallow]
    · rintro ⟨balanced', front', back', split, shallow⟩
      have behind : ∃ more, front' = front ++ more ∧ first.tags ++ back = more ++ (group.tags ++ back') := by
        rcases List.append_eq_append_iff.mp split with ⟨more, before, behind⟩ | ⟨more, before, behind⟩
        · exact ⟨more, before, behind⟩
        cases more with
        | nil => exact ⟨[], by simpa using before.symm, behind.symm⟩
        | cons tag more =>
          obtain ⟨rfl, _⟩ := List.cons.inj behind
          have opening := closes group.opening (by simp [before])
          cases opening
      obtain ⟨more, rfl, same⟩ := behind
      rw [depthFrom_append, closes.depth_zero] at shallow
      exact (balanced.behind balanced' shallow same).imp id fun ⟨before, split, zero⟩ =>
        ⟨balanced', before, back', split, zero⟩

/-- No outermost group reaches into tags along which the depth stays positive. -/
theorem Group.outermost_append (shallow : depthFrom 0 front = 0) (never : NeverCloses back) :
    group.Outermost (front ++ back) ↔ group.Outermost front := by
  constructor
  · rintro ⟨balanced, front', back', split, zero⟩
    have closed : depthFrom 0 (front' ++ group.tags) = 0 := by rw [depthFrom_append, zero, balanced.ends]
    rw [← List.append_assoc] at split
    -- A group that ended among the tags behind would end where the depth is positive.
    rcases List.append_eq_append_iff.mp split with ⟨more, longer, inBack⟩ | ⟨more, inFront, _⟩
    · by_cases vacant : more = []
      · exact ⟨balanced, front', [], by rw [vacant, List.append_nil] at longer; simp [longer], zero⟩
      · rw [longer, depthFrom_append, shallow] at closed
        have deep := never more ⟨back', inBack.symm⟩ vacant
        omega
    · exact ⟨balanced, front', more, by rw [inFront, List.append_assoc], zero⟩
  · rintro ⟨balanced, front', back', split, zero⟩
    exact ⟨balanced, front', back' ++ back, by simp [split], zero⟩

end Groups

/-! ### The outline of a text -/

/-- The group of a loop whose opening tag begins at an offset, with the loop tags inside. -/
def LoopSpan.group (start : Nat) (inner : List (Located LoopTag)) (span : LoopSpan) : Group where
  tag := span.tag
  start := start
  bodyStart := start + span.opening.length
  inner := inner
  bodyFinish := start + span.opening.length + span.inner.length
  finish := start + span.opening.length + span.inner.length + span.closing.length

inductive Laid : Nat → Outline → List Group → Prop
  | done (offset : Nat) (text : List Char) : Laid offset (.done text) []
  | loop {offset : Nat} {text : List Char} {span : LoopSpan} {rest : Outline}
    {inner : List (Located LoopTag)} {groups : List Group} :
    span.nested = (inner.any fun tag => tag.value.isOpening) → span.opening ≠ [] →
      Laid (span.group (offset + text.length) inner).finish rest groups →
      Laid offset (.loop text span rest) (span.group (offset + text.length) inner :: groups)

section Outline

variable {items : List (Piece LoopTag)}

/-- Behind an opening tag either its closing tag comes, where the depth would fall to zero, or the depth stays
positive up to the end. -/
theorem remainderOf_cases (depth offset : Nat) (items : List (Piece LoopTag)) :
    (∃ inner closing back, items = inner ++ .found .closes closing :: back ∧
        StaysOpen (depth + 1) (locatedFrom offset inner) ∧
        depthFrom (depth + 1) (locatedFrom offset inner) = 1 ∧
        remainderOf depth items = ⟨inner.flatMap Piece.source,
          (locatedFrom offset inner).any fun tag => tag.value.isOpening, some (closing, outlineOf back)⟩) ∨
      (StaysOpen (depth + 1) (locatedFrom offset items) ∧ (remainderOf depth items).closing = none) := by
  induction items generalizing depth offset with
  | nil => exact .inr ⟨staysOpen_nil.mpr depth.succ_pos, rfl⟩
  | cons piece items ih =>
    match piece with
    | .char c =>
      rcases ih depth (offset + 1) with ⟨inner, closing, back, rfl, stays, ends, cut⟩ | ⟨stays, never⟩
      · refine .inl ⟨.char c :: inner, closing, back, rfl, stays, ends, ?_⟩
        rw [remainderOf, cut]
        rfl
      · exact .inr ⟨stays, never⟩
    | .found (.opens tag) source =>
      rcases ih (depth + 1) (offset + source.length) with
        ⟨inner, closing, back, rfl, stays, ends, cut⟩ | ⟨stays, never⟩
      · refine .inl ⟨.found (.opens tag) source :: inner, closing, back, rfl,
          staysOpen_cons.mpr ⟨depth.succ_pos, stays⟩, ends, ?_⟩
        rw [remainderOf, cut]
        rfl
      · refine .inr ⟨staysOpen_cons.mpr ⟨depth.succ_pos, stays⟩, ?_⟩
        rw [remainderOf]
        exact never
    | .found .closes source =>
      cases depth with
      | zero => exact .inl ⟨[], source, items, rfl, staysOpen_nil.mpr Nat.one_pos, rfl, rfl⟩
      | succ depth =>
        rcases ih depth (offset + source.length) with
          ⟨inner, closing, back, rfl, stays, ends, cut⟩ | ⟨stays, never⟩
        · refine .inl ⟨.found .closes source :: inner, closing, back, rfl,
            staysOpen_cons.mpr ⟨Nat.succ_pos _, stays⟩, ends, ?_⟩
          rw [remainderOf, cut]
          rfl
        · exact .inr ⟨staysOpen_cons.mpr ⟨Nat.succ_pos _, stays⟩, never⟩

/-- Outside of loops either no loop is opened any more, or one is opened behind closing tags. -/
theorem outlineOf_cases (offset : Nat) (items : List (Piece LoopTag)) :
    (OnlyCloses (locatedFrom offset items) ∧ outlineOf items = .done (items.flatMap Piece.source)) ∨
      ∃ front tag opening back, items = front ++ .found (.opens tag) opening :: back ∧
        OnlyCloses (locatedFrom offset front) ∧
        outlineOf items = (Outline.ofLoop tag opening (remainderOf 0 back)).precede (front.flatMap Piece.source) := by
  induction items generalizing offset with
  | nil => exact .inl ⟨nofun, rfl⟩
  | cons piece items ih =>
    match piece with
    | .char c =>
      rcases ih (offset + 1) with ⟨closes, whole⟩ | ⟨front, tag, opening, back, rfl, closes, cut⟩
      · refine .inl ⟨closes, ?_⟩
        rw [outlineOf, whole]
        rfl
      · refine .inr ⟨.char c :: front, tag, opening, back, rfl, closes, ?_⟩
        rw [outlineOf, cut, Outline.precede_precede]
        rfl
    | .found (.opens tag) source =>
      refine .inr ⟨[], tag, source, items, rfl, nofun, ?_⟩
      rw [outlineOf, List.flatMap_nil, Outline.precede_nil]
    | .found .closes source =>
      rcases ih (offset + source.length) with ⟨closes, whole⟩ | ⟨front, tag, opening, back, rfl, closes, cut⟩
      · refine .inl ⟨List.forall_mem_cons.mpr ⟨rfl, closes⟩, ?_⟩
        rw [outlineOf, whole]
        rfl
      · refine .inr ⟨.found .closes source :: front, tag, opening, back, rfl,
          List.forall_mem_cons.mpr ⟨rfl, closes⟩, ?_⟩
        rw [outlineOf, cut, Outline.precede_precede]
        rfl

theorem LoopSpan.group_balanced {start : Nat} {inner : List (Located LoopTag)} (span : LoopSpan)
    (stays : StaysOpen 1 inner) (ends : depthFrom 1 inner = 1) : (span.group start inner).Balanced where
  stays := stays
  ends := by
    rw [Group.tags, depthFrom_cons, depthFrom_append]
    change depthFrom (depthFrom 1 inner) _ = 0
    rw [ends]
    rfl

theorem locatedFrom_loop (start : Nat) (span : LoopSpan) {inner : List (Piece LoopTag)}
    (within : span.inner = inner.flatMap Piece.source) (back : List (Piece LoopTag)) :
    locatedFrom start (.found (.opens span.tag) span.opening ::
        (inner ++ .found .closes span.closing :: back)) =
      (span.group start (locatedFrom (start + span.opening.length) inner)).tags ++
        locatedFrom (span.group start (locatedFrom (start + span.opening.length) inner)).finish back := by
  rw [locatedFrom, locatedFrom_append, locatedFrom, ← within, Group.tags_append]
  rfl

/-- The loops of an outline up to one that is never closed are the groups of the loop tags up to there, and the
depth stays positive behind them. -/
theorem outlineOf_grouped (offset : Nat) (items : List (Piece LoopTag))
    (filled : ∀ piece ∈ items, piece.source ≠ []) :
    ∃ front behind groups, locatedFrom offset items = front ++ behind ∧ Grouped front groups ∧ NeverCloses behind ∧
      Laid offset (outlineOf items).closedPart groups ∧ ((outlineOf items).Closed ↔ behind = []) := by
  rcases outlineOf_cases offset items with ⟨closes, whole⟩ | ⟨front, tag, opening, behind, rfl, closes, cut⟩
  · rw [whole]
    exact ⟨_, [], [], (List.append_nil _).symm, .none closes, neverCloses_nil, .done offset _, iff_of_true trivial rfl⟩
  rw [cut, locatedFrom_append, Outline.closedPart_precede]
  generalize sized : offset + (front.flatMap Piece.source).length = start
  rcases remainderOf_cases 0 (start + opening.length) behind with
    ⟨inner, closing, back, rfl, stays, ends, inside⟩ | ⟨stays, never⟩
  · have shorter : back.length < (front ++ .found (.opens tag) opening ::
        (inner ++ .found .closes closing :: back)).length := by
      simp only [List.length_append, List.length_cons]
      omega
    have opened : opening ≠ [] := filled (.found (.opens tag) opening) (by simp)
    generalize tagged : locatedFrom (start + opening.length) inner = tags at stays ends inside
    have located := locatedFrom_loop start
      ⟨tag, opening, inner.flatMap Piece.source, tags.any fun tag => tag.value.isOpening, closing⟩ rfl back
    dsimp only at located
    rw [located, tagged, inside, Outline.ofLoop, Outline.closedPart, Outline.precede, List.append_nil]
    generalize spanned : (⟨tag, opening, inner.flatMap Piece.source, tags.any fun tag => tag.value.isOpening,
      closing⟩ : LoopSpan) = span
    have balanced : (span.group start tags).Balanced := span.group_balanced stays ends
    obtain ⟨first, last, groups, split, grouped, open_, laid, closed⟩ :=
      outlineOf_grouped (span.group start tags).finish back fun piece member => filled piece (by simp [member])
    refine ⟨_, last, span.group start tags :: groups, ?_, .group closes balanced grouped, open_, ?_, closed⟩
    · rw [split]
      simp only [List.append_assoc]
    · rw [← sized] at laid ⊢
      exact .loop (by rw [← spanned]) (by rw [← spanned]; exact opened) laid
  · rw [Outline.ofLoop, never]
    refine ⟨_, _, [], rfl, .none closes, ?_, .done offset _, iff_of_false id (List.cons_ne_nil _ _)⟩
    exact neverCloses_cons.mpr stays
termination_by items.length

/-- The outline of a text has no open loop exactly when the depth is zero at the end of the text, and its loops
are then the groups. -/
theorem outline_grouped (text : List Char) :
    ((outline text).Closed ∧ depthFrom 0 (loopTags text) = 0 ∧
        ∃ groups, Grouped (loopTags text) groups ∧ Laid 0 (outline text) groups) ∨
      (¬ (outline text).Closed ∧ 0 < depthFrom 0 (loopTags text)) := by
  obtain ⟨front, behind, groups, split, grouped, open_, laid, ends⟩ :=
    outlineOf_grouped 0 _ (pieces_filled loopTag?_consuming text)
  change loopTags text = front ++ behind at split
  change Laid 0 (outline text).closedPart groups at laid
  change (outline text).Closed ↔ behind = [] at ends
  by_cases closed : (outline text).Closed
  · rw [ends.mp closed, List.append_nil] at split
    rw [closed.closedPart_eq] at laid
    exact .inl ⟨closed, split ▸ grouped.depth_zero, groups, split ▸ grouped, laid⟩
  · rw [split, depthFrom_append, grouped.depth_zero]
    exact .inr ⟨closed, open_ behind (List.prefix_refl behind) fun none => closed (ends.mpr none)⟩

end Outline

end Scaffold.Template
