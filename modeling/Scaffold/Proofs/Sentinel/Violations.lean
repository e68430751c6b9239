import Mathlib
import Scaffold.Proofs.Sentinel.Spans

/-!
The first violation. Whether the sentinels of a text make units is settled by neighbours in their list: a
violation shows at a sentinel and the one just before it, or at the end of the list and the last sentinel.
Main statement: a text has its units when its sentinels alternate and each start names a generator, and
fails otherwise with what the first violation tells.
-/

namespace Scaffold.Sentinel

open Text

variable {dialect : Dialect} {text : List Char} {path : Option String} {listing : List Mark}
  {opening : Located (List Char)} {closing : Located Unit} {error : Error} {place : Nat}

/-! ### Lists of sentinels -/

/-- All sentinels of a text, by their offsets. -/
structure Listed (dialect : Dialect) (text : List Char) (listing : List Mark) : Prop where
  complete : listing.Perm
    ((startMarks dialect text).map .start ++ (endMarks dialect text).map .finish)
  ordered : listing.Pairwise fun first second => first.offset ≤ second.offset

/-- No two sentinels begin at one place. -/
theorem eq_of_offset_eq (regular : dialect.Regular) {one other : Mark} (first : one ∈ marks dialect text)
    (second : other ∈ marks dialect text) (same : one.offset = other.offset) : one = other := by
  have apart : ∀ opening ∈ startMarks dialect text, ∀ closing ∈ endMarks dialect text,
      opening.start ≠ closing.start := by
    intro opening started closing ended equal
    have wide := (endMarks_at regular closing ended).start_lt
    have behind := finish_le_start regular (endMarks_at regular closing ended)
      (startMarks_at regular opening started) (Nat.le_of_eq equal.symm)
    omega
  rcases mem_marks.mp first with ⟨opening, started, rfl⟩ | ⟨closing, ended, rfl⟩ <;>
    rcases mem_marks.mp second with ⟨opening', started', rfl⟩ | ⟨closing', ended', rfl⟩
  · exact congrArg _ ((startMarks_at regular _ started).eq (startMarks_at regular _ started') same)
  · exact absurd same (apart _ started _ ended')
  · exact absurd same.symm (apart _ started' _ ended)
  · exact congrArg _ ((endMarks_at regular _ ended).eq (endMarks_at regular _ ended') same)

/-- There is one list of all sentinels by their offsets. -/
theorem listed_iff (regular : dialect.Regular) : Listed dialect text listing ↔ listing = marks dialect text := by
  have merged : (marks dialect text).Perm
      ((startMarks dialect text).map .start ++ (endMarks dialect text).map .finish) :=
    List.merge_perm_append _
  constructor
  · rintro ⟨complete, ordered⟩
    have perm := complete.trans merged.symm
    refine perm.eq_of_pairwise (fun one other first second before after => ?_) ordered
      (marks_pairwise regular text)
    exact eq_of_offset_eq regular (perm.mem_iff.mp first) second (Nat.le_antisymm before after)
  · rintro rfl
    exact ⟨merged, marks_pairwise regular text⟩

/-! ### Attributes -/

/-- The last attribute of a name among the attributes of a start sentinel. -/
def LastAttribute (name value : String) (opening : Located (List Char)) : Prop :=
  ∃ before after, findAll attribute? opening.value = before ++ (name, value) :: after ∧
    ∀ entry ∈ after, entry.1 ≠ name

theorem attributeValue?_eq_some {name value : String} :
    attributeValue? name opening.value = some value ↔ LastAttribute name value opening := by
  rw [attributeValue?, List.lookup_eq_some_iff]
  constructor
  · rintro ⟨after, before, split, others⟩
    refine ⟨before.reverse, after.reverse, ?_, fun entry listed => ?_⟩
    · rw [← List.reverse_reverse (findAll attribute? _), split]
      simp
    · exact Ne.symm (bne_iff_ne.mp (others entry (List.mem_reverse.mp listed)))
  · rintro ⟨before, after, split, others⟩
    refine ⟨after.reverse, before.reverse, ?_, fun entry listed => ?_⟩
    · rw [split]
      simp
    · exact bne_iff_ne.mpr (Ne.symm (others entry (List.mem_reverse.mp listed)))

/-- A start sentinel names a generator. -/
def NamesGenerator (opening : Located (List Char)) : Prop :=
  ∃ generator, generator ≠ "" ∧ LastAttribute "factory" generator opening

/-! ### Violations -/

/-- The sentinel before a place of a list, given the one before the list. -/
def markBefore (first : Option Mark) (listing : List Mark) : Nat → Option Mark
  | 0 => first
  | place + 1 => listing[place]?

/-- What is wrong with a sentinel behind another one, and the failure that tells it. Where there is no
sentinel the list has its beginning, or its end. -/
inductive Clash (path : Option String) : Option Mark → Option Mark → Error → Prop
  | nested (opening mark : Located (List Char)) :
    Clash path (some (.start opening)) (some (.start mark))
      (.structural (.nestedStart mark.start opening.start) path)
  | stray {before : Option Mark} (closing : Located Unit) :
    (∀ opening, before ≠ some (.start opening)) →
      Clash path before (some (.finish closing)) (.structural (.strayEnd closing.start) path)
  | unclosed (opening : Located (List Char)) :
    Clash path (some (.start opening)) none (.structural (.unclosedStart opening.start) path)
  | anonymous {opening : Located (List Char)} (closing : Located Unit) :
    ¬ NamesGenerator opening → (∀ id, ¬ LastAttribute "id" id opening) →
      Clash path (some (.start opening)) (some (.finish closing))
        (.structural (.anonymousStart opening.start) path)
  /-- The start sentinel of a pair names a unit, but no generator. -/
  | legacy {opening : Located (List Char)} {id : String} (closing : Located Unit) :
    ¬ NamesGenerator opening → LastAttribute "id" id opening →
      Clash path (some (.start opening)) (some (.finish closing)) (.legacyMarker id path)

/-- The first place of a list where something is wrong, given the sentinel before the list. -/
def FirstViolation (path : Option String) (first : Option Mark) (listing : List Mark) (place : Nat)
    (error : Error) : Prop :=
  Clash path (markBefore first listing place) listing[place]? error ∧
    ∀ earlier < place, ∀ other, ¬ Clash path (markBefore first listing earlier) listing[earlier]? other

/-- A list ends at a place with a pair of sentinels of which the start names a unit, but no generator. -/
def LegacyPair (listing : List Mark) (place : Nat) (id : String) : Prop :=
  ∃ opening closing, markBefore none listing place = some (.start opening) ∧
    listing[place]? = some (.finish closing) ∧ ¬ NamesGenerator opening ∧ LastAttribute "id" id opening

theorem namesGenerator_iff :
    NamesGenerator opening ↔ ∃ generator, generator ≠ "" ∧
      attributeValue? "factory" opening.value = some generator := by
  simp only [NamesGenerator, attributeValue?_eq_some]

/-- Two sentinels make no unit when the first names no generator. -/
theorem spanOf_eq_error :
    spanOf text path opening closing = .error error ↔ ¬ NamesGenerator opening ∧
      spanOf.missing path opening (attributeValue? "id" opening.value) = .error error := by
  rw [namesGenerator_iff]
  unfold spanOf
  cases factory : attributeValue? "factory" opening.value with
  | none => simp
  | some generator =>
    by_cases vacant : generator = ""
    · simp [vacant]
    · simp [vacant]

/-- Two sentinels clash as a pair when they make no unit. -/
theorem clash_pair_iff (text : List Char) :
    Clash path (some (.start opening)) (some (.finish closing)) error ↔
      spanOf text path opening closing = .error error := by
  rw [spanOf_eq_error]
  constructor
  · intro clash
    cases clash with
    | stray _ apart => exact absurd rfl (apart opening)
    | anonymous _ nameless unnamed =>
      have none : attributeValue? "id" opening.value = none :=
        Option.eq_none_iff_forall_not_mem.mpr fun id found => unnamed id (attributeValue?_eq_some.mp found)
      exact ⟨nameless, by rw [none]; rfl⟩
    | legacy _ nameless named => exact ⟨nameless, by rw [attributeValue?_eq_some.mpr named]; rfl⟩
  · rintro ⟨nameless, failed⟩
    cases named : attributeValue? "id" opening.value with
    | none =>
      rw [named] at failed
      cases failed
      exact .anonymous closing nameless fun id last => by
        rw [attributeValue?_eq_some.mpr last] at named
        cases named
    | some id =>
      rw [named] at failed
      cases failed
      exact .legacy closing nameless (attributeValue?_eq_some.mp named)

theorem clash_nested_iff {mark : Located (List Char)} :
    Clash path (some (.start opening)) (some (.start mark)) error ↔
      error = .structural (.nestedStart mark.start opening.start) path := by
  constructor
  · intro clash
    cases clash
    rfl
  · rintro rfl
    exact .nested opening mark

theorem clash_stray_iff {before : Option Mark} (apart : ∀ opening, before ≠ some (.start opening)) :
    Clash path before (some (.finish closing)) error ↔ error = .structural (.strayEnd closing.start) path := by
  constructor
  · intro clash
    cases clash with
    | stray _ _ => rfl
    | anonymous _ _ _ => exact absurd rfl (apart _)
    | legacy _ _ _ => exact absurd rfl (apart _)
  · rintro rfl
    exact .stray closing apart

/-- A start sentinel is right unless another one is before it. -/
theorem not_clash_start {before : Option Mark} {mark : Located (List Char)}
    (apart : ∀ opening, before ≠ some (.start opening)) : ¬ Clash path before (some (.start mark)) error := by
  intro clash
  cases clash with
  | nested opening _ => exact apart opening rfl

/-! ### The first violation -/

/-- The start sentinel that is open behind a sentinel. -/
def openBehind : Option Mark → Option (Located (List Char))
  | some (.start opening) => some opening
  | _ => none

theorem openBehind_eq_some {first : Option Mark} :
    openBehind first = some opening ↔ first = some (.start opening) := by
  match first with
  | none | some (.start _) | some (.finish _) => simp [openBehind]

theorem openBehind_eq_none {first : Option Mark} :
    openBehind first = none ↔ ∀ opening, first ≠ some (.start opening) := by
  match first with
  | none | some (.start _) | some (.finish _) => simp [openBehind]

/-- Where the sentinels end, only an open unit is wrong. -/
theorem spansFrom_nil_eq_error (first : Option Mark) :
    spansFrom text path (openBehind first) [] = .error error ↔ Clash path first none error := by
  cases behind : openBehind first with
  | none =>
    have apart := openBehind_eq_none.mp behind
    constructor
    · intro run
      cases run
    · intro clash
      cases clash with
      | unclosed opening => exact absurd rfl (apart opening)
  | some opening =>
    obtain rfl := openBehind_eq_some.mp behind
    constructor
    · intro run
      cases run
      exact .unclosed opening
    · intro clash
      cases clash
      rfl

/-- A sentinel that clashes with the one before it ends the reading, and any other is passed. -/
theorem spansFrom_cons_eq_error (first : Option Mark) (mark : Mark) (rest : List Mark) :
    spansFrom text path (openBehind first) (mark :: rest) = .error error ↔
      Clash path first (some mark) error ∨
        (∀ other, ¬ Clash path first (some mark) other) ∧
          spansFrom text path (openBehind (some mark)) rest = .error error := by
  -- A clash of one kind only is told, whatever comes behind.
  have told (cause : Error) (later : Prop) : (Except.error cause : Except Error (List Span)) = .error error ↔
      error = cause ∨ (∀ other, ¬ other = cause) ∧ later := by
    rw [Except.error.injEq, eq_comm]
    exact ⟨.inl, fun either => either.resolve_right fun ⟨clear, _⟩ => clear cause rfl⟩
  cases behind : openBehind first with
  | none =>
    have apart := openBehind_eq_none.mp behind
    cases mark with
    | start mark =>
      simp only [not_clash_start apart, not_false_eq_true, implies_true, true_and, false_or]
      rfl
    | finish closing =>
      simp only [clash_stray_iff apart]
      exact told _ _
  | some opening =>
    obtain rfl := openBehind_eq_some.mp behind
    cases mark with
    | start mark =>
      simp only [clash_nested_iff]
      exact told _ _
    | finish closing =>
      simp only [clash_pair_iff text, spansFrom]
      cases spanOf text path opening closing with
      | error cause =>
        simp only [Except.error.injEq, @eq_comm _ cause]
        exact told cause _
      | ok span =>
        simp only [reduceCtorEq, not_false_eq_true, implies_true, true_and, false_or, openBehind]
        cases spansFrom text path none rest with
        | error cause => exact Iff.rfl
        | ok spans =>
          constructor
          · intro run
            cases run
          · intro run
            cases run

theorem firstViolation_nil {first : Option Mark} :
    FirstViolation path first [] place error ↔ place = 0 ∧ Clash path first none error := by
  constructor
  · rintro ⟨clash, _⟩
    cases place with
    | zero => exact ⟨rfl, clash⟩
    | succ place => cases clash
  · rintro ⟨rfl, clash⟩
    exact ⟨clash, fun earlier before => absurd before (Nat.not_lt_zero _)⟩

/-- The first violation shows at the first sentinel, or it is the first one of the others. -/
theorem firstViolation_cons {first : Option Mark} {mark : Mark} :
    FirstViolation path first (mark :: listing) place error ↔
      (place = 0 ∧ Clash path first (some mark) error) ∨
        (∀ other, ¬ Clash path first (some mark) other) ∧
          ∃ later, place = later + 1 ∧ FirstViolation path (some mark) listing later error := by
  have shift : ∀ later, markBefore first (mark :: listing) (later + 1) = markBefore (some mark) listing later :=
    fun later => by cases later <;> rfl
  constructor
  · rintro ⟨clash, fresh⟩
    cases place with
    | zero => exact .inl ⟨rfl, clash⟩
    | succ later =>
      refine .inr ⟨fresh 0 (Nat.succ_pos _), later, rfl, shift later ▸ clash, fun earlier before other => ?_⟩
      rw [← shift]
      exact fresh (earlier + 1) (Nat.succ_lt_succ before) other
  · rintro (⟨rfl, clash⟩ | ⟨clear, later, rfl, clash, fresh⟩)
    · exact ⟨clash, fun earlier before => absurd before (Nat.not_lt_zero _)⟩
    · refine ⟨(shift later).symm ▸ clash, fun earlier before other => ?_⟩
      cases earlier with
      | zero => exact clear other
      | succ earlier =>
        rw [shift]
        exact fresh earlier (Nat.lt_of_succ_lt_succ before) other

theorem exists_firstViolation_cons {first : Option Mark} {mark : Mark} :
    (∃ place, FirstViolation path first (mark :: listing) place error) ↔
      Clash path first (some mark) error ∨
        (∀ other, ¬ Clash path first (some mark) other) ∧
          ∃ place, FirstViolation path (some mark) listing place error := by
  simp only [firstViolation_cons, exists_or, exists_eq_left]
  refine or_congr_right ⟨?_, ?_⟩
  · rintro ⟨_, clear, later, rfl, found⟩
    exact ⟨clear, later, found⟩
  · rintro ⟨clear, later, found⟩
    exact ⟨later + 1, clear, later, rfl, found⟩

/-- Reading sentinels fails with what the first violation tells. -/
theorem spansFrom_eq_error (first : Option Mark) (listing : List Mark) :
    spansFrom text path (openBehind first) listing = .error error ↔
      ∃ place, FirstViolation path first listing place error := by
  induction listing generalizing first with
  | nil =>
    simp only [firstViolation_nil, exists_eq_left]
    exact spansFrom_nil_eq_error first
  | cons mark rest ih => rw [exists_firstViolation_cons, ← ih, spansFrom_cons_eq_error]

/-! ### Units of alternating sentinels -/

/-- A unit carries the last attributes of its start sentinel and reaches to its end sentinel. -/
structure Span.Carries (span : Span) (pair : Located (List Char) × Located Unit) : Prop where
  generator : LastAttribute "factory" span.generator pair.1
  named : span.generator ≠ ""
  unitId : ∀ id, span.unitId = some id ↔ LastAttribute "id" id pair.1
  start : span.start = pair.1.start
  finish : span.finish = pair.2.finish

theorem carries_of_spanOf {span : Span} (here : spanOf text path opening closing = .ok span) :
    span.Carries (opening, closing) := by
  obtain ⟨generator, named, filled, rfl⟩ := spanOf_eq_ok.mp here
  exact ⟨attributeValue?_eq_some.mp named, filled, fun id => attributeValue?_eq_some, rfl, rfl⟩

/-- Pairs of sentinels make units when each start sentinel names a generator. -/
theorem exists_spanned_iff {pairs : List (Located (List Char) × Located Unit)} :
    (∃ spans, Spanned text path pairs spans) ↔ ∀ pair ∈ pairs, NamesGenerator pair.1 := by
  constructor
  · rintro ⟨spans, spanned⟩
    induction spanned with
    | nil => exact fun pair member => nomatch member
    | cons here _ ih =>
      have carried := carries_of_spanOf here
      exact List.forall_mem_cons.mpr ⟨⟨_, carried.named, carried.generator⟩, ih⟩
  · intro named
    induction pairs with
    | nil => exact ⟨[], .nil⟩
    | cons pair rest ih =>
      obtain ⟨first, others⟩ := List.forall_mem_cons.mp named
      obtain ⟨generator, filled, given⟩ := namesGenerator_iff.mp first
      obtain ⟨spans, spanned⟩ := ih others
      exact ⟨_, .cons (spanOf_eq_ok.mpr ⟨generator, given, filled, rfl⟩) spanned⟩

/-- What a clash tells is that a unit has the old form exactly where a pair without a generator names a
unit. -/
theorem legacy_iff_of_clash (clash : Clash path (markBefore none listing place) listing[place]? error) :
    (∀ id, error = .legacyMarker id path ↔ LegacyPair listing place id) ∧
      ((∀ id, ¬ LegacyPair listing place id) → ∃ breach, error = .structural breach path) := by
  generalize before : markBefore none listing place = first at clash
  generalize here : listing[place]? = mark at clash
  have told (id : String) : LegacyPair listing place id ↔ ∃ opening closing, first = some (.start opening) ∧
      mark = some (.finish closing) ∧ ¬ NamesGenerator opening ∧ LastAttribute "id" id opening := by
    rw [LegacyPair, before, here]
  simp only [told]
  cases clash with
  | nested opening mark => exact ⟨fun id => by simp, fun _ => ⟨_, rfl⟩⟩
  | stray closing apart =>
    refine ⟨fun id => ⟨nofun, ?_⟩, fun _ => ⟨_, rfl⟩⟩
    rintro ⟨opening, _, rfl, _⟩
    exact absurd rfl (apart opening)
  | unclosed opening => exact ⟨fun id => by simp, fun _ => ⟨_, rfl⟩⟩
  | anonymous closing nameless unnamed =>
    refine ⟨fun id => ⟨nofun, ?_⟩, fun _ => ⟨_, rfl⟩⟩
    rintro ⟨_, _, ⟨⟩, _, _, named⟩
    exact absurd named (unnamed id)
  | @legacy opening id closing nameless named =>
    have pair : ∃ opening' closing', some (Mark.start opening) = some (.start opening') ∧
        some (Mark.finish closing) = some (.finish closing') ∧ ¬ NamesGenerator opening' ∧
          LastAttribute "id" id opening' := ⟨opening, closing, rfl, rfl, nameless, named⟩
    refine ⟨fun other => ⟨?_, ?_⟩, fun none => absurd pair (none id)⟩
    · rintro ⟨⟩
      exact pair
    · rintro ⟨_, _, ⟨⟩, _, _, last⟩
      rw [Option.some.inj ((attributeValue?_eq_some.mpr named).symm.trans (attributeValue?_eq_some.mpr last))]

/-- A text has so many units as its list of sentinels has pairs, when it is made of pairs of a start and an
end and each start names a generator; the units carry what their start sentinels say last. Otherwise no
unit is read, and the failure is what the first violation tells: that a unit has the old form for a pair
whose start names a unit and no generator, and a breach of the structure for any other. -/
theorem findSpans_reads_alternation (known : dialect ∈ Dialect.standard)
    (listed : Listed dialect text listing) :
    (∀ count, (∃ spans, findSpans dialect path text = .ok spans ∧ spans.length = count) ↔
      ∃ pairs, pairs.length = count ∧ listing = pairMarks pairs ∧
        ∀ pair ∈ pairs, NamesGenerator pair.1) ∧
    (∀ spans, findSpans dialect path text = .ok spans →
      ∃ pairs, listing = pairMarks pairs ∧
        List.Forall₂ (fun pair span => Span.Carries span pair) pairs spans) ∧
    (∀ error, findSpans dialect path text = .error error ↔
      ∃ place, FirstViolation path none listing place error) ∧
    ∀ place error, FirstViolation path none listing place error →
      (∀ id, error = .legacyMarker id path ↔ LegacyPair listing place id) ∧
        ((∀ id, ¬ LegacyPair listing place id) → ∃ breach, error = .structural breach path) := by
  obtain rfl := (listed_iff (Dialect.regular_of_standard known)).mp listed
  refine ⟨fun count => ⟨?_, ?_⟩, fun spans found => ?_, fun error => spansFrom_eq_error none _,
    fun place error first => legacy_iff_of_clash first.1⟩
  · rintro ⟨spans, found, rfl⟩
    obtain ⟨pairs, paired, spanned⟩ := findSpans_eq_ok.mp found
    exact ⟨pairs, spanned.length_eq, paired, exists_spanned_iff.mp ⟨spans, spanned⟩⟩
  · rintro ⟨pairs, rfl, paired, named⟩
    obtain ⟨spans, spanned⟩ := exists_spanned_iff.mpr named
    exact ⟨spans, findSpans_eq_ok.mpr ⟨pairs, paired, spanned⟩, spanned.length_eq.symm⟩
  · obtain ⟨pairs, paired, spanned⟩ := findSpans_eq_ok.mp found
    exact ⟨pairs, paired, spanned.imp fun _ _ here => carries_of_spanOf here⟩

/-- A text whose second unit has the old form, so that the first one is not read either. -/
def outdatedText : List Char :=
  ("# @codefactory:start factory=\"a\"\n# @codefactory:end\n" ++
    "# @codefactory:start factory=\"\" id=\"b\"\n# @codefactory:end\n# @codefactory:end").toList

/-- The sentinels of the text: two pairs and one more end. -/
def outdatedMarks : List Mark :=
  [.start ⟨" factory=\"a\"".toList, 0, 32⟩, .finish ⟨(), 33, 51⟩,
    .start ⟨" factory=\"\" id=\"b\"".toList, 52, 90⟩, .finish ⟨(), 91, 109⟩, .finish ⟨(), 110, 128⟩]

/-- The pair without a generator is reported, and not the end behind it. -/
theorem findSpans_reads_alternation_of_outdated :
    Listed .hash outdatedText outdatedMarks ∧
      findSpans .hash none outdatedText = .error (.legacyMarker "b" none) ∧
      ∃ place, FirstViolation none none outdatedMarks place (.legacyMarker "b" none) ∧
        LegacyPair outdatedMarks place "b" := by
  have known : Dialect.hash ∈ Dialect.standard := by decide
  have all : marks .hash outdatedText = outdatedMarks := by cbv
  have listed : Listed .hash outdatedText outdatedMarks :=
    (listed_iff (Dialect.regular_of_standard known)).mpr all.symm
  have failed : findSpans .hash none outdatedText = .error (.legacyMarker "b" none) := by
    rw [findSpans, all]
    rfl
  obtain ⟨_, _, fails, tells⟩ := findSpans_reads_alternation known listed
  obtain ⟨place, first⟩ := (fails _).mp failed
  exact ⟨listed, failed, place, first, ((tells place _ first).1 "b").mp rfl⟩

end Scaffold.Sentinel
