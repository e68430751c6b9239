import Mathlib
import Scaffold.Proofs.Template.Blocks

/-!
Strict and lenient analysis side by side. Lenient analysis skips some loops with a warning and leaves others
without a container; strict analysis stops at the first loop of either kind. Main statement: where there is none,
both come to the same, and otherwise strict analysis names the first one.
-/

namespace Scaffold.Template

open Text Sentinel

variable {text : List Char} {blocks : List Block} {analysis : Analysis}

/-! ### What the two modes do with a loop -/

/-- What the analysis makes of a finding that is a loop. -/
def Finding.reading? : Finding → Option LoopReading
  | param _ => none
  | loop reading => some reading

def Block.loop? : Block → Option LoopBlock
  | param _ => none
  | loop block => some block

namespace LoopReading

/-- Lenient analysis skips the loop. -/
def Skipped (reading : LoopReading) : Prop :=
  reading.block = none

instance : DecidablePred Skipped :=
  fun reading => inferInstanceAs (Decidable (reading.block = none))

/-- Lenient analysis leaves the loop without a container. -/
def Bare (reading : LoopReading) : Prop :=
  ∃ block, reading.block = some block ∧ block.scalar = true ∧ block.container = none

/-- The loop cannot be read back. -/
def Refused (reading : LoopReading) : Prop :=
  reading.Skipped ∨ reading.Bare

/-- Why a loop cannot be read back if it cannot: it holds another one, or lenient analysis skips it for want of a
reference, or it is scalar without a container. -/
def fault (nested : Bool) (reading : LoopReading) : Obstacle :=
  if nested then .nested else if reading.Skipped then .noReference else .noContainer

end LoopReading

/-- A loop holds another one, or uses fields of its item, or its item alone, or neither. -/
theorem readLoop_cases (preceding : List Char) (span : LoopSpan) :
    (span.nested = true ∧ readLoop preceding span = ⟨span.tag.collection, none, some .nested⟩) ∨
      span.nested = false ∧
        ((∃ block : LoopBlock, block.scalar = false ∧
            readLoop preceding span = ⟨span.tag.collection, some block, none⟩) ∨
          (∃ block : LoopBlock, block.scalar = true ∧ readLoop preceding span =
            ⟨span.tag.collection, some block, if block.container.isNone then some .noContainer else none⟩) ∨
          readLoop preceding span = ⟨span.tag.collection, none, some .noReference⟩) := by
  unfold readLoop
  dsimp only
  split
  · next nested => exact .inl ⟨nested, rfl⟩
  · next flat =>
    refine .inr ⟨by simpa using flat, ?_⟩
    split
    · exact .inl ⟨_, rfl, rfl⟩
    · split
      · exact .inr (.inl ⟨_, rfl, rfl⟩)
      · exact .inr (.inr rfl)

/-- Something stands in the way of reading a loop back exactly when lenient analysis skips it or leaves it without
a container. -/
theorem readLoop_obstacle (preceding : List Char) (span : LoopSpan) {obstacle : Obstacle} :
    (readLoop preceding span).obstacle = some obstacle ↔
      (readLoop preceding span).Refused ∧ obstacle = (readLoop preceding span).fault span.nested := by
  unfold LoopReading.fault LoopReading.Refused LoopReading.Bare LoopReading.Skipped
  rcases readLoop_cases preceding span with
    ⟨nested, read⟩ | ⟨flat, ⟨block, fields, read⟩ | ⟨block, scalar, read⟩ | read⟩
  · simpa [nested, read] using eq_comm
  · simp [read, fields]
  · cases held : block.container with
    | none => simpa [flat, read, scalar, held] using eq_comm
    | some line => simp [read, held]
  · simpa [flat, read] using eq_comm

theorem readLoop_name (preceding : List Char) (span : LoopSpan) :
    (readLoop preceding span).name = span.tag.collection := by
  rcases readLoop_cases preceding span with ⟨_, read⟩ | ⟨_, ⟨_, _, read⟩ | ⟨_, _, read⟩ | read⟩ <;> rw [read]

namespace Group

variable {group : Group}

/-- Why the loop of a group cannot be read back if it cannot. -/
def fault (text : List Char) (group : Group) : Obstacle :=
  (group.reading text).fault (!group.isFlat)

theorem reading_name (text : List Char) (group : Group) : (group.reading text).name = group.tag.collection :=
  readLoop_name _ _

theorem reading_obstacle {obstacle : Obstacle} :
    (group.reading text).obstacle = some obstacle ↔ (group.reading text).Refused ∧ obstacle = group.fault text :=
  readLoop_obstacle _ _

theorem reading_clear : (group.reading text).obstacle = none ↔ ¬(group.reading text).Refused := by
  rw [Option.eq_none_iff_forall_ne_some]
  constructor
  · exact fun clear refused => clear _ (reading_obstacle.mpr ⟨refused, rfl⟩)
  · exact fun fine obstacle found => fine (reading_obstacle.mp found).1

end Group

/-! ### The loops of a text -/

namespace Analysis

/-- What the analysis makes of the loops it finds. -/
def readings (analysis : Analysis) : List LoopReading :=
  analysis.findings.filterMap Finding.reading?

theorem reading?_params (params : List ParamBlock) :
    (params.map Finding.param).filterMap Finding.reading? = [] := by
  simp [List.filterMap_map, Function.comp_def, Finding.reading?]

theorem readings_precede (params : List ParamBlock) (reading : LoopReading) (analysis : Analysis) :
    (analysis.precede (params.map .param ++ [.loop reading])).readings = reading :: analysis.readings := by
  rw [readings, precede, List.filterMap_append, List.filterMap_append, reading?_params]
  rfl

end Analysis

/-- The loops that the analysis finds in an outline are its groups, whatever follows. -/
theorem Laid.readings {o : Outline} {preceding whole more : List Char} {groups : List Group}
    (laid : Laid preceding.length o.closedPart groups) (form : whole = preceding ++ (o.source ++ more))
    (seen : List String) : (Analysis.ofOutline preceding seen o).readings = groups.map (Group.reading whole) := by
  induction o generalizing preceding groups seen with
  | done text =>
    cases laid
    exact Analysis.reading?_params _
  | unclosed text tag remainder =>
    cases laid
    exact Analysis.reading?_params _
  | loop text span rest ih =>
    cases laid with
    | @loop _ _ _ _ inner groups nested opened later =>
      have place : whole = preceding ++ text ++ span.source ++ (rest.source ++ more) := by
        rw [form, Outline.source]
        simp only [List.append_assoc]
      have here : (span.group (preceding.length + text.length) inner).reading whole =
          readLoop (preceding ++ text) span := by
        rw [place, ← List.length_append, List.append_assoc, span.group_reading (preceding ++ text) _ nested]
      rw [Analysis.ofOutline, Analysis.readings_precede, ih (later.behind rfl).1 place, List.map_cons, here]

/-- The loops that the analysis finds in a text are the outermost groups of its loop tags, in their order. -/
theorem exists_groups (text : List Char) :
    ∃ groups : List Group, (∀ group : Group, group ∈ groups ↔ group.Outermost (loopTags text)) ∧
      groups.Pairwise (fun first second => first.finish ≤ second.start) ∧
      (Analysis.ofOutline [] [] (outline text)).readings = groups.map (Group.reading text) := by
  obtain ⟨front, behind, groups, split, grouped, never, laid, _⟩ :=
    outlineOf_grouped 0 _ (pieces_filled loopTag?_consuming text)
  change loopTags text = front ++ behind at split
  change Laid ([] : List Char).length (outline text).closedPart groups at laid
  have form : text = [] ++ ((outline text).source ++ []) := by
    rw [source_outline, List.append_nil, List.nil_append]
  refine ⟨groups, fun group => ?_, (laid.apart (outline text).closedPart_closed).pairwise, laid.readings form []⟩
  rw [split, Group.outermost_append grouped.depth_zero never, grouped.mem_iff]

/-! ### Both modes -/

namespace Analysis

theorem obstacle?_eq (analysis : Analysis) :
    analysis.obstacle? = analysis.readings.findSome? fun reading => reading.obstacle.map (reading.name, ·) := by
  rw [obstacle?, readings, ← List.head?_filterMap, ← List.head?_filterMap, List.filterMap_filterMap]
  congr 2
  funext finding
  cases finding <;> rfl

theorem skipped_eq (analysis : Analysis) :
    analysis.skipped = analysis.readings.filterMap fun reading =>
      if reading.block.isNone then reading.obstacle.map (reading.name, ·) else none := by
  rw [skipped, readings, List.filterMap_filterMap]
  congr 1
  funext finding
  cases finding <;> rfl

theorem loops_eq (analysis : Analysis) :
    analysis.blocks.filterMap Block.loop? = analysis.readings.filterMap LoopReading.block := by
  rw [blocks, readings, List.filterMap_filterMap, List.filterMap_filterMap]
  congr 1
  funext finding
  cases finding with
  | param => rfl
  | loop reading => cases block : reading.block <;> simp [blockOf?, Finding.reading?, Block.loop?, block]

variable {groups : List Group} (read : analysis.readings = groups.map (Group.reading text))

include read in
/-- The first loop that cannot be read back. -/
theorem obstacle?_eq_some {name : String} {obstacle : Obstacle} :
    analysis.obstacle? = some (name, obstacle) ↔
      ∃ before first behind, groups = before ++ first :: behind ∧
        (∀ group ∈ before, ¬(group.reading text).Refused) ∧ (first.reading text).Refused ∧
        name = first.tag.collection ∧ obstacle = first.fault text := by
  rw [obstacle?_eq, read, List.findSome?_map, List.findSome?_eq_some_iff]
  simp only [Function.comp_apply, Option.map_eq_some_iff, Option.map_eq_none_iff, Group.reading_obstacle,
    Group.reading_clear, Group.reading_name, Prod.mk.injEq]
  constructor
  · rintro ⟨before, first, behind, split, ⟨_, ⟨refused, rfl⟩, rfl, rfl⟩, earlier⟩
    exact ⟨before, first, behind, split, earlier, refused, rfl, rfl⟩
  · rintro ⟨before, first, behind, split, earlier, refused, rfl, rfl⟩
    exact ⟨before, first, behind, split, ⟨_, ⟨refused, rfl⟩, rfl, rfl⟩, earlier⟩

include read in
theorem obstacle?_eq_none :
    analysis.obstacle? = none ↔ ∀ group ∈ groups, ¬(group.reading text).Refused := by
  rw [obstacle?_eq, read, List.findSome?_map, List.findSome?_eq_none_iff]
  simp only [Function.comp_apply, Option.map_eq_none_iff, Group.reading_clear]

include read in
theorem warnings_eq : analysis.warnings =
    (groups.filter fun group => (group.reading text).Skipped).map fun group =>
      .skippedLoop group.tag.collection (group.fault text).reason := by
  rw [warnings, skipped_eq, read, List.filterMap_map, List.map_filterMap, ← List.filterMap_eq_map,
    List.filterMap_filter]
  refine List.filterMap_congr fun group _ => ?_
  by_cases skipped : (group.reading text).Skipped
  · have obstacle := Group.reading_obstacle.mpr ⟨.inl skipped, rfl⟩
    have absent : (group.reading text).block = none := skipped
    simp [skipped, absent, obstacle, Group.reading_name]
  · have present : (group.reading text).block ≠ none := skipped
    simp [skipped, present]

include read in
/-- Lenient analysis gives no warning, and no loop without a container, exactly when nothing stands in the way. -/
theorem clear_iff : (∀ group ∈ groups, ¬(group.reading text).Refused) ↔
    analysis.warnings = [] ∧
      ∀ block, .loop block ∈ analysis.blocks → block.scalar = true → block.container ≠ none := by
  have listed (block : LoopBlock) :
      .loop block ∈ analysis.blocks ↔ ∃ group ∈ groups, (group.reading text).block = some block := by
    have loops : .loop block ∈ analysis.blocks ↔ block ∈ analysis.blocks.filterMap Block.loop? := by
      rw [List.mem_filterMap]
      constructor
      · exact fun member => ⟨_, member, rfl⟩
      · rintro ⟨entry, member, same⟩
        cases entry with
        | param => cases same
        | loop other => exact Option.some.inj same ▸ member
    rw [loops, loops_eq, read, List.filterMap_map, List.mem_filterMap]
    rfl
  rw [warnings_eq read, List.map_eq_nil_iff, List.filter_eq_nil_iff]
  simp only [listed, decide_eq_true_eq, LoopReading.Refused, LoopReading.Bare, not_or]
  constructor
  · intro clear
    refine ⟨fun group member => (clear group member).1, ?_⟩
    rintro block ⟨group, member, known⟩ scalar bare
    exact (clear group member).2 ⟨block, known, scalar, bare⟩
  · rintro ⟨kept, held⟩ group member
    refine ⟨kept group member, ?_⟩
    rintro ⟨block, known, scalar, bare⟩
    exact held block ⟨group, member, known⟩ scalar bare

theorem lenient_eq_ok : analysis.lenient = .ok blocks ↔ analysis.unclosed = none ∧ blocks = analysis.blocks := by
  unfold lenient
  cases analysis.unclosed with
  | none => simpa [Analysis.blocks] using eq_comm
  | some collection => simp

theorem strict_eq_ok : analysis.strict = .ok blocks ↔ analysis.obstacle? = none ∧ analysis.lenient = .ok blocks := by
  unfold strict
  cases analysis.obstacle? with
  | none => simp
  | some found => simp

/-- Strict analysis tells of a loop that cannot be read back before it tells of one that is never closed. -/
theorem strict_eq_unsupported {name reason : String} :
    analysis.strict = .error (.unsupportedPattern name reason) ↔
      ∃ obstacle, analysis.obstacle? = some (name, obstacle) ∧ reason = obstacle.reason := by
  unfold strict lenient
  cases analysis.obstacle? with
  | none => cases analysis.unclosed <;> simp
  | some found =>
    obtain ⟨other, obstacle⟩ := found
    simp only [Except.error.injEq, Error.unsupportedPattern.injEq, Option.some.injEq, Prod.mk.injEq]
    constructor
    · rintro ⟨rfl, rfl⟩
      exact ⟨obstacle, ⟨rfl, rfl⟩, rfl⟩
    · rintro ⟨_, ⟨rfl, rfl⟩, rfl⟩
      exact ⟨rfl, rfl⟩

end Analysis

/-- Strict and lenient analysis of a template. Strict analysis gives blocks exactly when lenient analysis gives the
same ones, warns of nothing and leaves no scalar loop without a container. The loops of the template are the
outermost groups of its loop tags, comments left out; lenient analysis warns of those that it skips, and gives the
blocks of the others. Strict analysis refuses the first of them in the order of the text that lenient analysis
skips or leaves without a container. Where there is none, both modes do the same, also about a loop that is never
closed. -/
theorem strict_iff_lenient_clear (template : List Char) :
    let text := withoutComments template
    (∀ blocks, (analyze true template).2 = .ok blocks ↔
        analyze false template = ([], .ok blocks) ∧
          ∀ block, .loop block ∈ blocks → block.scalar = true → block.container ≠ none) ∧
      ∃ groups : List Group,
        (∀ group : Group, group ∈ groups ↔ group.Outermost (loopTags text)) ∧
          groups.Pairwise (fun first second => first.finish ≤ second.start) ∧
          (analyze false template).1 =
            (groups.filter fun group => (group.reading text).Skipped).map
              (fun group => .skippedLoop group.tag.collection (group.fault text).reason) ∧
          (∀ blocks, (analyze false template).2 = .ok blocks →
            blocks.filterMap Block.loop? = groups.filterMap fun group => (group.reading text).block) ∧
          (∀ name reason, (analyze true template).2 = .error (.unsupportedPattern name reason) ↔
            ∃ before first behind, groups = before ++ first :: behind ∧
              (∀ group ∈ before, ¬(group.reading text).Refused) ∧ (first.reading text).Refused ∧
              name = first.tag.collection ∧ reason = (first.fault text).reason) ∧
          ((∀ group ∈ groups, ¬(group.reading text).Refused) → analyze true template = analyze false template) := by
  intro text
  obtain ⟨groups, outermost, apart, read⟩ := exists_groups text
  change (Analysis.ofTemplate template).readings = _ at read
  have strict : analyze true template = ([], (Analysis.ofTemplate template).strict) := rfl
  have lenient : analyze false template =
      ((Analysis.ofTemplate template).warnings, (Analysis.ofTemplate template).lenient) := rfl
  rw [strict, lenient]
  generalize Analysis.ofTemplate template = analysis at read ⊢
  have clear := (Analysis.obstacle?_eq_none read).trans (Analysis.clear_iff read)
  refine ⟨fun blocks => ?_, groups, outermost, apart, Analysis.warnings_eq read, fun blocks given => ?_,
    fun name reason => ?_, fun fine => ?_⟩
  · rw [Analysis.strict_eq_ok, clear, Prod.mk.injEq, and_assoc, and_assoc]
    refine and_congr_right fun _ => ?_
    rw [and_comm]
    refine and_congr_right fun given => ?_
    rw [(Analysis.lenient_eq_ok.mp given).2]
  · rw [(Analysis.lenient_eq_ok.mp given).2, Analysis.loops_eq, read, List.filterMap_map]
    rfl
  · simp only [Analysis.strict_eq_unsupported, Analysis.obstacle?_eq_some read]
    constructor
    · rintro ⟨_, ⟨before, first, behind, split, earlier, refused, rfl, rfl⟩, rfl⟩
      exact ⟨before, first, behind, split, earlier, refused, rfl, rfl⟩
    · rintro ⟨before, first, behind, split, earlier, refused, rfl, rfl⟩
      exact ⟨_, ⟨before, first, behind, split, earlier, refused, rfl, rfl⟩, rfl⟩
  · have none := (Analysis.obstacle?_eq_none read).mpr fine
    rw [(clear.mp none).1, Analysis.strict, none]

/-- A scalar loop without a container, and behind it a loop that does not use its item. -/
def mixedLoops : List Char :=
  "\x7b% for y in ys %\x7d\x7b\x7b y \x7d\x7d\x7b% endfor %\x7d\x7b% for x in xs %\x7dhi\x7b% endfor %\x7d".toList

/-- Strict analysis names the loop without a container, though lenient analysis warns of the one behind it only. -/
theorem strict_names_bare_loop :
    analyze false mixedLoops =
        ([.skippedLoop "xs" Obstacle.noReference.reason],
          .ok [.loop { name := "ys", body := "\x7b\x7b y \x7d\x7d".toList, item := "y", scalar := true }]) ∧
      (analyze true mixedLoops).2 = .error (.unsupportedPattern "ys" Obstacle.noContainer.reason) ∧
      ∃ first : Group, first.Outermost (loopTags (withoutComments mixedLoops)) ∧ first.tag.collection = "ys" ∧
        (first.reading (withoutComments mixedLoops)).Refused := by
  have lenient : analyze false mixedLoops =
      ([.skippedLoop "xs" Obstacle.noReference.reason],
        .ok [.loop { name := "ys", body := "\x7b\x7b y \x7d\x7d".toList, item := "y", scalar := true }]) := by cbv
  have strict : (analyze true mixedLoops).2 = .error (.unsupportedPattern "ys" Obstacle.noContainer.reason) := by cbv
  obtain ⟨_, groups, outermost, _, _, _, first, _⟩ := strict_iff_lenient_clear mixedLoops
  obtain ⟨_, group, _, rfl, _, refused, name, _⟩ := (first _ _).mp strict
  exact ⟨lenient, strict, group, (outermost group).mp (by simp), name.symm, refused⟩

end Scaffold.Template
