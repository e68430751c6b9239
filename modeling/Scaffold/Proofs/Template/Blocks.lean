import Scaffold.Proofs.Sentinel.Written
import Scaffold.Proofs.Template.Groups
import Scaffold.Proofs.Template.Places

/-!
The blocks of a template. Placeholders count outside the outermost groups of loop tags, and each group counts as
a loop. Main statement: analysis fails exactly when the depth of the loop tags is positive at the end, and
otherwise its blocks are the first placeholder of each name outside the groups and the groups that can be read
back, in the order of the text.
-/

namespace Scaffold.Template

open Text Sentinel

variable {text preceding whole : List Char} {offset total start finish : Nat} {group : Group} {rest groups : List Group}
  {o : Outline} {block : ParamBlock} {seen seen' : List String} {placed : List (Nat × Finding)}

/-! ### The first placeholder of each name -/

/-- Findings without the placeholders whose names came before. -/
def keepFirst (seen : List String) : List (Nat × Finding) → List (Nat × Finding)
  | [] => []
  | (offset, .param block) :: rest =>
    if seen.contains block.name then keepFirst seen rest
    else (offset, .param block) :: keepFirst (block.name :: seen) rest
  | (offset, .loop reading) :: rest => (offset, .loop reading) :: keepFirst seen rest

theorem keepFirst_congr (same : ∀ name, name ∈ seen ↔ name ∈ seen') (placed : List (Nat × Finding)) :
    keepFirst seen placed = keepFirst seen' placed := by
  induction placed generalizing seen seen' with
  | nil => rfl
  | cons entry rest ih =>
    obtain ⟨offset, block | reading⟩ := entry
    · have known : seen.contains block.name = seen'.contains block.name := by
        rw [Bool.eq_iff_iff, List.contains_iff_mem, List.contains_iff_mem, same]
      have longer : ∀ name, name ∈ block.name :: seen ↔ name ∈ block.name :: seen' := by
        simp [same]
      rw [keepFirst, keepFirst, known, ih same, ih longer]
    · rw [keepFirst, keepFirst, ih same]

theorem keepFirst_sublist (seen : List String) (placed : List (Nat × Finding)) :
    (keepFirst seen placed).Sublist placed := by
  induction placed generalizing seen with
  | nil => exact List.Sublist.slnil
  | cons entry rest ih =>
    obtain ⟨offset, block | reading⟩ := entry
    · rw [keepFirst]
      split
      · exact (ih seen).cons _
      · exact (ih _).cons_cons _
    · exact (ih seen).cons_cons _

theorem mem_keepFirst_loop {reading : LoopReading} :
    (offset, .loop reading) ∈ keepFirst seen placed ↔ (offset, .loop reading) ∈ placed := by
  induction placed generalizing seen with
  | nil => rfl
  | cons entry rest ih =>
    obtain ⟨place, block | other⟩ := entry
    · rw [keepFirst]
      split
      · simp [ih]
      · simp [ih]
    · simp [keepFirst, ih]

/-- Every placeholder of a name among findings stands at an offset or behind it. -/
def NoEarlier (name : String) (offset : Nat) (placed : List (Nat × Finding)) : Prop :=
  ∀ place other, (place, .param other) ∈ placed → other.name = name → offset ≤ place

theorem noEarlier_cons {name : String} {first : ParamBlock} :
    NoEarlier name offset ((start, .param first) :: placed) ↔
      (first.name = name → offset ≤ start) ∧ NoEarlier name offset placed := by
  constructor
  · intro least
    exact ⟨least start first List.mem_cons_self,
      fun place other member => least place other (List.mem_cons_of_mem _ member)⟩
  · rintro ⟨here, least⟩ place other member same
    rcases List.mem_cons.mp member with first | later
    · cases first
      exact here same
    · exact least place other later same

/-- Of the placeholders in their order those are kept whose name is new and that are the first of it. -/
theorem mem_keepFirst_param (ascending : placed.Pairwise fun first second => first.1 < second.1) :
    (offset, .param block) ∈ keepFirst seen placed ↔
      (offset, .param block) ∈ placed ∧ block.name ∉ seen ∧ NoEarlier block.name offset placed := by
  induction placed generalizing seen with
  | nil => simp [keepFirst]
  | cons entry rest ih =>
    obtain ⟨before, onward⟩ := List.pairwise_cons.mp ascending
    obtain ⟨start, first | reading⟩ := entry
    · rw [keepFirst, noEarlier_cons, List.mem_cons]
      split
      · next known =>
        -- an earlier block has the name, so this one is dropped
        rw [List.contains_iff_mem] at known
        rw [ih onward]
        constructor
        · rintro ⟨listed, new, least⟩
          exact ⟨.inr listed, new, fun same => absurd (same ▸ known) new, least⟩
        · rintro ⟨here | listed, new, _, least⟩
          · cases here
            exact absurd known new
          · exact ⟨listed, new, least⟩
      · next unknown =>
        -- the block is the first of its name, and hides later ones
        rw [List.contains_iff_mem] at unknown
        rw [List.mem_cons, ih onward, List.mem_cons, not_or]
        constructor
        · rintro (here | ⟨listed, ⟨apart, new⟩, least⟩)
          · cases here
            exact ⟨.inl rfl, unknown, fun _ => Nat.le_refl _,
              fun place other later _ => Nat.le_of_lt (before _ later)⟩
          · exact ⟨.inr listed, new, fun same => absurd same.symm apart, least⟩
        · rintro ⟨here | listed, new, least, later⟩
          · exact .inl here
          · have apart : block.name ≠ first.name := fun same =>
              absurd (before _ listed) (Nat.not_lt_of_le (least same.symm))
            exact .inr ⟨listed, ⟨apart, new⟩, later⟩
    · rw [keepFirst, List.mem_cons, ih onward]
      simp [NoEarlier]

/-! ### Findings with their places -/

/-- The findings in an outline, given the text before it, with their offsets. A placeholder is listed each time
it stands there. -/
def placedFindings (preceding : List Char) : Outline → List (Nat × Finding)
  | .done text => (placedParams preceding.length text).map (Prod.map id .param)
  | .unclosed text _ _ => (placedParams preceding.length text).map (Prod.map id .param)
  | .loop text span rest =>
    (placedParams preceding.length text).map (Prod.map id .param) ++
      (preceding.length + text.length, .loop (readLoop (preceding ++ text) span)) ::
        placedFindings (preceding ++ text ++ span.source) rest

theorem keepFirst_params (seen : List String) (blocks : List (Nat × ParamBlock)) (rest : List (Nat × Finding)) :
    (keepFirst seen (blocks.map (Prod.map id .param) ++ rest)).map Prod.snd =
      (Analysis.newParams seen (blocks.map Prod.snd)).map .param ++
        (keepFirst ((Analysis.newParams seen (blocks.map Prod.snd)).map ParamBlock.name ++ seen) rest).map
          Prod.snd := by
  induction blocks generalizing seen with
  | nil => rfl
  | cons entry blocks ih =>
    obtain ⟨offset, block⟩ := entry
    rw [List.map_cons, List.cons_append, List.map_cons, Analysis.newParams]
    change (keepFirst seen ((offset, .param block) :: _)).map _ = _
    rw [keepFirst]
    split
    · exact ih seen
    · rw [List.map_cons, ih, List.map_cons, List.map_cons, List.cons_append]
      refine congrArg (_ :: _ ++ ·) (congrArg (List.map Prod.snd) (keepFirst_congr (fun name => ?_) rest))
      simp only [List.mem_append, List.mem_cons]
      tauto

theorem findings_eq (preceding : List Char) (seen : List String) (o : Outline) :
    (Analysis.ofOutline preceding seen o).findings = (keepFirst seen (placedFindings preceding o)).map Prod.snd := by
  have ended (text : List Char) (seen : List String) (preceding : List Char) :
      (keepFirst seen ((placedParams preceding.length text).map (Prod.map id .param))).map Prod.snd =
        (Analysis.newParams seen (textParams text)).map .param := by
    have kept := keepFirst_params seen (placedParams preceding.length text) []
    rwa [List.append_nil, placedParams_blocks, keepFirst, List.map_nil, List.append_nil] at kept
  induction o generalizing preceding seen with
  | done text => exact (ended text seen preceding).symm
  | unclosed text tag remainder => exact (ended text seen preceding).symm
  | loop text span rest ih =>
    rw [placedFindings, keepFirst_params, placedParams_blocks, keepFirst, List.map_cons, ← ih,
      Analysis.ofOutline, Analysis.precede, List.append_assoc]
    rfl

/-! ### Groups as loops -/

/-- The part of a text between two offsets. -/
def part (text : List Char) (start finish : Nat) : List Char :=
  (text.take finish).drop start

namespace Group

/-- The trimmed text inside a group. -/
def body (text : List Char) (group : Group) : List Char :=
  trim (part text group.bodyStart group.bodyFinish)

/-- The text inside a group refers to a field of the loop's item, or to the item itself. -/
def Refers (text : List Char) (group : Group) : Prop :=
  (∃ field : Located String, field.At (fieldReference? group.tag.item) (group.body text)) ∨
    ∃ item : Located Unit, item.At (itemReference? group.tag.item) (group.body text)

/-- The block of a group as a loop. It is scalar if it refers to no field. -/
def toBlock (text : List Char) (group : Group) : LoopBlock :=
  let fields := fieldsUsed group.tag.item (group.body text)
  { name := group.tag.collection
    body := group.body text
    item := group.tag.item
    fields := fields.map (·, Kind.string)
    scalar := fields.isEmpty
    container := if fields.isEmpty then container? (text.take group.start) else none }

/-- What the analysis makes of a group as a loop. -/
def reading (text : List Char) (group : Group) : LoopReading :=
  readLoop (text.take group.start)
    ⟨group.tag, [], part text group.bodyStart group.bodyFinish, !group.isFlat, []⟩

theorem fieldsUsed_ne_nil {item : String} {body : List Char} :
    fieldsUsed item body ≠ [] ↔ findAll (fieldReference? item) body ≠ [] := by
  rw [fieldsUsed]
  cases findAll (fieldReference? item) body with
  | nil => simp
  | cons field fields => simp [List.eraseDups_cons]

/-- A group has a block exactly when it holds no other opening tag and refers to the item of its loop. -/
theorem reading_block {block : LoopBlock} : (group.reading text).block = some block ↔
    group.isFlat = true ∧ group.Refers text ∧ block = group.toBlock text := by
  rw [Refers, ← findAll_ne_nil_iff (consuming_fieldReference? _), ← findAll_ne_nil_iff (consuming_itemReference? _),
    ← fieldsUsed_ne_nil, reading, readLoop]
  dsimp only [toBlock]
  rw [← body, eq_comm (a := block)]
  cases flat : group.isFlat with
  | false => simp
  | true =>
    cases fields : fieldsUsed group.tag.item (group.body text) with
    | nil =>
      cases items : findAll (itemReference? group.tag.item) (group.body text) with
      | nil => simp
      | cons => simp
    | cons => simp

end Group

theorem LoopSpan.group_reading {span : LoopSpan} {inner : List (Located LoopTag)} (preceding back : List Char)
    (nested : span.nested = inner.any fun tag => tag.value.isOpening) :
    (span.group preceding.length inner).reading (preceding ++ (span.source ++ back)) = readLoop preceding span := by
  have flat : (!(span.group preceding.length inner).isFlat) = span.nested := by
    rw [nested, Group.isFlat, List.not_all_eq_any_not]
    simp [LoopSpan.group]
  have before : (preceding ++ (span.source ++ back)).take preceding.length = preceding := List.take_left
  have inside : part (preceding ++ (span.source ++ back)) (preceding.length + span.opening.length)
      (preceding.length + span.opening.length + span.inner.length) = span.inner := by
    have form : preceding ++ (span.source ++ back) =
        (preceding ++ span.opening) ++ (span.inner ++ (span.closing ++ back)) := by
      simp only [LoopSpan.source, List.append_assoc]
    rw [part, form, ← List.length_append, drop_take_middle]
  rw [Group.reading, flat]
  change readLoop ((preceding ++ (span.source ++ back)).take preceding.length)
    ⟨span.tag, [], part _ (preceding.length + span.opening.length) _, span.nested, []⟩ = _
  rw [before]
  change readLoop preceding ⟨span.tag, [], part _ _ (preceding.length + span.opening.length + span.inner.length),
    span.nested, []⟩ = _
  rw [inside]
  rfl

/-! ### The text outside of groups -/

/-- Groups stand one behind the other between two offsets. -/
def Apart (offset total : Nat) : List Group → Prop
  | [] => offset ≤ total
  | group :: rest => offset ≤ group.start ∧ group.start < group.finish ∧ Apart group.finish total rest

/-- The stretches between groups, from an offset up to another one. -/
def gaps (offset total : Nat) : List Group → List (Nat × Nat)
  | [] => [(offset, total)]
  | group :: rest => (offset, group.start) :: gaps group.finish total rest

/-- A stretch between two neighbouring groups, where the offsets of the whole count as groups. -/
structure Gap (offset total : Nat) (groups : List Group) (start finish : Nat) : Prop where
  ordered : start ≤ finish
  begins : start = offset ∨ ∃ group ∈ groups, group.finish = start
  ends : finish = total ∨ ∃ group ∈ groups, group.start = finish
  apart : ∀ group ∈ groups, group.finish ≤ start ∨ finish ≤ group.start

theorem Apart.bounds (apart : Apart offset total groups) :
    ∀ group ∈ groups, offset ≤ group.start ∧ group.start < group.finish ∧ group.finish ≤ total := by
  induction groups generalizing offset with
  | nil => exact nofun
  | cons group rest ih =>
    obtain ⟨behind, filled, apart⟩ := apart
    have later := ih apart
    have total : group.finish ≤ total := by
      cases rest with
      | nil => exact apart
      | cons next rest =>
        have bounds := later next List.mem_cons_self
        omega
    refine List.forall_mem_cons.mpr ⟨⟨behind, filled, total⟩, fun other member => ?_⟩
    have bounds := later other member
    omega

theorem Apart.pairwise (apart : Apart offset total groups) :
    groups.Pairwise fun first second => first.finish ≤ second.start := by
  induction groups generalizing offset with
  | nil => exact .nil
  | cons group rest ih =>
    obtain ⟨_, _, apart⟩ := apart
    exact .cons (fun other member => (apart.bounds other member).1) (ih apart)

theorem Gap.first (apart : Apart offset total (group :: rest)) :
    Gap offset total (group :: rest) offset group.start := by
  obtain ⟨behind, filled, later⟩ := apart
  refine ⟨behind, .inl rfl, .inr ⟨group, List.mem_cons_self, rfl⟩, ?_⟩
  refine List.forall_mem_cons.mpr ⟨.inr (Nat.le_refl _), fun other member => .inr ?_⟩
  have bounds := later.bounds other member
  omega

theorem Gap.onward (apart : Apart offset total (group :: rest)) (gap : Gap group.finish total rest start finish) :
    Gap offset total (group :: rest) start finish := by
  have lower : group.finish ≤ start := by
    rcases gap.begins with rfl | ⟨other, member, rfl⟩
    · exact Nat.le_refl _
    · have bounds := apart.2.2.bounds other member
      omega
  refine ⟨gap.ordered, .inr ?_, gap.ends.imp_right ?_, List.forall_mem_cons.mpr ⟨.inl lower, gap.apart⟩⟩
  · rcases gap.begins with rfl | ⟨other, member, same⟩
    · exact ⟨group, List.mem_cons_self, rfl⟩
    · exact ⟨other, List.mem_cons_of_mem _ member, same⟩
  · rintro ⟨other, member, same⟩
    exact ⟨other, List.mem_cons_of_mem _ member, same⟩

/-- A stretch lies before the first group, or between those behind it. -/
theorem Gap.cases (apart : Apart offset total (group :: rest)) (gap : Gap offset total (group :: rest) start finish) :
    start = offset ∧ finish = group.start ∨ Gap group.finish total rest start finish := by
  have within := (apart.bounds group List.mem_cons_self).2.2
  obtain ⟨behind, filled, later⟩ := apart
  obtain ⟨ordered, begins, ends, apart⟩ := gap
  obtain ⟨here, apart⟩ := List.forall_mem_cons.mp apart
  have begins : start = offset ∨ start = group.finish ∨ ∃ other ∈ rest, other.finish = start := by
    simpa [eq_comm] using begins
  have ends : finish = total ∨ finish = group.start ∨ ∃ other ∈ rest, other.start = finish := by
    simpa [eq_comm] using ends
  rcases here with above | below
  · refine .inr ⟨ordered, ?_, ?_, apart⟩
    · rcases begins with rfl | rfl | other
      · omega
      · exact .inl rfl
      · exact .inr other
    · rcases ends with rfl | rfl | other
      · exact .inl rfl
      · omega
      · exact .inr other
  · refine .inl ⟨?_, ?_⟩
    · rcases begins with rfl | rfl | ⟨other, member, rfl⟩
      · rfl
      · omega
      · have bounds := later.bounds other member
        omega
    · rcases ends with rfl | rfl | ⟨other, member, rfl⟩
      · omega
      · rfl
      · have bounds := later.bounds other member
        omega

theorem mem_gaps (apart : Apart offset total groups) :
    (start, finish) ∈ gaps offset total groups ↔ Gap offset total groups start finish := by
  induction groups generalizing offset with
  | nil =>
    rw [gaps, List.mem_singleton, Prod.mk.injEq]
    constructor
    · rintro ⟨rfl, rfl⟩
      exact ⟨apart, .inl rfl, .inl rfl, nofun⟩
    · rintro ⟨_, rfl | ⟨_, member, _⟩, rfl | ⟨_, member', _⟩, _⟩
      · exact ⟨rfl, rfl⟩
      · cases member'
      · cases member
      · cases member
  | cons group rest ih =>
    rw [gaps, List.mem_cons, ih apart.2.2, Prod.mk.injEq]
    constructor
    · rintro (⟨rfl, rfl⟩ | gap)
      · exact .first apart
      · exact gap.onward apart
    · exact Gap.cases apart

theorem LoopSpan.group_finish {span : LoopSpan} {inner : List (Located LoopTag)} :
    (span.group start inner).finish = start + span.source.length := by
  simp only [LoopSpan.group, LoopSpan.source, List.length_append]
  omega

theorem LoopSpan.source_pos (span : LoopSpan) (opened : span.opening ≠ []) : 0 < span.source.length := by
  have positive := List.length_pos_iff.mpr opened
  simp only [LoopSpan.source, List.length_append]
  omega

theorem Laid.apart (laid : Laid offset o groups) (closed : o.Closed) :
    Apart offset (offset + o.source.length) groups := by
  induction laid with
  | done offset text => exact Nat.le_add_right _ _
  | @loop offset text span rest inner groups nested opened later ih =>
    have filled := span.source_pos opened
    have apart := ih closed
    rw [LoopSpan.group_finish, Nat.add_assoc, Nat.add_assoc] at apart
    refine ⟨Nat.le_add_right _ _, ?_, ?_⟩
    · rw [LoopSpan.group_finish]
      exact Nat.lt_add_of_pos_right filled
    · rw [LoopSpan.group_finish, Outline.source, List.length_append, List.length_append, Nat.add_assoc,
        ← Nat.add_assoc]
      rwa [← Nat.add_assoc] at apart

/-! ### The findings of an outline with groups -/

section Findings

variable {blocks : List (Nat × ParamBlock)} {reading : LoopReading}

theorem mem_map_param : (offset, .param block) ∈ blocks.map (Prod.map id Finding.param) ↔
    (offset, block) ∈ blocks := by
  simp

theorem not_mem_map_param : (offset, .loop reading) ∉ blocks.map (Prod.map id Finding.param) := by
  simp

theorem part_last (preceding text : List Char) :
    part (preceding ++ text) preceding.length (preceding ++ text).length = text := by
  rw [part, List.take_length, List.drop_left]

theorem part_middle (preceding text back : List Char) :
    part (preceding ++ (text ++ back)) preceding.length (preceding.length + text.length) = text :=
  drop_take_middle preceding text back

/-- What the rest of an outline is laid out behind, and the whole that it ends. -/
theorem Laid.behind {span : LoopSpan} {rest : Outline} {inner : List (Located LoopTag)}
    (later : Laid (span.group (preceding.length + text.length) inner).finish rest groups)
    (form : whole = preceding ++ (Outline.loop text span rest).source) :
    Laid (preceding ++ text ++ span.source).length rest groups ∧
      whole = preceding ++ text ++ span.source ++ rest.source := by
  refine ⟨?_, ?_⟩
  · rwa [LoopSpan.group_finish, ← List.length_append, ← List.length_append] at later
  · rw [form, Outline.source]
    simp only [List.append_assoc]

/-- The placeholders among the findings are those of the text between the groups. -/
theorem mem_placedFindings_param (laid : Laid preceding.length o groups) (closed : o.Closed)
    (form : whole = preceding ++ o.source) :
    (offset, .param block) ∈ placedFindings preceding o ↔
      ∃ start finish, (start, finish) ∈ gaps preceding.length whole.length groups ∧
        (offset, block) ∈ placedParams start (part whole start finish) := by
  induction o generalizing preceding groups with
  | done text =>
    cases laid
    subst form
    rw [placedFindings, mem_map_param, gaps]
    simp only [List.mem_singleton, Prod.mk.injEq, Outline.source]
    constructor
    · intro listed
      exact ⟨_, _, ⟨rfl, rfl⟩, (part_last preceding text).symm ▸ listed⟩
    · rintro ⟨_, _, ⟨rfl, rfl⟩, listed⟩
      exact part_last preceding text ▸ listed
  | unclosed => exact closed.elim
  | loop text span rest ih =>
    cases laid with
    | @loop _ _ _ _ inner groups nested opened later =>
      obtain ⟨later, form'⟩ := later.behind form
      have here : part whole preceding.length (preceding.length + text.length) = text := by
        rw [form, Outline.source, List.append_assoc, part_middle]
      have finish : (span.group (preceding.length + text.length) inner).finish =
          (preceding ++ text ++ span.source).length := by
        rw [LoopSpan.group_finish, List.length_append, List.length_append]
      rw [placedFindings, List.mem_append, mem_map_param, List.mem_cons, ih later closed form', gaps, finish]
      simp only [Prod.mk.injEq, reduceCtorEq, and_false, false_or]
      constructor
      · rintro (listed | ⟨start, finish, stretch, listed⟩)
        · exact ⟨_, _, List.mem_cons_self, here.symm ▸ listed⟩
        · exact ⟨start, finish, List.mem_cons_of_mem _ stretch, listed⟩
      · rintro ⟨start, finish, stretch, listed⟩
        rcases List.mem_cons.mp stretch with first | stretch
        · obtain ⟨rfl, rfl⟩ := Prod.mk.inj first
          exact .inl (here ▸ listed)
        · exact .inr ⟨start, finish, stretch, listed⟩

theorem mem_placedFindings_loop (laid : Laid preceding.length o groups) (closed : o.Closed)
    (form : whole = preceding ++ o.source) :
    (offset, .loop reading) ∈ placedFindings preceding o ↔
      ∃ group ∈ groups, offset = group.start ∧ reading = group.reading whole := by
  induction o generalizing preceding groups with
  | done text =>
    cases laid
    exact ⟨fun listed => absurd listed not_mem_map_param, nofun⟩
  | unclosed => exact closed.elim
  | loop text span rest ih =>
    cases laid with
    | @loop _ _ _ _ inner groups nested opened later =>
      obtain ⟨later, form'⟩ := later.behind form
      have here : (span.group (preceding.length + text.length) inner).reading whole =
          readLoop (preceding ++ text) span := by
        rw [form', ← List.length_append, List.append_assoc, span.group_reading (preceding ++ text) _ nested]
      rw [placedFindings, List.mem_append, List.mem_cons, ih later closed form', List.exists_mem_cons_iff, here,
        or_iff_right not_mem_map_param, Prod.mk.injEq, Finding.loop.injEq]
      rfl

theorem placedFindings_ordered (laid : Laid preceding.length o groups) (closed : o.Closed) :
    Ordered preceding.length (preceding.length + o.source.length) (placedFindings preceding o) := by
  induction o generalizing preceding groups with
  | done text => exact (placedParams_ordered preceding.length text).map Finding.param
  | unclosed => exact closed.elim
  | loop text span rest ih =>
    cases laid with
    | @loop _ _ _ _ inner groups nested opened later =>
      obtain ⟨later, _⟩ := later.behind rfl
      have filled := span.source_pos opened
      have ordered := ih later closed
      have params := (placedParams_ordered preceding.length text).map Finding.param
      rw [placedFindings, Outline.source]
      simp only [List.length_append] at ordered ⊢
      have inside : preceding.length + text.length < preceding.length + text.length + span.source.length :=
        Nat.lt_add_of_pos_right filled
      have single := Ordered.single inside (Finding.loop (readLoop (preceding ++ text) span))
      have behind := single.append ordered (Nat.le_add_right _ _) (by omega)
      have whole := params.append behind (Nat.le_add_right _ _) (by omega)
      exact whole.mono (by omega)

end Findings

/-! ### The blocks of a template -/

/-- A placeholder stands at an offset in a line of the text outside of groups. -/
def Shown (text : List Char) (groups : List Group) (offset : Nat) (block : ParamBlock) : Prop :=
  ∃ start finish, Gap 0 text.length groups start finish ∧
    ShownAt (part text start finish) start offset block

/-- The blocks of a text with groups, at their offsets: the first placeholder of each name outside the groups,
and each group that holds no other opening tag and refers to the item of its loop. -/
inductive Placed (text : List Char) (groups : List Group) : Nat → Block → Prop
  | param {offset : Nat} {block : ParamBlock} : Shown text groups offset block →
    (∀ place other, Shown text groups place other → other.name = block.name → offset ≤ place) →
      Placed text groups offset (.param block)
  | loop {group : Group} : group ∈ groups → group.isFlat = true → group.Refers text →
    Placed text groups group.start (.loop (group.toBlock text))

/-- The blocks of findings, with their offsets. -/
def placedBlocks (placed : List (Nat × Finding)) : List (Nat × Block) :=
  placed.filterMap fun entry => (Analysis.blockOf? entry.2).map (entry.1, ·)

theorem placedBlocks_blocks (placed : List (Nat × Finding)) :
    (placedBlocks placed).map Prod.snd = (placed.map Prod.snd).filterMap Analysis.blockOf? := by
  rw [placedBlocks, List.map_filterMap, List.filterMap_map]
  refine List.filterMap_congr fun entry _ => ?_
  rw [Function.comp_apply]
  cases Analysis.blockOf? entry.2 with
  | none => rfl
  | some block => rfl

theorem placedBlocks_ascending (ascending : placed.Pairwise fun first second => first.1 < second.1) :
    (placedBlocks placed).Pairwise fun first second => first.1 < second.1 := by
  refine List.pairwise_filterMap.mpr (ascending.imp fun before one first other second => ?_)
  obtain ⟨_, _, rfl⟩ := Option.map_eq_some_iff.mp first
  obtain ⟨_, _, rfl⟩ := Option.map_eq_some_iff.mp second
  exact before

theorem mem_placedBlocks_param : (offset, .param block) ∈ placedBlocks placed ↔ (offset, .param block) ∈ placed := by
  rw [placedBlocks, List.mem_filterMap]
  constructor
  · rintro ⟨⟨place, finding⟩, listed, found⟩
    obtain ⟨_, known, same⟩ := Option.map_eq_some_iff.mp found
    cases same
    cases finding with
    | param other =>
      cases known
      exact listed
    | loop reading =>
      obtain ⟨_, _, same⟩ := Option.map_eq_some_iff.mp known
      cases same
  · intro listed
    exact ⟨_, listed, rfl⟩

theorem mem_placedBlocks_loop {block : LoopBlock} : (offset, .loop block) ∈ placedBlocks placed ↔
    ∃ reading : LoopReading, (offset, .loop reading) ∈ placed ∧ reading.block = some block := by
  rw [placedBlocks, List.mem_filterMap]
  constructor
  · rintro ⟨⟨place, finding⟩, listed, found⟩
    obtain ⟨_, known, same⟩ := Option.map_eq_some_iff.mp found
    cases same
    cases finding with
    | param other => cases known
    | loop reading =>
      obtain ⟨_, read, same⟩ := Option.map_eq_some_iff.mp known
      cases same
      exact ⟨reading, listed, read⟩
  · rintro ⟨reading, listed, read⟩
    refine ⟨_, listed, ?_⟩
    rw [Analysis.blockOf?, read]
    rfl

theorem unclosed_of_not_closed (open_ : ¬ o.Closed) (preceding : List Char) (seen : List String) :
    ∃ collection, (Analysis.ofOutline preceding seen o).unclosed = some collection := by
  induction o generalizing preceding seen with
  | done => exact absurd trivial open_
  | loop text span rest ih => exact ih open_ _ _
  | unclosed text tag remainder => exact ⟨tag.collection, rfl⟩

theorem mem_firstBlocks (laid : Laid ([] : List Char).length (outline text) groups)
    (closed : (outline text).Closed) {entry : Block} :
    (offset, entry) ∈ placedBlocks (keepFirst [] (placedFindings [] (outline text))) ↔
      Placed text groups offset entry := by
  have form : text = [] ++ (outline text).source := (source_outline text).symm
  have ordered := placedFindings_ordered laid closed
  have shown (place : Nat) (block : ParamBlock) :
      (place, .param block) ∈ placedFindings [] (outline text) ↔ Shown text groups place block := by
    have apart := laid.apart closed
    rw [source_outline, List.length_nil, Nat.zero_add] at apart
    rw [mem_placedFindings_param laid closed form]
    refine exists_congr fun start => exists_congr fun finish => ?_
    rw [List.length_nil, mem_gaps apart, mem_placedParams]
  cases entry with
  | param block =>
    rw [mem_placedBlocks_param, mem_keepFirst_param ordered.ascending]
    simp only [NoEarlier, shown, List.not_mem_nil, not_false_eq_true, true_and]
    constructor
    · rintro ⟨here, least⟩
      exact .param here least
    · rintro ⟨here, least⟩
      exact ⟨here, least⟩
  | loop block =>
    rw [mem_placedBlocks_loop]
    simp only [mem_keepFirst_loop, mem_placedFindings_loop laid closed form]
    constructor
    · rintro ⟨_, ⟨group, member, rfl, rfl⟩, read⟩
      obtain ⟨flat, refers, rfl⟩ := Group.reading_block.mp read
      exact .loop member flat refers
    · intro here
      cases here with
      | loop member flat refers =>
        exact ⟨_, ⟨_, member, rfl, rfl⟩, Group.reading_block.mpr ⟨flat, refers, rfl⟩⟩

/-- The analysis of a template by the depth of its loop tags, comments left out. The tags are all that are
recognised in the text. Where the depth is positive at the end, the analysis fails for a loop that is never
closed. Where it is zero, the outermost groups of tags do not overlap, and the analysis gives the blocks of the
text with these groups in the order of the text. -/
theorem analyze_by_depth (template : List Char) :
    (∀ tag, tag ∈ loopTags (withoutComments template) ↔ tag.At loopTag? (withoutComments template)) ∧
      (loopTags (withoutComments template)).Pairwise (fun first second => first.finish ≤ second.start) ∧
      ((0 < depthFrom 0 (loopTags (withoutComments template)) ∧
          ∃ collection, (analyze false template).2 = .error (.unclosedLoop collection)) ∨
        depthFrom 0 (loopTags (withoutComments template)) = 0 ∧ ∃ groups : List Group, ∃ blocks : List (Nat × Block),
          (∀ group : Group, group ∈ groups ↔ group.Outermost (loopTags (withoutComments template))) ∧
          groups.Pairwise (fun first second => first.finish ≤ second.start) ∧
          (analyze false template).2 = .ok (blocks.map Prod.snd) ∧
          blocks.Pairwise (fun first second => first.1 < second.1) ∧
          ∀ offset block, (offset, block) ∈ blocks ↔ Placed (withoutComments template) groups offset block) := by
  refine ⟨fun tag => mem_loopTags, loopTags_pairwise _, ?_⟩
  have result : (analyze false template).2 = (Analysis.ofTemplate template).lenient := rfl
  rw [result, Analysis.lenient, Analysis.ofTemplate]
  generalize withoutComments template = text
  rcases outline_grouped text with ⟨closed, zero, groups, grouped, laid⟩ | ⟨open_, deep⟩
  · change Laid ([] : List Char).length (outline text) groups at laid
    have ordered := placedFindings_ordered laid closed
    refine .inr ⟨zero, groups, placedBlocks (keepFirst [] (placedFindings [] (outline text))),
      fun group => grouped.mem_iff, (laid.apart closed).pairwise, ?_, ?_, fun offset block => mem_firstBlocks laid closed⟩
    · rw [Analysis.unclosed_of_closed closed, placedBlocks_blocks, ← findings_eq]
    · exact placedBlocks_ascending (ordered.ascending.sublist (keepFirst_sublist _ _))
  · obtain ⟨collection, unclosed⟩ := unclosed_of_not_closed open_ [] []
    rw [unclosed]
    exact .inl ⟨deep, collection, rfl⟩

end Scaffold.Template
