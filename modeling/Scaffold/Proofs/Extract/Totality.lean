import Mathlib.Data.List.Forall2
import Scaffold.Extract.Extractor
import Scaffold.Proofs.Outcome
import Scaffold.Proofs.Pattern.Captures

/-!
When extractors can be built and when they give values. An extractor is built unless a loop has a field
whose name cannot name a capture. What it reads off a match has been captured when the fragments of a
line show every placeholder that its block was made of.
-/

namespace Scaffold.Extract

open Text Template

variable {select : List Char → Option String} {body : String → Pattern} {parts : List Fragment}
  {captured : List String} {name : String} {source : List Char} {hints : Hints}

/-! ### Captures by name -/

/-- Expressions that give names capture under them; the others stand for any text. -/
def captureAs (select : List Char → Option String) (body : String → Pattern)
    (captured : List String) (inner : List Char) : Pattern × List String :=
  match select inner with
  | some name => captureOnce captured name (body name)
  | none => (wildcard, captured)

/-- An expression among fragments gives a name. -/
def Selects (select : List Char → Option String) (parts : List Fragment) (name : String) : Prop :=
  ∃ inner, .expression inner ∈ parts ∧ select inner = some name

theorem selects_cons_expression {inner : List Char} :
    Selects select (.expression inner :: parts) name ↔
      select inner = some name ∨ Selects select parts name := by
  simp [Selects, or_and_right, exists_or]

theorem selects_cons {part : Fragment} (other : ∀ inner, part ≠ .expression inner) :
    Selects select (part :: parts) name ↔ Selects select parts name := by
  simp only [Selects, List.mem_cons]
  constructor
  · rintro ⟨inner, same | later, given⟩
    · exact absurd same.symm (other inner)
    · exact ⟨inner, later, given⟩
  · rintro ⟨inner, later, given⟩
    exact ⟨inner, .inr later, given⟩

/-- A name that is given is captured, if it has not been before. -/
theorem certain_of_selects (selected : Selects select parts name) (fresh : name ∉ captured) :
    name ∈ (patternsFrom (captureAs select body) captured parts).flatMap Pattern.certainNames := by
  induction parts generalizing captured with
  | nil =>
    obtain ⟨inner, impossible, _⟩ := selected
    cases impossible
  | cons part parts ih =>
    cases part with
    | expression inner =>
      -- the first expression of a name captures it, and any later one is passed
      rw [patternsFrom, List.flatMap_cons, List.mem_append]
      rw [selects_cons_expression] at selected
      cases given : select inner with
      | none =>
        rw [captureAs, given]
        exact .inr (ih (selected.resolve_left (by simp [given])) fresh)
      | some other =>
        simp only [captureAs, given, captureOnce]
        by_cases same : name = other
        · subst same
          rw [if_neg (by simpa using fresh)]
          exact .inl List.mem_cons_self
        · have later := selected.resolve_left (by simp [given, Ne.symm same])
          split
          · exact .inr (ih later fresh)
          · exact .inr (ih later (by simp [same, fresh]))
    | char c =>
      rw [selects_cons (by simp)] at selected
      exact ih selected fresh
    | statement =>
      rw [selects_cons (by simp)] at selected
      exact ih selected fresh
    | blanks =>
      rw [selects_cons (by simp)] at selected
      exact ih selected fresh

/-- The names in the pattern of fragments are those that are given. -/
theorem mem_names_patternsFrom (nameless : ∀ name, (body name).names = []) :
    name ∈ (patternsFrom (captureAs select body) captured parts).flatMap Pattern.names ↔
      Selects select parts name := by
  induction parts generalizing captured with
  | nil => simp [patternsFrom, Selects]
  | cons part parts ih =>
    cases part with
    | expression inner =>
      rw [patternsFrom, List.flatMap_cons, List.mem_append, ih, selects_cons_expression]
      refine or_congr_left ?_
      cases given : select inner with
      | none => simp [captureAs, given, wildcard, Pattern.names]
      | some other =>
        simp only [captureAs, given, captureOnce]
        split <;> simp [Pattern.names, nameless, eq_comm]
    | char c =>
      rw [selects_cons (by simp)]
      exact ih
    | statement =>
      rw [selects_cons (by simp)]
      exact ih
    | blanks =>
      rw [selects_cons (by simp)]
      exact ih

/-! ### Blocks -/

/-- The names that a loop's body captures can be names of captures: they are identifiers. -/
def Nameable : Block → Prop
  | .param _ => True
  | .loop block => block.scalar = false → ∀ field,
      Selects (fieldNamed? block.item) (fragments block.body) field → isIdentifier field.toList = true

/-- The fragments of a block's text show the placeholders that the block was made of. -/
def Seen : Block → Prop
  | .param block => .expression block.name.toList ∈ fragments block.line
  | .loop block => block.scalar = false → ∀ field ∈ block.fields.map Prod.fst,
      Selects (fieldNamed? block.item) (fragments block.body) field

theorem names_kindPattern (kind : Kind) : (kindPattern kind).names = [] := by
  cases kind <;> rfl

theorem names_fieldPattern (kind : Kind) : (fieldPattern kind).names = [] := by
  cases kind <;> rfl

/-- The name that an expression of a parameter's line is captured under. -/
def valueNamed? (block : ParamBlock) (inner : List Char) : Option String :=
  if inner = block.name.toList then some valueName else none

theorem paramMatcher_eq (block : ParamBlock) (hint : Option Hint) :
    ∃ kind, paramMatcher block hint = .param block.name
      (.sequence (patternsFrom (captureAs (valueNamed? block) fun _ => kindPattern kind) []
        (fragments block.line))) kind := by
  have expressions : ∀ kind, captureAs (valueNamed? block) (fun _ => kindPattern kind) =
      fun captured inner =>
        if inner = block.name.toList then captureOnce captured valueName (kindPattern kind)
        else (wildcard, captured) := by
    intro kind
    funext captured inner
    rw [captureAs, valueNamed?]
    split <;> simp_all
  simp only [paramMatcher, patternOf, expressions]
  exact ⟨_, rfl⟩

theorem loopMatcher_eq (block : LoopBlock) (hints : List (String × Kind)) :
    ∃ (kind : String → Kind) (numeric boolean : List String),
      loopMatcher block hints = .loop block.name
        (.sequence (patternsFrom
          (captureAs (fieldNamed? block.item) fun field => fieldPattern (kind field)) []
          (fragments block.body)))
        (block.fields.map Prod.fst) numeric boolean :=
  ⟨kindOf (fieldKinds block hints), _, _, rfl⟩

theorem names_patternOf {σ : Type} {expression : σ → List Char → Pattern × σ}
    (nameless : ∀ state inner, (expression state inner).1.names = []) (state : σ) (text : List Char) :
    (patternOf expression state text).names = [] := by
  rw [patternOf, Pattern.names_sequence]
  induction fragments text generalizing state with
  | nil => rfl
  | cons part parts ih =>
    cases part with
    | expression inner =>
      rw [patternsFrom, List.flatMap_cons, ih]
      simp [nameless]
    | char c => exact ih state
    | statement => exact ih state
    | blanks => exact ih state

theorem names_scalarLoopMatcher (block : LoopBlock) :
    (scalarLoopMatcher block).pattern.names = ["body"] := by
  have inside : blockInside.names = ["body"] := rfl
  have usual : usualHeader.names = [] := by decide +kernel
  simp only [scalarLoopMatcher, Matcher.pattern, Pattern.names, inside]
  split
  · rw [names_patternOf fun _ _ => rfl]
    rfl
  · rw [usual]
    rfl

theorem certainNames_scalarLoopMatcher (block : LoopBlock) :
    "body" ∈ (scalarLoopMatcher block).pattern.certainNames :=
  List.mem_append_right _ List.mem_cons_self

/-- The matcher of a loop: of a scalar one, or of one with fields, given what is known of them. -/
theorem matcherOf_loop (block : LoopBlock) (hints : Hints) :
    (block.scalar = true ∧ matcherOf (.loop block) hints = scalarLoopMatcher block) ∨
      (block.scalar = false ∧ ∃ kinds, matcherOf (.loop block) hints = loopMatcher block kinds) := by
  rw [matcherOf]
  cases block.scalar with
  | true => exact .inl ⟨rfl, rfl⟩
  | false =>
    refine .inr ⟨rfl, ?_⟩
    rw [if_neg Bool.false_ne_true]
    split
    · exact ⟨_, rfl⟩
    · exact ⟨_, rfl⟩

theorem name_matcherOf (block : Block) (hints : Hints) : (matcherOf block hints).name = block.name := by
  cases block with
  | param block => rfl
  | loop block =>
    rcases matcherOf_loop block hints with ⟨_, same⟩ | ⟨_, _, same⟩ <;>
      rw [same] <;> rfl

/-- The pattern of a block's matcher is well formed exactly when its names can be names of captures. -/
theorem isWellFormed_matcherOf (block : Block) (hints : Hints) :
    (matcherOf block hints).pattern.isWellFormed = true ↔ Nameable block := by
  rw [Pattern.isWellFormed, List.all_eq_true]
  cases block with
  | param block =>
    obtain ⟨kind, same⟩ := paramMatcher_eq block (hints.lookup block.name)
    rw [matcherOf, same, Matcher.pattern, Pattern.names_sequence]
    refine iff_of_true (fun name listed => ?_) trivial
    rw [mem_names_patternsFrom fun _ => names_kindPattern kind] at listed
    obtain ⟨inner, _, given⟩ := listed
    rw [valueNamed?] at given
    split at given
    · cases given
      rfl
    · cases given
  | loop block =>
    rcases matcherOf_loop block hints with ⟨scalar, same⟩ | ⟨structured, kinds, same⟩
    · rw [same, names_scalarLoopMatcher]
      refine iff_of_true (fun name listed => ?_) fun structured => ?_
      · rw [List.mem_singleton.mp listed]
        rfl
      · rw [scalar] at structured
        cases structured
    · obtain ⟨kind, numeric, boolean, form⟩ := loopMatcher_eq block kinds
      rw [same, form, Matcher.pattern, Pattern.names_sequence]
      simp only [mem_names_patternsFrom fun field => names_fieldPattern (kind field)]
      exact ⟨fun proper _ => proper, fun proper => proper structured⟩

/-! ### Values -/

namespace Matcher

/-- What a matcher reads off a match is captured in every match. -/
def Covers : Matcher → Prop
  | .param _ pattern _ => valueName ∈ pattern.certainNames
  | .loop _ pattern fields _ _ => ∀ field ∈ fields, field ∈ pattern.certainNames
  | .scalarLoop _ pattern => "body" ∈ pattern.certainNames

def IsLoop : Matcher → Prop
  | .param .. => False
  | _ => True

end Matcher

theorem covers_matcherOf {block : Block} (seen : Seen block) (hints : Hints) :
    (matcherOf block hints).Covers := by
  cases block with
  | param block =>
    obtain ⟨kind, same⟩ := paramMatcher_eq block (hints.lookup block.name)
    rw [matcherOf, same, Matcher.Covers, Pattern.certainNames_sequence]
    exact certain_of_selects ⟨_, seen, if_pos rfl⟩ List.not_mem_nil
  | loop block =>
    rcases matcherOf_loop block hints with ⟨_, same⟩ | ⟨structured, kinds, same⟩
    · rw [same]
      exact certainNames_scalarLoopMatcher block
    · obtain ⟨kind, numeric, boolean, form⟩ := loopMatcher_eq block kinds
      rw [same, form, Matcher.Covers, Pattern.certainNames_sequence]
      exact fun field listed => certain_of_selects (seen structured field listed) List.not_mem_nil

theorem isLoop_matcherOf (block : LoopBlock) (hints : Hints) :
    (matcherOf (.loop block) hints).IsLoop := by
  rcases matcherOf_loop block hints with ⟨_, same⟩ | ⟨_, _, same⟩ <;>
    rw [same] <;> trivial

theorem captured_ok {pattern : Pattern} {start : Pattern.State} {found : Pattern.Match}
    (leads : pattern.Leads start ⟨found.rest, found.captures⟩) (listed : name ∈ pattern.certainNames) :
    ∃ text, Extract.captured found name = .ok text := by
  obtain ⟨part, kept⟩ := Pattern.capture?_of_leads leads listed
  exact ⟨trim part, by rw [Extract.captured, kept]⟩

/-- A matcher whose captures cover what it reads gives a value, or finds nothing, in every text. -/
theorem Matcher.Covers.extract {matcher : Matcher} (covers : matcher.Covers) (source : List Char) :
    ∃ value, matcher.extract source = .ok value := by
  cases matcher with
  | param name pattern kind =>
    rw [Matcher.extract]
    split
    · exact ⟨_, rfl⟩
    · next found searched =>
      obtain ⟨_, leads⟩ := Pattern.search?_leads searched
      obtain ⟨text, kept⟩ := captured_ok leads covers
      rw [kept]
      cases kind <;> exact ⟨_, rfl⟩
  | loop name pattern fields numeric boolean =>
    rw [Matcher.extract]
    obtain ⟨items, read⟩ : ∃ items, (pattern.findMatches source).mapM
        (itemOf fields numeric boolean) = .ok items := by
      refine exists_mapM fun found listed => ?_
      obtain ⟨_, leads⟩ := Pattern.mem_matchesAfter listed
      obtain ⟨entries, read⟩ : ∃ entries, (fields.mapM fun field => do
          let text ← captured found field
          return (Scalar.text field, fieldValue numeric boolean field text)) = .ok entries := by
        refine exists_mapM fun field used => ?_
        obtain ⟨text, kept⟩ := captured_ok leads (covers field used)
        exact ⟨_, bind_eq_ok.mpr ⟨text, kept, rfl⟩⟩
      exact ⟨_, bind_eq_ok.mpr ⟨entries, read, rfl⟩⟩
    exact ⟨_, bind_eq_ok.mpr ⟨items, read, rfl⟩⟩
  | scalarLoop name pattern =>
    rw [Matcher.extract]
    split
    · exact ⟨_, rfl⟩
    · next found searched =>
      obtain ⟨_, leads⟩ := Pattern.search?_leads searched
      obtain ⟨inside, kept⟩ := Pattern.capture?_of_leads leads covers
      rw [kept]
      exact ⟨_, rfl⟩

theorem Matcher.IsLoop.extract {matcher : Matcher} (loop : matcher.IsLoop) {value : Option Value}
    (run : matcher.extract source = .ok value) : ∃ items, value = some (.list items) := by
  cases matcher with
  | param => cases loop
  | loop name pattern fields numeric boolean =>
    obtain ⟨items, _, same⟩ := bind_eq_ok.mp run
    exact ⟨items, (Except.ok.inj same).symm⟩
  | scalarLoop name pattern =>
    rw [Matcher.extract] at run
    split at run
    · exact ⟨[], (Except.ok.inj run).symm⟩
    · split at run
      · cases run
      · exact ⟨_, (Except.ok.inj run).symm⟩

/-! ### Extractors -/

namespace Extractor

variable {matchers : List Matcher} {claimed : List String} {values : Values} {matcher : Matcher}
  {template : List Char} {strict : Bool} {extractor : Extractor}

/-- The matcher that decides on a name: the first one of it. -/
def Decides (matchers : List Matcher) (matcher : Matcher) : Prop :=
  matchers.find? (fun other => other.name == matcher.name) = some matcher

theorem decides_cons_self (matcher : Matcher) (matchers : List Matcher) :
    Decides (matcher :: matchers) matcher := by
  simp [Decides]

theorem decides_cons {first : Matcher} (other : first.name ≠ matcher.name) :
    Decides (first :: matchers) matcher ↔ Decides matchers matcher := by
  rw [Decides, List.find?_cons_of_neg (by simpa using other), ← Decides]

/-- Matchers give values when those that decide do. -/
theorem extractFrom_total
    (total : ∀ matcher, matcher.name ∉ claimed → Decides matchers matcher →
      ∃ value, matcher.extract source = .ok value) :
    ∃ values, extractFrom source claimed matchers = .ok values := by
  induction matchers generalizing claimed with
  | nil => exact ⟨[], rfl⟩
  | cons first rest ih =>
    rw [extractFrom]
    split
    · next known =>
      rw [List.contains_iff_mem] at known
      exact ih fun matcher fresh decides =>
        total matcher fresh ((decides_cons fun same => fresh (same ▸ known)).mpr decides)
    · next unknown =>
      rw [List.contains_iff_mem] at unknown
      obtain ⟨value, here⟩ := total first unknown (decides_cons_self first rest)
      obtain ⟨values, later⟩ := ih fun matcher fresh decides => by
        rw [List.mem_cons, not_or] at fresh
        exact total matcher fresh.2 ((decides_cons (Ne.symm fresh.1)).mpr decides)
      exact ⟨_, bind_eq_ok.mpr ⟨value, here, bind_eq_ok.mpr ⟨values, later, rfl⟩⟩⟩

/-- The values that matchers give are under names that are not claimed, each once, and under each name
there is what the deciding matcher gives. -/
structure Gives (source : List Char) (claimed : List String) (matchers : List Matcher)
    (values : Values) : Prop where
  named : ∀ name ∈ values.map Prod.fst, name ∉ claimed ∧ ∃ matcher ∈ matchers, matcher.name = name
  distinct : (values.map Prod.fst).Nodup
  decided : ∀ matcher, matcher.name ∉ claimed → Decides matchers matcher →
    matcher.extract source = .ok (values.lookup matcher.name)

namespace Gives

variable {first : Matcher} {rest : List Matcher} {others : Values}

theorem skip (known : first.name ∈ claimed) (gives : Gives source claimed rest values) :
    Gives source claimed (first :: rest) values where
  named := by
    intro name listed
    obtain ⟨fresh, matcher, member, same⟩ := gives.named name listed
    exact ⟨fresh, matcher, List.mem_cons_of_mem _ member, same⟩
  distinct := gives.distinct
  decided := fun matcher fresh decides => gives.decided matcher fresh <|
    (decides_cons fun same => fresh (same ▸ known)).mp decides

/-- A matcher that decides is the first one, or else it decides among the others. -/
theorem decided_cons (gives : Gives source (first.name :: claimed) rest others)
    (fresh : matcher.name ∉ claimed) (decides : Decides (first :: rest) matcher) :
    matcher = first ∨
      first.name ≠ matcher.name ∧ matcher.extract source = .ok (others.lookup matcher.name) := by
  by_cases same : first.name = matcher.name
  · rw [Decides, List.find?_cons_of_pos (by simpa using same)] at decides
    exact .inl (Option.some.inj decides).symm
  · exact .inr ⟨same, gives.decided matcher (by simp [fresh, Ne.symm same])
      ((decides_cons same).mp decides)⟩

theorem fresh (gives : Gives source (first.name :: claimed) rest others) :
    first.name ∉ others.map Prod.fst :=
  fun listed => (gives.named _ listed).1 List.mem_cons_self

theorem named_cons (gives : Gives source (first.name :: claimed) rest others) :
    ∀ name ∈ others.map Prod.fst, name ∉ claimed ∧ ∃ matcher ∈ first :: rest, matcher.name = name := by
  intro name listed
  obtain ⟨free, matcher, member, same⟩ := gives.named name listed
  exact ⟨fun known => free (List.mem_cons_of_mem _ known), matcher, List.mem_cons_of_mem _ member, same⟩

theorem nothing (here : first.extract source = .ok none)
    (gives : Gives source (first.name :: claimed) rest others) :
    Gives source claimed (first :: rest) others where
  named := gives.named_cons
  distinct := gives.distinct
  decided := by
    intro matcher fresh decides
    rcases gives.decided_cons fresh decides with rfl | ⟨_, read⟩
    · have missed : others.lookup matcher.name = none := by
        rw [List.lookup_eq_none_iff]
        exact fun entry member =>
          bne_iff_ne.mpr fun same => gives.fresh (same ▸ List.mem_map_of_mem member)
      rw [here, missed]
    · exact read

theorem something {value : Value} (unknown : first.name ∉ claimed)
    (here : first.extract source = .ok (some value))
    (gives : Gives source (first.name :: claimed) rest others) :
    Gives source claimed (first :: rest) ((first.name, value) :: others) where
  named := List.forall_mem_cons.mpr ⟨⟨unknown, first, List.mem_cons_self, rfl⟩, gives.named_cons⟩
  distinct := List.nodup_cons.mpr ⟨gives.fresh, gives.distinct⟩
  decided := by
    intro matcher fresh decides
    rcases gives.decided_cons fresh decides with rfl | ⟨other, read⟩
    · rw [here, List.lookup_cons_self]
    · rw [read, List.lookup_cons, beq_eq_false_iff_ne.mpr (Ne.symm other)]

end Gives

theorem extractFrom_gives (run : extractFrom source claimed matchers = .ok values) :
    Gives source claimed matchers values := by
  induction matchers generalizing claimed values with
  | nil =>
    cases run
    exact ⟨by simp, by simp, fun matcher _ decides => nomatch decides⟩
  | cons first rest ih =>
    rw [extractFrom] at run
    split at run
    · next known => exact (ih run).skip (List.contains_iff_mem.mp known)
    · next unknown =>
      rw [List.contains_iff_mem] at unknown
      obtain ⟨value, here, run⟩ := bind_eq_ok.mp run
      obtain ⟨others, later, same⟩ := bind_eq_ok.mp run
      obtain rfl := Except.ok.inj same
      cases value with
      | none => exact (ih later).nothing here
      | some value => exact (ih later).something unknown here

theorem compile_of_nameable {block : Block} (nameable : Nameable block) (hints : Hints) :
    compile block hints = .ok (matcherOf block hints) :=
  if_pos ((isWellFormed_matcherOf block hints).mpr nameable)

theorem compile_of_unfit {block : Block} (unfit : ¬ Nameable block) (hints : Hints) :
    compile block hints = .error (.invalidPattern block.name) :=
  if_neg fun formed => unfit ((isWellFormed_matcherOf block hints).mp formed)

theorem mapM_compile {blocks : List Block} (nameable : ∀ block ∈ blocks, Nameable block) :
    (blocks.mapM fun block => compile block hints) =
      .ok (blocks.map fun block => matcherOf block hints) := by
  rw [mapM_eq_ok, List.forall₂_map_right_iff, List.forall₂_same]
  exact fun block member => compile_of_nameable (nameable block member) hints

theorem mapM_compile_of_unfit {blocks : List Block} {block : Block} (member : block ∈ blocks)
    (unfit : ¬ Nameable block) :
    ∃ other ∈ blocks, ¬ Nameable other ∧
      (blocks.mapM fun block => compile block hints) = .error (.invalidPattern other.name) := by
  induction blocks with
  | nil => cases member
  | cons first rest ih =>
    rw [List.mapM_cons]
    by_cases nameable : Nameable first
    · have later : block ∈ rest := by
        rcases List.mem_cons.mp member with rfl | later
        · exact absurd nameable unfit
        · exact later
      obtain ⟨other, listed, unfit, failed⟩ := ih later
      refine ⟨other, List.mem_cons_of_mem _ listed, unfit, ?_⟩
      rw [compile_of_nameable nameable, failed]
      rfl
    · refine ⟨first, List.mem_cons_self, nameable, ?_⟩
      rw [compile_of_unfit nameable]
      rfl

theorem build_of_blocks {blocks : List Block} (analyzed : (analyze strict template).2 = .ok blocks)
    (hints : Hints) :
    (build template hints strict).2 =
      (blocks.mapM fun block => compile block hints).map (Extractor.mk template) := by
  have steps : (build template hints strict).2 = (analyze strict template).2 >>= fun blocks =>
      (blocks.mapM fun block => compile block hints) >>= fun matchers => .ok ⟨template, matchers⟩ := rfl
  rw [steps, analyzed]
  change (blocks.mapM fun block => compile block hints) >>= _ = _
  cases blocks.mapM fun block => compile block hints <;> rfl

end Extractor

end Scaffold.Extract
