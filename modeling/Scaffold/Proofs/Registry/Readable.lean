import Mathlib.Tactic.Push
import Scaffold.Proofs.Extract.Placeholders
import Scaffold.Proofs.Outcome
import Scaffold.Registry

/-!
What a registered template can be read back with. Registration analyses the template but builds no
extractor; what the analysis gives decides whether one can be built, and what it gives in every text.
-/

namespace Scaffold.Registry

open Extract Template

variable {registry larger : Registry} {warnings : List Warning} {generator : Generator}
  {template : List Char}

theorem analyze_of_register (accepted : registry.register generator = (warnings, .ok larger))
    (recipe : generator.template? = some template) :
    ∃ blocks, (analyze false template).2 = .ok blocks := by
  have result := congrArg Prod.snd accepted
  unfold register at result
  split at result
  · cases result
  split at result
  · cases result
  obtain ⟨_, checked, _⟩ := map_eq_ok.mp result
  unfold check at checked
  split at checked
  · cases checked
  · split at checked
    · cases checked
    · rw [recipe] at checked
      change (checkTemplate template).2 = _ at checked
      unfold checkTemplate at checked
      split at checked
      · cases checked
      · obtain ⟨blocks, analyzed, _⟩ := map_eq_ok.mp checked
        exact ⟨blocks, analyzed⟩

/-- A block is the first one of its name. -/
def Claims (blocks : List Block) (block : Block) : Prop :=
  blocks.find? (fun other => other.name == block.name) = some block

/-- The matchers that decide on a name are those of the blocks that claim it. -/
theorem decides_iff_claims {blocks : List Block} {hints : Hints} {matcher : Matcher} :
    Extractor.Decides (blocks.map fun block => matcherOf block hints) matcher ↔
      ∃ block, Claims blocks block ∧ matcherOf block hints = matcher := by
  simp only [Extractor.Decides, List.find?_map, Function.comp_def, name_matcherOf,
    Option.map_eq_some_iff, Claims]
  constructor
  · rintro ⟨block, found, rfl⟩
    exact ⟨block, name_matcherOf block hints ▸ found, rfl⟩
  · rintro ⟨block, found, rfl⟩
    exact ⟨block, (name_matcherOf block hints).symm ▸ found, rfl⟩

/-- The extractor of a registered template can be built exactly when the fields that its loops capture
have identifiers for names, and otherwise a loop is reported. What it gives in a text is a value for
some of the blocks' names, among them a list for each name that a loop claims. It gives this in every
text when the placeholders of the blocks that claim names are fragments of their lines, as they are
where no tag holds another opening pair of braces. -/
theorem registered_template_extracts
    (accepted : registry.register generator = (warnings, .ok larger))
    (recipe : generator.template? = some template) :
    ∃ blocks, (analyze false template).2 = .ok blocks ∧
      ((∀ block ∈ blocks, Nameable block) →
        ∃ extractor, (Extractor.build template generator.hints false).2 = .ok extractor) ∧
      (∀ block ∈ blocks, ¬ Nameable block → ∃ other ∈ blocks, ¬ Nameable other ∧
        (Extractor.build template generator.hints false).2 = .error (.invalidPattern other.name)) ∧
      (∀ block ∈ blocks, Quiet (textOf block) → Seen block) ∧
      ∀ extractor, (Extractor.build template generator.hints false).2 = .ok extractor → ∀ source,
        ((∀ block, Claims blocks block → Seen block) →
          ∃ values, extractor.extract source = .ok values) ∧
        ∀ values, extractor.extract source = .ok values →
          (values.map Prod.fst).Nodup ∧
          (∀ name ∈ values.map Prod.fst, ∃ block ∈ blocks, block.name = name) ∧
          ∀ block, Claims blocks (.loop block) →
            ∃ items, values.lookup block.name = some (.list items) := by
  obtain ⟨blocks, analyzed⟩ := analyze_of_register accepted recipe
  have built := Extractor.build_of_blocks analyzed generator.hints
  refine ⟨blocks, analyzed, fun nameable => ?_, fun block member unfit => ?_,
    fun block member => seen_of_quiet (ofPlaceholders_of_analyze analyzed block member),
    fun extractor run source => ?_⟩
  · rw [built, Extractor.mapM_compile nameable]
    exact ⟨_, rfl⟩
  · obtain ⟨other, listed, unfit, failed⟩ := Extractor.mapM_compile_of_unfit member unfit
    refine ⟨other, listed, unfit, ?_⟩
    rw [built, failed]
    rfl
  · have nameable : ∀ block ∈ blocks, Nameable block := by
      by_contra some_
      push Not at some_
      obtain ⟨block, member, unfit⟩ := some_
      obtain ⟨_, _, _, failed⟩ := Extractor.mapM_compile_of_unfit member unfit
      rw [built, failed] at run
      cases run
    rw [built, Extractor.mapM_compile nameable] at run
    obtain rfl := Except.ok.inj run
    refine ⟨fun seen => ?_, fun values extracted => ?_⟩
    · refine Extractor.extractFrom_total fun matcher _ decides => ?_
      obtain ⟨block, claims, rfl⟩ := decides_iff_claims.mp decides
      exact (covers_matcherOf (seen block claims) generator.hints).extract source
    · have gives := Extractor.extractFrom_gives extracted
      refine ⟨gives.distinct, fun name listed => ?_, fun block claims => ?_⟩
      · obtain ⟨_, matcher, member, rfl⟩ := gives.named name listed
        obtain ⟨block, inside, rfl⟩ := List.mem_map.mp member
        exact ⟨block, inside, (name_matcherOf block generator.hints).symm⟩
      · have read := gives.decided _ List.not_mem_nil (decides_iff_claims.mpr ⟨_, claims, rfl⟩)
        obtain ⟨items, listed⟩ := (isLoop_matcherOf block generator.hints).extract read
        rw [name_matcherOf] at listed
        exact ⟨items, listed⟩

section Rows

/-- The template of lines that write one field of each row. -/
def rowsTemplate (field : String) : List Char :=
  "\x7b% for row in table %\x7d\n\x7b\x7b row.".toList ++ field.toList ++
    " \x7d\x7d\n\x7b% endfor %\x7d\n".toList

def rows (field : String) : Generator where
  name := "rows"
  description := "Rows"
  recipe := .template (rowsTemplate field) .null

/-- The loop of the lines. -/
def rowsBlock (field : String) : LoopBlock where
  name := "table"
  body := "\x7b\x7b row.".toList ++ field.toList ++ " \x7d\x7d".toList
  item := "row"
  fields := [(field, .string)]

/-- A template whose loop has a number for a field is registered, but its extractor is not built. -/
theorem registered_template_unbuilt :
    (rows "0").template? = some (rowsTemplate "0") ∧
      Registry.register {} (rows "0") = ([], .ok ⟨[rows "0"]⟩) ∧
      (Extractor.build (rowsTemplate "0") (rows "0").hints false).2 =
        .error (.invalidPattern "table") := by
  refine ⟨rfl, ?_, by decide +kernel⟩
  have sound : Registry.check (rows "0") = ([], .ok ()) := by decide +kernel
  have named : Registry.isName (rows "0").name.toList = true := by decide +kernel
  rw [Registry.register, named, sound]
  rfl

/-- With an identifier for the field every text gives a list of rows. -/
theorem registered_template_extracts_of_rows :
    ∃ extractor, Registry.register {} (rows "size") = ([], .ok ⟨[rows "size"]⟩) ∧
      (Extractor.build (rowsTemplate "size") (rows "size").hints false).2 = .ok extractor ∧
      ∀ source, ∃ values items, extractor.extract source = .ok values ∧
        values.lookup "table" = some (.list items) := by
  have accepted : Registry.register {} (rows "size") = ([], .ok ⟨[rows "size"]⟩) := by
    have sound : Registry.check (rows "size") = ([], .ok ()) := by decide +kernel
    have named : Registry.isName (rows "size").name.toList = true := by decide +kernel
    rw [Registry.register, named, sound]
    rfl
  have only : (analyze false (rowsTemplate "size")).2 = .ok [.loop (rowsBlock "size")] := by decide +kernel
  have shown : fragments (rowsBlock "size").body = [.expression "row.size".toList] := by decide +kernel
  have named : fieldNamed? "row" "row.size".toList = some "size" := by decide +kernel
  obtain ⟨blocks, analyzed, builds, _, _, extracts⟩ := registered_template_extracts accepted rfl
  obtain rfl := Except.ok.inj (analyzed.symm.trans only)
  have nameable : ∀ block ∈ [Block.loop (rowsBlock "size")], Nameable block := by
    rw [List.forall_mem_singleton]
    rintro _ field ⟨inner, listed, given⟩
    rw [shown, List.mem_singleton] at listed
    cases listed
    obtain rfl := Option.some.inj (named.symm.trans given)
    decide +kernel
  have seen : ∀ block, Claims [Block.loop (rowsBlock "size")] block → Seen block := by
    intro block claims
    obtain rfl := List.mem_singleton.mp (List.mem_of_find?_eq_some claims)
    intro _ field listed
    obtain rfl := List.mem_singleton.mp listed
    exact ⟨_, shown ▸ List.mem_cons_self, named⟩
  obtain ⟨extractor, built⟩ := builds nameable
  refine ⟨extractor, accepted, built, fun source => ?_⟩
  obtain ⟨total, given⟩ := extracts extractor built source
  obtain ⟨values, extracted⟩ := total seen
  obtain ⟨items, listed⟩ := (given values extracted).2.2 (rowsBlock "size") rfl
  exact ⟨values, items, extracted, listed⟩

end Rows

end Scaffold.Registry
