import Mathlib
import Scaffold.Proofs.Project.Assembly
import Scaffold.Proofs.Project.Regeneration

/-!
What a sync does to a file. Its text is units woven into texts between them; the texts between stay as
they are, and each unit becomes what its generator makes of the parameters that an inspection reports
for it.
-/

namespace Scaffold.Project

open Sentinel

variable {project : Project} {registry : Registry} {bench after : Bench} {path target : Path}
  {preview : Bool} {action : Action} {text old new : List Char} {spans : List Span}

theorem unitsOf_eq_ok :
    unitsOf target text = .ok spans ↔
      findSpans (Dialect.ofPath target) (some target.toString) text = .ok spans ∧ spans ≠ [] := by
  unfold unitsOf
  rw [bind_eq_ok]
  constructor
  · rintro ⟨found, run, result⟩
    split at result
    · cases result
    · next filled =>
      cases result
      exact ⟨run, by simpa using filled⟩
  · rintro ⟨run, filled⟩
    refine ⟨spans, run, ?_⟩
    rw [if_neg (by simpa using filled)]
    rfl

/-- Each unit is the renewal of the unit that a span covers. -/
def Renewed (registry : Registry) (dialect : Dialect) (text : List Char) (spans : List Span)
    (units : List (List Char)) : Prop :=
  List.Forall₂ (fun span unit =>
    registry.renew dialect span.generator span.unitId (span.body text) = .ok unit) spans units

theorem rewrite_eq_ok :
    registry.rewrite target text = .ok new ↔
      ∃ spans units, unitsOf target text = .ok spans ∧
        Renewed registry (Dialect.ofPath target) text spans units ∧
        new = assemble text 0 (spans.zip units) := by
  constructor
  · intro run
    obtain ⟨spans, found, _⟩ := bind_eq_ok.mp run
    rw [Registry.rewrite_of_units found] at run
    obtain ⟨units, renewed, same⟩ := map_eq_ok.mp run
    exact ⟨spans, units, found, mapM_eq_ok.mp renewed, same.symm⟩
  · rintro ⟨spans, units, found, renewed, rfl⟩
    rw [Registry.rewrite_of_units found, map_eq_ok]
    exact ⟨units, mapM_eq_ok.mpr renewed, rfl⟩

/-- A text that can be read can be replaced, and the replacement is read back. -/
theorem commit_run (held : bench.store.read target = .ok old) (new : List Char) (preview : Bool) :
    ∃ after, commit target old new preview bench =
        (.ok (if new = old then .unchanged else .updated), after) ∧
      after.extractors = bench.extractors ∧
      after.store.read target = .ok (if preview then old else new) ∧
      (preview = true ∨ new = old → after.store = bench.store) := by
  unfold commit
  by_cases same : new = old
  · rw [if_pos same, if_pos same]
    exact ⟨bench, rfl, rfl, by rw [same, ite_self]; exact held, fun _ => rfl⟩
  · rw [if_neg same, if_neg same]
    cases preview with
    | true => exact ⟨bench, rfl, rfl, held, fun _ => rfl⟩
    | false =>
      obtain ⟨store, written⟩ := Store.write_of_read held new
      refine ⟨{ bench with store }, ?_, rfl, Store.read_write written, ?_⟩
      · change (Work.writeFile target new >>= fun _ => pure Action.updated) bench = _
        rw [Work.bind_run, Work.writeFile, Work.changeFiles, written]
        rfl
      · rintro (impossible | impossible)
        · cases impossible
        · exact absurd impossible same

/-- A sync puts the rewritten text in the place of the old one. -/
theorem sync_of_rewrite (faithful : Faithful project.registry bench.extractors) (preview : Bool)
    (held : bench.store.read (project.resolvePath path) = .ok text)
    (rewritten : project.registry.rewrite (project.resolvePath path) text = .ok new) :
    ∃ after, project.sync path preview bench =
        (.ok (if new = text then .unchanged else .updated), after) ∧
      after.store.read (project.resolvePath path) = .ok (if preview then text else new) ∧
      (preview = true ∨ new = text → after.store = bench.store) := by
  obtain ⟨middle, store, _, run⟩ := sync_run faithful path preview
  obtain ⟨after, committed, _, left, still⟩ := commit_run (store ▸ held) new preview
  rw [held] at run
  simp only [rewritten, committed] at run
  exact ⟨after, run, left, fun quiet => (still quiet).trans store⟩

/-- What a sync that succeeds has done. -/
theorem sync_leaves (faithful : Faithful project.registry bench.extractors)
    (done : project.sync path preview bench = (.ok action, after)) :
    ∃ text new, bench.store.read (project.resolvePath path) = .ok text ∧
      project.registry.rewrite (project.resolvePath path) text = .ok new ∧
      (action = if new = text then .unchanged else .updated) ∧
      after.store.read (project.resolvePath path) = .ok (if preview then text else new) ∧
      (preview = true ∨ new = text → after.store = bench.store) := by
  obtain ⟨middle, _, _, run⟩ := sync_run faithful path preview
  rw [done] at run
  cases held : bench.store.read (project.resolvePath path) with
  | error error =>
    rw [held] at run
    cases run
  | ok text =>
    rw [held] at run
    cases rewritten : project.registry.rewrite (project.resolvePath path) text with
    | error error =>
      simp only [rewritten] at run
      cases run
    | ok new =>
      obtain ⟨last, again, left, still⟩ := sync_of_rewrite faithful preview held rewritten
      rw [done] at again
      obtain ⟨reported, rfl⟩ := Prod.mk.inj again
      exact ⟨text, new, rfl, rewritten, Except.ok.inj reported, left, still⟩

theorem sync_updates (reached : Reached project bench)
    (held : bench.store.read (project.resolvePath path) = .ok text)
    (rewritten : project.registry.rewrite (project.resolvePath path) text = .ok new)
    (changed : new ≠ text) :
    ∃ after, project.sync path false bench = (.ok .updated, after) ∧ Reached project after ∧
      after.store.read (project.resolvePath path) = .ok new := by
  obtain ⟨after, done, left, _⟩ := sync_of_rewrite reached.faithful false held rewritten
  rw [if_neg changed] at done
  have next := reached.synced path false
  rw [done] at next
  exact ⟨after, done, next, left⟩

/-- A unit is the text that its generator makes of the parameters that were found in it. -/
def Inspection.Makes (registry : Registry) (dialect : Dialect) (inspection : Inspection)
    (unit : List Char) : Prop :=
  ∃ generator values rendered, registry.resolve inspection.generator = .ok generator ∧
    inspection.params = some values ∧ generator.render (paramsOf values) = .ok rendered ∧
    unit = dialect.wrap rendered inspection.generator inspection.unitId

/-- Units that can be generated again can be looked at, and they are made of what is found in them. -/
theorem examine_of_renewed {dialect : Dialect} {units : List (List Char)}
    (renewed : Renewed registry dialect text spans units) :
    ∃ inspections, (spans.mapM fun span =>
        registry.examine span.generator span.unitId (span.body text)) = .ok inspections ∧
      List.Forall₂ (Inspection.Makes registry dialect) inspections units ∧
      inspections.map (fun inspection => (inspection.generator, inspection.unitId)) =
        spans.map fun span => (span.generator, span.unitId) := by
  simp only [mapM_eq_ok]
  induction renewed with
  | nil => exact ⟨[], .nil, .nil, rfl⟩
  | @cons span unit spans units here _ ih =>
    obtain ⟨inspections, examined, makes, names⟩ := ih
    obtain ⟨rendered, made, rfl⟩ := Registry.renew_eq_ok.mp here
    obtain ⟨generator, template, values, resolved, recipe, extracted, written⟩ :=
      Registry.rerender_eq_ok.mp made
    refine ⟨⟨span.generator, span.unitId, some values⟩ :: inspections, .cons ?_ examined,
      .cons ⟨generator, values, rendered, resolved, rfl, written, rfl⟩ makes, ?_⟩
    · refine bind_eq_ok.mpr ⟨generator, resolved, ?_⟩
      rw [recipe]
      exact bind_eq_ok.mpr ⟨values, extracted, rfl⟩
    · rw [List.map_cons, List.map_cons, names]

/-- What a sync makes of a file: the old text is its units, one at least and in order, woven into
texts between them, and the new text has the renewals of the units between the same texts. Each
renewal is made of the parameters that an inspection reports at that moment. -/
theorem sync_rewrites_units (reached : Reached project bench)
    (done : project.sync path preview bench = (.ok action, after)) :
    ∃ text spans first between units new,
      bench.store.read (project.resolvePath path) = .ok text ∧
      findSpans (Dialect.ofPath (project.resolvePath path))
        (some (project.resolvePath path).toString) text = .ok spans ∧
      spans ≠ [] ∧ InOrder text.length 0 spans ∧ between.length = spans.length ∧
      text = weave first (spans.map (·.source text)) between ∧
      new = weave first units between ∧
      Renewed project.registry (Dialect.ofPath (project.resolvePath path)) text spans units ∧
      (∃ inspections last, project.inspect path bench = (.ok inspections, last) ∧
        List.Forall₂ (Inspection.Makes project.registry (Dialect.ofPath (project.resolvePath path)))
          inspections units ∧
        inspections.map (fun inspection => (inspection.generator, inspection.unitId)) =
          spans.map fun span => (span.generator, span.unitId)) ∧
      (action = if new = text then .unchanged else .updated) ∧
      after.store.read (project.resolvePath path) = .ok (if preview then text else new) := by
  obtain ⟨text, new, held, rewritten, reported, left, _⟩ := sync_leaves reached.faithful done
  obtain ⟨spans, units, found, renewed, rfl⟩ := rewrite_eq_ok.mp rewritten
  obtain ⟨located, filled⟩ := unitsOf_eq_ok.mp found
  have regular := Dialect.regular_of_standard (Dialect.ofPath_standard (project.resolvePath path))
  have ordered := findSpans_inOrder regular located
  have paired : units.length = spans.length := renewed.length_eq.symm
  obtain ⟨inspections, examined, makes, names⟩ := examine_of_renewed renewed
  obtain ⟨last, inspected⟩ := inspect_run reached.faithful held found
  refine ⟨text, spans, Project.before text 0 spans, Project.between text spans, units, _, held, located,
    filled, ordered, between_length text spans, ?_, assemble_eq_weave text paired 0, renewed,
    ⟨inspections, last, by rw [inspected, examined], makes, names⟩, reported, left⟩
  exact (weave_source ordered).symm

section Pairs

open Extract

/-- A generator of two lines, with a usual value for the first of them. -/
def pair : Generator where
  name := "pair"
  description := "Two variables"
  recipe := .template "let \x7b\x7b a \x7d\x7d;\nlet \x7b\x7b b \x7d\x7d".toList .null
  params := [(.text "a", { default := .text "z" }), (.text "b", { description := "Value for b" })]

def pairs : Registry := ⟨[pair]⟩

theorem register_pair : Registry.register {} pair = ([], .ok pairs) := by
  have sound : Registry.check pair = ([], .ok ()) := by decide +kernel
  have named : Registry.isName pair.name.toList = true := by decide +kernel
  rw [Registry.register, named, sound]
  rfl

/-- The pattern of a variable and of what stands behind it. -/
def variablePattern (ending : List Pattern) : Pattern :=
  .sequence ([.char 'l', .char 'e', .char 't', .many .blank,
    .capture "value" (.append (.one .nameStart) (.any .namePart))] ++ ending)

/-- What reads the two variables off a text. -/
def pairExtractor : Extractor where
  template := "let \x7b\x7b a \x7d\x7d;\nlet \x7b\x7b b \x7d\x7d".toList
  matchers :=
    [.param "a" (variablePattern [.char ';']) .identifier, .param "b" (variablePattern []) .identifier]

theorem build_pair :
    (Extractor.build pairExtractor.template pair.hints false).2 = .ok pairExtractor := by
  decide +kernel

theorem rerender_pair {body rendered : List Char} (values : Values)
    (extracted : pairExtractor.extract body = .ok values)
    (written : pair.render (paramsOf values) = .ok rendered) :
    pairs.rerender "pair" body = .ok rendered := by
  refine Registry.rerender_eq_ok.mpr ⟨pair, pairExtractor.template, values, by cbv, rfl, ?_, written⟩
  exact bind_eq_ok.mpr ⟨pairExtractor, build_pair, extracted⟩

def pairProject : Project := ⟨pairs, ⟨.root, []⟩⟩

def pairPath : Path := ⟨.root, ["a.ts"]⟩

def pairBench (text : List Char) : Bench :=
  { store := ⟨[(["a.ts"], .file (.text text))], []⟩ }

theorem pairBench_read (text : List Char) :
    (pairBench text).store.read (pairProject.resolvePath pairPath) = .ok text :=
  rfl

theorem pairBench_reached (text : List Char) : Reached pairProject (pairBench text) :=
  (Reached.fresh ⟨{}, ⟨.root, []⟩⟩ (pairBench text).store []).registered register_pair

def textOf (lines : List String) : List Char :=
  lines.flatMap fun line => line.toList ++ ['\n']

/-- A text with two units, of which the first has one variable only. -/
def pairText : List Char :=
  textOf ["top", "// @codefactory:start factory=\"pair\"", "let x", "// @codefactory:end", "middle",
    "// @codefactory:start factory=\"pair\" id=\"u\"", "let p;", "let q", "// @codefactory:end"]

def pairSynced : List Char :=
  textOf ["top", "// @codefactory:start factory=\"pair\"", "let z;", "let x", "// @codefactory:end",
    "middle", "// @codefactory:start factory=\"pair\" id=\"u\"", "let p;", "let p",
    "// @codefactory:end"]

def pairSpans : List Span :=
  [⟨"pair", none, 4, 66, 41, 47⟩, ⟨"pair", some "u", 74, 150, 118, 131⟩]

theorem unitsOf_pairText : unitsOf pairPath pairText = .ok pairSpans := by
  cbv

theorem rewrite_pairText : pairs.rewrite pairPath pairText = .ok pairSynced := by
  have one : pairs.rerender "pair" (Span.body ⟨"pair", none, 4, 66, 41, 47⟩ pairText) =
      .ok "let z;\nlet x".toList :=
    rerender_pair [("b", .text "x")] (by cbv) (by cbv)
  have two : pairs.rerender "pair" (Span.body ⟨"pair", some "u", 74, 150, 118, 131⟩ pairText) =
      .ok "let p;\nlet p".toList :=
    rerender_pair [("a", .text "p"), ("b", .text "p")] (by cbv) (by cbv)
  refine rewrite_eq_ok.mpr ⟨pairSpans, _, unitsOf_pairText,
    .cons (Registry.renew_eq_ok.mpr ⟨_, one, rfl⟩)
      (.cons (Registry.renew_eq_ok.mpr ⟨_, two, rfl⟩) .nil), ?_⟩
  cbv

/-- A text with two units, of which the first grows by the usual value. -/
theorem sync_rewrites_units_of_pairText :
    ∃ after, pairProject.sync pairPath false (pairBench pairText) = (.ok .updated, after) ∧
      after.store.read pairPath = .ok pairSynced ∧
      ∃ first between units, between.length = 2 ∧
        pairText = weave first (pairSpans.map (·.source pairText)) between ∧
        pairSynced = weave first units between ∧
        Renewed pairs (Dialect.ofPath pairPath) pairText pairSpans units := by
  have changed : pairSynced ≠ pairText := by decide +kernel
  have reached := pairBench_reached pairText
  obtain ⟨after, done, _, synced⟩ :=
    sync_updates reached (pairBench_read pairText) rewrite_pairText changed
  obtain ⟨text, spans, first, between, units, new, held, located, filled, _, paired, old, woven, renewed,
    _, _, left⟩ := sync_rewrites_units reached done
  obtain rfl := Except.ok.inj ((pairBench_read pairText).symm.trans held)
  obtain rfl := Except.ok.inj (unitsOf_pairText.symm.trans (unitsOf_eq_ok.mpr ⟨located, filled⟩))
  obtain rfl := Except.ok.inj (synced.symm.trans left)
  exact ⟨after, done, left, first, between, units, paired, old, woven, renewed⟩

end Pairs

end Scaffold.Project
