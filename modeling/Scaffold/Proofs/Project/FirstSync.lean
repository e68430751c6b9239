import Scaffold.Proofs.Project.Creation
import Scaffold.Proofs.Render.FreeNames

/-!
Syncing a file that has just been created. The sync leaves the file alone exactly when what was
rendered is given again by the parameters that are read off it. These need not be the parameters that
the text was made of, but if they agree with them on all that the template uses, this is so.
-/

namespace Scaffold.Project

open Extract Sentinel

variable {project : Project} {registry : Registry} {bench after : Bench} {name : String}
  {params : Record} {path : Path} {unitId : Option String} {generator : Generator}
  {rendered template : List Char} {values : Values}

/-- A rendering is stable when the values that are read off it are those it was made of, as far as the
template uses them. -/
theorem stable_of_sameInputs (registered : registry.get? name = some generator)
    (written : generator.render params = .ok rendered)
    (recipe : generator.template? = some template)
    (extracted : generator.readOff template (Text.trimRight rendered) = .ok values)
    (same : generator.SameInputs params (paramsOf values)) : Stable registry name rendered := by
  refine ⟨rendered, Registry.rerender_eq_ok.mpr ⟨generator, template, values, ?_, recipe, extracted, ?_⟩,
    rfl⟩
  · exact Registry.resolve_eq_ok.mpr registered
  · rw [← same.render recipe, written]

/-- The file of a unit that has just been created, without marks other than those of its sentinels, is
up to date exactly when the rendering is stable. -/
theorem upToDate_created_iff {target : Path}
    (clean : Draft.Clean (Dialect.ofPath target) ⟨name, unitId, rendered⟩) :
    UpToDate registry target ((Dialect.ofPath target).wrap rendered name unitId ++ ['\n']) ↔
      Stable registry name rendered := by
  have apart : ∀ filler ∈ [['\n']], Free filler ∧ Bounded (Dialect.ofPath target) filler :=
    List.forall_mem_singleton.mpr ⟨by decide, bounded_lineFeed _⟩
  have paired : [['\n']].length = [(⟨name, unitId, rendered⟩ : Draft)].length := rfl
  have woven : UpToDate registry target _ ↔ _ := upToDate_weave_iff paired (List.cons_ne_nil _ _)
    (List.forall_mem_singleton.mpr clean) free_nil apart
  simpa [weave, Draft.text] using woven

/-- When a file is made for a unit of a generator, a sync right afterwards leaves the file alone exactly
when it is up to date. If the generator's name is plain, the identity can be written in a sentinel, and
no mark stands in it or in the rendering, this is so exactly when the rendering is stable; and it is
stable if the values that are read off it agree with the given parameters on all names that the
template uses, defaults included. -/
theorem sync_leaves_created_iff (reached : Reached project bench)
    (done : project.create name params path unitId false bench = (.ok .created, after)) :
    let target := project.resolvePath path
    let dialect := Dialect.ofPath target
    let identity := identityOf name unitId
    ∃ generator rendered, project.registry.get? name = some generator ∧
      generator.render params = .ok rendered ∧
      let text := dialect.wrap rendered name unitId ++ ['\n']
      after.store.read target = .ok text ∧
      (LeavesAlone project path after ↔ UpToDate project.registry target text) ∧
      (Registry.isPlainName name.toList = true → dialect.Quotable identity →
        Free identity.toList → Free rendered →
        (LeavesAlone project path after ↔ Stable project.registry name rendered) ∧
        ∀ template values, generator.template? = some template →
          generator.readOff template (Text.trimRight rendered) = .ok values →
          generator.SameInputs params (paramsOf values) → LeavesAlone project path after) := by
  intro target dialect identity
  obtain ⟨generator, rendered, registered, written, held⟩ := create_leaves done
  have next := reached.created name params path unitId false
  rw [done] at next
  have alone := leavesAlone_iff next.faithful held
  refine ⟨generator, rendered, registered, written, held, alone, ?_⟩
  intro plain quotable freeIdentity freeRendering
  have clean : Draft.Clean dialect ⟨name, unitId, rendered⟩ :=
    clean_of_identity (Dialect.ofPath_standard target) plain quotable freeIdentity freeRendering
  have stable := alone.trans (upToDate_created_iff clean)
  refine ⟨stable, fun template values recipe extracted same => ?_⟩
  exact stable.mpr (stable_of_sameInputs registered written recipe extracted same)

section Pairs

def emptyBench : Bench := { store := ⟨[], []⟩ }

theorem emptyBench_reached : Reached pairProject emptyBench :=
  (Reached.fresh ⟨{}, ⟨.root, []⟩⟩ ⟨[], []⟩ []).registered register_pair

theorem create_pair (written : pair.render params = .ok rendered) :
    ∃ after, pairProject.create "pair" params pairPath none false emptyBench = (.ok .created, after) := by
  have registered : pairProject.registry.get? "pair" = some pair := by cbv
  rw [create_eq_place registered written]
  exact ⟨_, rfl⟩

theorem rewrite_twoNames : pairs.rewrite pairPath (pairUnit ["let p;", "let q"]) =
    .ok (pairUnit ["let p;", "let p"]) :=
  rewrite_pairUnit ⟨"pair", none, 0, 69, 37, 50⟩ [("a", .text "p"), ("b", .text "p")]
    (by cbv) rfl (by cbv) (by cbv) (by cbv)

/-- A sync may change what has just been created: both variables are read off the line of the first,
so that the second one is lost. -/
theorem sync_changes_created :
    Registry.register {} pair = ([], .ok pairs) ∧ Reached pairProject emptyBench ∧
      emptyBench.store.holds pairPath = false ∧
      ∃ after last,
        pairProject.create "pair" [(.text "a", .text "p"), (.text "b", .text "q")] pairPath none false
          emptyBench = (.ok .created, after) ∧
        after.store.read pairPath = .ok (pairUnit ["let p;", "let q"]) ∧
        pairProject.sync pairPath false after = (.ok .updated, last) ∧
        last.store.read pairPath = .ok (pairUnit ["let p;", "let p"]) ∧
        ¬ LeavesAlone pairProject pairPath after := by
  have reached := emptyBench_reached
  have registered : pairProject.registry.get? "pair" = some pair := by cbv
  have written : pair.render [(.text "a", .text "p"), (.text "b", .text "q")] =
      .ok "let p;\nlet q".toList := by
    cbv
  obtain ⟨after, done⟩ := create_pair written
  obtain ⟨_, _, registered', written', held⟩ := create_leaves done
  obtain rfl := Option.some.inj (registered.symm.trans registered')
  obtain rfl := Except.ok.inj (written.symm.trans written')
  have next := reached.created "pair" [(.text "a", .text "p"), (.text "b", .text "q")] pairPath none false
  rw [done] at next
  obtain ⟨last, done', _, left⟩ := sync_updates next held rewrite_twoNames (by decide +kernel)
  refine ⟨register_pair, reached, rfl, after, last, done, held, done', left, ?_⟩
  rintro ⟨other, quiet, _⟩
  rw [done'] at quiet
  cases quiet

/-- The document of the two variables. -/
def pairDocument : Render.Document :=
  [.text "let ".toList, .output (.name "a"), .text ";\nlet ".toList, .output (.name "b")]

theorem compile_pair : Render.compile pairExtractor.template = .ok pairDocument := by
  cbv

/-- A sync leaves a unit alone whose variables have the same value, the usual one; a parameter that the
template does not use is lost, but not missed. -/
theorem sync_leaves_created_of_pair :
    Reached pairProject emptyBench ∧
      ∃ after, pairProject.create "pair" [(.text "b", .text "z"), (.text "c", .int 1)] pairPath none false
          emptyBench = (.ok .created, after) ∧
        after.store.read pairPath = .ok (pairUnit ["let z;", "let z"]) ∧
        LeavesAlone pairProject pairPath after := by
  have registered : pairProject.registry.get? "pair" = some pair := by cbv
  have written : pair.render [(.text "b", .text "z"), (.text "c", .int 1)] =
      .ok "let z;\nlet z".toList := by
    cbv
  obtain ⟨after, done⟩ := create_pair written
  obtain ⟨_, _, registered', written', held, _, clean⟩ :=
    sync_leaves_created_iff emptyBench_reached done
  obtain rfl := Option.some.inj (registered.symm.trans registered')
  obtain rfl := Except.ok.inj (written.symm.trans written')
  have slashes : Dialect.ofPath (pairProject.resolvePath pairPath) = .slash := by decide +kernel
  have quotable : (Dialect.ofPath (pairProject.resolvePath pairPath)).Quotable
      (identityOf "pair" none) := by
    rw [slashes]
    exact Dialect.quotable_of_isPlainName (by decide) (by decide)
  obtain ⟨_, recovered⟩ := clean (by decide) quotable (by decide +kernel) (by decide +kernel)
  have extracted : pair.readOff pairExtractor.template (Text.trimRight "let z;\nlet z".toList) =
      .ok [("a", .text "z"), ("b", .text "z")] :=
    bind_eq_ok.mpr ⟨pairExtractor, build_pair, by cbv⟩
  refine ⟨emptyBench_reached, after, done, held, recovered _ _ rfl extracted ?_⟩
  rintro _ document ⟨⟩ compiled
  obtain rfl := Except.ok.inj (compile_pair.symm.trans compiled)
  change ∀ name ∈ ["a", "b"], _
  simp only [List.forall_mem_cons]
  exact ⟨rfl, rfl, by simp⟩

end Pairs

end Scaffold.Project
