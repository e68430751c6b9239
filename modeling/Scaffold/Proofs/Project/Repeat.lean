import Scaffold.Proofs.Project.Settled

/-!
Syncing a file twice. A second sync leaves the file as the first one left it exactly when that is up to
date. Where marks stand in sentinels only, that hangs on each rendering alone: the parameters that are
read off it have to give it again.
-/

namespace Scaffold

namespace Sentinel

variable {dialect : Dialect} {path : Option String} {text : List Char} {spans : List Span}

/-- The names in the sentinels of a text can be written in sentinels. -/
theorem findSpans_quotable (regular : dialect.Regular) (found : findSpans dialect path text = .ok spans) :
    ∀ span ∈ spans, span.generator ≠ "" ∧ dialect.Quotable span.generator ∧
      ∀ id ∈ span.unitId, dialect.Quotable id := by
  intro span member
  obtain ⟨opening, listed, closing, _, here⟩ := findSpans_mem found span member
  obtain ⟨generator, factory, named, rfl⟩ := spanOf_eq_ok.mp here
  obtain ⟨front, used, rest, _, _, scanned, _⟩ := startMarks_at regular opening listed
  exact ⟨named, Dialect.quotable_of_startMark regular scanned factory,
    fun id own => Dialect.quotable_of_startMark regular scanned own⟩

theorem Dialect.wrap_ownId (dialect : Dialect) (body : List Char) (generator : String)
    (unitId : Option String) :
    dialect.wrap body generator (ownId generator unitId) = dialect.wrap body generator unitId := by
  have again : ownId generator (ownId generator unitId) = ownId generator unitId := by
    simp [ownId, Option.filter_filter]
  rw [wrap, wrap, start_eq, start_eq, attributesOf, attributesOf, again]

theorem Dialect.wrap_inj {dialect : Dialect} {body other : List Char} {generator : String}
    {unitId : Option String} :
    dialect.wrap body generator unitId = dialect.wrap other generator unitId ↔
      Text.dropRightWhile (· == '\n') body = Text.dropRightWhile (· == '\n') other := by
  simp only [wrap, List.append_assoc, List.append_cancel_left_eq, List.append_cancel_right_eq]

end Sentinel

namespace Project

open Sentinel

variable {registry : Registry} {target : Path} {text first : List Char} {spans : List Span}
  {drafts : List Draft} {between renderings : List (List Char)}

/-- A rendering of a generator that is given again by the parameters that are read off it, but for
line feeds at its end. -/
def Stable (registry : Registry) (generator : String) (rendering : List Char) : Prop :=
  ∃ again, registry.rerender generator (Text.trimRight rendering) = .ok again ∧
    Text.dropRightWhile (· == '\n') again = Text.dropRightWhile (· == '\n') rendering

theorem renew_eq_source_iff {dialect : Dialect} {draft : Draft} {span : Span}
    (read : draft.ReadAs dialect text span) :
    registry.renew dialect span.generator span.unitId (span.body text) = .ok (span.source text) ↔
      Stable registry draft.generator draft.body := by
  rw [Registry.renew_eq_ok, read.generator, read.unitId, read.body, read.source, Stable, Draft.text]
  simp only [Dialect.wrap_ownId, Dialect.wrap_inj, eq_comm]

theorem renewed_sources_iff {dialect : Dialect}
    (read : List.Forall₂ (Draft.ReadAs dialect text) drafts spans) :
    Renewed registry dialect text spans (spans.map (·.source text)) ↔
      ∀ draft ∈ drafts, Stable registry draft.generator draft.body := by
  induction read with
  | nil => exact ⟨fun _ draft member => (nomatch member), fun _ => .nil⟩
  | cons here _ ih =>
    rw [List.map_cons, Renewed, List.forall₂_cons, renew_eq_source_iff here, List.forall_mem_cons]
    exact and_congr_right fun _ => ih

/-- A text whose units have just been written is up to date exactly when their bodies are stable. -/
theorem upToDate_weave_iff (paired : between.length = drafts.length) (filled : drafts ≠ [])
    (clean : ∀ draft ∈ drafts, draft.Clean (Dialect.ofPath target)) (free : Free first)
    (apart : ∀ filler ∈ between, Free filler ∧ Bounded (Dialect.ofPath target) filler) :
    UpToDate registry target (weave first (drafts.map (·.text (Dialect.ofPath target))) between) ↔
      ∀ draft ∈ drafts, Stable registry draft.generator draft.body := by
  have regular := Dialect.regular_of_standard (Dialect.ofPath_standard target)
  obtain ⟨spans, located, read⟩ :=
    findSpans_weave regular (some target.toString) paired clean free apart
  have present : spans ≠ [] := by
    rintro rfl
    exact filled (List.forall₂_nil_right_iff.mp read)
  have found := unitsOf_eq_ok.mpr ⟨located, present⟩
  constructor
  · rintro ⟨others, found', renewed⟩
    rw [found] at found'
    cases found'
    exact (renewed_sources_iff read).mp renewed
  · exact fun stable => ⟨spans, found, (renewed_sources_iff read).mpr stable⟩

/-- The units that a sync writes can be found again when no mark stands in the renderings, nor in the
names of the units. -/
theorem draftsOf_clean {dialect : Dialect} {path : Option String} (regular : dialect.Regular)
    (located : findSpans dialect path text = .ok spans)
    (freeNames : ∀ span ∈ spans, Free span.generator.toList ∧ ∀ id ∈ span.unitId, Free id.toList)
    (freeRenderings : ∀ rendering ∈ renderings, Free rendering) :
    ∀ draft ∈ draftsOf spans renderings, draft.Clean dialect := by
  have quotable := findSpans_quotable regular located
  clear located
  induction spans generalizing renderings with
  | nil => exact fun draft member => nomatch member
  | cons span spans ih =>
    cases renderings with
    | nil => exact fun draft member => nomatch member
    | cons rendering renderings =>
      intro draft member
      rcases List.mem_cons.mp member with rfl | member
      · obtain ⟨named, factory, identity⟩ := quotable span List.mem_cons_self
        obtain ⟨freeGenerator, freeId⟩ := freeNames span List.mem_cons_self
        exact ⟨named, factory, identity, freeGenerator, freeId, freeRenderings _ List.mem_cons_self⟩
      · exact ih (fun other later => freeNames other (List.mem_cons_of_mem _ later))
          (fun other later => freeRenderings other (List.mem_cons_of_mem _ later))
          (fun other later => quotable other (List.mem_cons_of_mem _ later)) draft member

theorem forall_draftsOf {p : String → List Char → Prop}
    (paired : renderings.length = spans.length) :
    (∀ draft ∈ draftsOf spans renderings, p draft.generator draft.body) ↔
      List.Forall₂ (fun span rendering => p span.generator rendering) spans renderings := by
  induction spans generalizing renderings with
  | nil =>
    rw [List.length_eq_zero_iff.mp paired]
    exact ⟨fun _ => .nil, fun _ draft member => nomatch member⟩
  | cons span spans ih =>
    cases renderings with
    | nil => cases paired
    | cons rendering renderings =>
      rw [List.forall₂_cons, ← ih (Nat.succ.inj paired), draftsOf, List.zipWith_cons_cons,
        List.forall_mem_cons]
      rfl

variable {project : Project} {bench after : Bench} {path : Path} {action : Action}

/-- A sync of a file says that it is unchanged, and leaves all files as they are. -/
def LeavesAlone (project : Project) (path : Path) (bench : Bench) : Prop :=
  ∃ last, project.sync path false bench = (.ok .unchanged, last) ∧ last.store = bench.store

/-- A sync leaves a file alone exactly when the file is up to date. -/
theorem leavesAlone_iff (faithful : Faithful project.registry bench.extractors)
    (held : bench.store.read (project.resolvePath path) = .ok text) :
    LeavesAlone project path bench ↔ UpToDate project.registry (project.resolvePath path) text := by
  rw [← rewrite_eq_self_iff]
  constructor
  · rintro ⟨last, done, _⟩
    obtain ⟨old, new, held', rewritten, reported, _⟩ := sync_leaves faithful done
    rw [held] at held'
    cases held'
    by_cases same : new = text
    · rw [same] at rewritten
      exact rewritten
    · rw [if_neg same] at reported
      cases reported
  · intro rewritten
    obtain ⟨last, done, _, still⟩ := sync_of_rewrite faithful false held rewritten
    rw [if_pos rfl] at done
    exact ⟨last, done, still (.inr rfl)⟩

/-- What a second sync does to a file that a first one has written: it leaves the file alone exactly
when that is up to date. If no mark stands between the units, nor in the names of the units, nor in
the renderings, this is so exactly when each rendering is stable. -/
theorem second_sync_leavesAlone_iff (reached : Reached project bench)
    (done : project.sync path false bench = (.ok action, after)) :
    ∃ text spans renderings new,
      bench.store.read (project.resolvePath path) = .ok text ∧
      unitsOf (project.resolvePath path) text = .ok spans ∧
      text = weave (before text 0 spans) (spans.map (·.source text)) (Project.between text spans) ∧
      Rerendered project.registry text spans renderings ∧
      new = weave (before text 0 spans) ((draftsOf spans renderings).map
        (·.text (Dialect.ofPath (project.resolvePath path)))) (Project.between text spans) ∧
      after.store.read (project.resolvePath path) = .ok new ∧
      (LeavesAlone project path after ↔
        UpToDate project.registry (project.resolvePath path) new) ∧
      (Free (before text 0 spans) → (∀ filler ∈ Project.between text spans, Free filler) →
        (∀ span ∈ spans, Free span.generator.toList ∧ ∀ id ∈ span.unitId, Free id.toList) →
        (∀ rendering ∈ renderings, Free rendering) →
        (LeavesAlone project path after ↔ List.Forall₂ (fun span rendering =>
          Stable project.registry span.generator rendering) spans renderings)) := by
  obtain ⟨text, new, held, rewritten, _, left, _⟩ := sync_leaves reached.faithful done
  rw [if_neg Bool.false_ne_true] at left
  obtain ⟨spans, units, found, renewed, rfl⟩ := rewrite_eq_ok.mp rewritten
  obtain ⟨located, filled⟩ := unitsOf_eq_ok.mp found
  have regular := Dialect.regular_of_standard (Dialect.ofPath_standard (project.resolvePath path))
  rw [assemble_eq_weave text renewed.length_eq.symm] at left
  obtain ⟨renderings, rerendered, rfl⟩ := renewed_iff.mp renewed
  have again := reached.synced path false
  rw [done] at again
  have alone := leavesAlone_iff again.faithful left
  have whole := weave_source (findSpans_inOrder regular located)
  rw [List.drop_zero] at whole
  refine ⟨text, spans, renderings, _, held, found, whole.symm, rerendered, rfl, left, alone, ?_⟩
  intro freeFirst freeBetween freeNames freeRenderings
  have written := rerendered.draftsOf_length
  have present : draftsOf spans renderings ≠ [] := by
    intro absent
    rw [absent] at written
    exact filled (List.length_eq_zero_iff.mp written.symm)
  rw [alone, upToDate_weave_iff (by rw [between_length, written]) present
    (draftsOf_clean regular located freeNames freeRenderings) freeFirst
    (fun filler member => ⟨freeBetween filler member, between_bounded regular located filler member⟩)]
  exact forall_draftsOf rerendered.length_eq.symm

section Pairs

open Extract

/-- A text with one unit of the generator of two lines. -/
def pairUnit (lines : List String) : List Char :=
  textOf (["// @codefactory:start factory=\"pair\""] ++ lines ++ ["// @codefactory:end"])

theorem rewrite_pairUnit {lines others : List String} {rendered : List Char} (span : Span)
    (values : Values) (found : unitsOf pairPath (pairUnit lines) = .ok [span])
    (named : span.generator = "pair")
    (extracted : pairExtractor.extract (span.body (pairUnit lines)) = .ok values)
    (written : pair.render (paramsOf values) = .ok rendered)
    (put : pairUnit others = assemble (pairUnit lines) 0
      [(span, (Dialect.ofPath pairPath).wrap rendered span.generator span.unitId)]) :
    pairs.rewrite pairPath (pairUnit lines) = .ok (pairUnit others) := by
  have made := rerender_pair values extracted written
  rw [← named] at made
  exact rewrite_eq_ok.mpr
    ⟨[span], _, found, .cons (Registry.renew_eq_ok.mpr ⟨rendered, made, rfl⟩) .nil, put⟩

/-- A second sync may change a file again. The unit gives the second variable only, and the first one
takes its usual value; after that both are read off the line of the first. -/
theorem second_sync_changes :
    Registry.register {} pair = ([], .ok pairs) ∧
      Reached pairProject (pairBench (pairUnit ["let x"])) ∧
      ∃ after last,
        pairProject.sync pairPath false (pairBench (pairUnit ["let x"])) = (.ok .updated, after) ∧
        after.store.read pairPath = .ok (pairUnit ["let z;", "let x"]) ∧
        pairProject.sync pairPath false after = (.ok .updated, last) ∧
        last.store.read pairPath = .ok (pairUnit ["let z;", "let z"]) ∧
        ¬ LeavesAlone pairProject pairPath after := by
  have once : pairs.rewrite pairPath (pairUnit ["let x"]) = .ok (pairUnit ["let z;", "let x"]) :=
    rewrite_pairUnit ⟨"pair", none, 0, 62, 37, 43⟩ [("b", .text "x")]
      (by cbv) rfl (by cbv) (by cbv) (by cbv)
  have twice : pairs.rewrite pairPath (pairUnit ["let z;", "let x"]) =
      .ok (pairUnit ["let z;", "let z"]) :=
    rewrite_pairUnit ⟨"pair", none, 0, 69, 37, 50⟩ [("a", .text "z"), ("b", .text "z")]
      (by cbv) rfl (by cbv) (by cbv) (by cbv)
  have reached := pairBench_reached (pairUnit ["let x"])
  obtain ⟨after, done, next, left⟩ := sync_updates reached (pairBench_read _) once (by decide +kernel)
  obtain ⟨last, done', _, left'⟩ := sync_updates next left twice (by decide +kernel)
  refine ⟨register_pair, reached, after, last, done, left, done', left', ?_⟩
  rintro ⟨other, quiet, _⟩
  rw [done'] at quiet
  cases quiet

/-- A second sync leaves a unit alone that gives both variables. -/
theorem second_sync_leavesAlone_of_pair :
    ∃ after,
      pairProject.sync pairPath false (pairBench (pairUnit ["let p;", "let q"])) = (.ok .updated, after) ∧
      after.store.read pairPath = .ok (pairUnit ["let p;", "let p"]) ∧
      LeavesAlone pairProject pairPath after := by
  have found : unitsOf pairPath (pairUnit ["let p;", "let q"]) = .ok [⟨"pair", none, 0, 69, 37, 50⟩] := by
    cbv
  have read : pairExtractor.extract
      (Span.body ⟨"pair", none, 0, 69, 37, 50⟩ (pairUnit ["let p;", "let q"])) =
        .ok [("a", .text "p"), ("b", .text "p")] := by
    cbv
  have written : pair.render (paramsOf [("a", .text "p"), ("b", .text "p")]) =
      .ok "let p;\nlet p".toList := by
    cbv
  have once : pairs.rewrite pairPath (pairUnit ["let p;", "let q"]) =
      .ok (pairUnit ["let p;", "let p"]) :=
    rewrite_pairUnit _ _ found rfl read written (by cbv)
  have reached := pairBench_reached (pairUnit ["let p;", "let q"])
  obtain ⟨after, done, _, left⟩ := sync_updates reached (pairBench_read _) once (by decide +kernel)
  refine ⟨after, done, left, ?_⟩
  obtain ⟨text, spans, renderings, new, held, found', _, made, _, _, _, alone⟩ :=
    second_sync_leavesAlone_iff reached done
  obtain rfl := Except.ok.inj ((pairBench_read _).symm.trans held)
  obtain rfl := Except.ok.inj (found.symm.trans found')
  rcases made with _ | ⟨here, _ | _⟩
  obtain rfl := Except.ok.inj ((rerender_pair _ read written).symm.trans here)
  have again : pairExtractor.extract (Text.trimRight "let p;\nlet p".toList) =
      .ok [("a", .text "p"), ("b", .text "p")] := by
    cbv
  have stable : Stable pairs "pair" "let p;\nlet p".toList := ⟨_, rerender_pair _ again written, rfl⟩
  exact (alone (by decide +kernel) (by decide +kernel) (by decide +kernel) (by decide +kernel)).mpr
    (.cons stable .nil)

end Pairs

end Project

end Scaffold
