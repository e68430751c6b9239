import Scaffold.Proofs.Project.Sync
import Scaffold.Proofs.Store.Tree

/-!
Bringing all files of a directory up to date. The files are visited one after the other, but each is
brought up to date as if it were the only one: a sync changes the text of the file that it is given,
which leads no other visited file elsewhere and is no other visited file.
-/

namespace Scaffold

open Sentinel

/-! ### Texts with a start sentinel -/

namespace Sentinel

/-- A text with a unit holds the mark of a start sentinel. -/
theorem hasStart_of_findSpans {dialect : Dialect} (regular : dialect.Regular) {path : Option String}
    {text : List Char} {spans : List Span} (found : findSpans dialect path text = .ok spans)
    (filled : spans ≠ []) : startTag <:+: text := by
  obtain ⟨span, member⟩ := List.exists_mem_of_ne_nil spans filled
  obtain ⟨opening, listed, _⟩ := findSpans_mem found span member
  obtain ⟨front, used, rest, rfl, _, started, _⟩ := startMarks_at regular opening listed
  obtain ⟨after, marked, _⟩ := startMark?_split started
  obtain ⟨gaps, _, split, _⟩ := (afterMark?_eq_some stem_prefix_startTag).mp marked
  exact ⟨front ++ (dialect.opener ++ gaps), after, by rw [split]; simp only [List.append_assoc]⟩

end Sentinel

namespace Project

variable {project : Project} {bench : Bench} {store start : Store} {top path : Path} {preview : Bool}
  {key : Key} {text new : List Char}

/-! ### The files that are visited -/

/-- A file below a directory that may hold units: it has an extension of sources, and no directory on
the way to it is one to skip. -/
def SourceBelow (store : Store) (top path : Path) (content : Content) : Prop :=
  ∃ place key, store.place top = .ok place ∧ key ≠ [] ∧ path = Store.pathBelow top key ∧
    store.node? (place ++ key) = some (.file content) ∧
    (∃ entry ∈ Dialect.extensions, String.ofList (Text.lower path.extension) ∈ entry.2) ∧
    ∀ name ∈ key.dropLast, name ∉ skippedNames

theorem isSource_iff :
    Dialect.isSource path = true ↔
      ∃ entry ∈ Dialect.extensions, String.ofList (Text.lower path.extension) ∈ entry.2 := by
  simp [Dialect.isSource, Dialect.ofExtension?]

theorem SourceBelow.read (sound : store.Sound) (source : SourceBelow store top path (.text text)) :
    store.read path = .ok text := by
  obtain ⟨place, key, placed, filled, rfl, held, _, _⟩ := source
  exact Store.read_eq_ok.mpr ⟨_, sound.place_below placed held filled, held⟩

/-- The files that are visited are the sources below the directory whose texts hold the mark of a
start sentinel. -/
theorem mem_markedFiles (sound : store.Sound) :
    path ∈ markedFiles store top ↔
      ∃ text, SourceBelow store top path (.text text) ∧ startTag <:+: text := by
  simp only [markedFiles, List.mem_filter, List.mem_map, Bool.and_eq_true]
  constructor
  · rintro ⟨⟨key, ⟨below, open_⟩, rfl⟩, ⟨_, source⟩, marked⟩
    obtain ⟨place, node, placed, filled, held⟩ := sound.mem_descendants.mp below
    split at marked
    · next text read =>
      obtain ⟨other, led, there⟩ := Store.read_eq_ok.mp read
      obtain rfl := Except.ok.inj ((sound.place_below placed held filled).symm.trans led)
      refine ⟨text, ⟨place, key, placed, filled, rfl, there, isSource_iff.mp source, ?_⟩,
        Text.holds_iff.mp marked⟩
      simpa using open_
    · cases marked
  · rintro ⟨text, source, marked⟩
    have read := source.read sound
    obtain ⟨place, key, placed, filled, rfl, held, extension, open_⟩ := source
    have led := sound.place_below placed held filled
    refine ⟨⟨key, ⟨sound.mem_descendants.mpr ⟨place, _, placed, filled, held⟩, by simpa using open_⟩,
      rfl⟩, ⟨?_, isSource_iff.mpr extension⟩, ?_⟩
    · rw [Store.hasFile, Store.find?, led]
      simp only [held]
    · rw [read]
      exact Text.holds_iff.mpr marked

/-- The visited files come in the order of their paths, each once. -/
theorem markedFiles_ascending (sound : store.Sound) (top : Path) :
    (markedFiles store top).Pairwise fun one other => one.names < other.names := by
  refine ((List.pairwise_map.mpr ?_).filter _)
  exact ((sound.descendants_ascending top).filter _).imp fun less => List.append_left_lt less

/-! ### One file -/

/-- What a sync reads, and what it makes of it. -/
def rewriting (project : Project) (store : Store) (path : Path) :
    Except Error (List Char × List Char) := do
  let text ← store.read (project.resolvePath path)
  let new ← project.registry.rewrite (project.resolvePath path) text
  return (text, new)

/-- What becomes of a file. -/
def verdict (project : Project) (store : Store) (path : Path) : Except Error Action :=
  (project.rewriting store path).map fun texts => if texts.2 = texts.1 then .unchanged else .updated

theorem rewriting_eq_ok :
    project.rewriting store path = .ok (text, new) ↔
      store.read (project.resolvePath path) = .ok text ∧
        project.registry.rewrite (project.resolvePath path) text = .ok new := by
  rw [rewriting, bind_eq_ok]
  constructor
  · rintro ⟨old, read, run⟩
    obtain ⟨_, rewritten, same⟩ := bind_eq_ok.mp run
    cases same
    exact ⟨read, rewritten⟩
  · rintro ⟨read, rewritten⟩
    exact ⟨text, read, bind_eq_ok.mpr ⟨new, rewritten, rfl⟩⟩

theorem verdict_ne_created : project.verdict store path ≠ .ok .created := by
  intro created
  obtain ⟨texts, _, same⟩ := map_eq_ok.mp created
  split at same <;> cases same

/-- What a sync of one file leaves of a store: nothing but the text of the file is changed, and this
only where the file is updated and the sync is no preview. -/
structure Settles (project : Project) (preview : Bool) (store : Store) (path : Path)
    (after : Store) : Prop where
  shape : store.SameShape after
  others : ∀ key, store.place (project.resolvePath path) ≠ .ok key → after.node? key = store.node? key
  kept : preview = true ∨ project.verdict store path ≠ .ok .updated → after = store
  written : preview = false → project.verdict store path = .ok .updated →
    ∃ text new key, project.rewriting store path = .ok (text, new) ∧
      store.place (project.resolvePath path) = .ok key ∧ after.node? key = some (.file (.text new))

theorem settles_refl (quiet : preview = true ∨ project.verdict store path ≠ .ok .updated) :
    Settles project preview store path store where
  shape := .refl store
  others := fun _ _ => rfl
  kept := fun _ => rfl
  written := by
    intro real updated
    rcases quiet with shown | other
    · exact absurd (shown.symm.trans real) (by decide)
    · exact absurd updated other

theorem verdict_of_rewriting (outcome : project.rewriting store path = .ok (text, new)) :
    project.verdict store path = .ok (if new = text then .unchanged else .updated) := by
  rw [verdict, outcome]
  rfl

theorem commit_settles (outcome : project.rewriting bench.store path = .ok (text, new))
    (preview : Bool) :
    ∃ after, commit (project.resolvePath path) text new preview bench =
        (project.verdict bench.store path, after) ∧
      after.extractors = bench.extractors ∧
      Settles project preview bench.store path after.store := by
  have judged := verdict_of_rewriting outcome
  unfold commit
  by_cases same : new = text
  · rw [if_pos same] at judged ⊢
    exact ⟨bench, by rw [judged]; rfl, rfl, settles_refl (.inr (by simp [judged]))⟩
  · rw [if_neg same] at judged ⊢
    cases preview with
    | true => exact ⟨bench, by rw [judged]; rfl, rfl, settles_refl (.inl rfl)⟩
    | false =>
      obtain ⟨key, placed, held⟩ := Store.read_eq_ok.mp (rewriting_eq_ok.mp outcome).1
      have written : bench.store.write (project.resolvePath path) new =
          .ok (bench.store.set key (.file (.text new))) := by
        simp only [Store.write, placed, held]
      have vacant : bench.store.node? key ≠ some .directory := by simp [held]
      have inside := Store.isEmpty_of_not_directory vacant
      refine ⟨{ bench with store := bench.store.set key (.file (.text new)) }, ?_, rfl, ?_⟩
      · change (Work.writeFile _ new >>= fun _ => pure Action.updated) bench = _
        rw [Work.bind_run, Work.writeFile, Work.changeFiles, written, judged]
        rfl
      · refine ⟨.set held, fun other apart => ?_, fun quiet => ?_, fun _ _ => ?_⟩
        · rw [Store.node?_set inside, if_neg fun here : other = key => apart (here.symm ▸ placed)]
        · rcases quiet with impossible | impossible
          · cases impossible
          · exact absurd judged impossible
        · exact ⟨text, new, key, outcome, placed, by rw [Store.node?_set inside, if_pos rfl]⟩

/-- A sync puts what it makes of a file in its place. -/
theorem sync_run_rewriting (faithful : Faithful project.registry bench.extractors) (path : Path)
    (preview : Bool) :
    ∃ middle, middle.store = bench.store ∧ Faithful project.registry middle.extractors ∧
      project.sync path preview bench =
        match project.rewriting bench.store path with
        | .error error => (.error error, middle)
        | .ok (text, new) => commit (project.resolvePath path) text new preview middle := by
  obtain ⟨middle, store, kept, run⟩ := sync_run faithful path preview
  refine ⟨middle, store, kept, run.trans ?_⟩
  rw [rewriting]
  cases read : bench.store.read (project.resolvePath path) with
  | error error => rfl
  | ok text =>
    cases rewritten : project.registry.rewrite (project.resolvePath path) text with
    | error error => simp only [rewritten, bind, Except.bind]
    | ok new => simp only [rewritten, bind, Except.bind]; rfl

/-- A sync gives its verdict and settles the file, whatever the extractors kept. -/
theorem sync_settles (faithful : Faithful project.registry bench.extractors) (path : Path)
    (preview : Bool) :
    ∃ after, project.sync path preview bench = (project.verdict bench.store path, after) ∧
      Faithful project.registry after.extractors ∧
      Settles project preview bench.store path after.store := by
  obtain ⟨middle, store, kept, run⟩ := sync_run_rewriting faithful path preview
  rw [← store] at run ⊢
  cases outcome : project.rewriting middle.store path with
  | error error =>
    have judged : project.verdict middle.store path = .error error := by
      rw [verdict, outcome]
      rfl
    rw [outcome] at run
    exact ⟨middle, by rw [run, judged], kept, settles_refl (.inr (by simp [judged]))⟩
  | ok texts =>
    rw [outcome] at run
    obtain ⟨after, committed, same, settled⟩ := commit_settles outcome preview
    exact ⟨after, run.trans committed, same ▸ kept, settled⟩

/-! ### One file after the other -/

/-- Where a file is as it was at the start, a sync makes of it what it would have made then. -/
theorem rewriting_of_sameShape (shape : start.SameShape store)
    (alike : ∀ key, start.place (project.resolvePath path) = .ok key →
      store.node? key = start.node? key) :
    project.rewriting store path = project.rewriting start path := by
  rw [rewriting, rewriting, shape.read_eq fun key placed => (alike key (shape.place_eq _ ▸ placed)).symm]

theorem verdict_of_sameShape (shape : start.SameShape store)
    (alike : ∀ key, start.place (project.resolvePath path) = .ok key →
      store.node? key = start.node? key) :
    project.verdict store path = project.verdict start path := by
  rw [verdict, verdict, rewriting_of_sameShape shape alike]

/-- What syncs of several files leave: what each file alone would be left as, and nothing else is
changed. The places and verdicts are those at the start. -/
structure SettlesAll (project : Project) (preview : Bool) (start before : Store) (paths : List Path)
    (after : Store) : Prop where
  shape : before.SameShape after
  visited : ∀ path ∈ paths, ∀ key, start.place (project.resolvePath path) = .ok key →
    ∀ alone, Settles project preview start path alone → after.node? key = alone.node? key
  others : ∀ key, (∀ path ∈ paths, project.verdict start path = .ok .updated →
    start.place (project.resolvePath path) ≠ .ok key) → after.node? key = before.node? key
  kept : preview = true → after = before

/-- Files whose places at the start are different. -/
def Apart (project : Project) (start : Store) (one other : Path) : Prop :=
  ∀ key, start.place (project.resolvePath one) = .ok key →
    start.place (project.resolvePath other) ≠ .ok key

/-- Where a file is as it was at the start, two syncs that settle it leave the same there. -/
theorem Settles.agree {after alone : Store} (shape : start.SameShape store)
    (placed : start.place (project.resolvePath path) = .ok key)
    (alike : store.node? key = start.node? key) (here : Settles project preview store path after)
    (there : Settles project preview start path alone) : after.node? key = alone.node? key := by
  have everywhere : ∀ other, start.place (project.resolvePath path) = .ok other →
      store.node? other = start.node? other := by
    intro other led
    obtain rfl := Except.ok.inj (placed.symm.trans led)
    exact alike
  have outcome := rewriting_of_sameShape shape everywhere
  have judged := verdict_of_sameShape shape everywhere
  by_cases changed : preview = false ∧ project.verdict start path = .ok .updated
  · obtain ⟨text, new, place, rewritten, led, put⟩ :=
      here.written changed.1 (judged.trans changed.2)
    obtain ⟨text', new', place', rewritten', led', put'⟩ := there.written changed.1 changed.2
    rw [outcome, rewritten'] at rewritten
    cases rewritten
    obtain rfl := Except.ok.inj (placed.symm.trans led')
    obtain rfl := Except.ok.inj (led.symm.trans (shape.place_eq _ ▸ placed))
    rw [put, put']
  · have quiet : preview = true ∨ project.verdict start path ≠ .ok .updated := by
      cases preview with
      | true => exact .inl rfl
      | false => exact .inr fun updated => changed ⟨rfl, updated⟩
    rw [here.kept (quiet.imp_right fun other => judged ▸ other), there.kept quiet]
    exact alike

/-- A sync of a file that is as it was at the start, and then syncs of other files. -/
theorem SettlesAll.cons {middle after : Store} {paths : List Path} (shape : start.SameShape store)
    (alike : ∀ key, start.place (project.resolvePath path) = .ok key →
      store.node? key = start.node? key)
    (apart : ∀ other ∈ paths, Apart project start path other)
    (first : Settles project preview store path middle)
    (rest : SettlesAll project preview start middle paths after) :
    SettlesAll project preview start store (path :: paths) after := by
  refine ⟨first.shape.trans rest.shape, fun other member key placed alone settled => ?_,
    fun key untouched => ?_, fun shown => (rest.kept shown).trans (first.kept (.inl shown))⟩
  · rcases List.mem_cons.mp member with rfl | later
    · rw [rest.others key fun next listed _ => apart next listed key placed]
      exact first.agree shape placed (alike key placed) settled
    · exact rest.visited other later key placed alone settled
  · rw [rest.others key fun other listed => untouched other (List.mem_cons_of_mem _ listed)]
    by_cases updated : project.verdict start path = .ok .updated
    · exact first.others key (shape.place_eq _ ▸ untouched path List.mem_cons_self updated)
    · rw [first.kept (.inr (verdict_of_sameShape shape alike ▸ updated))]

/-- A report of what became of files. -/
def SyncReport.noteAll (outcome : Path → Except Error Action) (report : SyncReport)
    (paths : List Path) : SyncReport :=
  paths.foldl (fun report path => report.note path.toString (outcome path)) report

/-- After one file the others follow, with what became of it noted. -/
theorem syncFiles_cons {middle : Bench} {result : Except Error Action}
    (run : project.sync path preview bench = (result, middle)) (report : SyncReport)
    (rest : List Path) :
    ∃ next, next.store = middle.store ∧ next.extractors = middle.extractors ∧
      project.syncFiles preview report (path :: rest) bench =
        project.syncFiles preview (report.note path.toString result) rest next := by
  rw [syncFiles, Work.bind_run, Work.attempt, run]
  cases result with
  | ok action => exact ⟨middle, rfl, rfl, rfl⟩
  | error error =>
    exact ⟨{ middle with log := middle.log ++ [.syncFailed path.toString error.message] }, rfl, rfl, rfl⟩

/-- Syncs of files at different places settle each of them, as from the start. -/
theorem syncFiles_settles {paths : List Path} (report : SyncReport)
    (faithful : Faithful project.registry bench.extractors) (shape : start.SameShape bench.store)
    (alike : ∀ path ∈ paths, ∀ key, start.place (project.resolvePath path) = .ok key →
      bench.store.node? key = start.node? key)
    (apart : paths.Pairwise (Apart project start)) :
    ∃ after, project.syncFiles preview report paths bench =
        (.ok (report.noteAll (project.verdict start) paths), after) ∧
      SettlesAll project preview start bench.store paths after.store := by
  induction paths generalizing bench report with
  | nil => exact ⟨bench, rfl, .refl _, by simp, fun _ _ => rfl, fun _ => rfl⟩
  | cons path rest ih =>
    obtain ⟨fromHere, apart⟩ := List.pairwise_cons.mp apart
    have here := alike path List.mem_cons_self
    obtain ⟨middle, run, kept, settled⟩ := sync_settles faithful path preview
    rw [verdict_of_sameShape shape here] at run
    obtain ⟨next, sameStore, sameExtractors, continued⟩ := syncFiles_cons run report rest
    rw [← sameStore] at settled
    have still : ∀ other ∈ rest, ∀ key, start.place (project.resolvePath other) = .ok key →
        next.store.node? key = start.node? key := by
      intro other listed key placed
      rw [settled.others key fun same => ?_]
      · exact alike other (List.mem_cons_of_mem _ listed) key placed
      · exact fromHere other listed key (shape.place_eq _ ▸ same) placed
    obtain ⟨after, done, all⟩ := ih (report.note path.toString (project.verdict start path))
      (sameExtractors ▸ kept) (shape.trans settled.shape) still apart
    exact ⟨after, continued.trans done, .cons shape here fromHere settled all⟩

/-! ### All files of a directory -/

/-- The report on files, given what became of each. -/
def SyncReport.ofOutcomes (outcome : Path → Except Error Action) (paths : List Path) : SyncReport where
  updated := (paths.filter fun path =>
    match outcome path with
    | .ok .updated => true
    | _ => false).map Path.toString
  unchanged := (paths.filter fun path =>
    match outcome path with
    | .ok .unchanged => true
    | _ => false).map Path.toString
  errors := paths.filterMap fun path =>
    match outcome path with
    | .ok _ => none
    | .error error => some (path.toString, error.message)

section Reports

variable {outcome : Path → Except Error Action} {paths : List Path}

/-- Files that are noted one after the other stand in the lists of their outcomes. -/
theorem noteAll_eq (regular : ∀ path, outcome path ≠ .ok .created) (report : SyncReport) :
    report.noteAll outcome paths =
      { updated := report.updated ++ (SyncReport.ofOutcomes outcome paths).updated
        unchanged := report.unchanged ++ (SyncReport.ofOutcomes outcome paths).unchanged
        errors := report.errors ++ (SyncReport.ofOutcomes outcome paths).errors } := by
  induction paths generalizing report with
  | nil => simp [SyncReport.noteAll, SyncReport.ofOutcomes]
  | cons path rest ih =>
    have later := ih (report.note path.toString (outcome path))
    rw [SyncReport.noteAll, List.foldl_cons, ← SyncReport.noteAll, later]
    rcases became : outcome path with error | _ | _ | _
    · simp [SyncReport.ofOutcomes, SyncReport.note, became]
    · exact absurd became (regular path)
    · simp [SyncReport.ofOutcomes, SyncReport.note, became]
    · simp [SyncReport.ofOutcomes, SyncReport.note, became]

/-- Every file stands in one list of the report, once. -/
theorem ofOutcomes_perm (regular : ∀ path, outcome path ≠ .ok .created) :
    ((SyncReport.ofOutcomes outcome paths).updated ++ (SyncReport.ofOutcomes outcome paths).unchanged ++
      (SyncReport.ofOutcomes outcome paths).errors.map Prod.fst).Perm (paths.map Path.toString) := by
  induction paths with
  | nil => exact .refl _
  | cons path rest ih =>
    rcases became : outcome path with error | _ | _ | _
    · have last := List.perm_middle.trans (ih.cons path.toString)
      simpa [SyncReport.ofOutcomes, became] using last
    · exact absurd became (regular path)
    · simpa [SyncReport.ofOutcomes, became] using ih
    · rw [List.append_assoc] at ih
      have middle := List.perm_middle.trans (ih.cons path.toString)
      simpa [SyncReport.ofOutcomes, became] using middle

end Reports

/-- A path below a directory, seen from a project, is below the directory seen from the project. -/
theorem resolvePath_below (project : Project) (top : Path) (key : Key) :
    project.resolvePath (Store.pathBelow top key) = Store.pathBelow (project.resolvePath top) key := by
  rcases anchored : top.anchor <;>
    simp [resolvePath, Path.join, Store.pathBelow, Path.isAbsolute, anchored]

theorem resolvePath_of_absolute (absolute : top.isAbsolute = true) (key : Key) :
    project.resolvePath (Store.pathBelow top key) = Store.pathBelow top key := by
  rw [resolvePath_below, resolvePath, Path.join, if_pos absolute]

/-- The files that are visited have different places. -/
theorem markedFiles_apart (sound : store.Sound) (top : Path) :
    (markedFiles store top).Pairwise (Apart project store) := by
  refine (markedFiles_ascending sound top).imp_of_mem fun {one other} first second less key led same => ?_
  obtain ⟨_, ⟨place, key₁, _, filled₁, rfl, held₁, _⟩, _⟩ := (mem_markedFiles sound).mp first
  obtain ⟨_, ⟨place', key₂, _, filled₂, rfl, held₂, _⟩, _⟩ := (mem_markedFiles sound).mp second
  have forward : ∀ {place key : Key} {node : Node}, store.node? (place ++ key) = some node → key ≠ [] →
      ".." ∉ key := fun held filled inside =>
    sound.forward _ (Store.mem_of_node_below held filled) (List.mem_append_right _ inside)
  rw [resolvePath_below] at led same
  obtain ⟨base, based, rfl⟩ := Store.place_below_eq led (forward held₁ filled₁)
  obtain ⟨base', based', equal⟩ := Store.place_below_eq same (forward held₂ filled₂)
  obtain rfl := Except.ok.inj (based.symm.trans based')
  obtain rfl := List.append_cancel_left equal
  exact lt_irrefl _ less

/-- A source on which a sync alone succeeds holds a unit, so that it is visited. -/
theorem mem_markedFiles_of_sync {content : Content} {action : Action}
    (faithful : Faithful project.registry bench.extractors) (sound : bench.store.Sound)
    (source : SourceBelow bench.store top path content) (itself : project.resolvePath path = path)
    (succeeded : (project.sync path preview bench).1 = .ok action) :
    path ∈ markedFiles bench.store top := by
  rcases run : project.sync path preview bench with ⟨result, last⟩
  rw [run] at succeeded
  obtain rfl : result = .ok action := succeeded
  obtain ⟨text, new, read, rewritten, _⟩ := sync_leaves faithful run
  obtain ⟨spans, units, found, _⟩ := rewrite_eq_ok.mp rewritten
  obtain ⟨located, filled⟩ := unitsOf_eq_ok.mp found
  have regular := Dialect.regular_of_standard (Dialect.ofPath_standard (project.resolvePath path))
  have marked := hasStart_of_findSpans regular located filled
  obtain ⟨place, key, placed, below, rfl, held, extension, open_⟩ := source
  rw [itself] at read
  obtain ⟨other, led, there⟩ := Store.read_eq_ok.mp read
  obtain rfl := Except.ok.inj ((sound.place_below placed held below).symm.trans led)
  exact (mem_markedFiles sound).mpr
    ⟨text, ⟨place, key, placed, below, rfl, there, extension, open_⟩, marked⟩

/-- A sync of all files of a directory visits exactly the sources below it whose texts hold the mark of
a start sentinel, in order. Each becomes what a sync of it alone would have made of it: the report
says so, the files that are updated are left as that sync would have left them, and nothing else is
changed, by a preview nothing at all. A source that could have been brought up to date is not missed. -/
theorem syncAll_settles_each (reached : Reached project bench) (sound : bench.store.Sound)
    (directory : Option Path) (preview : Bool) :
    let top := (directory.map project.resolvePath).getD project.directory
    let outcome (path : Path) := (project.sync path false bench).1
    ∃ visited report after, project.syncAll directory preview bench = (.ok report, after) ∧
      (∀ path, path ∈ visited ↔
        ∃ text, SourceBelow bench.store top path (.text text) ∧ startTag <:+: text) ∧
      (visited.Pairwise fun one other => one.names < other.names) ∧
      report = .ofOutcomes outcome visited ∧
      (report.updated ++ report.unchanged ++ report.errors.map Prod.fst).Perm
        (visited.map Path.toString) ∧
      (∀ path ∈ visited, ∀ key, bench.store.place (project.resolvePath path) = .ok key →
        after.store.node? key = (project.sync path preview bench).2.store.node? key) ∧
      (∀ path ∈ visited, outcome path ≠ .ok .updated →
        after.store.read (project.resolvePath path) = bench.store.read (project.resolvePath path)) ∧
      (∀ key, (∀ path ∈ visited, outcome path = .ok .updated →
        bench.store.place (project.resolvePath path) ≠ .ok key) →
        after.store.node? key = bench.store.node? key) ∧
      after.store.here = bench.store.here ∧
      (preview = true → after.store = bench.store) ∧
      ∀ path content, SourceBelow bench.store top path content →
        (top.isAbsolute = true → project.resolvePath path = path) ∧
        (project.resolvePath path = path → ∀ action,
          (project.sync path preview bench).1 = .ok action → path ∈ visited) := by
  intro top outcome
  have judged : ∀ path, outcome path = project.verdict bench.store path := by
    intro path
    obtain ⟨last, run, _⟩ := sync_settles reached.faithful path false
    exact congrArg Prod.fst run
  have regular : ∀ path, project.verdict bench.store path ≠ .ok .created := fun _ => verdict_ne_created
  obtain ⟨after, run, settled⟩ := syncFiles_settles {} reached.faithful (.refl bench.store)
    (fun _ _ _ _ => rfl) (markedFiles_apart sound top)
  rw [noteAll_eq regular] at run
  simp only [List.nil_append] at run
  refine ⟨markedFiles bench.store top, .ofOutcomes outcome (markedFiles bench.store top), after, ?_,
    fun path => mem_markedFiles sound, markedFiles_ascending sound top, rfl, ?_, ?_, ?_, ?_,
    settled.shape.here.symm, settled.kept, ?_⟩
  · rw [funext judged]
    exact run
  · exact ofOutcomes_perm fun path => judged path ▸ regular path
  · intro path member key placed
    obtain ⟨last, alone, _, settles⟩ := sync_settles reached.faithful path preview
    rw [alone]
    exact settled.visited path member key placed last.store settles
  · intro path member other
    refine (settled.shape.read_eq fun key placed => ?_).symm
    have same := settled.visited path member key (settled.shape.place_eq _ ▸ placed) bench.store
      (settles_refl (.inr (judged path ▸ other)))
    exact same.symm
  · intro key untouched
    exact settled.others key fun path member updated => untouched path member ((judged path).trans updated)
  · intro path content source
    refine ⟨fun absolute => ?_, fun itself action succeeded =>
      mem_markedFiles_of_sync reached.faithful sound source itself succeeded⟩
    obtain ⟨_, key, _, _, rfl, _⟩ := source
    exact resolvePath_of_absolute absolute key

/-- The one file of a project is visited and updated. -/
theorem syncAll_settles_each_of_pairText :
    Reached pairProject (pairBench pairText) ∧ (pairBench pairText).store.Sound ∧
      ∃ report after, pairProject.syncAll none false (pairBench pairText) = (.ok report, after) ∧
        report = { updated := ["/a.ts"], unchanged := [], errors := [] } ∧
        after.store.node? ["a.ts"] = some (.file (.text pairSynced)) := by
  have sound : (pairBench pairText).store.Sound :=
    ⟨by simp [pairBench], by simp [pairBench, Store.node?], by simp [pairBench], by simp [pairBench]⟩
  have reached := pairBench_reached pairText
  have changed : pairSynced ≠ pairText := by decide +kernel
  obtain ⟨alone, done, _, synced⟩ :=
    sync_updates reached (pairBench_read pairText) rewrite_pairText changed
  obtain ⟨visited, report, after, run, listed, ordered, rfl, _, settled, _⟩ :=
    syncAll_settles_each reached sound none false
  have placed : (pairBench pairText).store.place (pairProject.resolvePath pairPath) = .ok ["a.ts"] := rfl
  have only : ∀ path, path ∈ visited ↔ path = pairPath := by
    intro path
    rw [listed]
    constructor
    · rintro ⟨text, ⟨place, key, top, filled, rfl, held, _⟩, _⟩
      obtain rfl : [] = place := Except.ok.inj top
      have entry := Store.mem_of_node_below held filled
      rw [List.nil_append, pairBench, List.mem_singleton, Prod.mk.injEq] at entry
      rw [entry.1]
      rfl
    · rintro rfl
      refine ⟨pairText, ⟨[], ["a.ts"], rfl, by simp, rfl, rfl, isSource_iff.mp (by cbv), by simp⟩, ?_⟩
      exact Text.holds_iff.mp (by cbv)
  have single : visited = [pairPath] := by
    have once := ordered.imp fun less => ne_of_apply_ne Path.names (ne_of_lt less)
    refine List.perm_singleton.mp ((List.perm_ext_iff_of_nodup once (List.nodup_singleton _)).mpr ?_)
    simpa using only
  subst single
  refine ⟨reached, sound, _, after, run, ?_, ?_⟩
  · have became := congrArg Prod.fst done
    simp only [SyncReport.ofOutcomes, List.filter_cons, List.filter_nil, List.filterMap_cons,
      List.filterMap_nil, became]
    rfl
  · obtain ⟨last, again, _, settles⟩ := sync_settles reached.faithful pairPath false
    obtain ⟨_, rfl⟩ := Prod.mk.inj (done.symm.trans again)
    obtain ⟨key, led, held⟩ := Store.read_eq_ok.mp synced
    rw [← settles.shape.place_eq, placed] at led
    cases led
    rw [settled pairPath (by simp) _ placed, done]
    exact held

end Project

end Scaffold
