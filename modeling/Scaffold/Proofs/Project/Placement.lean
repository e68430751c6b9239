import Scaffold.Proofs.Project.Creation
import Scaffold.Proofs.Store.Failures
import Scaffold.Proofs.Store.Growth

/-!
What producing a call comes down to: a unit, and the file that it goes to. Which unit that is depends on
the registry alone, and what becomes of it only on what is in that file; a preview finds out the same
and writes nothing.
-/

namespace Scaffold

namespace Work

variable {α β : Type}

theorem ofResult_bind (first : Except Error α) (next : α → Except Error β) :
    ofResult (first >>= next) = (do
      let value ← ofResult first
      ofResult (next value)) := by
  funext bench
  rw [bind_run]
  cases first <;> rfl

theorem ofResult_pure (value : α) : ofResult (pure value) = pure value :=
  rfl

/-- A new file is written after the directories above it are made. Where the file system refuses one or
the other, there are at most more directories. -/
theorem writeNewFile_cases {bench after : Bench} {target : Path} {text : List Char}
    {result : Except Error Unit} (run : writeNewFile target text bench = (result, after)) :
    (∃ error, result = .error error ∧ Store.Refused error ∧
      (after.store = bench.store ∨ bench.store.makeDirectories target.parent = .ok after.store)) ∨
    ∃ middle, result = .ok () ∧ bench.store.makeDirectories target.parent = .ok middle ∧
      middle.write target text = .ok after.store := by
  rw [writeNewFile, bind_run, changeFiles] at run
  cases made : bench.store.makeDirectories target.parent with
  | error error =>
    rw [made] at run
    cases run
    exact .inl ⟨error, rfl, Store.makeDirectories_fails _ _ error made, .inl rfl⟩
  | ok middle =>
    simp only [made, writeFile, changeFiles] at run
    cases written : middle.write target text with
    | error error =>
      rw [written] at run
      cases run
      exact .inl ⟨error, rfl, Store.write_fails _ _ _ error written, .inr rfl⟩
    | ok last =>
      rw [written] at run
      cases run
      exact .inr ⟨middle, rfl, rfl, written⟩

end Work

namespace Project

open Sentinel

variable {project : Project} {bench after : Bench} {target : Path} {text : List Char}
  {node : Node}

/-- A unit, and the file that it goes to. -/
structure Placement where
  target : Path
  draft : Draft

namespace Placement

/-- The identity that the unit has in its file. -/
def identity (placement : Placement) : String :=
  identityOf placement.draft.generator placement.draft.unitId

/-- The text of the unit. -/
def unit (placement : Placement) : List Char :=
  placement.draft.text (Dialect.ofPath placement.target)

/-- The text that a file with units gets. -/
def renewed (placement : Placement) (text : List Char) : Except Error (List Char) := do
  let target := placement.target
  let spans ← findSpans (Dialect.ofPath target) (some target.toString) text
  let span ← unitToReplace target placement.identity spans
  return replaceSpan text span placement.unit

/-- What becomes of a file with a text. -/
def verdict (placement : Placement) (text : List Char) : Except Error Action :=
  if (Text.trim text).isEmpty then .ok .created
  else do
    let new ← placement.renewed text
    return if new = text then .unchanged else .updated

/-- What becomes of a file, given what is there. -/
def outcome (placement : Placement) : Option Node → Except Error Action
  | none => .ok .created
  | some node => do placement.verdict (← node.read placement.target)

end Placement

/-- The unit that a call describes, and the file that it goes to. -/
def placementOf (project : Project) (call : Call) : Except Error Placement := do
  let generator ← project.generatorOf call.generator
  let path ← pathOf call.outputPath
  let params ← call.params.record
  let rendered ← generator.render params
  return ⟨project.resolvePath path, ⟨generator.name, some call.id, rendered⟩⟩

/-- What becomes of a call when it is produced with the files of a store. -/
def forecast (project : Project) (store : Store) (call : Call) : Except Error Action := do
  let placement ← project.placementOf call
  placement.outcome (store.find? placement.target)

theorem produce_eq_place (project : Project) (call : Call) (preview : Bool) :
    project.produce call preview = (do
      let placement ← Work.ofResult (project.placementOf call)
      place placement.target placement.identity placement.unit preview) := by
  unfold produce createWith placementOf
  simp only [Work.ofResult_bind, Work.ofResult_pure, bind_assoc, pure_bind]
  rfl

/-! ### What placing does -/

namespace Placement

variable {placement : Placement} {preview : Bool}

theorem isVacant_of_find? (held : bench.store.find? target = some node) :
    isVacant target bench = ((node.read target).map fun text => (Text.trim text).isEmpty, bench) := by
  have there : bench.store.holds target = true := by rw [Store.holds, held]; rfl
  unfold isVacant
  simp only [Work.bind_run, Work.get_run, there, if_true, Work.readFile, Store.read_of_find? held]
  cases node.read target <;> rfl

theorem isVacant_of_find?_none (free : bench.store.find? target = none) :
    isVacant target bench = (.ok true, bench) := by
  have nothing : bench.store.holds target = false := by rw [Store.holds, free]; rfl
  unfold isVacant
  simp only [Work.bind_run, Work.get_run, nothing, Bool.false_eq_true, if_false]
  rfl

/-- A unit for a place without a text goes to a new file. -/
theorem place_vacant (vacant : ∀ node ∈ bench.store.find? placement.target,
      ∃ text, node.read placement.target = .ok text ∧ (Text.trim text).isEmpty = true) :
    place placement.target placement.identity placement.unit preview bench =
      (do
        if !preview then Work.writeNewFile placement.target (placement.unit ++ ['\n'])
        return .created : Work Action) bench := by
  have free : isVacant placement.target bench = (.ok true, bench) := by
    cases held : bench.store.find? placement.target with
    | none => exact isVacant_of_find?_none held
    | some node =>
      obtain ⟨text, read, blank⟩ := vacant node held
      rw [isVacant_of_find? held, read, Except.map, blank]
  unfold place
  rw [Work.bind_run, free]
  rfl

/-- A unit for a file with a text goes into that text. -/
theorem place_filled (held : bench.store.find? placement.target = some node)
    (read : node.read placement.target = .ok text) (filled : (Text.trim text).isEmpty = false) :
    place placement.target placement.identity placement.unit preview bench =
      (do
        let new ← Work.ofResult (placement.renewed text)
        commit placement.target text new preview) bench := by
  unfold place renewed
  simp only [Work.ofResult_bind, Work.ofResult_pure, bind_assoc, pure_bind]
  rw [Work.bind_run, isVacant_of_find? held, read, Except.map, filled]
  simp only [Bool.false_eq_true, if_false]
  rw [Work.bind_run, Work.readFile, Store.read_of_find? held, read]

/-- What cannot be read is left alone. -/
theorem place_unread {error : Error} (held : bench.store.find? placement.target = some node)
    (read : node.read placement.target = .error error) :
    place placement.target placement.identity placement.unit preview bench = (.error error, bench) := by
  unfold place
  rw [Work.bind_run, isVacant_of_find? held, read]
  rfl

/-! ### What becomes of a file -/

theorem renewed_of_found {spans : List Span}
    (found : findSpans (Dialect.ofPath placement.target) (some placement.target.toString) text = .ok spans) :
    placement.renewed text =
      (unitToReplace placement.target placement.identity spans).map fun span =>
        replaceSpan text span placement.unit := by
  unfold renewed
  simp only [found]
  change (unitToReplace placement.target placement.identity spans >>= _) = _
  cases unitToReplace placement.target placement.identity spans <;> rfl

theorem read_eq_ok {path : Path} : node.read path = .ok text ↔ node = .file (.text text) := by
  match node with
  | .directory => simp [Node.read]
  | .file (.bytes raw) => simp [Node.read]
  | .file (.text chars) => simp [Node.read]

/-- A file is made where there is none, or a blank one. -/
theorem outcome_created {found : Option Node} :
    placement.outcome found = .ok .created ↔
      ∀ node ∈ found, ∃ text, node = .file (.text text) ∧ (Text.trim text).isEmpty = true := by
  cases found with
  | none => simp [outcome]
  | some node =>
    simp only [Option.mem_def, Option.some.injEq, forall_eq']
    rw [outcome, bind_eq_ok]
    constructor
    · rintro ⟨text, read, told⟩
      refine ⟨text, read_eq_ok.mp read, ?_⟩
      by_contra filled
      rw [verdict, if_neg filled] at told
      obtain ⟨new, _, told⟩ := bind_eq_ok.mp told
      have action := Except.ok.inj told
      split at action <;> cases action
    · rintro ⟨text, rfl, blank⟩
      exact ⟨text, rfl, by rw [verdict, if_pos blank]⟩

/-- A file gets another text when it has one that the unit changes. -/
theorem outcome_updated {found : Option Node} :
    placement.outcome found = .ok .updated ↔
      ∃ text new, found = some (.file (.text text)) ∧ (Text.trim text).isEmpty = false ∧
        placement.renewed text = .ok new ∧ new ≠ text := by
  constructor
  · intro told
    cases found with
    | none => cases told
    | some node =>
      obtain ⟨text, read, told⟩ := bind_eq_ok.mp told
      unfold verdict at told
      split at told
      · cases told
      · next filled =>
        obtain ⟨new, renewed, told⟩ := bind_eq_ok.mp told
        refine ⟨text, new, congrArg some (read_eq_ok.mp read), by simpa using filled, renewed, ?_⟩
        rintro rfl
        rw [if_pos rfl] at told
        cases told
  · rintro ⟨text, new, rfl, filled, renewed, changed⟩
    change placement.verdict text = _
    rw [verdict, filled, renewed]
    change (Except.ok (if new = text then _ else _) : Except Error Action) = _
    rw [if_neg changed]

/-- Placing tells what becomes of the file. A preview writes nothing for it, nor is anything written for
a unit that makes no file and changes none. -/
theorem place_quiet
    (quiet : preview = true ∨ placement.outcome (bench.store.find? placement.target) ≠ .ok .created ∧
      placement.outcome (bench.store.find? placement.target) ≠ .ok .updated) :
    place placement.target placement.identity placement.unit preview bench =
      (placement.outcome (bench.store.find? placement.target), bench) := by
  cases held : bench.store.find? placement.target with
  | none =>
    -- a file would be made, so this is a preview
    rw [held] at quiet
    obtain rfl := quiet.resolve_right fun still => still.1 rfl
    rw [place_vacant (by simp [held])]
    rfl
  | some node =>
    rw [held] at quiet
    cases read : node.read placement.target with
    | error error =>
      rw [place_unread held read, outcome, read]
      rfl
    | ok text =>
      have told : placement.outcome (some node) = placement.verdict text := by rw [outcome, read]; rfl
      rw [told] at quiet ⊢
      unfold verdict at quiet ⊢
      cases filled : (Text.trim text).isEmpty with
      | true =>
        -- a blank file is treated as none
        rw [filled] at quiet
        obtain rfl := quiet.resolve_right fun still => still.1 rfl
        rw [place_vacant fun other there =>
          ⟨text, by rw [← read, Option.some.inj (held.symm.trans there)], filled⟩]
        rfl
      | false =>
        -- a file with a text is changed if the unit in it is
        rw [filled] at quiet
        rw [place_filled held read filled, Work.bind_run]
        cases renewed : placement.renewed text with
        | error error => rfl
        | ok new =>
          rw [renewed] at quiet
          change commit placement.target text new preview bench =
            (.ok (if new = text then .unchanged else .updated), bench)
          by_cases same : new = text
          · rw [commit, if_pos same, if_pos same]
            rfl
          · obtain rfl := quiet.resolve_right fun still => still.2 (congrArg Except.ok (if_neg same))
            rw [commit, if_neg same, if_neg same]
            rfl

/-- Where a file gets another text, that is written. -/
theorem place_updated
    (told : placement.outcome (bench.store.find? placement.target) = .ok .updated) :
    ∃ text new store, bench.store.find? placement.target = some (.file (.text text)) ∧
      (Text.trim text).isEmpty = false ∧ placement.renewed text = .ok new ∧
      bench.store.write placement.target new = .ok store ∧
      place placement.target placement.identity placement.unit false bench =
        (.ok .updated, { bench with store }) := by
  obtain ⟨text, new, held, filled, renewed, changed⟩ := outcome_updated.mp told
  obtain ⟨store, written⟩ := Store.write_of_read (Store.read_of_find? held) new
  refine ⟨text, new, store, held, filled, renewed, written, ?_⟩
  rw [place_filled held rfl filled, Work.bind_run, renewed]
  change commit placement.target text new false bench = _
  rw [commit, if_neg changed]
  simp only [Bool.not_false, if_true, Work.bind_run, Work.writeFile, Work.changeFiles, written]
  rfl

/-- Where there is no file, one is made. -/
theorem place_made
    (told : placement.outcome (bench.store.find? placement.target) = .ok .created) :
    place placement.target placement.identity placement.unit false bench =
      (do
        Work.writeNewFile placement.target (placement.unit ++ ['\n'])
        return .created : Work Action) bench := by
  refine place_vacant fun node there => ?_
  obtain ⟨text, rfl, blank⟩ := outcome_created.mp told node there
  exact ⟨text, rfl, blank⟩

end Placement

/-! ### What becomes of a call -/

/-- A preview of a call tells its forecast and changes nothing. -/
theorem produce_preview (project : Project) (call : Call) (bench : Bench) :
    project.produce call true bench = (project.forecast bench.store call, bench) := by
  rw [produce_eq_place, Work.bind_run, forecast]
  cases project.placementOf call with
  | error error => rfl
  | ok placement => exact Placement.place_quiet (.inl rfl)

theorem produce_placed {call : Call} {placement : Placement} {preview : Bool}
    (placed : project.placementOf call = .ok placement) :
    project.produce call preview =
      place placement.target placement.identity placement.unit preview := by
  rw [produce_eq_place, placed]
  rfl

theorem forecast_placed {call : Call} {placement : Placement} {store : Store}
    (placed : project.placementOf call = .ok placement) :
    project.forecast store call = placement.outcome (store.find? placement.target) := by
  rw [forecast, placed]
  rfl

end Project

end Scaffold
