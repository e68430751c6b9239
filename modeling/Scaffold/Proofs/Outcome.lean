import Mathlib.Data.List.Forall2

/-!
Outcomes of steps that may fail. When steps in a row succeed, each of them did; when they fail, it is
for what one of them fails for.
-/

namespace Scaffold

variable {ε α β : Type}

theorem bind_eq_ok {first : Except ε α} {next : α → Except ε β} {result : β} :
    first >>= next = .ok result ↔ ∃ value, first = .ok value ∧ next value = .ok result := by
  cases first with
  | error error =>
    constructor
    · intro run
      cases run
    · rintro ⟨_, run, _⟩
      cases run
  | ok value =>
    constructor
    · intro run
      exact ⟨value, rfl, run⟩
    · rintro ⟨other, same, run⟩
      cases same
      exact run

theorem map_eq_ok {first : Except ε α} {f : α → β} {result : β} :
    first.map f = .ok result ↔ ∃ value, first = .ok value ∧ f value = result := by
  cases first with
  | error error => simp [Except.map]
  | ok value => simp [Except.map]

/-- Of two steps that work on a state and may fail, the second is taken from where the first has left the
state, unless that one has failed. -/
theorem run_bind {σ : Type} (work : ExceptT ε (StateM σ) α) (next : α → ExceptT ε (StateM σ) β)
    (state : σ) :
    (work >>= next) state =
      match work state with
      | (.ok value, middle) => next value middle
      | (.error error, middle) => (.error error, middle) := by
  have step : (work >>= next) state = ExceptT.bindCont next (work state).1 (work state).2 := rfl
  rw [step]
  obtain ⟨result, middle⟩ := work state
  cases result <;> rfl

theorem run_bind_eq_ok {σ : Type} {work : ExceptT ε (StateM σ) α} {next : α → ExceptT ε (StateM σ) β}
    {state after : σ} {result : β} :
    (work >>= next) state = (.ok result, after) ↔
      ∃ value middle, work state = (.ok value, middle) ∧ next value middle = (.ok result, after) := by
  rw [run_bind]
  constructor
  · intro run
    split at run
    · next value middle done => exact ⟨value, middle, done, run⟩
    · cases run
  · rintro ⟨value, middle, done, run⟩
    rw [done]
    exact run

theorem mapM_eq_ok {step : α → Except ε β} {items : List α} {results : List β} :
    items.mapM step = .ok results ↔
      List.Forall₂ (fun item result => step item = .ok result) items results := by
  induction items generalizing results with
  | nil =>
    rw [List.mapM_nil, List.forall₂_nil_left_iff]
    exact ⟨fun same => (Except.ok.inj same).symm, fun same => congrArg _ same.symm⟩
  | cons item rest ih =>
    rw [List.mapM_cons, List.forall₂_cons_left_iff, bind_eq_ok]
    constructor
    · rintro ⟨value, here, run⟩
      obtain ⟨values, others, same⟩ := bind_eq_ok.mp run
      exact ⟨value, values, here, ih.mp others, (Except.ok.inj same).symm⟩
    · rintro ⟨value, values, here, others, rfl⟩
      exact ⟨value, here, bind_eq_ok.mpr ⟨values, ih.mpr others, rfl⟩⟩

theorem exists_mapM {step : α → Except ε β} {items : List α}
    (each : ∀ item ∈ items, ∃ result, step item = .ok result) :
    ∃ results, items.mapM step = .ok results := by
  induction items with
  | nil => exact ⟨[], rfl⟩
  | cons item rest ih =>
    obtain ⟨result, here⟩ := each item List.mem_cons_self
    obtain ⟨results, later⟩ := ih fun other listed => each other (List.mem_cons_of_mem _ listed)
    exact ⟨result :: results, mapM_eq_ok.mpr (.cons here (mapM_eq_ok.mp later))⟩

theorem exists_of_mem_mapM {step : α → Except ε β} {items : List α} {results : List β} {result : β}
    (run : items.mapM step = .ok results) (listed : result ∈ results) :
    ∃ item ∈ items, step item = .ok result := by
  have each := mapM_eq_ok.mp run
  clear run
  induction each with
  | nil => cases listed
  | cons here _ ih =>
    rcases List.mem_cons.mp listed with rfl | listed
    · exact ⟨_, List.mem_cons_self, here⟩
    · obtain ⟨item, inside, known⟩ := ih listed
      exact ⟨item, List.mem_cons_of_mem _ inside, known⟩

/-- A step that fails only for allowed causes. -/
def FailsOnly (allowed : ε → Prop) (result : Except ε α) : Prop :=
  ∀ error, result = .error error → allowed error

namespace FailsOnly

variable {allowed more : ε → Prop} {result : Except ε α}

theorem ok (value : α) : FailsOnly allowed (.ok value : Except ε α) :=
  fun _ impossible => by cases impossible

theorem error {cause : ε} (known : allowed cause) : FailsOnly allowed (.error cause : Except ε α) := by
  rintro _ ⟨⟩
  exact known

theorem mono (fails : FailsOnly allowed result) (wider : ∀ error, allowed error → more error) :
    FailsOnly more result :=
  fun error failed => wider error (fails error failed)

theorem bind {next : α → Except ε β} (first : FailsOnly allowed result)
    (later : ∀ value, result = .ok value → FailsOnly allowed (next value)) :
    FailsOnly allowed (result >>= next) := by
  cases result with
  | error cause => exact error (first cause rfl)
  | ok value => exact later value rfl

theorem map {f : α → β} (fails : FailsOnly allowed result) : FailsOnly allowed (result.map f) := by
  cases result with
  | error cause => exact error (fails cause rfl)
  | ok value => exact ok _

theorem mapM {step : α → Except ε β} {items : List α}
    (each : ∀ item ∈ items, FailsOnly allowed (step item)) : FailsOnly allowed (items.mapM step) := by
  induction items with
  | nil => exact ok _
  | cons item rest ih =>
    rw [List.mapM_cons]
    obtain ⟨here, later⟩ := List.forall_mem_cons.mp each
    exact bind here fun _ _ => bind (ih later) fun _ _ => ok _

theorem filterM {test : α → Except ε Bool} {items : List α}
    (each : ∀ item ∈ items, FailsOnly allowed (test item)) : FailsOnly allowed (items.filterM test) := by
  have onward (chosen : List α) : FailsOnly allowed (items.filterAuxM test chosen) := by
    induction items generalizing chosen with
    | nil => exact ok _
    | cons item rest ih =>
      obtain ⟨here, later⟩ := List.forall_mem_cons.mp each
      exact bind here fun _ _ => ih later _
  exact bind (onward []) fun _ _ => ok _

end FailsOnly

end Scaffold
