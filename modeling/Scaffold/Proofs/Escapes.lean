import Scaffold.Error
import Scaffold.Proofs.Outcome

/-!
Failures that no caller expects. They are sorted into kinds, so that it can be said of every step by
which kinds of them it may end; any other failure is one that callers report.
-/

namespace Scaffold

/-- The kinds of failures that no caller expects. -/
inductive Escape
  /-- No home directory is known. -/
  | home
  /-- The bytes of a file are no text. -/
  | bytes
  /-- A number or a date lies out of range. -/
  | range
  /-- A value is used in a way that its kind does not allow. -/
  | misuse
  /-- A value has no operation of a name. -/
  | operation
  /-- A template takes a part of something that is not there. -/
  | undefined
  /-- A template applies a filter that does not exist. -/
  | filter
  /-- A pattern lacks the capture that is asked for. -/
  | capture
  deriving DecidableEq, Repr

/-- The kind of a failure that no caller expects; none if it is one that callers report. -/
def Error.escape? : Error → Option Escape
  | unknownHome _ => some .home
  | undecodable => some .bytes
  | badValue _ => some .range
  | wrongKind _ => some .misuse
  | noOperation _ => some .operation
  | undefinedName _ | undefinedAttribute .. | undefinedItem .. => some .undefined
  | unknownFilter _ => some .filter
  | missingCapture => some .capture
  | _ => none

/-- A failure is reported, or of one of several kinds. -/
def Error.Within (kinds : List Escape) (error : Error) : Prop :=
  ∀ kind, error.escape? = some kind → kind ∈ kinds

/-- A step fails only in ways that are reported, or of several kinds. -/
abbrev FailsWithin {α : Type} (kinds : List Escape) (result : Except Error α) : Prop :=
  FailsOnly (Error.Within kinds) result

variable {kinds others : List Escape} {kind : Escape} {error : Error}

namespace Error

theorem escape?_eq_none : error.escape? = none ↔ error.errorClass ≠ .misuse ∧ error.errorClass ≠ .decoding := by
  cases error <;> simp [escape?, errorClass]

theorem Within.reported (reported : error.escape? = none) : error.Within kinds := by
  intro kind escaping
  rw [reported] at escaping
  cases escaping

theorem Within.of_kind (known : error.escape? = some kind) (listed : kind ∈ kinds) : error.Within kinds := by
  intro other escaping
  rw [known] at escaping
  cases escaping
  exact listed

theorem Within.mono (within : error.Within kinds) (wider : kinds ⊆ others) : error.Within others :=
  fun kind escaping => wider (within kind escaping)

end Error

namespace FailsWithin

variable {α : Type} {result : Except Error α}

theorem reported (reported : error.escape? = none) : FailsWithin kinds (.error error : Except Error α) :=
  FailsOnly.error (.reported reported)

theorem escaping (known : error.escape? = some kind) (listed : kind ∈ kinds) :
    FailsWithin kinds (.error error : Except Error α) :=
  FailsOnly.error (.of_kind known listed)

theorem widen (fails : FailsWithin kinds result) (wider : kinds ⊆ others) : FailsWithin others result :=
  fails.mono fun _ within => within.mono wider

end FailsWithin

/-- A step ends in a failure that callers do not catch. -/
def Stops {α : Type} (result : Except Error α) : Prop :=
  ∃ error, result = .error error ∧ error.errorClass = .misuse

namespace Stops

variable {α β : Type} {result : Except Error α}

@[simp] theorem ok_iff (value : α) : Stops (.ok value : Except Error α) ↔ False :=
  iff_false_intro fun ⟨_, impossible, _⟩ => by cases impossible

@[simp] theorem error_iff : Stops (.error error : Except Error α) ↔ error.errorClass = .misuse := by
  constructor
  · rintro ⟨_, ⟨⟩, known⟩
    exact known
  · exact fun known => ⟨error, rfl, known⟩

theorem bind_iff {next : α → Except Error β} :
    Stops (result >>= next) ↔ Stops result ∨ ∃ value, result = .ok value ∧ Stops (next value) := by
  cases result with
  | error error =>
    change Stops (.error error) ↔ _
    simp
  | ok value =>
    change Stops (next value) ↔ _
    simp

@[simp] theorem map_iff {f : α → β} : Stops (result.map f) ↔ Stops result := by
  cases result with
  | error error => exact error_iff.trans error_iff.symm
  | ok value => exact (ok_iff _).trans (ok_iff _).symm

/-- What fails only as callers report goes on. -/
theorem not_of_fails (fails : FailsWithin [] result) : ¬Stops result := by
  rintro ⟨error, failed, misuse⟩
  have none : error.escape? = none :=
    Option.eq_none_iff_forall_ne_some.mpr fun kind known => by cases fails error failed kind known
  exact (Error.escape?_eq_none.mp none).1 misuse

/-- What fails only as callers do not catch succeeds, or else it stops. -/
theorem not_iff_succeeds (only : FailsOnly (fun error => error.errorClass = .misuse) result) :
    ¬Stops result ↔ ∃ value, result = .ok value := by
  cases result with
  | error error => simpa using only error rfl
  | ok value => simp

end Stops

/-- Work on a state fails only in ways that are reported, or of several kinds. -/
def EscapesWithin {σ α : Type} (kinds : List Escape) (work : ExceptT Error (StateM σ) α) : Prop :=
  ∀ state, FailsWithin kinds (work state).1

namespace EscapesWithin

variable {σ α β : Type} {work : ExceptT Error (StateM σ) α} {next : α → ExceptT Error (StateM σ) β}

theorem pure (value : α) : EscapesWithin kinds (Pure.pure value : ExceptT Error (StateM σ) α) :=
  fun _ => .ok value

theorem widen (escapes : EscapesWithin kinds work) (wider : kinds ⊆ others) : EscapesWithin others work :=
  fun state => FailsWithin.widen (escapes state) wider

/-- What follows may be known to follow a certain result. -/
theorem bind_of (first : EscapesWithin kinds work)
    (later : ∀ value, (∃ state middle, work state = (.ok value, middle)) → EscapesWithin kinds (next value)) :
    EscapesWithin kinds (work >>= next) := by
  intro state
  rw [run_bind]
  have here := first state
  cases run : work state with
  | mk result middle =>
    rw [run] at here
    cases result with
    | ok value => exact later value ⟨state, middle, run⟩ middle
    | error error => exact FailsOnly.error (here error rfl)

theorem bind (first : EscapesWithin kinds work) (later : ∀ value, EscapesWithin kinds (next value)) :
    EscapesWithin kinds (work >>= next) :=
  bind_of first fun value _ => later value

theorem mapM {step : α → ExceptT Error (StateM σ) β} {items : List α}
    (each : ∀ item ∈ items, EscapesWithin kinds (step item)) : EscapesWithin kinds (items.mapM step) := by
  induction items with
  | nil => exact pure []
  | cons item rest ih =>
    rw [List.mapM_cons]
    obtain ⟨here, later⟩ := List.forall_mem_cons.mp each
    exact bind here fun _ => bind (ih later) fun _ => pure _

theorem forM {step : α → ExceptT Error (StateM σ) PUnit} {items : List α}
    (each : ∀ item ∈ items, EscapesWithin kinds (step item)) : EscapesWithin kinds (items.forM step) := by
  induction items with
  | nil => exact pure _
  | cons item rest ih =>
    obtain ⟨here, later⟩ := List.forall_mem_cons.mp each
    exact bind here fun _ => ih later

end EscapesWithin

end Scaffold
