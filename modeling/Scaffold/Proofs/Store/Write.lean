import Scaffold.Proofs.Outcome
import Scaffold.Store

/-!
Writing to files. What is written is read back, whether a file was there before or not: its path still
leads there, since a file is put only where no directory was.
-/

namespace Scaffold.Store

variable {store after : Store} {key other : Key} {path : Path} {old text : List Char}

theorem lookup_setEntry (key other : Key) (node : Node) (entries : List (Key × Node)) :
    (setEntry key node entries).lookup other =
      if other = key then some node else entries.lookup other := by
  induction entries with
  | nil =>
    rw [setEntry, List.lookup_cons]
    by_cases same : other = key
    · simp [same]
    · simp [same, beq_eq_false_iff_ne.mpr same]
  | cons entry rest ih =>
    obtain ⟨place, held⟩ := entry
    rw [setEntry]
    by_cases here : place = key
    · rw [if_pos here, List.lookup_cons, List.lookup_cons, here]
      by_cases same : other = key
      · simp [same]
      · simp [same, beq_eq_false_iff_ne.mpr same]
    · rw [if_neg here, List.lookup_cons, List.lookup_cons, ih]
      by_cases found : other = place
      · have apart : ¬ other = key := fun same => here (found.symm.trans same)
        simp [found, here]
      · simp [beq_eq_false_iff_ne.mpr found]

theorem node?_set {node : Node} (inside : key.isEmpty = false) (other : Key) :
    (store.set key node).node? other = if other = key then some node else store.node? other := by
  unfold node?
  by_cases root : other.isEmpty = true
  · have apart : ¬ other = key := by
      rintro rfl
      rw [inside] at root
      cases root
    rw [if_pos root, if_pos root, if_neg apart]
  · rw [if_neg root, if_neg root]
    exact lookup_setEntry key other node store.entries

theorem isEmpty_of_not_directory (vacant : store.node? key ≠ some .directory) :
    key.isEmpty = false := by
  cases key with
  | nil => exact absurd rfl vacant
  | cons name key => rfl

/-- What leads to a place still leads there when a file is put where no directory was: nothing led
through that. -/
theorem foldlM_step_set {content : Content} (vacant : store.node? key ≠ some .directory)
    {names : List String} {start : Key} (led : names.foldlM store.step start = .ok other) :
    names.foldlM (store.set key (.file content)).step start = .ok other := by
  induction names generalizing start with
  | nil => exact led
  | cons name names ih =>
    rw [List.foldlM_cons] at led ⊢
    obtain ⟨next, stepped, led⟩ := bind_eq_ok.mp led
    have here : store.node? start = some .directory := by
      unfold step at stepped
      split at stepped
      · cases stepped
      · cases stepped
      · assumption
    have apart : ¬ start = key := fun same => vacant (same ▸ here)
    have kept : (store.set key (.file content)).step start name = .ok next := by
      rw [step, node?_set (isEmpty_of_not_directory vacant), if_neg apart]
      exact stepped
    rw [kept]
    exact ih led

/-- Where a write puts its text, no directory was. -/
theorem write_eq_ok (run : store.write path text = .ok after) :
    ∃ key, store.place path = .ok key ∧ store.node? key ≠ some .directory ∧
      after = store.set key (.file (.text text)) := by
  unfold write at run
  split at run
  · cases run
  · next key placed =>
    refine ⟨key, placed, ?_⟩
    split at run
    · cases run
    · next file there => exact ⟨by simp [there], (Except.ok.inj run).symm⟩
    · next vacant =>
      split at run
      · exact ⟨by simp [vacant], (Except.ok.inj run).symm⟩
      · cases run
      · cases run

/-- What is written is read back. -/
theorem read_write (run : store.write path text = .ok after) : after.read path = .ok text := by
  obtain ⟨key, placed, vacant, rfl⟩ := write_eq_ok run
  have still : (store.set key (.file (.text text))).place path = .ok key :=
    foldlM_step_set vacant placed
  rw [read, still]
  simp only
  rw [node?_set (isEmpty_of_not_directory vacant), if_pos rfl]

theorem holds_of_read (held : store.read path = .ok text) : store.holds path = true := by
  unfold read at held
  unfold holds find?
  split at held
  · cases held
  · next key placed =>
    rw [placed]
    simp only
    cases there : store.node? key with
    | none =>
      rw [there] at held
      cases held
    | some node => rfl

/-- A text can be written over another one. -/
theorem write_of_read (held : store.read path = .ok old) (text : List Char) :
    ∃ after, store.write path text = .ok after := by
  unfold read at held
  unfold write
  cases placed : store.place path with
  | error obstruction =>
    rw [placed] at held
    cases held
  | ok key =>
    rw [placed] at held
    simp only at held ⊢
    cases there : store.node? key with
    | none =>
      rw [there] at held
      cases held
    | some node =>
      rw [there] at held
      match node with
      | .directory => cases held
      | .file content => exact ⟨_, rfl⟩

end Scaffold.Store
