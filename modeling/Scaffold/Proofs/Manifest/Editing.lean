import Mathlib
import Scaffold.Manifest
import Scaffold.Proofs.Call.Order

/-!
Editing a manifest. Each edit checks a part of what makes the calls resolvable, and what it does not
check follows from what held before: a new call closes no circle because nothing depends on it yet,
and nothing is left dangling by the removal of a call that nothing depends on.
-/

namespace Scaffold.Manifest

/-- A change of a manifest. -/
inductive Edit
  | add (draft : Call.Draft) (now : Instant)
  | update (id : String) (changes : List (String × Value))
  | remove (id : String)
  | touch (now : Instant)

/-- The manifest after an operation that may fail, with how it went. -/
def settled (manifest : Manifest) : Except Error (Call × Manifest) → Except Error Unit × Manifest
  | .ok (_, after) => (.ok (), after)
  | .error error => (.error error, manifest)

/-- How an edit goes, and the manifest after it. -/
def apply (manifest : Manifest) : Edit → Except Error Unit × Manifest
  | .add draft now => manifest.settled (manifest.add draft now)
  | .update id changes => manifest.settled (manifest.update id changes)
  | .remove id => manifest.settled (manifest.remove id)
  | .touch now => (.ok (), manifest.touch now)

/-- The manifest after edits in turn, of which some may have failed. -/
def run (manifest : Manifest) (edits : List Edit) : Manifest :=
  edits.foldl (fun manifest edit => (manifest.apply edit).2) manifest

theorem get?_eq_none {manifest : Manifest} {id : String} :
    manifest.get? id = none ↔ id ∉ manifest.calls.map Call.id :=
  Call.withId?_none

/-- Dependencies that pass the check are ids of other calls of the manifest. -/
theorem checkDependencies_ok {manifest : Manifest} {id : String} {given : List Scalar}
    {dependencies : List String} (run : manifest.checkDependencies id given = .ok dependencies) :
    ∀ dependency ∈ dependencies, dependency ∈ manifest.calls.map Call.id := by
  fun_induction checkDependencies manifest id given generalizing dependencies with
  | case1 =>
    cases run
    simp
  | case2 => cases run
  | case3 => cases run
  | case4 dependency rest different present ih =>
    obtain ⟨others, checked, same⟩ := bind_eq_ok.mp run
    cases same
    intro other listed
    rcases List.mem_cons.mp listed with rfl | listed
    · by_contra absent
      exact present (by rw [get?_eq_none.mpr absent]; rfl)
    · exact ih checked other listed
  | case5 => cases run

/-- A call that is added has a new id and depends on calls that are there; it goes to the end. -/
theorem add_ok {manifest after : Manifest} {draft : Call.Draft} {now : Instant} {call : Call}
    (run : manifest.add draft now = .ok (call, after)) :
    after = { manifest with calls := manifest.calls ++ [call] } ∧
      call.id ∉ manifest.calls.map Call.id ∧
      ∀ id ∈ call.dependsOn, id ∈ manifest.calls.map Call.id := by
  unfold add at run
  split at run
  · cases run
  · next free =>
    obtain ⟨params, _, run⟩ := bind_eq_ok.mp run
    obtain ⟨given, _, run⟩ := bind_eq_ok.mp run
    obtain ⟨dependencies, checked, run⟩ := bind_eq_ok.mp run
    cases run
    refine ⟨rfl, ?_, ?_⟩
    · exact get?_eq_none.mp (by simpa using free)
    · intro id listed
      exact checkDependencies_ok checked id (List.mem_eraseDups.mp listed)

/-- An update puts the changed call in the place of the old one, and the order of the result has been
found. -/
theorem update_ok {manifest after : Manifest} {id : String} {changes : List (String × Value)}
    {call : Call} (run : manifest.update id changes = .ok (call, after)) :
    after = { manifest with
        calls := manifest.calls.map fun other => if other.id = id then call else other } ∧
      ∃ ordered, Call.order after.calls = .ok ordered := by
  unfold update at run
  split at run
  · cases run
  · simp only at run
    split at run
    · cases run
    · obtain ⟨given, _, run⟩ := bind_eq_ok.mp run
      obtain ⟨dependencies, _, run⟩ := bind_eq_ok.mp run
      obtain ⟨ordered, found, run⟩ := bind_eq_ok.mp run
      cases run
      exact ⟨rfl, ordered, found⟩

/-- A call that is removed was there, and no call depends on it. -/
theorem remove_ok {manifest after : Manifest} {id : String} {call : Call}
    (run : manifest.remove id = .ok (call, after)) :
    after = { manifest with calls := manifest.calls.eraseP fun other => other.id == id } ∧
      manifest.get? id = some call ∧ ∀ other ∈ manifest.calls, id ∉ other.dependsOn := by
  unfold remove at run
  split at run
  · cases run
  · next found =>
    simp only at run
    split at run
    · cases run
    · next free =>
      cases run
      refine ⟨rfl, found, ?_⟩
      intro other member listed
      simp only [Bool.not_eq_true, Bool.not_eq_false', List.isEmpty_iff, List.map_eq_nil_iff,
        List.filter_eq_nil_iff, List.contains_eq_mem, decide_eq_true_eq] at free
      exact free other member listed

/-- A manifest that was loaded with its order checked can be resolved. -/
theorem load_resolvable {store : Store} {path : Path} {now : Instant} {manifest : Manifest}
    (run : load store path true now = .ok manifest) : Call.Resolvable manifest.calls := by
  unfold load at run
  split at run
  · cases run
    exact .nil
  · obtain ⟨text, _, run⟩ := bind_eq_ok.mp run
    split at run
    · cases run
    · cases run
    · obtain ⟨read, _, run⟩ := bind_eq_ok.mp run
      obtain ⟨ordered, found, run⟩ := bind_eq_ok.mp run
      cases run
      exact (Call.order_arranged found).2.2

theorem add_resolvable {manifest after : Manifest} {draft : Call.Draft} {now : Instant} {call : Call}
    (resolvable : Call.Resolvable manifest.calls)
    (run : manifest.add draft now = .ok (call, after)) : Call.Resolvable after.calls := by
  obtain ⟨rfl, fresh, known⟩ := add_ok run
  exact resolvable.append fresh known

theorem remove_resolvable {manifest after : Manifest} {id : String} {call : Call}
    (resolvable : Call.Resolvable manifest.calls) (run : manifest.remove id = .ok (call, after)) :
    Call.Resolvable after.calls := by
  obtain ⟨rfl, _, free⟩ := remove_ok run
  refine resolvable.sublist List.eraseP_sublist ?_
  intro other remaining dependency listed
  have member := List.mem_of_mem_eraseP remaining
  obtain ⟨target, inside, same⟩ := List.mem_map.mp (resolvable.known other member dependency listed)
  have different : target.id ≠ id := by
    rintro equal
    exact free other member (equal ▸ same ▸ listed)
  have kept : target ∈ manifest.calls.eraseP fun other => other.id == id := by
    rw [List.mem_eraseP_of_neg (by simpa using different)]
    exact inside
  exact List.mem_map.mpr ⟨target, kept, same⟩

/-- One edit, whether it succeeds or fails, leaves calls that can be resolved. -/
theorem apply_resolvable {manifest : Manifest} (resolvable : Call.Resolvable manifest.calls)
    (edit : Edit) : Call.Resolvable (manifest.apply edit).2.calls := by
  cases edit with
  | add draft now =>
    rw [apply]
    cases run : manifest.add draft now with
    | error error => exact resolvable
    | ok result => exact add_resolvable resolvable run
  | update id changes =>
    rw [apply]
    cases run : manifest.update id changes with
    | error error => exact resolvable
    | ok result =>
      obtain ⟨_, ordered, found⟩ := update_ok run
      exact (Call.order_arranged found).2.2
  | remove id =>
    rw [apply]
    cases run : manifest.remove id with
    | error error => exact resolvable
    | ok result => exact remove_resolvable resolvable run
  | touch now => exact resolvable

theorem run_resolvable {manifest : Manifest} (resolvable : Call.Resolvable manifest.calls)
    (edits : List Edit) : Call.Resolvable (manifest.run edits).calls := by
  induction edits generalizing manifest with
  | nil => exact resolvable
  | cons edit rest ih => exact ih (apply_resolvable resolvable edit)

/-- An edit that fails changes nothing. -/
theorem apply_error {manifest : Manifest} {edit : Edit} {error : Error}
    (failed : (manifest.apply edit).1 = .error error) : (manifest.apply edit).2 = manifest := by
  have unchanged (result : Except Error (Call × Manifest))
      (failed : (manifest.settled result).1 = .error error) :
      (manifest.settled result).2 = manifest := by
    cases result with
    | error => rfl
    | ok => cases failed
  cases edit with
  | add draft now => exact unchanged _ failed
  | update id changes => exact unchanged _ failed
  | remove id => exact unchanged _ failed
  | touch now => cases failed

/-- After every edit of a manifest that was empty or loaded at the beginning, the ids of the calls are
distinct, all dependencies are ids of calls and run in no circle, so that an order of execution
exists; an edit that fails leaves version, stamp and calls as they were. -/
theorem order_exists_after_edits {start : Manifest}
    (origin : start.calls = [] ∨ ∃ store path now, load store path true now = .ok start)
    (edits : List Edit) (edit : Edit) :
    let before := start.run edits
    let after := (before.apply edit).2
    Call.Resolvable after.calls ∧ (∃ ordered, after.order = .ok ordered) ∧
      ∀ error, (before.apply edit).1 = .error error →
        after.version = before.version ∧ after.generated = before.generated ∧
          after.calls = before.calls := by
  have resolvable : Call.Resolvable start.calls := by
    rcases origin with vacant | ⟨store, path, now, run⟩
    · rw [vacant]
      exact .nil
    · exact load_resolvable run
  have kept := apply_resolvable (run_resolvable resolvable edits) edit
  refine ⟨kept, kept.order_succeeds, ?_⟩
  intro error failed
  rw [apply_error failed]
  exact ⟨rfl, rfl, rfl⟩

/-- Of two calls the second depends on the first. Making the first depend on the second is refused,
and both stay as they were. -/
theorem order_exists_after_refused_circle :
    let start := empty ⟨.relative, ["m.json"]⟩ ⟨0⟩
    let edits :=
      [Edit.add { id := "a", generator := .text "g" } ⟨0⟩,
       Edit.add { id := "b", generator := .text "g", dependsOn := .list [.text "a"] } ⟨0⟩]
    let edit := Edit.update "a" [("depends_on", .list [.text "b"])]
    let before := start.run edits
    let after := (before.apply edit).2
    start.calls = [] ∧ (before.apply edit).1 = .error (.cycle "a" ["a", "b", "a"]) ∧
      Call.Resolvable after.calls ∧ (∃ ordered, after.order = .ok ordered) ∧
        after.version = before.version ∧ after.generated = before.generated ∧
          after.calls = before.calls := by
  intro start edits edit before after
  have refused : (before.apply edit).1 = .error (.cycle "a" ["a", "b", "a"]) := by cbv
  obtain ⟨resolvable, ordered, kept⟩ := order_exists_after_edits (.inl rfl : start.calls = [] ∨ _) edits edit
  exact ⟨rfl, refused, resolvable, ordered, kept _ refused⟩

end Scaffold.Manifest
