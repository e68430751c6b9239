import Mathlib.Data.List.Chain
import Mathlib.Data.List.Duplicate
import Mathlib.Data.List.Nodup
import Scaffold.Proofs.Call.Order

/-!
Circles of dependencies. A search goes along a trail, which meets no id twice; an edge from its end back
to one of its ids closes a circle. An order that cannot be given fails for a reason that is there: two
calls of one id, a dependency that no call has, or a circle.
-/

namespace Scaffold.Call

variable {edge : String → String → Prop} {path ids : List String} {last id : String}

/-- A way along edges that meets no id twice, to its last one. -/
structure Trail (edge : String → String → Prop) (path : List String) (last : String) : Prop where
  ends : path.getLast? = some last
  distinct : path.Nodup
  linked : path.IsChain edge

/-- A circle at an id: a way along edges from the id back to it that meets no id twice in between. -/
def IsCircle (edge : String → String → Prop) (id : String) (circle : List String) : Prop :=
  ∃ inner, circle = id :: inner ++ [id] ∧ (id :: inner).Nodup ∧ circle.IsChain edge

namespace Trail

theorem single (id : String) : Trail edge [id] id :=
  ⟨rfl, List.nodup_singleton id, List.isChain_singleton id⟩

theorem extend (trail : Trail edge path last) (step : edge last id) (fresh : id ∉ path) :
    Trail edge (path ++ [id]) id where
  ends := List.getLast?_concat
  distinct := trail.distinct.append (List.nodup_singleton id) (List.disjoint_singleton.mpr fresh)
  linked := by
    refine List.isChain_append.mpr ⟨trail.linked, List.isChain_singleton id, ?_⟩
    intro one ends other begins
    obtain rfl := Option.some.inj (trail.ends.symm.trans ends)
    obtain rfl := Option.some.inj begins
    exact step

/-- From one of its ids on, a trail is a trail as well. -/
theorem exists_from (trail : Trail edge path last) (on : id ∈ path) :
    ∃ inner, path.dropWhile (· != id) = id :: inner ∧ Trail edge (id :: inner) last := by
  obtain ⟨front, inner, rfl⟩ := List.append_of_mem on
  have fresh : ∀ other ∈ front, (other != id) = true := by
    intro other before
    refine bne_iff_ne.mpr fun same => ?_
    exact (List.disjoint_of_nodup_append trail.distinct) before (same ▸ List.mem_cons_self)
  have suffix : id :: inner <:+ front ++ id :: inner := List.suffix_append _ _
  refine ⟨inner, ?_, ?_, trail.distinct.sublist suffix.sublist, trail.linked.suffix suffix⟩
  · rw [List.dropWhile_append_of_pos fresh, List.dropWhile_cons_of_neg (by simp)]
  · have ends := trail.ends
    rwa [List.getLast?_append_of_ne_nil _ (List.cons_ne_nil _ _)] at ends

/-- An edge from the end of a trail back to one of its ids closes a circle. -/
theorem circle (trail : Trail edge path last) (on : id ∈ path) (closes : edge last id) :
    IsCircle edge id (path.dropWhile (· != id) ++ [id]) := by
  obtain ⟨inner, tail, back⟩ := trail.exists_from on
  rw [tail]
  refine ⟨inner, rfl, back.distinct, List.isChain_append.mpr ⟨back.linked, List.isChain_singleton id, ?_⟩⟩
  intro one ends other begins
  obtain rfl := Option.some.inj (back.ends.symm.trans ends)
  obtain rfl := Option.some.inj begins
  exact closes

end Trail

/-! ### Why there is no order -/

/-- An error tells a fault that a list of calls has: an id of several calls, a dependency of a call that is
no call's id, or a circle of dependencies. -/
inductive Told (calls : List Call) : Error → Prop
  | shared {id : String} : List.Duplicate id (calls.map Call.id) → Told calls (.duplicateCall id)
  | missing {caller id : String} : DependsOn calls caller id → id ∉ calls.map Call.id →
      Told calls (.dependencyNotFound id caller)
  | circle {id : String} {circle : List String} : IsCircle (DependsOn calls) id circle →
      Told calls (.cycle id circle)

variable {calls pool placed : List Call} {caller : String} {error : Error}

/-- A repeated id is that of a call, and it was seen before or is that of several calls. -/
theorem firstRepeated?_some {seen : List String} (found : firstRepeated? seen calls = some id) :
    id ∈ calls.map Call.id ∧ (id ∈ seen ∨ List.Duplicate id (calls.map Call.id)) := by
  induction calls generalizing seen with
  | nil => cases found
  | cons call rest ih =>
    rw [firstRepeated?] at found
    split at found
    · next met =>
      obtain rfl := Option.some.inj found
      exact ⟨List.mem_cons_self, .inl (List.contains_iff_mem.mp met)⟩
    · obtain ⟨later, before | twice⟩ := ih found
      · refine ⟨List.mem_cons_of_mem _ later, ?_⟩
        rcases List.mem_cons.mp before with rfl | before
        · exact .inr (List.duplicate_cons_self_iff.mpr later)
        · exact .inl before
      · exact ⟨List.mem_cons_of_mem _ later, .inr (twice.duplicate_cons _)⟩

def IsPool (calls : List Call) (path : List String) (pool : List Call) : Prop :=
  ∀ call, call ∈ pool ↔ call ∈ calls ∧ call.id ∉ path

theorem IsPool.single (calls : List Call) (id : String) : IsPool calls [id] (without id calls) := by
  intro call
  rw [mem_without, List.mem_singleton]

theorem IsPool.enter (isPool : IsPool calls path pool) (id : String) :
    IsPool calls (path ++ [id]) (without id pool) := by
  intro call
  rw [mem_without, isPool call, List.mem_append, List.mem_singleton, not_or, and_assoc]

/-- An id that is not found in the pool is on the path or nowhere. -/
theorem IsPool.mem_path (isPool : IsPool calls path pool) (absent : withId? pool id = none)
    (known : id ∈ calls.map Call.id) : id ∈ path := by
  obtain ⟨call, member, rfl⟩ := List.mem_map.mp known
  by_contra off
  exact withId?_none.mp absent (List.mem_map_of_mem ((isPool call).mpr ⟨member, off⟩))

/-- A visit fails at a dependency that no call has, or at one that closes a circle with the trail. -/
theorem visit_told (failed : visit path pool placed caller ids = .error error)
    (trail : Trail (DependsOn calls) path caller) (isPool : IsPool calls path pool)
    (edges : ∀ id ∈ ids, DependsOn calls caller id) : Told calls error := by
  fun_induction visit path pool placed caller ids with
  | case1 => cases failed
  | case2 path pool placed caller id rest present ih =>
    exact ih failed trail isPool fun other later => edges other (List.mem_cons_of_mem _ later)
  | case3 path pool placed caller id rest absent found onPath =>
    -- the edge leads back to the trail
    cases failed
    exact .circle (trail.circle (List.contains_iff_mem.mp onPath) (edges id List.mem_cons_self))
  | case4 path pool placed caller id rest absent found offPath =>
    -- an id that is neither in the pool nor on the path is unknown
    cases failed
    refine .missing (edges id List.mem_cons_self) fun known => ?_
    exact offPath (List.contains_iff_mem.mpr (isPool.mem_path found known))
  | case5 path pool placed caller id rest absent call found ihBelow ihAfter =>
    -- the visit fails below the call or behind it
    obtain ⟨inside, rfl⟩ := withId?_some found
    obtain ⟨member, off⟩ := (isPool call).mp inside
    cases run : visit (path ++ [call.id]) (without call.id pool) placed call.id call.dependsOn with
    | ok below =>
      rw [run] at failed
      exact ihAfter below failed trail isPool fun other later => edges other (List.mem_cons_of_mem _ later)
    | error cause =>
      rw [run] at failed
      cases failed
      exact ihBelow run (trail.extend (edges _ List.mem_cons_self) off) (isPool.enter call.id)
        fun other listed => ⟨call, member, rfl, listed⟩

theorem visitAll_told {roots : List Call} (failed : visitAll calls placed roots = .error error)
    (within : roots ⊆ calls) : Told calls error := by
  fun_induction visitAll calls placed roots with
  | case1 => cases failed
  | case2 placed root rest present ih => exact ih failed (List.subset_of_cons_subset within)
  | case3 placed root rest absent ih =>
    cases run : visit [root.id] (without root.id calls) placed root.id root.dependsOn with
    | ok below =>
      rw [run] at failed
      exact ih below failed (List.subset_of_cons_subset within)
    | error cause =>
      rw [run] at failed
      cases failed
      exact visit_told run (.single root.id) (.single calls root.id) fun other listed =>
        ⟨root, within List.mem_cons_self, rfl, listed⟩

/-- An order of execution fails with a fault that the calls have, and for a repeated id exactly when two
calls share one. -/
theorem order_error_told (failed : order calls = .error error) :
    ((∃ id, error = .duplicateCall id) ↔ ¬(calls.map Call.id).Nodup) ∧ Told calls error := by
  unfold order at failed
  split at failed
  · next id repeated =>
    cases failed
    have twice := ((firstRepeated?_some repeated).2).resolve_left List.not_mem_nil
    exact ⟨⟨fun _ => twice.not_nodup, fun _ => ⟨id, rfl⟩⟩, .shared twice⟩
  · next unrepeated =>
    have distinct := (firstRepeated?_none.mp unrepeated).1
    have told := visitAll_told failed (List.Subset.refl _)
    refine ⟨⟨?_, fun shared => absurd distinct shared⟩, told⟩
    rintro ⟨id, rfl⟩
    cases told with
    | shared twice => exact twice.not_nodup

/-- A circle that the first call leads to without being on it. -/
theorem order_error_told_of_tail :
    let one : Call := ⟨"a", .null, .null, .null, ["b"], "", .null⟩
    let two : Call := ⟨"b", .null, .null, .null, ["c"], "", .null⟩
    let three : Call := ⟨"c", .null, .null, .null, ["b"], "", .null⟩
    order [one, two, three] = .error (.cycle "b" ["b", "c", "b"]) ∧
      IsCircle (DependsOn [one, two, three]) "b" ["b", "c", "b"] := by
  intro one two three
  have failed : order [one, two, three] = .error (.cycle "b" ["b", "c", "b"]) := by cbv
  obtain ⟨_, told⟩ := order_error_told failed
  cases told with
  | circle isCircle => exact ⟨failed, isCircle⟩

end Scaffold.Call
