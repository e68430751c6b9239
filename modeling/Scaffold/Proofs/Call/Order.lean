import Scaffold.Call.Order
import Scaffold.Proofs.Call.Graph
import Scaffold.Proofs.Outcome

/-!
The order of execution is found exactly when the dependencies can be met, and it meets them. A visit
only appends calls of its pool; it fails only at an unknown id or at an id on its own path, and in
the latter case the path closes a circle.
-/

namespace Scaffold.Call

/-- What has been placed so far: calls of a list, with distinct ids, each after its dependencies. -/
structure Arranged (calls placed : List Call) : Prop where
  within : placed ⊆ calls
  distinct : (placed.map Call.id).Nodup
  first : DependenciesFirst placed

theorem Arranged.nil (calls : List Call) : Arranged calls [] :=
  ⟨List.nil_subset _, List.nodup_nil, .nil⟩

theorem Arranged.append {calls placed : List Call} (arranged : Arranged calls placed) {call : Call}
    (member : call ∈ calls) (fresh : call.id ∉ placed.map Call.id)
    (known : ∀ id ∈ call.dependsOn, id ∈ placed.map Call.id) :
    Arranged calls (placed ++ [call]) where
  within := List.append_subset.mpr ⟨arranged.within, by simpa using member⟩
  distinct := by
    rw [List.map_append]
    exact arranged.distinct.append (List.nodup_singleton _) (List.disjoint_singleton.mpr fresh)
  first := arranged.first.append known

theorem any_id_iff {calls : List Call} {id : String} :
    (calls.any fun call => call.id == id) = true ↔ id ∈ calls.map Call.id := by
  simp

theorem withId?_some {calls : List Call} {id : String} {call : Call}
    (found : withId? calls id = some call) : call ∈ calls ∧ call.id = id := by
  have same := List.find?_some found
  exact ⟨List.mem_of_find?_eq_some found, by simpa using same⟩

theorem withId?_none {calls : List Call} {id : String} :
    withId? calls id = none ↔ id ∉ calls.map Call.id := by
  simp [withId?]

theorem mem_without {pool : List Call} {id : String} {call : Call} :
    call ∈ without id pool ↔ call ∈ pool ∧ call.id ≠ id := by
  simp [without]

theorem without_subset (id : String) (pool : List Call) : without id pool ⊆ pool :=
  fun _ member => (mem_without.mp member).1

theorem visit_of_missing {path : List String} {pool placed : List Call} {caller id : String}
    {rest : List String} (absent : ¬(placed.any fun call => call.id == id) = true)
    (missing : withId? pool id = none) :
    visit path pool placed caller (id :: rest) =
      if path.contains id then .error (.cycle id (path.dropWhile (· != id) ++ [id]))
      else .error (.dependencyNotFound id caller) := by
  rw [visit, if_neg absent]
  split
  · rfl
  · next call found => cases missing.symm.trans found

theorem visit_of_found {path : List String} {pool placed : List Call} {caller id : String}
    {rest : List String} {call : Call} (absent : ¬(placed.any fun call => call.id == id) = true)
    (found : withId? pool id = some call) :
    visit path pool placed caller (id :: rest) =
      (visit (path ++ [id]) (without id pool) placed id call.dependsOn >>= fun below =>
        visit path pool (below ++ [call]) caller rest) := by
  rw [visit, if_neg absent]
  split
  · next missing => cases missing.symm.trans found
  · next other here =>
    obtain rfl := Option.some.inj (here.symm.trans found)
    rfl

/-! ### What a visit places -/

theorem visit_appends {path : List String} {pool placed result : List Call} {caller : String}
    {ids : List String} (run : visit path pool placed caller ids = .ok result) :
    ∃ added, result = placed ++ added ∧ added ⊆ pool := by
  fun_induction visit path pool placed caller ids generalizing result with
  | case1 path pool placed caller =>
    cases run
    exact ⟨[], by simp, List.nil_subset _⟩
  | case2 path pool placed caller id rest present ih => exact ih run
  | case3 => cases run
  | case4 => cases run
  | case5 path pool placed caller id rest absent call found ihBelow ihAfter =>
    obtain ⟨below, visited, visitedRest⟩ := bind_eq_ok.mp run
    obtain ⟨first, rfl, firstSubset⟩ := ihBelow visited
    obtain ⟨second, rfl, secondSubset⟩ := ihAfter _ visitedRest
    refine ⟨first ++ call :: second, by simp, ?_⟩
    have member := (withId?_some found).1
    exact List.append_subset.mpr ⟨fun _ inside => without_subset id pool (firstSubset inside),
      List.cons_subset.mpr ⟨member, secondSubset⟩⟩

theorem visit_keeps {path : List String} {pool placed result : List Call} {caller : String}
    {ids : List String} (run : visit path pool placed caller ids = .ok result) : placed ⊆ result := by
  obtain ⟨added, rfl, _⟩ := visit_appends run
  exact List.subset_append_left _ _

theorem visit_fresh {path : List String} {pool placed result : List Call} {caller id : String}
    {ids : List String} (run : visit path (without id pool) placed caller ids = .ok result)
    (absent : ¬(placed.any fun call => call.id == id) = true) : id ∉ result.map Call.id := by
  obtain ⟨added, rfl, subset⟩ := visit_appends run
  rw [List.map_append, List.mem_append, not_or]
  refine ⟨fun before => absent (any_id_iff.mpr before), fun during => ?_⟩
  obtain ⟨other, inside, same⟩ := List.mem_map.mp during
  exact (mem_without.mp (subset inside)).2 same

/-- A visit places calls after their dependencies, and among them every id that it was given. -/
theorem visit_arranged {calls : List Call} {path : List String} {pool placed result : List Call}
    {caller : String} {ids : List String} (run : visit path pool placed caller ids = .ok result)
    (arranged : Arranged calls placed) (within : pool ⊆ calls) :
    Arranged calls result ∧ ∀ id ∈ ids, id ∈ result.map Call.id := by
  fun_induction visit path pool placed caller ids generalizing result with
  | case1 path pool placed caller =>
    cases run
    exact ⟨arranged, fun _ listed => absurd listed List.not_mem_nil⟩
  | case2 path pool placed caller id rest present ih =>
    obtain ⟨after, met⟩ := ih run arranged within
    refine ⟨after, List.forall_mem_cons.mpr ⟨?_, met⟩⟩
    exact List.map_subset Call.id (visit_keeps run) (any_id_iff.mp present)
  | case3 => cases run
  | case4 => cases run
  | case5 path pool placed caller id rest absent call found ihBelow ihAfter =>
    -- the dependencies are placed below the call, the call behind them, and then the rest
    obtain ⟨member, rfl⟩ := withId?_some found
    obtain ⟨below, visited, visitedRest⟩ := bind_eq_ok.mp run
    obtain ⟨arrangedBelow, metBelow⟩ :=
      ihBelow visited arranged fun _ inside => within (without_subset call.id pool inside)
    obtain ⟨after, met⟩ := ihAfter below visitedRest
      (arrangedBelow.append (within member) (visit_fresh visited absent) metBelow) within
    refine ⟨after, List.forall_mem_cons.mpr ⟨?_, met⟩⟩
    exact List.mem_map_of_mem (visit_keeps visitedRest (by simp))

/-- Where the dependencies can be met, each dependency of the caller is in the pool. Every id of the path
leads to the caller, so a dependency on the path would close a circle. -/
theorem Resolvable.withId?_ne_none {calls : List Call} (resolvable : Resolvable calls)
    {path : List String} {pool : List Call} {caller id : String}
    (covered : ∀ call ∈ calls, call.id ∉ path → call ∈ pool)
    (leads : ∀ id ∈ path, Relation.ReflTransGen (DependsOn calls) id caller)
    (edge : DependsOn calls caller id) : withId? pool id ≠ none := by
  intro missing
  have ⟨call, member, _, listed⟩ := edge
  obtain ⟨target, inside, rfl⟩ := List.mem_map.mp (resolvable.known call member id listed)
  by_cases onPath : target.id ∈ path
  · exact resolvable.acyclic _ (.tail' (leads _ onPath) edge)
  · exact withId?_none.mp missing (List.mem_map_of_mem (covered target inside onPath))

/-- Where the dependencies can be met, a visit succeeds. -/
theorem visit_succeeds {calls : List Call} (resolvable : Resolvable calls) {path : List String}
    {pool placed : List Call} {caller : String} {ids : List String} (within : pool ⊆ calls)
    (covered : ∀ call ∈ calls, call.id ∉ path → call ∈ pool)
    (leads : ∀ id ∈ path, Relation.ReflTransGen (DependsOn calls) id caller)
    (edges : ∀ id ∈ ids, DependsOn calls caller id) :
    ∃ result, visit path pool placed caller ids = .ok result := by
  fun_induction visit path pool placed caller ids with
  | case1 path pool placed caller => exact ⟨placed, rfl⟩
  | case2 path pool placed caller id rest present ih =>
    exact ih within covered leads fun other listed => edges other (List.mem_cons_of_mem _ listed)
  | case3 path pool placed caller id rest absent missing onPath =>
    exact absurd missing (resolvable.withId?_ne_none covered leads (edges id List.mem_cons_self))
  | case4 path pool placed caller id rest absent missing offPath =>
    exact absurd missing (resolvable.withId?_ne_none covered leads (edges id List.mem_cons_self))
  | case5 path pool placed caller id rest absent call found ihBelow ihAfter =>
    -- the visit goes on along the edge to a call of the pool, which is then on the path
    obtain ⟨member, same⟩ := withId?_some found
    have edge := edges id List.mem_cons_self
    obtain ⟨below, visited⟩ := by
      refine ihBelow (fun _ inside => within (without_subset id pool inside)) ?_ ?_ ?_
      · intro other inside off
        rw [List.mem_append, not_or, List.mem_singleton] at off
        exact mem_without.mpr ⟨covered other inside off.1, off.2⟩
      · intro other on
        rcases List.mem_append.mp on with before | last
        · exact (leads other before).tail edge
        · obtain rfl := List.mem_singleton.mp last
          exact .refl
      · intro other listed
        exact ⟨call, within member, same, listed⟩
    obtain ⟨result, after⟩ := ihAfter below within covered leads fun other listed =>
      edges other (List.mem_cons_of_mem _ listed)
    exact ⟨result, bind_eq_ok.mpr ⟨below, visited, after⟩⟩

theorem visitAll_arranged {calls placed roots result : List Call}
    (run : visitAll calls placed roots = .ok result) (arranged : Arranged calls placed)
    (within : roots ⊆ calls) :
    Arranged calls result ∧ placed ⊆ result ∧ ∀ root ∈ roots, root.id ∈ result.map Call.id := by
  fun_induction visitAll calls placed roots with
  | case1 placed =>
    cases run
    exact ⟨arranged, List.Subset.refl _, fun _ listed => absurd listed List.not_mem_nil⟩
  | case2 placed root rest present ih =>
    obtain ⟨after, kept, met⟩ := ih run arranged (List.subset_of_cons_subset within)
    refine ⟨after, kept, List.forall_mem_cons.mpr ⟨?_, met⟩⟩
    exact List.map_subset Call.id kept (any_id_iff.mp present)
  | case3 placed root rest absent ih =>
    obtain ⟨below, visited, visitedRest⟩ := bind_eq_ok.mp run
    obtain ⟨arrangedBelow, metBelow⟩ :=
      visit_arranged visited arranged (without_subset root.id calls)
    obtain ⟨after, kept, met⟩ := ih below visitedRest
      (arrangedBelow.append (within List.mem_cons_self) (visit_fresh visited absent) metBelow)
      (List.subset_of_cons_subset within)
    obtain ⟨before, last⟩ := List.append_subset.mp kept
    refine ⟨after, List.Subset.trans (visit_keeps visited) before, ?_⟩
    exact List.forall_mem_cons.mpr ⟨List.mem_map_of_mem (last List.mem_cons_self), met⟩

theorem visitAll_succeeds {calls : List Call} (resolvable : Resolvable calls)
    {placed roots : List Call} (within : roots ⊆ calls) :
    ∃ result, visitAll calls placed roots = .ok result := by
  fun_induction visitAll calls placed roots with
  | case1 placed => exact ⟨placed, rfl⟩
  | case2 placed root rest present ih =>
    exact ih fun _ inside => within (List.mem_cons_of_mem _ inside)
  | case3 placed root rest absent ih =>
    -- the path is the root alone, so every other call is in the pool
    obtain ⟨below, visited⟩ : ∃ below,
        visit [root.id] (without root.id calls) placed root.id root.dependsOn = .ok below := by
      refine visit_succeeds resolvable (without_subset root.id calls) ?_ ?_ ?_
      · intro other inside off
        exact mem_without.mpr ⟨inside, by simpa using off⟩
      · intro id on
        obtain rfl := List.mem_singleton.mp on
        exact .refl
      · intro id listed
        exact ⟨root, within List.mem_cons_self, rfl, listed⟩
    obtain ⟨result, after⟩ := ih below fun _ inside => within (List.mem_cons_of_mem _ inside)
    exact ⟨result, bind_eq_ok.mpr ⟨below, visited, after⟩⟩

theorem firstRepeated?_none {seen : List String} {calls : List Call} :
    firstRepeated? seen calls = none ↔
      (calls.map Call.id).Nodup ∧ ∀ call ∈ calls, call.id ∉ seen := by
  induction calls generalizing seen with
  | nil => simp [firstRepeated?]
  | cons call rest ih =>
    by_cases present : call.id ∈ seen
    · simp [firstRepeated?, present]
    · simp only [firstRepeated?, List.contains_eq_mem, present, decide_false, Bool.false_eq_true,
        if_false, ih, List.map_cons, List.nodup_cons, List.mem_map, List.mem_cons,
        forall_eq_or_imp, not_or, not_exists, not_and, not_false_eq_true, true_and]
      constructor
      · rintro ⟨distinct, apart⟩
        exact ⟨⟨fun other inside => (apart other inside).1, distinct⟩,
          fun other inside => (apart other inside).2⟩
      · rintro ⟨⟨apart, distinct⟩, unseen⟩
        exact ⟨distinct, fun other inside => ⟨apart other inside, unseen other inside⟩⟩

/-- Calls that are placed are those of the list, in another order. -/
theorem Arranged.perm {calls placed : List Call} (arranged : Arranged calls placed)
    (distinct : (calls.map Call.id).Nodup) (all : ∀ call ∈ calls, call.id ∈ placed.map Call.id) :
    placed.Perm calls := by
  rw [List.perm_ext_iff_of_nodup (List.Nodup.of_map _ arranged.distinct) (List.Nodup.of_map _ distinct)]
  intro call
  refine ⟨fun inside => arranged.within inside, fun inside => ?_⟩
  obtain ⟨other, placedOther, same⟩ := List.mem_map.mp (all call inside)
  have equal := List.inj_on_of_nodup_map distinct (arranged.within placedOther) inside same
  exact equal ▸ placedOther

/-- What the order of execution is, when there is one. -/
theorem order_arranged {calls result : List Call} (run : order calls = .ok result) :
    result.Perm calls ∧ DependenciesFirst result ∧ Resolvable calls := by
  unfold order at run
  split at run
  · cases run
  · next unrepeated =>
    obtain ⟨distinct, _⟩ := firstRepeated?_none.mp unrepeated
    obtain ⟨arranged, _, met⟩ := visitAll_arranged run (.nil calls) (List.Subset.refl _)
    have same := arranged.perm distinct met
    exact ⟨same, arranged.first, (arranged.first.resolvable arranged.distinct).perm same⟩

/-- Where the dependencies can be met there is an order of execution. -/
theorem Resolvable.order_succeeds {calls : List Call} (resolvable : Resolvable calls) :
    ∃ result, order calls = .ok result := by
  have unrepeated : firstRepeated? [] calls = none :=
    firstRepeated?_none.mpr ⟨resolvable.distinct, by simp⟩
  unfold order
  rw [unrepeated]
  exact visitAll_succeeds resolvable (List.Subset.refl _)

/-! ### Calls made of other things -/

section Map

variable {change : Call → Call} (id : ∀ call, (change call).id = call.id)
  (dependsOn : ∀ call, (change call).dependsOn = call.dependsOn)

include id

theorem any_id_map (calls : List Call) (name : String) :
    ((calls.map change).any fun call => call.id == name) = calls.any fun call => call.id == name := by
  rw [List.any_map]
  exact congrArg _ (funext fun call => by rw [Function.comp_apply, id])

theorem withId?_map (calls : List Call) (name : String) :
    withId? (calls.map change) name = (withId? calls name).map change := by
  rw [withId?, List.find?_map]
  exact congrArg _ (congrArg (List.find? · calls) (funext fun call => by rw [Function.comp_apply, id]))

theorem without_map (name : String) (pool : List Call) :
    without name (pool.map change) = (without name pool).map change := by
  rw [without, List.filter_map]
  exact congrArg _ (congrArg (List.filter · pool) (funext fun call => by rw [Function.comp_apply, id]))

theorem firstRepeated?_map (seen : List String) (calls : List Call) :
    firstRepeated? seen (calls.map change) = firstRepeated? seen calls := by
  induction calls generalizing seen with
  | nil => rfl
  | cons call rest ih => rw [List.map_cons, firstRepeated?, firstRepeated?, id, ih]

include dependsOn

theorem visit_map (path : List String) (pool placed : List Call) (caller : String) (ids : List String) :
    visit path (pool.map change) (placed.map change) caller ids =
      (visit path pool placed caller ids).map (List.map change) := by
  fun_induction visit path pool placed caller ids with
  | case1 path pool placed caller =>
    rw [visit]
    rfl
  | case2 path pool placed caller name rest present ih =>
    rw [visit, any_id_map id, if_pos present, ih]
  | case3 path pool placed caller name rest absent missing onPath =>
    rw [visit_of_missing (by rwa [any_id_map id]) (by rw [withId?_map id, missing, Option.map_none]),
      if_pos onPath]
    rfl
  | case4 path pool placed caller name rest absent missing offPath =>
    rw [visit_of_missing (by rwa [any_id_map id]) (by rw [withId?_map id, missing, Option.map_none]),
      if_neg offPath]
    rfl
  | case5 path pool placed caller name rest absent call found ihBelow ihAfter =>
    rw [visit_of_found (by rwa [any_id_map id]) (by rw [withId?_map id, found, Option.map_some]),
      without_map id, dependsOn, ihBelow]
    cases visit (path ++ [name]) (without name pool) placed name call.dependsOn with
    | error error => rfl
    | ok below =>
      have after := ihAfter below
      rw [List.map_append] at after
      exact after

theorem visitAll_map (calls placed roots : List Call) :
    visitAll (calls.map change) (placed.map change) (roots.map change) =
      (visitAll calls placed roots).map (List.map change) := by
  fun_induction visitAll calls placed roots with
  | case1 placed => rfl
  | case2 placed root rest present ih =>
    rw [List.map_cons, visitAll, id, any_id_map id, if_pos present, ih]
  | case3 placed root rest absent ih =>
    rw [List.map_cons, visitAll, id, any_id_map id, if_neg absent, dependsOn, without_map id,
      visit_map id dependsOn]
    cases visit [root.id] (without root.id calls) placed root.id root.dependsOn with
    | error error => rfl
    | ok below =>
      have after := ih below
      rw [List.map_append] at after
      exact after

/-- The order of execution depends on ids and dependencies alone. -/
theorem order_map (calls : List Call) : order (calls.map change) = (order calls).map (List.map change) := by
  unfold order
  rw [firstRepeated?_map id]
  cases firstRepeated? [] calls with
  | some name => rfl
  | none => exact visitAll_map id dependsOn calls [] calls

end Map

/-- The order of execution exists exactly when all dependencies can be met. It has all calls, each
after those that it depends on. -/
theorem order_ok_iff_resolvable (calls : List Call) :
    ((∃ result, order calls = .ok result) ↔ Resolvable calls) ∧
      ∀ result, order calls = .ok result → result.Perm calls ∧ DependenciesFirst result := by
  refine ⟨⟨?_, Resolvable.order_succeeds⟩, ?_⟩
  · rintro ⟨result, run⟩
    exact (order_arranged run).2.2
  · intro result run
    exact ⟨(order_arranged run).1, (order_arranged run).2.1⟩

end Scaffold.Call
