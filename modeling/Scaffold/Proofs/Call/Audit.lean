import Mathlib.Data.List.TakeWhile
import Scaffold.Call.Audit
import Scaffold.Proofs.Call.Order

/-!
The audit of a call graph and the order of execution agree. The search of the audit follows the visits
of the order step by step: it goes along the same path, and what a visit has placed the search has come
to. Where a visit fails the audit reports why, and a circle that a visit fails at is the first circle
of the audit.
-/

namespace Scaffold.Call

variable {calls pool placed : List Call} {path ids poolIds : List String} {caller id other : String}
  {search before after : Search}

/-! ### Edges -/

/-- The audit goes along a dependency: it is the id of another call. -/
def isEdge (calls : List Call) (id other : String) : Bool :=
  other != id && calls.any fun call => call.id == other

theorem isEdge_iff : isEdge calls id other = true ↔ other ≠ id ∧ other ∈ calls.map Call.id := by
  rw [isEdge, Bool.and_eq_true, any_id_iff, bne_iff_ne]

theorem mem_edges : (id, other) ∈ edges calls ↔ DependsOn calls id other := by
  simp only [edges, List.mem_flatMap, List.mem_map, Prod.mk.injEq]
  constructor
  · rintro ⟨call, member, _, listed, rfl, rfl⟩
    exact ⟨call, member, rfl, listed⟩
  · rintro ⟨call, member, rfl, listed⟩
    exact ⟨call, member, other, listed, rfl, rfl⟩

/-- Where ids are distinct, what is taken from the calls of an id comes from one call. -/
theorem flatMap_of_distinct {α : Type} (distinct : (calls.map Call.id).Nodup) {call : Call}
    (member : call ∈ calls) (part : Call → List α) :
    (calls.flatMap fun other => if other.id = call.id then part other else []) = part call := by
  obtain ⟨front, back, rfl⟩ := List.append_of_mem member
  rw [List.map_append, List.map_cons] at distinct
  have fresh := (List.nodup_middle.mp distinct).notMem
  rw [← List.map_append] at fresh
  have nothing : ∀ others ⊆ front ++ back,
      (others.flatMap fun other => if other.id = call.id then part other else []) = [] := by
    intro others within
    refine List.flatMap_eq_nil_iff.mpr fun other inside => if_neg fun same => fresh ?_
    exact same ▸ List.mem_map_of_mem (within inside)
  rw [List.flatMap_append, List.flatMap_cons, if_pos rfl, nothing front (List.subset_append_left _ _),
    nothing back (List.subset_append_right _ _), List.nil_append, List.append_nil]

theorem neighbours_eq (distinct : (calls.map Call.id).Nodup) {call : Call} (member : call ∈ calls) :
    neighbours calls call.id = call.dependsOn.filter (isEdge calls call.id) := by
  rw [← flatMap_of_distinct distinct member fun call => call.dependsOn.filter (isEdge calls call.id),
    neighbours, edges, List.filter_flatMap, List.map_flatMap]
  refine List.flatMap_congr fun other _ => ?_
  rw [List.filter_map, List.map_map]
  by_cases same : other.id = call.id
  · simp only [same, Function.comp_def, beq_self_eq_true, Bool.true_and, List.map_id', if_true]
    rfl
  · simp [same, Function.comp_def]

/-! ### Failures -/

/-- Why a visit failed, and that the search around it has recorded this: a dependency that no call has,
a call that depends on itself, or a circle of several ids. -/
inductive Recorded (calls : List Call) (before after : Search) : Error → Prop
  | missing {caller id : String} : (caller, id) ∈ edges calls → id ∉ calls.map Call.id →
      Recorded calls before after (.dependencyNotFound id caller)
  | self {id : String} : (id, id) ∈ edges calls → Recorded calls before after (.cycle id [id, id])
  | circle {id other : String} {circle : List String} {more : List (List String)} :
      other ∈ circle → other ≠ id →
      after.circles = before.circles ++ circle :: more →
      Recorded calls before after (.cycle id circle)

/-- The search has followed a visit. If the visit has succeeded, the search has found no circle and has
come to the ids on the path and those of placed calls; if it has failed, the reason is recorded. -/
def Followed (calls : List Call) (path : List String) (before after : Search) :
    Except Error (List Call) → Prop
  | .ok placed => after.circles = before.circles ∧
      ∀ id, id ∈ after.visited ↔ id ∈ path ∨ id ∈ placed.map Call.id
  | .error error => Recorded calls before after error

/-- A search only adds circles. -/
theorem explore_circles (calls : List Call) (path poolIds : List String) (search : Search)
    (ids : List String) :
    search.circles <+: (explore calls path poolIds search ids).circles := by
  fun_induction explore calls path poolIds search ids with
  | case1 path poolIds search => exact List.prefix_refl _
  | case2 path poolIds search id rest onPath circle ih =>
    exact (List.prefix_append _ _).trans ih
  | case3 path poolIds search id rest offPath visited ih => exact ih
  | case4 path poolIds search id rest offPath fresh member below ihBelow ihRest =>
    exact ihBelow.trans ihRest
  | case5 path poolIds search id rest offPath fresh outside ih => exact ih

theorem exploreAll_circles (calls : List Call) (ids : List String) (search : Search)
    (roots : List String) :
    search.circles <+: (exploreAll calls ids search roots).circles := by
  fun_induction exploreAll calls ids search roots with
  | case1 search => exact List.prefix_refl _
  | case2 search root rest visited ih => exact ih
  | case3 search root rest fresh below ih =>
    have first := explore_circles calls [root] (otherIds root ids)
      { search with visited := root :: search.visited } (neighbours calls root)
    exact first.trans ih

/-- What is recorded stays recorded. -/
theorem Recorded.later {error : Error} {last : Search} (recorded : Recorded calls before after error)
    (grown : after.circles <+: last.circles) : Recorded calls before last error := by
  cases recorded with
  | missing edge unknown => exact .missing edge unknown
  | self edge => exact .self edge
  | @circle id other circle more member apart found =>
    obtain ⟨rest, same⟩ := grown
    have still : last.circles = before.circles ++ circle :: (more ++ rest) := by
      rw [← same, found, List.append_assoc, List.cons_append]
    exact .circle member apart still

theorem Recorded.earlier {error : Error} {first : Search}
    (recorded : Recorded calls before after error) (same : before.circles = first.circles) :
    Recorded calls first after error := by
  cases recorded with
  | missing edge unknown => exact .missing edge unknown
  | self edge => exact .self edge
  | circle member apart found => exact .circle member apart (by rw [found, same])

theorem Followed.earlier {result : Except Error (List Call)} {first : Search}
    (followed : Followed calls path before after result) (same : before.circles = first.circles) :
    Followed calls path first after result := by
  cases result with
  | ok placed => exact ⟨followed.1.trans same, followed.2⟩
  | error error => exact Recorded.earlier followed same

/-! ### Visits -/

/-- A visit and the search go on in step: the caller is the last id of the path, the pools hold what is
off the path, and the search has come to the path and to what is placed. -/
structure InStep (calls : List Call) (path : List String) (pool placed : List Call) (caller : String)
    (poolIds : List String) (search : Search) : Prop where
  ends : ∃ front, path = front ++ [caller] ∧ caller ∉ front
  onPath : ∀ id ∈ path, id ∈ calls.map Call.id
  within : pool ⊆ calls
  pool_iff : ∀ call ∈ calls, call ∈ pool ↔ call.id ∉ path
  poolIds_of : ∀ call ∈ calls, call.id ∉ path → call.id ∈ poolIds
  apart : ∀ id ∈ path, id ∉ placed.map Call.id
  visited : ∀ id, id ∈ search.visited ↔ id ∈ path ∨ id ∈ placed.map Call.id

namespace InStep

theorem off (inStep : InStep calls path pool placed caller poolIds search) {call : Call}
    (member : call ∈ pool) : call.id ∉ path :=
  (inStep.pool_iff call (inStep.within member)).mp member

theorem caller_mem (inStep : InStep calls path pool placed caller poolIds search) :
    caller ∈ path := by
  obtain ⟨front, rfl, _⟩ := inStep.ends
  simp

/-- Both go on to a call of the pool. -/
theorem enter (inStep : InStep calls path pool placed caller poolIds search) {call : Call}
    (member : call ∈ pool) (fresh : call.id ∉ placed.map Call.id) :
    InStep calls (path ++ [call.id]) (without call.id pool) placed call.id (otherIds call.id poolIds)
      { search with visited := call.id :: search.visited } where
  ends := ⟨path, rfl, inStep.off member⟩
  onPath := by
    intro id on
    rcases List.mem_append.mp on with before | last
    · exact inStep.onPath id before
    · obtain rfl := List.mem_singleton.mp last
      exact List.mem_map_of_mem (inStep.within member)
  within := fun _ inside => inStep.within (without_subset _ _ inside)
  pool_iff := by
    intro other inside
    rw [mem_without, inStep.pool_iff other inside, List.mem_append, List.mem_singleton, not_or]
  poolIds_of := by
    intro other inside off
    rw [List.mem_append, not_or, List.mem_singleton] at off
    exact List.mem_filter.mpr ⟨inStep.poolIds_of other inside off.1, by simpa using off.2⟩
  apart := by
    intro id on
    rcases List.mem_append.mp on with before | last
    · exact inStep.apart id before
    · obtain rfl := List.mem_singleton.mp last
      exact fresh
  visited := by
    intro id
    rw [List.mem_cons, inStep.visited, List.mem_append, List.mem_singleton]
    tauto

/-- Both come back from a call that is placed with what it depends on. -/
theorem leave (inStep : InStep calls path pool placed caller poolIds search) {call : Call}
    (member : call ∈ pool) {added : List Call} (within : added ⊆ pool)
    (visited : ∀ id, id ∈ after.visited ↔
      id ∈ path ++ [call.id] ∨ id ∈ (placed ++ added).map Call.id) :
    InStep calls path pool (placed ++ added ++ [call]) caller poolIds after where
  ends := inStep.ends
  onPath := inStep.onPath
  within := inStep.within
  pool_iff := inStep.pool_iff
  poolIds_of := inStep.poolIds_of
  apart := by
    intro id on listed
    obtain ⟨other, inside, rfl⟩ := List.mem_map.mp listed
    rcases List.mem_append.mp inside with first | last
    · rcases List.mem_append.mp first with before | below
      · exact inStep.apart _ on (List.mem_map_of_mem before)
      · exact inStep.off (within below) on
    · obtain rfl := List.mem_singleton.mp last
      exact inStep.off member on
  visited := by
    intro id
    rw [visited, List.map_append, List.map_append, List.map_append, List.map_singleton]
    simp only [List.mem_append, List.mem_singleton]
    tauto

/-- A dependency that leads back to the path closes a circle. It is the caller itself, or else the
caller is another id of the circle. -/
theorem circle (inStep : InStep calls path pool placed caller poolIds search) (on : id ∈ path) :
    (id = caller ∧ path.dropWhile (· != id) ++ [id] = [id, id]) ∨
      (id ≠ caller ∧ caller ∈ path.dropWhile (· != id) ++ [id]) := by
  obtain ⟨front, rfl, fresh⟩ := inStep.ends
  by_cases same : id = caller
  · subst same
    refine .inl ⟨rfl, ?_⟩
    rw [List.dropWhile_append_of_pos]
    · simp
    · intro other inside
      exact bne_iff_ne.mpr fun same => fresh (same ▸ inside)
  · refine .inr ⟨same, ?_⟩
    have inside : id ∈ front := by simpa [same] using on
    have reached : front.dropWhile (· != id) ≠ [] := fun none =>
      absurd (List.dropWhile_eq_nil_iff.1 none id inside) (by simp)
    rw [List.dropWhile_append, if_neg (by simpa using reached)]
    simp

/-- The search passes over an id that is placed. -/
theorem explore_placed (inStep : InStep calls path pool placed caller poolIds search)
    (met : id ∈ placed.map Call.id) (rest : List String) :
    explore calls path poolIds search ((id :: rest).filter (isEdge calls caller)) =
      explore calls path poolIds search (rest.filter (isEdge calls caller)) := by
  have off : path.contains id = false := by
    simpa using fun on => inStep.apart id on met
  rw [List.filter_cons]
  split
  · rw [explore, off, if_neg Bool.false_ne_true,
      if_pos (List.contains_iff_mem.mpr ((inStep.visited id).mpr (.inr met)))]
  · rfl

/-- A dependency that leads back to the path is recorded: the search adds the circle, unless the caller
depends on itself. -/
theorem explore_onPath (inStep : InStep calls path pool placed caller poolIds search)
    (listed : (caller, id) ∈ edges calls) (on : id ∈ path) (rest : List String) :
    Recorded calls search
      (explore calls path poolIds search ((id :: rest).filter (isEdge calls caller)))
      (.cycle id (path.dropWhile (· != id) ++ [id])) := by
  rcases inStep.circle on with ⟨rfl, alone⟩ | ⟨apart, inside⟩
  · rw [alone]
    exact .self listed
  · rw [List.filter_cons, if_pos (isEdge_iff.mpr ⟨apart, inStep.onPath id on⟩), explore,
      if_pos (List.contains_iff_mem.mpr on)]
    obtain ⟨more, grown⟩ := explore_circles calls path poolIds
      { search with circles := search.circles ++ [path.dropWhile (· != id) ++ [id]] }
      (rest.filter (isEdge calls caller))
    rw [List.append_assoc, List.singleton_append] at grown
    exact .circle inside (Ne.symm apart) grown.symm

/-- The search goes from a call of the pool along what this call depends on. -/
theorem explore_call (inStep : InStep calls path pool placed caller poolIds search)
    (distinct : (calls.map Call.id).Nodup) {call : Call} (member : call ∈ pool)
    (fresh : call.id ∉ placed.map Call.id) (rest : List String) :
    explore calls path poolIds search ((call.id :: rest).filter (isEdge calls caller)) =
      explore calls path poolIds
        (explore calls (path ++ [call.id]) (otherIds call.id poolIds)
          { search with visited := call.id :: search.visited }
          (call.dependsOn.filter (isEdge calls call.id)))
        (rest.filter (isEdge calls caller)) := by
  have inside := inStep.within member
  have off := inStep.off member
  have apart : call.id ≠ caller := fun same => off (same ▸ inStep.caller_mem)
  have edge := isEdge_iff.mpr ⟨apart, List.mem_map_of_mem inside⟩
  have unvisited : call.id ∉ search.visited := by
    rw [inStep.visited, not_or]
    exact ⟨off, fresh⟩
  rw [List.filter_cons, if_pos edge, explore, if_neg (by simpa using off),
    if_neg (by simpa using unvisited), dif_pos (inStep.poolIds_of call inside off),
    neighbours_eq distinct inside]

end InStep

/-- The search goes along with a visit. Dependencies that the audit leaves out are those that a visit
fails at, and otherwise both do the same: they pass over an id that is placed, fail at or record a
circle at an id of the path, and go on to any other one. -/
theorem InStep.followed (distinct : (calls.map Call.id).Nodup)
    (inStep : InStep calls path pool placed caller poolIds search)
    (listed : ∀ id ∈ ids, (caller, id) ∈ edges calls) :
    Followed calls path search
      (explore calls path poolIds search (ids.filter (isEdge calls caller)))
      (visit path pool placed caller ids) := by
  fun_induction visit path pool placed caller ids generalizing poolIds search with
  | case1 path pool placed caller =>
    -- no dependency is left
    rw [List.filter_nil, explore]
    exact ⟨rfl, inStep.visited⟩
  | case2 path pool placed caller id rest present ih =>
    -- the dependency is placed
    rw [inStep.explore_placed (any_id_iff.mp present)]
    exact ih inStep fun other later => listed other (List.mem_cons_of_mem _ later)
  | case3 path pool placed caller id rest absent found onPath =>
    -- it leads back to the path
    exact inStep.explore_onPath (listed id List.mem_cons_self) (List.contains_iff_mem.mp onPath) rest
  | case4 path pool placed caller id rest absent found offPath =>
    -- no call has it: a call off the path would be in the pool
    refine .missing (listed id List.mem_cons_self) fun present => ?_
    obtain ⟨target, inside, rfl⟩ := List.mem_map.mp present
    have off : target.id ∉ path := fun on => offPath (List.contains_iff_mem.mpr on)
    exact withId?_none.mp found (List.mem_map_of_mem ((inStep.pool_iff target inside).mpr off))
  | case5 path pool placed caller id rest absent call found ihBelow ihAfter =>
    -- a call of the pool has it, and the rest follows if the visit of this call succeeds
    obtain ⟨member, rfl⟩ := withId?_some found
    have fresh : call.id ∉ placed.map Call.id := fun before => absent (any_id_iff.mpr before)
    rw [inStep.explore_call distinct member fresh]
    have first : Followed calls _ search _ _ :=
      (ihBelow (inStep.enter member fresh) fun other later =>
        mem_edges.mpr ⟨call, inStep.within member, rfl, later⟩).earlier rfl
    cases run : visit (path ++ [call.id]) (without call.id pool) placed call.id call.dependsOn with
    | error error =>
      rw [run] at first
      exact Recorded.later first (explore_circles calls path poolIds _ _)
    | ok below =>
      rw [run] at first
      obtain ⟨added, rfl, subset⟩ := visit_appends run
      have back := inStep.leave member
        (fun _ later => without_subset call.id pool (subset later)) first.2
      exact (ihAfter _ back fun other later => listed other (List.mem_cons_of_mem _ later)).earlier
        first.1

/-- The search from all ids goes along with the visits of all calls. -/
theorem exploreAll_followed (distinct : (calls.map Call.id).Nodup) {roots : List Call}
    (within : roots ⊆ calls) (visited : ∀ id, id ∈ search.visited ↔ id ∈ placed.map Call.id) :
    Followed calls [] search (exploreAll calls (calls.map Call.id) search (roots.map Call.id))
      (visitAll calls placed roots) := by
  fun_induction visitAll calls placed roots generalizing search with
  | case1 placed => exact ⟨rfl, fun id => by simp [exploreAll, visited]⟩
  | case2 placed root rest present ih =>
    -- a root that is placed the search has come to
    have met := (visited root.id).mpr (any_id_iff.mp present)
    rw [List.map_cons, exploreAll, if_pos (List.contains_iff_mem.mpr met)]
    exact ih (fun _ later => within (List.mem_cons_of_mem _ later)) visited
  | case3 placed root rest absent ih =>
    -- from any other root both set out together
    have inside : root ∈ calls := within List.mem_cons_self
    have fresh : root.id ∉ placed.map Call.id := fun before => absent (any_id_iff.mpr before)
    have unvisited : root.id ∉ search.visited := fun met => fresh ((visited root.id).mp met)
    have inStep : InStep calls [root.id] (without root.id calls) placed root.id
        (otherIds root.id (calls.map Call.id)) { search with visited := root.id :: search.visited } := {
      ends := ⟨[], rfl, List.not_mem_nil⟩
      onPath := by simpa using ⟨root, inside, rfl⟩
      within := without_subset root.id calls
      pool_iff := fun other member => by simp [mem_without, member]
      poolIds_of := fun other member off => List.mem_filter.mpr
        ⟨List.mem_map_of_mem member, by simpa using off⟩
      apart := List.forall_mem_singleton.mpr fresh
      visited := fun id => by rw [List.mem_cons, visited, List.mem_singleton] }
    rw [List.map_cons, exploreAll, if_neg (by simpa using unvisited), neighbours_eq distinct inside]
    have first : Followed calls _ search _ _ := (inStep.followed distinct fun id later =>
      mem_edges.mpr ⟨root, inside, rfl, later⟩).earlier rfl
    cases run : visit [root.id] (without root.id calls) placed root.id root.dependsOn with
    | error error =>
      rw [run] at first
      exact Recorded.later first (exploreAll_circles calls _ _ _)
    | ok below =>
      rw [run] at first
      have next := ih below (fun _ later => within (List.mem_cons_of_mem _ later)) fun id => by
        rw [first.2, List.map_append, List.mem_append, or_comm]
        rfl
      exact next.earlier first.1

/-! ### Agreement -/

theorem repeatedIds_eq_nil {seen : List String} :
    repeatedIds seen calls = [] ↔ firstRepeated? seen calls = none := by
  induction calls generalizing seen with
  | nil => simp [repeatedIds, firstRepeated?]
  | cons call rest ih =>
    rw [repeatedIds, firstRepeated?]
    split
    · simp
    · exact ih

theorem duplicateIds_eq_nil : (audit calls).duplicateIds = [] ↔ firstRepeated? [] calls = none := by
  rw [← repeatedIds_eq_nil, audit]
  cases repeatedIds [] calls with
  | nil => simp
  | cons id rest => simp [List.eraseDups_cons]

theorem missingTargets_eq_nil :
    (audit calls).missingTargets = [] ↔ ∀ edge ∈ edges calls, edge.2 ∈ calls.map Call.id := by
  simp [audit]

theorem mem_selfDependencies : id ∈ (audit calls).selfDependencies ↔ (id, id) ∈ edges calls := by
  simp only [audit, List.mem_map, List.mem_filter, beq_iff_eq]
  constructor
  · rintro ⟨⟨one, other⟩, ⟨member, same⟩, rfl⟩
    obtain rfl : one = other := same
    exact member
  · exact fun member => ⟨(id, id), ⟨member, rfl⟩, rfl⟩

theorem passed_iff :
    (audit calls).passed = true ↔ (audit calls).duplicateIds = [] ∧ (audit calls).missingTargets = [] ∧
      (audit calls).selfDependencies = [] ∧ (audit calls).circles = [] := by
  simp only [Audit.passed, Bool.and_eq_true, List.isEmpty_iff, and_assoc]

/-- Where ids are distinct, the search of the audit goes along with the visits of the order. -/
theorem audit_followed (distinct : (calls.map Call.id).Nodup) :
    Followed calls [] ⟨[], []⟩ (exploreAll calls (calls.map Call.id) ⟨[], []⟩ (calls.map Call.id))
      (visitAll calls [] calls) :=
  exploreAll_followed distinct (List.Subset.refl _) (by simp)

theorem exists_order_of_passed (passed : (audit calls).passed = true) :
    ∃ result, order calls = .ok result := by
  obtain ⟨unrepeated, known, others, none⟩ := passed_iff.mp passed
  have unrepeated := duplicateIds_eq_nil.mp unrepeated
  have followed := audit_followed (firstRepeated?_none.mp unrepeated).1
  rw [order, unrepeated]
  cases run : visitAll calls [] calls with
  | ok result => exact ⟨result, rfl⟩
  | error error =>
    rw [run] at followed
    cases followed with
    | missing edge unknown => exact absurd (missingTargets_eq_nil.mp known _ edge) unknown
    | self edge =>
      rw [List.eq_nil_iff_forall_not_mem] at others
      exact absurd (mem_selfDependencies.mpr edge) (others _)
    | circle member apart found =>
      rw [audit, found] at none
      simp at none

theorem passed_of_order {result : List Call} (run : order calls = .ok result) :
    (audit calls).passed = true := by
  have resolvable := (order_arranged run).2.2
  have unrepeated : firstRepeated? [] calls = none :=
    firstRepeated?_none.mpr ⟨resolvable.distinct, by simp⟩
  have followed := audit_followed resolvable.distinct
  have placed : visitAll calls [] calls = .ok result := by simpa only [order, unrepeated] using run
  rw [placed] at followed
  refine passed_iff.mpr ⟨duplicateIds_eq_nil.mpr unrepeated, ?_, ?_, followed.1⟩
  · refine missingTargets_eq_nil.mpr fun edge member => ?_
    obtain ⟨call, inside, _, listed⟩ := mem_edges.mp member
    exact resolvable.known call inside _ listed
  · refine List.eq_nil_iff_forall_not_mem.mpr fun id member => ?_
    exact resolvable.acyclic id (.single (mem_edges.mp (mem_selfDependencies.mp member)))

theorem followed_of_circle {circle : List String} (failed : order calls = .error (.cycle id circle)) :
    Followed calls [] ⟨[], []⟩ (exploreAll calls (calls.map Call.id) ⟨[], []⟩ (calls.map Call.id))
      (.error (.cycle id circle)) := by
  unfold order at failed
  split at failed
  · cases failed
  · next unrepeated =>
    rw [← failed]
    exact audit_followed (firstRepeated?_none.mp unrepeated).1

/-- An audit finds no fault exactly when there is an order of execution. When a circle of several ids
is why there is none, it is the first circle of the audit; when a call depends on itself, the audit
names it. -/
theorem audit_agrees_order (calls : List Call) :
    ((audit calls).passed = true ↔ ∃ result, order calls = .ok result) ∧
      ∀ id circle, order calls = .error (.cycle id circle) →
        ((∃ one ∈ circle, ∃ other ∈ circle, one ≠ other) →
          (audit calls).circles.head? = some circle) ∧
        ((∀ other ∈ circle, other = id) → id ∈ (audit calls).selfDependencies) := by
  refine ⟨⟨exists_order_of_passed, fun ⟨_, run⟩ => passed_of_order run⟩, fun id circle failed => ?_⟩
  cases followed_of_circle failed with
  | self edge =>
    refine ⟨?_, fun _ => mem_selfDependencies.mpr edge⟩
    rintro ⟨one, first, other, second, apart⟩
    simp only [List.mem_cons, List.not_mem_nil, or_false, or_self] at first second
    exact absurd (first.trans second.symm) apart
  | circle member apart found =>
    refine ⟨fun _ => ?_, fun same => absurd (same _ member) apart⟩
    rw [audit, found]
    rfl

/-- The order fails at the circle of two calls, and this is the first circle of the audit. -/
theorem audit_agrees_order_of_pair :
    let one : Call := ⟨"a", .null, .null, .null, ["b"], "", .null⟩
    let other : Call := ⟨"b", .null, .null, .null, ["a"], "", .null⟩
    order [one, other] = .error (.cycle "a" ["a", "b", "a"]) ∧
      (audit [one, other]).circles.head? = some ["a", "b", "a"] := by
  intro one other
  have failed : order [one, other] = .error (.cycle "a" ["a", "b", "a"]) := by cbv
  exact ⟨failed, ((audit_agrees_order [one, other]).2 _ _ failed).1 ⟨"a", by simp, "b", by simp, by simp⟩⟩

end Scaffold.Call
