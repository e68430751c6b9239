import Mathlib.Data.List.Induction
import Mathlib.Data.List.Nodup
import Mathlib.Logic.Relation
import Scaffold.Call.Basic

/-!
The graph of calls: which ids depend on which, and when all dependencies can be met. A list in which
every call stands after those that it depends on shows that they can be.
-/

namespace Scaffold.Call

/-- A call of this id lists the other id among its dependencies. -/
def DependsOn (calls : List Call) (id other : String) : Prop :=
  ∃ call ∈ calls, call.id = id ∧ other ∈ call.dependsOn

/-- All dependencies can be met: no two calls have one id, every dependency is the id of a call, and
no id depends on itself, directly or through others. -/
structure Resolvable (calls : List Call) : Prop where
  distinct : (calls.map Call.id).Nodup
  known : ∀ call ∈ calls, ∀ id ∈ call.dependsOn, id ∈ calls.map Call.id
  acyclic : ∀ id, ¬Relation.TransGen (DependsOn calls) id id

/-- Every call stands after all calls that it depends on. -/
def DependenciesFirst (calls : List Call) : Prop :=
  ∀ front call back, calls = front ++ call :: back →
    ∀ id ∈ call.dependsOn, id ∈ front.map Call.id

theorem DependsOn.mono {calls others : List Call} {id other : String}
    (edge : DependsOn calls id other) (subset : calls ⊆ others) : DependsOn others id other := by
  obtain ⟨call, member, same, listed⟩ := edge
  exact ⟨call, subset member, same, listed⟩

theorem Resolvable.nil : Resolvable [] where
  distinct := List.nodup_nil
  known := by simp
  acyclic := by
    intro id cycle
    obtain ⟨_, ⟨_, member, _⟩, _⟩ := Relation.TransGen.head'_iff.mp cycle
    exact absurd member List.not_mem_nil

theorem Resolvable.not_self {calls : List Call} (resolvable : Resolvable calls) {call : Call}
    (member : call ∈ calls) : call.id ∉ call.dependsOn := by
  intro listed
  exact resolvable.acyclic call.id (.single ⟨call, member, rfl, listed⟩)

/-- Fewer calls make no new circle. -/
theorem Resolvable.acyclic_of_subset {calls fewer : List Call} (resolvable : Resolvable calls)
    (subset : fewer ⊆ calls) (id : String) : ¬Relation.TransGen (DependsOn fewer) id id := by
  intro cycle
  have weaker : DependsOn fewer ≤ DependsOn calls := fun _ _ edge => edge.mono subset
  exact resolvable.acyclic id (Relation.TransGen.mono weaker id id cycle)

/-- What calls are made of does not matter beyond their ids and dependencies. -/
theorem Resolvable.map {calls : List Call} (resolvable : Resolvable calls) {change : Call → Call}
    (id : ∀ call, (change call).id = call.id) (dependsOn : ∀ call, (change call).dependsOn = call.dependsOn) :
    Resolvable (calls.map change) := by
  have ids : (calls.map change).map Call.id = calls.map Call.id := by
    rw [List.map_map]
    exact List.map_congr_left fun call _ => id call
  have weaker : DependsOn (calls.map change) ≤ DependsOn calls := by
    rintro _ _ ⟨_, member, rfl, listed⟩
    obtain ⟨call, inside, rfl⟩ := List.mem_map.mp member
    exact ⟨call, inside, (id call).symm, dependsOn call ▸ listed⟩
  refine ⟨ids ▸ resolvable.distinct, ?_, fun other cycle => ?_⟩
  · refine List.forall_mem_map.mpr fun call member other listed => ?_
    rw [ids]
    exact resolvable.known call member other (dependsOn call ▸ listed)
  · exact resolvable.acyclic other (Relation.TransGen.mono weaker other other cycle)

theorem Resolvable.perm {calls others : List Call} (resolvable : Resolvable calls)
    (same : calls.Perm others) : Resolvable others where
  distinct := (same.map Call.id).nodup_iff.mp resolvable.distinct
  known := by
    intro call member id listed
    exact (same.map Call.id).mem_iff.mp (resolvable.known call (same.mem_iff.mpr member) id listed)
  acyclic := resolvable.acyclic_of_subset same.symm.subset

/-- In a graph with a further call at the end, every edge leads to an id from before, and an edge
from such an id was there before. -/
theorem DependsOn.of_append {calls : List Call} {last : Call} {id other : String}
    (known : ∀ call ∈ calls, ∀ id ∈ call.dependsOn, id ∈ calls.map Call.id)
    (fresh : last.id ∉ calls.map Call.id)
    (lastKnown : ∀ id ∈ last.dependsOn, id ∈ calls.map Call.id)
    (edge : DependsOn (calls ++ [last]) id other) :
    other ∈ calls.map Call.id ∧ (id ∈ calls.map Call.id → DependsOn calls id other) := by
  obtain ⟨call, member, same, listed⟩ := edge
  rcases List.mem_append.mp member with old | new
  · exact ⟨known call old other listed, fun _ => ⟨call, old, same, listed⟩⟩
  · obtain rfl := List.mem_singleton.mp new
    refine ⟨lastKnown other listed, fun present => ?_⟩
    exact absurd (same ▸ present) fresh

/-- A new call that depends on calls from before closes no circle, since nothing leads to it. -/
theorem Resolvable.append {calls : List Call} (resolvable : Resolvable calls) {last : Call}
    (fresh : last.id ∉ calls.map Call.id)
    (lastKnown : ∀ id ∈ last.dependsOn, id ∈ calls.map Call.id) : Resolvable (calls ++ [last]) where
  distinct := by
    rw [List.map_append, List.nodup_append]
    refine ⟨resolvable.distinct, List.nodup_singleton _, ?_⟩
    intro id old other new same
    obtain rfl := List.mem_singleton.mp new
    exact fresh (same ▸ old)
  known := by
    intro call member id listed
    rw [List.map_append]
    rcases List.mem_append.mp member with old | new
    · exact List.mem_append_left _ (resolvable.known call old id listed)
    · obtain rfl := List.mem_singleton.mp new
      exact List.mem_append_left _ (lastKnown id listed)
  acyclic := by
    have before {id other : String} (path : Relation.TransGen (DependsOn (calls ++ [last])) id other)
        (present : id ∈ calls.map Call.id) : Relation.TransGen (DependsOn calls) id other := by
      induction path with
      | single edge => exact .single ((edge.of_append resolvable.known fresh lastKnown).2 present)
      | tail path edge ih =>
        obtain ⟨_, _, into⟩ := Relation.TransGen.tail'_iff.mp path
        have middle := (into.of_append resolvable.known fresh lastKnown).1
        exact ih.tail ((edge.of_append resolvable.known fresh lastKnown).2 middle)
    intro id cycle
    obtain ⟨_, _, into⟩ := Relation.TransGen.tail'_iff.mp cycle
    exact resolvable.acyclic id (before cycle (into.of_append resolvable.known fresh lastKnown).1)

/-- Without a call that no call depends on, what remains can still be met. -/
theorem Resolvable.sublist {calls fewer : List Call} (resolvable : Resolvable calls)
    (sublist : fewer.Sublist calls)
    (known : ∀ call ∈ fewer, ∀ id ∈ call.dependsOn, id ∈ fewer.map Call.id) :
    Resolvable fewer where
  distinct := resolvable.distinct.sublist (sublist.map Call.id)
  known := known
  acyclic := resolvable.acyclic_of_subset sublist.subset

theorem DependenciesFirst.nil : DependenciesFirst [] := by
  intro front call back split
  simp at split

/-- An item of a list with a further one at the end is that last one, or it stands in the list before. -/
theorem split_concat {α : Type} {items front back : List α} {last item : α}
    (split : items ++ [last] = front ++ item :: back) :
    (front = items ∧ item = last) ∨ ∃ body, items = front ++ item :: body := by
  rcases List.eq_nil_or_concat back with rfl | ⟨body, other, rfl⟩
  · obtain ⟨rfl, same⟩ := List.append_inj' split rfl
    exact .inl ⟨rfl, (List.singleton_inj.mp same).symm⟩
  · have shifted : items ++ [last] = (front ++ item :: body) ++ [other] := by simpa using split
    exact .inr ⟨body, (List.append_inj' shifted rfl).1⟩

theorem DependenciesFirst.append {calls : List Call} (first : DependenciesFirst calls) {last : Call}
    (known : ∀ id ∈ last.dependsOn, id ∈ calls.map Call.id) : DependenciesFirst (calls ++ [last]) := by
  intro front call back split id listed
  rcases split_concat split with ⟨rfl, rfl⟩ | ⟨body, inside⟩
  · exact known id listed
  · exact first front call body inside id listed

theorem DependenciesFirst.of_append {calls : List Call} {last : Call}
    (first : DependenciesFirst (calls ++ [last])) : DependenciesFirst calls := by
  intro front call back split
  exact first front call (back ++ [last]) (by simp [split])

/-- Every call stands after all calls that it depends on, directly or through others. -/
theorem DependenciesFirst.reaches {calls : List Call} (first : DependenciesFirst calls)
    (distinct : (calls.map Call.id).Nodup) {front back : List Call} {call : Call}
    (split : calls = front ++ call :: back) {id : String}
    (path : Relation.TransGen (DependsOn calls) call.id id) : id ∈ front.map Call.id := by
  induction path with
  | single edge =>
    obtain ⟨owner, member, same, listed⟩ := edge
    have inside : call ∈ calls := by simp [split]
    obtain rfl := List.inj_on_of_nodup_map distinct member inside same
    exact first front owner back split _ listed
  | tail _ edge ih =>
    obtain ⟨owner, member, same, listed⟩ := edge
    obtain ⟨other, placed, equal⟩ := List.mem_map.mp ih
    have inside : other ∈ calls := split ▸ List.mem_append_left _ placed
    obtain rfl := List.inj_on_of_nodup_map distinct member inside (same.trans equal.symm)
    obtain ⟨before, between, rfl⟩ := List.append_of_mem placed
    have earlier := first before owner (between ++ call :: back) (by simp [split]) _ listed
    rw [List.map_append]
    exact List.mem_append_left _ earlier

/-- An order that meets the dependencies shows that they can be met. The induction takes the last
call away: nothing before it depends on it. -/
theorem DependenciesFirst.resolvable {calls : List Call} (first : DependenciesFirst calls)
    (distinct : (calls.map Call.id).Nodup) : Resolvable calls := by
  induction calls using List.reverseRecOn with
  | nil => exact .nil
  | append_singleton calls last ih =>
    rw [List.map_append, List.nodup_append] at distinct
    obtain ⟨before, _, apart⟩ := distinct
    refine (ih first.of_append before).append ?_ (first calls last [] rfl)
    intro old
    exact apart _ old _ (List.mem_singleton.mpr rfl) rfl

end Scaffold.Call
