import Scaffold.Proofs.Call.Circle

/-!
A call that is given other dependencies. Only edges from that call change, so that every new circle goes
through it, and there is one just when one of its new dependencies leads back to it by edges from before.
-/

namespace Scaffold.Call

variable {edge wider : String → String → Prop} {goal id : String} {circle : List String}

/-- The way to a goal needs no edges from the goal. -/
theorem reaches_of_agree (agree : ∀ one other, one ≠ goal → edge one other → wider one other)
    (path : Relation.ReflTransGen edge id goal) : Relation.ReflTransGen wider id goal := by
  induction path using Relation.ReflTransGen.head_induction_on with
  | refl => exact .refl
  | @head one other step _ ih =>
    by_cases same : one = goal
    · exact same ▸ .refl
    · exact ih.head (agree one other same step)

/-- Along a circle every id comes back to itself. -/
theorem IsCircle.returns (isCircle : IsCircle edge id circle) (on : goal ∈ circle) :
    Relation.TransGen edge goal goal := by
  obtain ⟨inner, rfl, _, linked⟩ := isCircle
  have chain : (id :: (inner ++ [id])).IsChain (Relation.TransGen edge) :=
    linked.imp fun _ _ => Relation.TransGen.single
  obtain ⟨leaves, rest⟩ := List.pairwise_cons.mp chain.pairwise
  have comesBack := (List.pairwise_append.mp rest).2.2
  have around := leaves id (List.mem_append_right _ List.mem_cons_self)
  rcases List.mem_append.mp on with inside | last
  · rcases List.mem_cons.mp inside with rfl | inside
    · exact around
    · exact (comesBack goal inside id List.mem_cons_self).trans (leaves goal (List.mem_append_left _ inside))
  · exact List.mem_singleton.mp last ▸ around

/-- Where ids are distinct, the dependencies of an id are those of its call. -/
theorem dependsOn_iff_of_distinct {calls : List Call} (distinct : (calls.map Call.id).Nodup) {call : Call}
    (member : call ∈ calls) {other : String} : DependsOn calls call.id other ↔ other ∈ call.dependsOn := by
  constructor
  · rintro ⟨owner, inside, same, listed⟩
    exact List.inj_on_of_nodup_map distinct inside member same ▸ listed
  · exact fun listed => ⟨call, member, rfl, listed⟩

section Replaced

variable {front back : List Call} {current changed : Call}

theorem ids_replaced (same : changed.id = current.id) :
    (front ++ changed :: back).map Call.id = (front ++ current :: back).map Call.id := by
  simp only [List.map_append, List.map_cons, same]

/-- The dependencies of the other calls stay. -/
theorem DependsOn.of_replaced {one other : String} (depends : DependsOn (front ++ current :: back) one other)
    (off : one ≠ current.id) : DependsOn (front ++ changed :: back) one other := by
  obtain ⟨call, member, rfl, listed⟩ := depends
  refine ⟨call, ?_, rfl, listed⟩
  rcases List.mem_append.mp member with before | member
  · exact List.mem_append_left _ before
  · rcases List.mem_cons.mp member with rfl | behind
    · exact absurd rfl off
    · exact List.mem_append_right _ (List.mem_cons_of_mem _ behind)

/-- Every new circle goes through the changed call. -/
theorem Resolvable.mem_circle (resolvable : Resolvable (front ++ current :: back))
    (same : changed.id = current.id) (isCircle : IsCircle (DependsOn (front ++ changed :: back)) id circle) :
    current.id ∈ circle := by
  by_contra off
  obtain ⟨inner, rfl, distinct, linked⟩ := isCircle
  have old : IsCircle (DependsOn (front ++ current :: back)) id (id :: inner ++ [id]) := by
    refine ⟨inner, rfl, distinct, linked.imp_of_mem_imp fun one other on _ depends => ?_⟩
    exact depends.of_replaced fun here => off (same ▸ here ▸ on)
  exact resolvable.acyclic id (old.returns List.mem_cons_self)

theorem Resolvable.known_replaced (resolvable : Resolvable (front ++ current :: back))
    (same : changed.id = current.id)
    (known : ∀ id ∈ changed.dependsOn, id ∈ (front ++ current :: back).map Call.id) :
    ∀ call ∈ front ++ changed :: back, ∀ id ∈ call.dependsOn, id ∈ (front ++ changed :: back).map Call.id := by
  intro call member id listed
  rw [ids_replaced same]
  rcases List.mem_append.mp member with before | member
  · exact resolvable.known call (List.mem_append_left _ before) id listed
  · rcases List.mem_cons.mp member with rfl | behind
    · exact known id listed
    · exact resolvable.known call (List.mem_append_right _ (List.mem_cons_of_mem _ behind)) id listed

/-- The calls with another call in the place of one either have an order of execution, and then none of the
other's dependencies leads back to it; or a circle through it is closed by one that does. -/
theorem Resolvable.order_replaced (resolvable : Resolvable (front ++ current :: back))
    (same : changed.id = current.id)
    (known : ∀ id ∈ changed.dependsOn, id ∈ (front ++ current :: back).map Call.id ∧ id ≠ current.id) :
    ((∃ ordered, order (front ++ changed :: back) = .ok ordered) ∧
      ∀ id ∈ changed.dependsOn, ¬Relation.TransGen (DependsOn (front ++ current :: back)) id current.id) ∨
    ((∃ id circle, order (front ++ changed :: back) = .error (.cycle id circle) ∧ current.id ∈ circle ∧
        IsCircle (DependsOn (front ++ changed :: back)) id circle) ∧
      ∃ id ∈ changed.dependsOn, Relation.TransGen (DependsOn (front ++ current :: back)) id current.id) := by
  have distinct : ((front ++ changed :: back).map Call.id).Nodup := ids_replaced same ▸ resolvable.distinct
  have own {other : String} : DependsOn (front ++ changed :: back) current.id other ↔
      other ∈ changed.dependsOn :=
    same ▸ dependsOn_iff_of_distinct distinct (List.mem_append_right _ List.mem_cons_self)
  cases run : order (front ++ changed :: back) with
  | ok ordered =>
    refine .inl ⟨⟨ordered, rfl⟩, fun id listed leads => ?_⟩
    have onward : Relation.ReflTransGen (DependsOn (front ++ changed :: back)) id current.id :=
      reaches_of_agree (fun _ _ off depends => depends.of_replaced off) leads.to_reflTransGen
    exact (order_arranged run).2.2.acyclic current.id (.head' (own.mpr listed) onward)
  | error error =>
    obtain ⟨_, told⟩ := order_error_told run
    cases told with
    | shared twice => exact absurd distinct twice.not_nodup
    | missing depends absent =>
      obtain ⟨call, member, _, listed⟩ := depends
      exact absurd (resolvable.known_replaced same (fun id listed => (known id listed).1) call member _ listed)
        absent
    | @circle id circle isCircle =>
      have on := resolvable.mem_circle same isCircle
      obtain ⟨next, first, onward⟩ := Relation.TransGen.head'_iff.mp (isCircle.returns on)
      have leads : Relation.ReflTransGen (DependsOn (front ++ current :: back)) next current.id :=
        reaches_of_agree (fun _ _ off depends => depends.of_replaced (same ▸ off)) onward
      have apart := (known next (own.mp first)).2
      exact .inr ⟨⟨id, circle, rfl, on, isCircle⟩, next, own.mp first,
        (Relation.reflTransGen_iff_eq_or_transGen.mp leads).resolve_left apart.symm⟩

end Replaced

end Scaffold.Call
