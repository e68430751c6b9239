import Scaffold.Proofs.Call.Circle

/-!
The order of execution is the depth-first post-order of the calls. A loop that keeps the calls being
visited on a stack, each with the dependencies it has not looked at yet, comes to the same order and fails
in the same way.
-/

namespace Scaffold.Call

variable {calls pool placed emitted result : List Call} {path ids : List String} {caller : String}

/-! ### Emitting in post-order -/

/-- Going depth first through ids after some calls have been emitted: an id of an emitted call is passed
over, and any other call is emitted after what its dependencies lead to, in their order. -/
inductive Emits (calls : List Call) : List Call → List String → List Call → Prop
  | done {emitted : List Call} : Emits calls emitted [] emitted
  | again {emitted result : List Call} {id : String} {rest : List String} :
      id ∈ emitted.map Call.id → Emits calls emitted rest result → Emits calls emitted (id :: rest) result
  | emit {emitted below result : List Call} {call : Call} {rest : List String} : call ∈ calls →
      call.id ∉ emitted.map Call.id → Emits calls emitted call.dependsOn below →
      Emits calls (below ++ [call]) rest result → Emits calls emitted (call.id :: rest) result

/-- The calls in post-order, gone through in the order of the list. -/
def PostOrder (calls result : List Call) : Prop :=
  Emits calls [] (calls.map Call.id) result

theorem visit_emits (run : visit path pool placed caller ids = .ok result) (within : pool ⊆ calls) :
    Emits calls placed ids result := by
  fun_induction visit path pool placed caller ids generalizing result with
  | case1 =>
    cases run
    exact .done
  | case2 path pool placed caller id rest present ih => exact .again (any_id_iff.mp present) (ih run within)
  | case3 => cases run
  | case4 => cases run
  | case5 path pool placed caller id rest absent call found ihBelow ihAfter =>
    obtain ⟨member, rfl⟩ := withId?_some found
    obtain ⟨below, visited, visitedRest⟩ := bind_eq_ok.mp run
    exact .emit (within member) (fun before => absent (any_id_iff.mpr before))
      (ihBelow visited fun _ inside => within (without_subset _ _ inside)) (ihAfter below visitedRest within)

theorem visitAll_emits {roots : List Call} (run : visitAll calls placed roots = .ok result)
    (within : roots ⊆ calls) : Emits calls placed (roots.map Call.id) result := by
  fun_induction visitAll calls placed roots with
  | case1 placed =>
    cases run
    exact .done
  | case2 placed root rest present ih =>
    exact .again (any_id_iff.mp present) (ih run (List.subset_of_cons_subset within))
  | case3 placed root rest absent ih =>
    obtain ⟨below, visited, visitedRest⟩ := bind_eq_ok.mp run
    exact .emit (within List.mem_cons_self) (fun before => absent (any_id_iff.mpr before))
      (visit_emits visited (without_subset _ _)) (ih below visitedRest (List.subset_of_cons_subset within))

theorem Emits.subset (emits : Emits calls emitted ids result) (within : emitted ⊆ calls) : result ⊆ calls := by
  induction emits with
  | done => exact within
  | again _ _ ih => exact ih within
  | emit member _ _ _ ihBelow ihAfter =>
    exact ihAfter (List.append_subset.mpr ⟨ihBelow within, List.cons_subset.mpr ⟨member, List.nil_subset _⟩⟩)

/-- Where ids are distinct, there is one way to go on. -/
theorem Emits.unique (distinct : (calls.map Call.id).Nodup) (emits : Emits calls emitted ids result)
    {other : List Call} (emitsOther : Emits calls emitted ids other) : result = other := by
  induction emits generalizing other with
  | done =>
    cases emitsOther
    rfl
  | again met _ ih =>
    cases emitsOther with
    | again _ later => exact ih later
    | emit _ fresh => exact absurd met fresh
  | @emit emitted below result call rest member fresh _ _ ihBelow ihAfter =>
    generalize same : call.id = id at emitsOther fresh
    cases emitsOther with
    | again met _ => exact absurd met fresh
    | @emit _ belowOther _ callOther _ memberOther _ first later =>
      obtain rfl := List.inj_on_of_nodup_map distinct member memberOther same
      obtain rfl := ihBelow first
      exact ihAfter later

/-- Ids of emitted calls are passed over. -/
theorem Emits.of_met (met : ∀ id ∈ ids, id ∈ emitted.map Call.id) : Emits calls emitted ids emitted := by
  induction ids with
  | nil => exact .done
  | cons id rest ih =>
    obtain ⟨here, later⟩ := List.forall_mem_cons.mp met
    exact .again here (ih later)

theorem Emits.trans {more : List String} {last : List Call} (first : Emits calls emitted ids result)
    (second : Emits calls result more last) : Emits calls emitted (ids ++ more) last := by
  induction first with
  | done => exact second
  | again met _ ih => exact .again met (ih second)
  | emit member fresh below _ _ ihAfter => exact .emit member fresh below (ihAfter second)

/-- Calls that are not come to make no difference. -/
theorem Emits.mono {others : List Call} (emits : Emits calls emitted ids result) (subset : calls ⊆ others) :
    Emits others emitted ids result := by
  induction emits with
  | done => exact .done
  | again met _ ih => exact .again met ih
  | emit member fresh _ _ ihBelow ihAfter => exact .emit (subset member) fresh ihBelow ihAfter

/-- Where every call stands after its dependencies, each is emitted at once. -/
theorem Emits.of_dependenciesFirst (distinct : (calls.map Call.id).Nodup) (first : DependenciesFirst calls)
    {back : List Call} (split : calls = emitted ++ back) : Emits calls emitted (back.map Call.id) calls := by
  induction back generalizing emitted with
  | nil =>
    rw [List.append_nil] at split
    exact split ▸ .done
  | cons call rest ih =>
    have fresh : call.id ∉ emitted.map Call.id := by
      rw [split, List.map_append, List.map_cons] at distinct
      exact fun before => List.disjoint_of_nodup_append distinct before List.mem_cons_self
    exact .emit (by simp [split]) fresh (.of_met (first emitted call rest split)) (ih (by simp [split]))

theorem postOrder_of_order (run : order calls = .ok result) : PostOrder calls result := by
  unfold order at run
  split at run
  · cases run
  · exact visitAll_emits run (List.Subset.refl _)

theorem postOrder_iff_eq (run : order calls = .ok result) {other : List Call} :
    PostOrder calls other ↔ other = result := by
  have here := postOrder_of_order run
  refine ⟨fun emits => emits.unique (order_arranged run).2.2.distinct here, ?_⟩
  rintro rfl
  exact here

/-- Calls that stand after their dependencies already stay where they are. -/
theorem order_of_dependenciesFirst (distinct : (calls.map Call.id).Nodup) (first : DependenciesFirst calls) :
    order calls = .ok calls := by
  obtain ⟨result, run⟩ := (first.resolvable distinct).order_succeeds
  have same := (postOrder_iff_eq run).mp (Emits.of_dependenciesFirst distinct first rfl)
  rw [run, same]

/-- A new call that depends on calls from before comes last, behind their order. -/
theorem order_concat (run : order calls = .ok result) {last : Call} (fresh : last.id ∉ calls.map Call.id)
    (known : ∀ id ∈ last.dependsOn, id ∈ calls.map Call.id) :
    order (calls ++ [last]) = .ok (result ++ [last]) := by
  obtain ⟨same, _, resolvable⟩ := order_arranged run
  obtain ⟨longer, runLonger⟩ := (resolvable.append fresh known).order_succeeds
  have sameIds {id : String} : id ∈ result.map Call.id ↔ id ∈ calls.map Call.id :=
    (same.map Call.id).mem_iff
  have before : Emits (calls ++ [last]) [] (calls.map Call.id) result :=
    (postOrder_of_order run).mono (List.subset_append_left _ _)
  have behind : Emits (calls ++ [last]) result [last.id] (result ++ [last]) :=
    .emit (List.mem_append_right _ List.mem_cons_self) (fun placed => fresh (sameIds.mp placed))
      (.of_met fun id listed => sameIds.mpr (known id listed)) .done
  have whole : PostOrder (calls ++ [last]) (result ++ [last]) := by
    rw [PostOrder, List.map_append]
    exact before.trans behind
  rw [runLonger, (postOrder_iff_eq runLonger).mp whole]

theorem order_of_order (run : order calls = .ok result) : order result = .ok result := by
  obtain ⟨same, first, resolvable⟩ := order_arranged run
  exact order_of_dependenciesFirst ((same.map Call.id).nodup_iff.mpr resolvable.distinct) first

/-! ### The loop -/

/-- A call that is being visited, with those of its dependencies that have not been looked at yet. -/
structure Frame where
  call : Call
  pending : List String

/-- A walk through calls: those being visited, the innermost first; those that are still to be visited for
themselves; and those that are placed. -/
structure Walk where
  stack : List Frame
  roots : List Call
  placed : List Call

namespace Walk

/-- The ids of the calls being visited, the outermost first. -/
def underway (walk : Walk) : List String :=
  (walk.stack.map fun frame => frame.call.id).reverse

/-- One turn of the loop, unless there is nothing left to do. The innermost call is placed when all of its
dependencies have been looked at; otherwise the next one is, and it is to be visited unless it is placed. -/
def step (calls : List Call) (walk : Walk) : Option (Except Error Walk) :=
  match walk.stack with
  | [] =>
    match walk.roots with
    | [] => none
    | root :: rest =>
      if walk.placed.any fun call => call.id == root.id then some (.ok { walk with roots := rest })
      else some (.ok { walk with stack := [⟨root, root.dependsOn⟩], roots := rest })
  | ⟨call, []⟩ :: outer => some (.ok { walk with stack := outer, placed := walk.placed ++ [call] })
  | ⟨call, id :: pending⟩ :: outer =>
    match withId? calls id with
    | none => some (.error (.dependencyNotFound id call.id))
    | some dependency =>
      if walk.placed.any fun call => call.id == id then
        some (.ok { walk with stack := ⟨call, pending⟩ :: outer })
      else if walk.underway.contains id then
        some (.error (.cycle id (walk.underway.dropWhile (· != id) ++ [id])))
      else
        some (.ok { walk with stack := ⟨dependency, dependency.dependsOn⟩ :: ⟨call, pending⟩ :: outer })

/-- Turns of the loop lead from one walk to another. -/
def Leads (calls : List Call) : Walk → Walk → Prop :=
  Relation.ReflTransGen fun walk next => walk.step calls = some (.ok next)

/-- The loop comes to an outcome: to a walk that is the goal for the calls then placed, or to a turn that
fails. -/
def Reaches (calls : List Call) (goal : List Call → Walk) (walk : Walk) : Except Error (List Call) → Prop
  | .ok placed => Leads calls walk (goal placed)
  | .error error => ∃ last, Leads calls walk last ∧ last.step calls = some (.error error)

/-- The loop ends with an outcome: nothing is left to do, or a turn fails. -/
def Ends (calls : List Call) (walk : Walk) (outcome : Except Error (List Call)) : Prop :=
  Reaches calls (fun placed => ⟨[], [], placed⟩) walk outcome

variable {roots : List Call} {call : Call} {outer : List Frame} {walk next : Walk}
  {goal : List Call → Walk} {outcome : Except Error (List Call)}

theorem Reaches.after (leads : Leads calls walk next) (later : Reaches calls goal next outcome) :
    Reaches calls goal walk outcome := by
  cases outcome with
  | ok placed => exact leads.trans later
  | error error =>
    obtain ⟨last, more, fails⟩ := later
    exact ⟨last, leads.trans more, fails⟩

/-- Where one outcome is reached, the loop goes on with the calls placed until then. -/
theorem Reaches.bind {middle : List Call → Walk} {first : Except Error (List Call)}
    {later : List Call → Except Error (List Call)} (reaches : Reaches calls middle walk first)
    (onward : ∀ placed, first = .ok placed → Reaches calls goal (middle placed) (later placed)) :
    Reaches calls goal walk (first >>= later) := by
  cases first with
  | ok placed => exact (onward placed rfl).after reaches
  | error error => exact reaches

theorem Leads.eq_of_stuck (leads : Leads calls walk next)
    (stuck : ∀ turn, walk.step calls ≠ some (.ok turn)) : walk = next := by
  rcases leads.cases_head with same | ⟨_, turn, _⟩
  · exact same
  · exact absurd turn (stuck _)

/-- A walk leads to one walk only that has no further turn, since each turn is determined. -/
theorem Leads.unique {one other : Walk} (leads : Leads calls walk one) (leadsOther : Leads calls walk other)
    (stuck : ∀ turn, one.step calls ≠ some (.ok turn))
    (stuckOther : ∀ turn, other.step calls ≠ some (.ok turn)) : one = other := by
  have determined : Relator.RightUnique fun walk next : Walk => walk.step calls = some (.ok next) := by
    intro _ _ _ turn turnOther
    exact Except.ok.inj (Option.some.inj (turn.symm.trans turnOther))
  rcases Relation.ReflTransGen.total_of_right_unique determined leads leadsOther with later | later
  · exact Leads.eq_of_stuck later stuck
  · exact (Leads.eq_of_stuck later stuckOther).symm

/-- The loop ends in one way only. -/
theorem Ends.unique {other : Except Error (List Call)} (ends : Ends calls walk outcome)
    (endsOther : Ends calls walk other) : outcome = other := by
  have done (placed : List Call) : ∀ turn, step calls ⟨[], [], placed⟩ ≠ some (.ok turn) := by
    simp [step]
  have failed {last : Walk} {error : Error} (fails : last.step calls = some (.error error)) :
      ∀ turn, last.step calls ≠ some (.ok turn) := by
    simp [fails]
  cases outcome with
  | ok placed =>
    cases other with
    | ok placedOther =>
      have same := Leads.unique ends endsOther (done _) (done _)
      exact congrArg Except.ok (congrArg Walk.placed same)
    | error error =>
      obtain ⟨last, leads, fails⟩ := endsOther
      obtain rfl := Leads.unique ends leads (done _) (failed fails)
      cases fails
  | error error =>
    obtain ⟨last, leads, fails⟩ := ends
    cases other with
    | ok placed =>
      obtain rfl := Leads.unique leads endsOther (failed fails) (done _)
      cases fails
    | error errorOther =>
      obtain ⟨lastOther, leadsOther, failsOther⟩ := endsOther
      obtain rfl := Leads.unique leads leadsOther (failed fails) (failed failsOther)
      rw [fails] at failsOther
      exact congrArg Except.error (Except.error.inj (Option.some.inj failsOther))

theorem withId?_of_mem (distinct : (calls.map Call.id).Nodup) (member : call ∈ calls) :
    withId? calls call.id = some call := by
  cases found : withId? calls call.id with
  | none => exact absurd (List.mem_map_of_mem member) (withId?_none.mp found)
  | some other =>
    obtain ⟨inside, same⟩ := withId?_some found
    rw [List.inj_on_of_nodup_map distinct inside member same]

theorem step_known {id : String} {pending : List String} {dependency : Call}
    (found : withId? calls id = some dependency) :
    step calls ⟨⟨call, id :: pending⟩ :: outer, roots, placed⟩ =
      if placed.any fun call => call.id == id then some (.ok ⟨⟨call, pending⟩ :: outer, roots, placed⟩)
      else
        let path := (outer.map fun frame => frame.call.id).reverse ++ [call.id]
        if path.contains id then some (.error (.cycle id (path.dropWhile (· != id) ++ [id])))
        else
          some (.ok ⟨⟨dependency, dependency.dependsOn⟩ :: ⟨call, pending⟩ :: outer, roots, placed⟩) := by
  simp only [step, found, underway, List.map_cons, List.reverse_cons]

theorem exists_withId? {id : String} (known : id ∈ calls.map Call.id) :
    ∃ call, withId? calls id = some call := by
  cases found : withId? calls id with
  | none => exact absurd known (withId?_none.mp found)
  | some call => exact ⟨call, rfl⟩

/-- The loop does what a visit does. The calls on the stack are those of the path, and the frames below the
innermost one stay as they are. -/
theorem reaches_visit (distinct : (calls.map Call.id).Nodup) (here : call.id = caller)
    (path_eq : path = (outer.map fun frame => frame.call.id).reverse ++ [caller])
    (isPool : IsPool calls path pool) (known : path ⊆ calls.map Call.id) (within : placed ⊆ calls) :
    Reaches calls (fun placed => ⟨⟨call, []⟩ :: outer, roots, placed⟩) ⟨⟨call, ids⟩ :: outer, roots, placed⟩
      (visit path pool placed caller ids) := by
  fun_induction visit path pool placed caller ids generalizing call outer with
  | case1 => exact .refl
  | case2 path pool placed caller id rest present ih =>
    obtain ⟨dependency, found⟩ := exists_withId? (List.map_subset _ within (any_id_iff.mp present))
    refine (ih here path_eq isPool known within).after (.single ?_)
    rw [step_known found, if_pos present]
  | case3 path pool placed caller id rest absent missing onPath =>
    -- an id on the path is that of a call, so the loop finds it and fails at the circle
    obtain ⟨dependency, found⟩ := exists_withId? (known (List.contains_iff_mem.mp onPath))
    refine ⟨_, .refl, ?_⟩
    rw [step_known found, if_neg absent, here, ← path_eq]
    exact if_pos onPath
  | case4 path pool placed caller id rest absent missing offPath =>
    -- an id that is neither in the pool nor on the path is no call's
    have unknown : withId? calls id = none :=
      withId?_none.mpr fun known => offPath (List.contains_iff_mem.mpr (isPool.mem_path missing known))
    refine ⟨_, .refl, ?_⟩
    rw [step]
    simp only [unknown, here]
  | case5 path pool placed caller id rest absent dependency found ihBelow ihAfter =>
    -- a frame is put on the stack, its dependencies are visited, and it is taken off again
    obtain ⟨inside, rfl⟩ := withId?_some found
    obtain ⟨member, off⟩ := (isPool dependency).mp inside
    have entered : step calls ⟨⟨call, dependency.id :: rest⟩ :: outer, roots, placed⟩ =
        some (.ok ⟨⟨dependency, dependency.dependsOn⟩ :: ⟨call, rest⟩ :: outer, roots, placed⟩) := by
      rw [step_known (withId?_of_mem distinct member), if_neg absent, here, ← path_eq]
      exact if_neg fun on => off (List.contains_iff_mem.mp on)
    have knownBelow : path ++ [dependency.id] ⊆ calls.map Call.id :=
      List.append_subset.mpr ⟨known, List.cons_subset.mpr ⟨List.mem_map_of_mem member, List.nil_subset _⟩⟩
    have below : Reaches calls (fun placed => ⟨⟨dependency, []⟩ :: ⟨call, rest⟩ :: outer, roots, placed⟩)
        ⟨⟨dependency, dependency.dependsOn⟩ :: ⟨call, rest⟩ :: outer, roots, placed⟩ _ :=
      ihBelow rfl (by simp [path_eq, here]) (isPool.enter dependency.id) knownBelow within
    refine .after (.single entered) (below.bind fun visited run => ?_)
    have subset := (visit_emits run fun other among =>
      ((isPool other).mp (without_subset _ _ among)).1).subset within
    have left : step calls ⟨⟨dependency, []⟩ :: ⟨call, rest⟩ :: outer, roots, visited⟩ =
        some (.ok ⟨⟨call, rest⟩ :: outer, roots, visited ++ [dependency]⟩) := rfl
    refine .after (.single left) (ihAfter visited here path_eq isPool known ?_)
    exact List.append_subset.mpr ⟨subset, List.cons_subset.mpr ⟨member, List.nil_subset _⟩⟩

/-- The loop visits the roots in turn, as the order of execution does. -/
theorem ends_visitAll (distinct : (calls.map Call.id).Nodup) (rootsWithin : roots ⊆ calls)
    (within : placed ⊆ calls) : Ends calls ⟨[], roots, placed⟩ (visitAll calls placed roots) := by
  fun_induction visitAll calls placed roots with
  | case1 => exact .refl
  | case2 placed root rest present ih =>
    refine (ih (List.subset_of_cons_subset rootsWithin) within).after (.single ?_)
    rw [step]
    simp only [present, if_true]
  | case3 placed root rest absent ih =>
    have inside : root ∈ calls := rootsWithin List.mem_cons_self
    have entered : step calls ⟨[], root :: rest, placed⟩ =
        some (.ok ⟨[⟨root, root.dependsOn⟩], rest, placed⟩) := by
      rw [step]
      simp only [absent, Bool.false_eq_true, if_false]
    have below : Reaches calls (fun placed => ⟨[⟨root, []⟩], rest, placed⟩)
        ⟨[⟨root, root.dependsOn⟩], rest, placed⟩
        (visit [root.id] (without root.id calls) placed root.id root.dependsOn) :=
      reaches_visit distinct rfl rfl (.single calls root.id)
        (List.cons_subset.mpr ⟨List.mem_map_of_mem inside, List.nil_subset _⟩) within
    refine .after (.single entered) (below.bind fun visited run => ?_)
    have subset := (visit_emits run (without_subset _ _)).subset within
    have left : step calls ⟨[⟨root, []⟩], rest, visited⟩ = some (.ok ⟨[], rest, visited ++ [root]⟩) := rfl
    refine .after (.single left) (ih visited (List.subset_of_cons_subset rootsWithin) ?_)
    exact List.append_subset.mpr ⟨subset, List.cons_subset.mpr ⟨inside, List.nil_subset _⟩⟩

end Walk

theorem ends_order (distinct : (calls.map Call.id).Nodup) : Walk.Ends calls ⟨[], calls, []⟩ (order calls) := by
  have unrepeated : firstRepeated? [] calls = none := firstRepeated?_none.mpr ⟨distinct, by simp⟩
  unfold order
  rw [unrepeated]
  exact Walk.ends_visitAll distinct (List.Subset.refl _) (List.nil_subset _)

/-- The order of execution is the depth-first post-order of the calls, and to order it again changes nothing.
With distinct ids the loop ends as the order does, whether it fails or not, and calls that stand after
their dependencies already are left as they are. -/
theorem order_is_postOrder (calls : List Call) :
    (∀ result, order calls = .ok result →
      (∀ other, PostOrder calls other ↔ other = result) ∧ order result = .ok result) ∧
    ((calls.map Call.id).Nodup →
      (∀ outcome, Walk.Ends calls ⟨[], calls, []⟩ outcome ↔ outcome = order calls) ∧
        (DependenciesFirst calls → order calls = .ok calls)) := by
  refine ⟨fun result run => ⟨fun other => postOrder_iff_eq run, order_of_order run⟩, fun distinct => ?_⟩
  have unique outcome : Walk.Ends calls ⟨[], calls, []⟩ outcome → outcome = order calls :=
    fun ends => ends.unique (ends_order distinct)
  refine ⟨fun outcome => ⟨unique outcome, ?_⟩, order_of_dependenciesFirst distinct⟩
  rintro rfl
  exact ends_order distinct

/-- Three calls of which the first depends on the last, and that on the one between. -/
theorem order_is_postOrder_of_three :
    let one : Call := ⟨"a", .null, .null, .null, [], "", .null⟩
    let two : Call := ⟨"b", .null, .null, .null, ["a"], "", .null⟩
    let three : Call := ⟨"c", .null, .null, .null, ["b"], "", .null⟩
    order [three, one, two] = .ok [one, two, three] ∧
      (∀ other, PostOrder [three, one, two] other ↔ other = [one, two, three]) ∧
      Walk.Ends [three, one, two] ⟨[], [three, one, two], []⟩ (.ok [one, two, three]) ∧
      order [one, two, three] = .ok [one, two, three] := by
  intro one two three
  have run : order [three, one, two] = .ok [one, two, three] := by cbv
  obtain ⟨ordered, looped⟩ := order_is_postOrder [three, one, two]
  obtain ⟨unique, again⟩ := ordered _ run
  exact ⟨run, unique, ((looped (by decide)).1 _).mpr run.symm, again⟩

end Scaffold.Call
