import Scaffold.Proofs.Call.PostOrder
import Scaffold.Proofs.Call.Redirected
import Scaffold.Proofs.Manifest.Editing

/-!
What edits do to the order of execution. A new call goes to the end of it. A call is refused new
dependencies just when one of them depends on it already, directly or through others.
-/

namespace Scaffold.Manifest

variable {manifest after : Manifest} {front back : List Call} {current : Call} {dependencies : List String}

/-- Ids of other calls pass as dependencies. -/
theorem checkDependencies_text {id : String}
    (others : ∀ other ∈ dependencies, other ∈ manifest.calls.map Call.id ∧ other ≠ id) :
    manifest.checkDependencies id (dependencies.map .text) = .ok dependencies := by
  induction dependencies with
  | nil => rfl
  | cons dependency rest ih =>
    obtain ⟨⟨known, apart⟩, later⟩ := List.forall_mem_cons.mp others
    have present : ¬(manifest.get? dependency).isNone = true := by
      rw [Option.isNone_iff_eq_none, get?_eq_none]
      exact not_not_intro known
    rw [List.map_cons, checkDependencies, if_neg apart, if_neg present, ih later]
    rfl

theorem dependenciesOf_texts (dependencies : List String) :
    dependenciesOf (.list (dependencies.map .text)) = .ok (dependencies.map .text) := by
  refine bind_eq_ok.mpr ⟨_, rfl, mapM_eq_ok.mpr ?_⟩
  induction dependencies with
  | nil => exact .nil
  | cons dependency rest ih => exact .cons rfl ih

/-- The calls with one of them changed, its id being its own. -/
theorem map_replaced (distinct : ((front ++ current :: back).map Call.id).Nodup) (changed : Call) :
    ((front ++ current :: back).map fun other => if other.id = current.id then changed else other) =
      front ++ changed :: back := by
  rw [List.map_append, List.map_cons, List.nodup_append, List.nodup_cons] at distinct
  obtain ⟨_, ⟨notBehind, _⟩, apart⟩ := distinct
  have kept {calls : List Call} (absent : ∀ other ∈ calls, other.id ≠ current.id) :
      calls.map (fun other => if other.id = current.id then changed else other) = calls :=
    (List.map_congr_left fun other listed => if_neg (absent other listed)).trans (List.map_id _)
  rw [List.map_append, List.map_cons, if_pos rfl,
    kept fun other before => apart _ (List.mem_map_of_mem before) _ List.mem_cons_self,
    kept fun other behind same => notBehind (same ▸ List.mem_map_of_mem behind)]

/-- A call that is given ids of other calls as dependencies is changed in its place, unless the calls then
have no order of execution. -/
theorem update_dependsOn (distinct : (manifest.calls.map Call.id).Nodup)
    (split : manifest.calls = front ++ current :: back)
    (others : ∀ id ∈ dependencies, id ∈ manifest.calls.map Call.id ∧ id ≠ current.id) :
    let changed := { current with dependsOn := dependencies.eraseDups }
    manifest.update current.id [("depends_on", .list (dependencies.map .text))] =
      (Call.order (front ++ changed :: back)).map fun _ =>
        (changed, { manifest with calls := front ++ changed :: back }) := by
  intro changed
  have member : current ∈ manifest.calls := split ▸ List.mem_append_right _ List.mem_cons_self
  have found : manifest.get? current.id = some current := Call.Walk.withId?_of_mem distinct member
  have known : unknownNames [("depends_on", .list (dependencies.map .text))] = [] := by
    simp [unknownNames, changeable]
  rw [split] at distinct
  unfold update
  rw [found]
  dsimp only
  rw [known, List.isEmpty_nil, Bool.not_true, if_neg Bool.false_ne_true]
  change dependenciesOf (.list (dependencies.map .text)) >>= _ = _
  rw [dependenciesOf_texts]
  change manifest.checkDependencies current.id (dependencies.map .text) >>= _ = _
  rw [checkDependencies_text others, split]
  let put (other : Call) : Call := if other.id = current.id then changed else other
  have place : (front ++ current :: back).map put = front ++ changed :: back := map_replaced distinct changed
  change Call.order ((front ++ current :: back).map put) >>= (fun _ =>
    .ok (changed, { manifest with calls := (front ++ current :: back).map put })) = _
  rw [place]
  cases Call.order (front ++ changed :: back) with
  | error error => rfl
  | ok ordered => rfl

/-- Where the calls have an order of execution, giving one of them ids of other calls as dependencies is refused
for a circle just when one of these depends on it already, directly or through others, and the circle goes
through it. Otherwise the call is changed in its place: it gets the dependencies in the order in which each
comes first, and all else in the manifest stays. -/
theorem update_dependsOn_refused_iff (resolvable : Call.Resolvable manifest.calls)
    (split : manifest.calls = front ++ current :: back)
    (others : ∀ id ∈ dependencies, id ∈ manifest.calls.map Call.id ∧ id ≠ current.id) :
    let result := manifest.update current.id [("depends_on", .list (dependencies.map .text))]
    let changed := { current with dependsOn := dependencies.eraseDups }
    ((∃ id circle, result = .error (.cycle id circle)) ↔
      ∃ id ∈ dependencies, Relation.TransGen (Call.DependsOn manifest.calls) id current.id) ∧
    (∀ id circle, result = .error (.cycle id circle) → current.id ∈ circle ∧
      Call.IsCircle (Call.DependsOn (front ++ changed :: back)) id circle) ∧
    ((¬∃ id ∈ dependencies, Relation.TransGen (Call.DependsOn manifest.calls) id current.id) →
      result = .ok (changed, { manifest with calls := front ++ changed :: back })) := by
  intro result changed
  have here : result = _ := update_dependsOn resolvable.distinct split others
  have known : ∀ id ∈ changed.dependsOn, id ∈ (front ++ current :: back).map Call.id ∧ id ≠ current.id :=
    fun id listed => split ▸ others id (List.mem_eraseDups.mp listed)
  rw [split] at resolvable ⊢
  rcases resolvable.order_replaced (rfl : changed.id = current.id) known with
    ⟨⟨ordered, run⟩, apart⟩ | ⟨⟨id, circle, run, on, isCircle⟩, other, listed, leads⟩
  · have done : result = .ok (changed, { manifest with calls := front ++ changed :: back }) := by
      rw [here, run]
      rfl
    refine ⟨⟨?_, ?_⟩, ?_, fun _ => done⟩
    · rintro ⟨id, circle, failed⟩
      cases done.symm.trans failed
    · rintro ⟨id, listed, leads⟩
      exact absurd leads (apart id (List.mem_eraseDups.mpr listed))
    · intro id circle failed
      cases done.symm.trans failed
  · have refused : result = .error (.cycle id circle) := by
      rw [here, run]
      rfl
    have back : ∃ id ∈ dependencies, Relation.TransGen (Call.DependsOn (front ++ current :: back)) id current.id :=
      ⟨other, List.mem_eraseDups.mp listed, leads⟩
    refine ⟨⟨fun _ => back, fun _ => ⟨id, circle, refused⟩⟩, ?_, fun none => absurd back none⟩
    intro id circle failed
    cases refused.symm.trans failed
    exact ⟨on, isCircle⟩

/-- Of three calls, each but the first depends on the one before it. The first may not depend on the last;
the last may depend on both others. -/
theorem update_dependsOn_refused_of_three :
    let one : Call := ⟨"a", .text "g", .map [], .text "", [], "", .null⟩
    let two : Call := ⟨"b", .text "g", .map [], .text "", ["a"], "", .null⟩
    let three : Call := ⟨"c", .text "g", .map [], .text "", ["b"], "then", .text "1"⟩
    let manifest : Manifest := ⟨⟨.relative, ["m.json"]⟩, .text "1.0.0", .text "now", [one, two, three]⟩
    (manifest.update "a" [("depends_on", .list [.text "c"])] =
        .error (.cycle "a" ["a", "c", "b", "a"]) ∧
      Relation.TransGen (Call.DependsOn [one, two, three]) "c" "a") ∧
    (¬Relation.TransGen (Call.DependsOn [one, two, three]) "b" "c" ∧
      manifest.update "c" [("depends_on", .list [.text "b", .text "a", .text "b"])] =
        .ok ({ three with dependsOn := ["b", "a"] },
          { manifest with calls := [one, two, { three with dependsOn := ["b", "a"] }] })) := by
  intro one two three manifest
  have ordered : Call.order manifest.calls = .ok [one, two, three] := by cbv
  have resolvable := (Call.order_arranged ordered).2.2
  have refused : manifest.update "a" [("depends_on", .list [.text "c"])] =
      .error (.cycle "a" ["a", "c", "b", "a"]) := by cbv
  have first : manifest.calls = [] ++ one :: [two, three] := rfl
  have last : manifest.calls = [one, two] ++ three :: [] := rfl
  have known : ∀ id ∈ ["c"], id ∈ manifest.calls.map Call.id ∧ id ≠ one.id := by decide
  have knownAll : ∀ id ∈ ["b", "a", "b"], id ∈ manifest.calls.map Call.id ∧ id ≠ three.id := by decide
  have toTwo : Relation.TransGen (Call.DependsOn manifest.calls) "c" "b" :=
    .single ⟨three, by simp [manifest], rfl, by simp [three]⟩
  have toOne : Relation.TransGen (Call.DependsOn manifest.calls) "c" "a" :=
    toTwo.tail ⟨two, by simp [manifest], rfl, by simp [two]⟩
  obtain ⟨circular, _⟩ := update_dependsOn_refused_iff resolvable first known
  obtain ⟨_, _, changed⟩ := update_dependsOn_refused_iff resolvable last knownAll
  obtain ⟨id, listed, leads⟩ := circular.mp ⟨"a", _, refused⟩
  obtain rfl := List.mem_singleton.mp listed
  refine ⟨⟨refused, leads⟩, fun back => resolvable.acyclic "c" (toTwo.trans back), changed ?_⟩
  rintro ⟨id, listed, back⟩
  refine resolvable.acyclic "c" (.trans ?_ back)
  simp only [List.mem_cons, List.not_mem_nil, or_false] at listed
  rcases listed with rfl | rfl | rfl
  · exact toTwo
  · exact toOne
  · exact toTwo

/-- A call that is added comes last in the order of execution, which is otherwise as it was. -/
theorem order_after_add {draft : Call.Draft} {now : Instant} {call : Call}
    (resolvable : Call.Resolvable manifest.calls) (added : manifest.add draft now = .ok (call, after)) :
    ∃ ordered, manifest.order = .ok ordered ∧ after.order = .ok (ordered ++ [call]) := by
  obtain ⟨rfl, fresh, known⟩ := add_ok added
  obtain ⟨ordered, run⟩ := resolvable.order_succeeds
  exact ⟨ordered, run, Call.order_concat run fresh known⟩

/-- The order differs from that of the list, and the new call depends on the first call alone. -/
theorem order_after_add_of_two :
    let one : Call := ⟨"a", .text "g", .map [], .text "", ["b"], "", .null⟩
    let two : Call := ⟨"b", .text "g", .map [], .text "", [], "", .null⟩
    let manifest : Manifest := ⟨⟨.relative, ["m.json"]⟩, .text "1.0.0", .text "now", [one, two]⟩
    let draft : Call.Draft := { id := "c", generator := .text "g", dependsOn := .list [.text "b"] }
    ∃ call after, manifest.add draft ⟨0⟩ = .ok (call, after) ∧ manifest.order = .ok [two, one] ∧
      after.order = .ok [two, one, call] := by
  intro one two manifest draft
  have run : manifest.order = .ok [two, one] := by cbv
  obtain ⟨⟨call, after⟩, added⟩ : ∃ result, manifest.add draft ⟨0⟩ = .ok result := ⟨_, by cbv⟩
  obtain ⟨ordered, before, behind⟩ := order_after_add (Call.order_arranged run).2.2 added
  cases run.symm.trans before
  exact ⟨call, after, added, run, behind⟩

end Scaffold.Manifest
