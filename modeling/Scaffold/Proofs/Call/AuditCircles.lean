import Scaffold.Proofs.Call.Audit
import Scaffold.Proofs.Call.Circle

/-!
The circles of an audit. Each is a circle of dependencies between several calls, closed by an edge back to
the path of the search. Without the closing edges, what depends on what goes one way only: from an id to
ids that the search has finished before. So every round trip uses one of them.
-/

namespace Scaffold.Call

variable {calls : List Call} {path pool ids finished : List String} {caller id other : String}
  {search after : Search} {circles : List (List String)}

/-- The edge that closes a circle: its last two ids. -/
def closing (circle : List String) : List String :=
  circle.drop (circle.length - 2)

/-- The audit goes along an edge: a dependency that is the id of another call. -/
def Linked (calls : List Call) (id other : String) : Prop :=
  other ∈ neighbours calls id

theorem linked_iff : Linked calls id other ↔
    DependsOn calls id other ∧ other ≠ id ∧ other ∈ calls.map Call.id := by
  simp only [Linked, neighbours, List.mem_map, List.mem_filter, Bool.and_eq_true, beq_iff_eq, bne_iff_ne,
    List.any_eq_true]
  constructor
  · rintro ⟨⟨one, two⟩, ⟨listed, ⟨rfl, apart⟩, call, member, same⟩, rfl⟩
    exact ⟨mem_edges.mp listed, apart, call, member, same⟩
  · rintro ⟨edge, apart, call, member, same⟩
    exact ⟨(id, other), ⟨mem_edges.mpr edge, ⟨rfl, apart⟩, call, member, same⟩, rfl⟩

theorem Trail.closing_eq {edge : String → String → Prop} (trail : Trail edge path caller) (on : id ∈ path) :
    closing (path.dropWhile (· != id) ++ [id]) = [caller, id] := by
  obtain ⟨inner, tail, back⟩ := trail.exists_from on
  obtain ⟨front, split⟩ := List.getLast?_eq_some_iff.mp back.ends
  rw [tail, split, closing]
  simp

/-- An id is finished after all that it leads to, but for edges that close circles. -/
structure Settled (calls : List Call) (finished : List String) (circles : List (List String)) : Prop where
  distinct : finished.Nodup
  onward : ∀ front id back, finished = front ++ id :: back → ∀ other, Linked calls id other →
    other ∈ front ∨ [id, other] ∈ circles.map closing

namespace Settled

theorem nil (calls : List Call) (circles : List (List String)) : Settled calls [] circles :=
  ⟨List.nodup_nil, fun front id back split => by simp at split⟩

theorem mono {more : List (List String)} (settled : Settled calls finished circles)
    (grown : circles ⊆ more) : Settled calls finished more where
  distinct := settled.distinct
  onward := fun front id back split other linked =>
    (settled.onward front id back split other linked).imp_right fun closed => List.map_subset _ grown closed

theorem concat (settled : Settled calls finished circles) (fresh : id ∉ finished)
    (met : ∀ other, Linked calls id other → other ∈ finished ∨ [id, other] ∈ circles.map closing) :
    Settled calls (finished ++ [id]) circles where
  distinct := settled.distinct.append (List.nodup_singleton id) (List.disjoint_singleton.mpr fresh)
  onward := by
    intro front one back split other linked
    rcases split_concat split with ⟨rfl, rfl⟩ | ⟨body, inside⟩
    · exact met other linked
    · exact settled.onward front one body inside other linked

/-- What an id leads to was finished earlier. -/
theorem idxOf_lt (settled : Settled calls finished circles) (inside : id ∈ finished)
    (linked : Linked calls id other) (kept : [id, other] ∉ circles.map closing) :
    finished.idxOf other < finished.idxOf id := by
  obtain ⟨front, back, rfl⟩ := List.append_of_mem inside
  have before := (settled.onward front id back rfl other linked).resolve_right kept
  have fresh : id ∉ front := fun early =>
    List.disjoint_of_nodup_append settled.distinct early List.mem_cons_self
  rw [List.idxOf_append_of_mem before, List.idxOf_append_of_notMem fresh, List.idxOf_cons_self,
    Nat.add_zero]
  exact List.idxOf_lt_length_iff.mpr before

end Settled

/-! ### The search -/

/-- A search has come to the ids of a path and to those that are finished, and the circles that it has found
are circles. -/
structure Searched (calls : List Call) (path finished : List String) (search : Search) : Prop where
  visited : ∀ id, id ∈ search.visited ↔ id ∈ path ∨ id ∈ finished
  apart : ∀ id ∈ path, id ∉ finished
  settled : Settled calls finished search.circles
  sound : ∀ circle ∈ search.circles, ∃ id, IsCircle (Linked calls) id circle

namespace Searched

theorem enter (searched : Searched calls path finished search) (fresh : id ∉ search.visited) :
    Searched calls (path ++ [id]) finished { search with visited := id :: search.visited } where
  visited := by
    intro other
    rw [List.mem_cons, searched.visited, List.mem_append, List.mem_singleton]
    tauto
  apart := by
    intro other on
    rcases List.mem_append.mp on with before | last
    · exact searched.apart other before
    · obtain rfl := List.mem_singleton.mp last
      exact fun early => fresh ((searched.visited other).mpr (.inr early))
  settled := searched.settled
  sound := searched.sound

/-- The last id of the path is finished when the search has gone along all of its edges. -/
theorem leave (searched : Searched calls (path ++ [id]) finished search) (off : id ∉ path)
    (met : ∀ other, Linked calls id other → other ∈ finished ∨ [id, other] ∈ search.circles.map closing) :
    Searched calls path (finished ++ [id]) search where
  visited := by
    intro other
    rw [searched.visited, List.mem_append, List.mem_append]
    tauto
  apart := by
    intro other on late
    rcases List.mem_append.mp late with before | last
    · exact searched.apart other (List.mem_append_left _ on) before
    · exact off (List.mem_singleton.mp last ▸ on)
  settled := searched.settled.concat (searched.apart id (by simp)) met
  sound := searched.sound

/-- An edge back to the path closes a circle. -/
theorem record (searched : Searched calls path finished search) (trail : Trail (Linked calls) path caller)
    (on : id ∈ path) (linked : Linked calls caller id) :
    Searched calls path finished
      { search with circles := search.circles ++ [path.dropWhile (· != id) ++ [id]] } where
  visited := searched.visited
  apart := searched.apart
  settled := searched.settled.mono (List.subset_append_left _ _)
  sound := by
    intro circle listed
    rcases List.mem_append.mp listed with before | last
    · exact searched.sound circle before
    · obtain rfl := List.mem_singleton.mp last
      exact ⟨id, trail.circle on linked⟩

/-- The search from the end of a trail finishes what it comes to; the edges that it has gone along lead to
finished ids or close circles. -/
theorem explored (searched : Searched calls path finished search) (trail : Trail (Linked calls) path caller)
    (covered : ∀ id ∈ calls.map Call.id, id ∉ path → id ∈ pool) (linked : ∀ id ∈ ids, Linked calls caller id) :
    ∃ added, Searched calls path (finished ++ added) (explore calls path pool search ids) ∧
      ∀ id ∈ ids, id ∈ finished ++ added ∨
        [caller, id] ∈ (explore calls path pool search ids).circles.map closing := by
  fun_induction explore calls path pool search ids generalizing caller finished with
  | case1 path pool search => exact ⟨[], by simpa using searched, by simp⟩
  | case2 path pool search id rest onPath circle =>
    -- an edge back to the path: it closes the circle that is recorded
    rename_i ih
    obtain ⟨here, later⟩ := List.forall_mem_cons.mp linked
    have on := List.contains_iff_mem.mp onPath
    obtain ⟨added, after, met⟩ := ih (searched.record trail on here) trail covered later
    refine ⟨added, after, List.forall_mem_cons.mpr ⟨.inr ?_, met⟩⟩
    refine List.mem_map.mpr ⟨circle, ?_, trail.closing_eq on⟩
    exact (explore_circles calls path pool _ rest).subset (by simp)
  | case3 path pool search id rest offPath visited ih =>
    -- an id that the search has come to and that is off the path: it is finished
    obtain ⟨added, after, met⟩ := ih searched trail covered (List.forall_mem_cons.mp linked).2
    refine ⟨added, after, List.forall_mem_cons.mpr ⟨.inl ?_, met⟩⟩
    have known := (searched.visited id).mp (List.contains_iff_mem.mp visited)
    exact List.mem_append_left _ (known.resolve_left (by simpa using offPath))
  | case4 path pool search id rest offPath fresh member below ihBelow =>
    -- a new id: it is finished when the search comes back from it
    rename_i ihRest
    obtain ⟨here, later⟩ := List.forall_mem_cons.mp linked
    have off : id ∉ path := by simpa using offPath
    have unvisited : id ∉ search.visited := by simpa using fresh
    have coveredBelow : ∀ other ∈ calls.map Call.id, other ∉ path ++ [id] → other ∈ otherIds id pool := by
      intro other known apart
      rw [List.mem_append, not_or, List.mem_singleton] at apart
      exact List.mem_filter.mpr ⟨covered other known apart.1, bne_iff_ne.mpr apart.2⟩
    obtain ⟨first, entered, metBelow⟩ :=
      ihBelow (searched.enter unvisited) (trail.extend here off) coveredBelow fun _ linked => linked
    have left := entered.leave off metBelow
    obtain ⟨second, after, met⟩ := ihRest left trail covered later
    refine ⟨first ++ [id] ++ second, by simpa using after, List.forall_mem_cons.mpr ⟨.inl (by simp), ?_⟩⟩
    simpa using met
  | case5 path pool search id rest offPath fresh outside ih =>
    -- an id off the path is in the pool, so this does not occur
    have known := (linked_iff.mp (linked id List.mem_cons_self)).2.2
    exact absurd (covered id known (by simpa using offPath)) outside

/-- The search from all ids finishes them. -/
theorem exploredAll {roots : List String} (searched : Searched calls [] finished search)
    (within : roots ⊆ calls.map Call.id) :
    ∃ added, Searched calls [] (finished ++ added) (exploreAll calls (calls.map Call.id) search roots) ∧
      roots ⊆ finished ++ added := by
  induction roots generalizing finished search with
  | nil => exact ⟨[], by simpa [exploreAll] using searched, List.nil_subset _⟩
  | cons root rest ih =>
    obtain ⟨_, within⟩ := List.cons_subset.mp within
    rw [exploreAll]
    split
    · next visited =>
      obtain ⟨added, after, met⟩ := ih searched within
      have known := (searched.visited root).mp (List.contains_iff_mem.mp visited)
      refine ⟨added, after, List.cons_subset.mpr ⟨List.mem_append_left _ ?_, met⟩⟩
      exact known.resolve_left List.not_mem_nil
    · next fresh =>
      have unvisited : root ∉ search.visited := by simpa using fresh
      have covered : ∀ id ∈ calls.map Call.id, id ∉ [root] → id ∈ otherIds root (calls.map Call.id) := by
        intro id known apart
        exact List.mem_filter.mpr ⟨known, by simpa using apart⟩
      obtain ⟨first, entered, met⟩ :=
        (searched.enter unvisited).explored (.single root) covered fun _ linked => linked
      obtain ⟨second, after, metRest⟩ := ih (entered.leave List.not_mem_nil met) within
      refine ⟨first ++ [root] ++ second, by simpa using after, List.cons_subset.mpr ⟨by simp, ?_⟩⟩
      simpa using metRest

end Searched

/-! ### Rounds -/

/-- A round: a way along edges that comes back to where it began, through another id at least. It may meet
ids more than once. -/
def IsRound (edge : String → String → Prop) (walk : List String) : Prop :=
  ∃ id inner, walk = id :: inner ++ [id] ∧ (∃ other ∈ inner, other ≠ id) ∧ walk.IsChain edge

namespace IsRound

variable {edge : String → String → Prop} {walk : List String}

theorem exists_next (round : IsRound edge walk) (on : id ∈ walk) : ∃ other, edge id other := by
  obtain ⟨start, inner, rfl, _, linked⟩ := round
  have inside : id ∈ start :: inner := by
    rcases List.mem_append.mp on with inside | last
    · exact inside
    · exact List.mem_singleton.mp last ▸ List.mem_cons_self
  obtain ⟨front, back, split⟩ := List.append_of_mem inside
  rw [split, List.append_assoc, List.cons_append] at linked
  cases back with
  | nil => exact ⟨start, (List.isChain_append_cons_cons.mp linked).2.1⟩
  | cons other back => exact ⟨other, (List.isChain_append_cons_cons.mp linked).2.1⟩

/-- Where edges between its ids only stay or go down, there is no round. -/
theorem false_of_rank (round : IsRound edge walk) (rank : String → Nat)
    (down : ∀ one ∈ walk, ∀ other ∈ walk, edge one other → one = other ∨ rank other < rank one) : False := by
  obtain ⟨start, inner, rfl, ⟨other, inside, apart⟩, linked⟩ := round
  let Below (one other : String) : Prop := one = other ∨ rank other < rank one
  have trans : Trans Below Below Below := ⟨by
    rintro one two three (rfl | first) (rfl | second)
    · exact .inl rfl
    · exact .inr second
    · exact .inr first
    · exact .inr (second.trans first)⟩
  have chain : (start :: (inner ++ [start])).IsChain Below :=
    linked.imp_of_mem_imp fun one two first second => down one first two second
  obtain ⟨fromStart, rest⟩ := List.pairwise_cons.mp chain.pairwise
  have forth := fromStart other (List.mem_append_left _ inside)
  have back := (List.pairwise_append.mp rest).2.2 other inside start (List.mem_singleton.mpr rfl)
  have forth := forth.resolve_left apart.symm
  have back := back.resolve_left apart
  omega

end IsRound

/-! ### Closing edges -/

/-- A search has gone on and closed circles by different edges. Each of them is one of some edges from ids
that it had come to before, or leads on from an id that it has come to since. -/
structure Closes (own : List (List String)) (before after : Search) : Prop where
  grown : before.visited ⊆ after.visited
  circles : ∃ more, after.circles = before.circles ++ more ∧ (more.map closing).Nodup ∧
    ∀ edge ∈ more.map closing,
      edge ∈ own ∨ ∃ id ∈ edge.head?, id ∉ before.visited ∧ id ∈ after.visited

namespace Closes

variable {own others : List (List String)} {before middle : Search}

theorem refl (own : List (List String)) (search : Search) : Closes own search search :=
  ⟨List.Subset.refl _, [], by simp⟩

theorem mono (closes : Closes own before after) (wider : own ⊆ others) : Closes others before after := by
  obtain ⟨more, grown, distinct, origin⟩ := closes.circles
  refine ⟨closes.grown, more, grown, distinct, fun edge listed => ?_⟩
  exact (origin edge listed).imp_left fun mine => wider mine

/-- A search that goes on with other edges closes other circles. -/
theorem trans (first : Closes own before middle) (second : Closes others middle after)
    (disjoint : own.Disjoint others) (known : ∀ edge ∈ own ++ others, ∀ id ∈ edge.head?, id ∈ before.visited) :
    Closes (own ++ others) before after := by
  obtain ⟨more, grown, distinct, origin⟩ := first.circles
  obtain ⟨rest, grownRest, distinctRest, originRest⟩ := second.circles
  have circles : after.circles = before.circles ++ (more ++ rest) := by
    rw [grownRest, grown, List.append_assoc]
  refine ⟨List.Subset.trans first.grown second.grown, more ++ rest, circles, ?_, ?_⟩
  · rw [List.map_append]
    refine distinct.append distinctRest fun edge early late => ?_
    rcases origin edge early with mine | ⟨id, heads, fresh, met⟩
    · rcases originRest edge late with theirs | ⟨id, heads, fresh, _⟩
      · exact disjoint mine theirs
      · exact fresh (first.grown (known edge (List.mem_append_left _ mine) id heads))
    · rcases originRest edge late with theirs | ⟨other, headsOther, freshOther, _⟩
      · exact fresh (known edge (List.mem_append_right _ theirs) id heads)
      · obtain rfl := Option.some.inj ((Option.mem_def.mp heads).symm.trans headsOther)
        exact freshOther met
  · intro edge listed
    rw [List.map_append] at listed
    rcases List.mem_append.mp listed with early | late
    · rcases origin edge early with mine | ⟨id, heads, fresh, met⟩
      · exact .inl (List.mem_append_left _ mine)
      · exact .inr ⟨id, heads, fresh, second.grown met⟩
    · rcases originRest edge late with theirs | ⟨id, heads, fresh, met⟩
      · exact .inl (List.mem_append_right _ theirs)
      · exact .inr ⟨id, heads, fun early => fresh (first.grown early), met⟩

/-- Edges from an id that the search comes to now are new. -/
theorem enter (fresh : id ∉ search.visited)
    (closes : Closes (ids.map fun other => [id, other]) { search with visited := id :: search.visited } after) :
    Closes [] search after := by
  obtain ⟨more, grown, distinct, origin⟩ := closes.circles
  refine ⟨fun other met => closes.grown (List.mem_cons_of_mem _ met), more, grown, distinct, ?_⟩
  intro edge listed
  right
  rcases origin edge listed with mine | ⟨other, heads, unmet, met⟩
  · obtain ⟨other, _, rfl⟩ := List.mem_map.mp mine
    exact ⟨id, rfl, fresh, closes.grown List.mem_cons_self⟩
  · exact ⟨other, heads, fun early => unmet (List.mem_cons_of_mem _ early), met⟩

/-- A circle is recorded for an edge back to the path. -/
theorem record (trail : Trail (Linked calls) path caller) (on : id ∈ path) :
    Closes [[caller, id]] search
      { search with circles := search.circles ++ [path.dropWhile (· != id) ++ [id]] } := by
  refine ⟨List.Subset.refl _, [path.dropWhile (· != id) ++ [id]], rfl, ?_, ?_⟩
  · rw [List.map_singleton]
    exact List.nodup_singleton _
  · rw [List.map_singleton, trail.closing_eq on]
    exact fun edge listed => .inl listed

theorem head_mem (started : caller ∈ search.visited) (ids : List String) :
    ∀ edge ∈ ids.map fun id => [caller, id], ∀ id ∈ edge.head?, id ∈ search.visited := by
  intro edge listed id heads
  obtain ⟨other, _, rfl⟩ := List.mem_map.mp listed
  obtain rfl := Option.some.inj heads
  exact started

/-- The search from the end of a trail closes circles by different edges, if no id leads twice to one. -/
theorem explored (once : ∀ id, (neighbours calls id).Nodup) (trail : Trail (Linked calls) path caller)
    (started : caller ∈ search.visited) (distinct : ids.Nodup) (linked : ∀ id ∈ ids, Linked calls caller id) :
    Closes (ids.map fun id => [caller, id]) search (explore calls path pool search ids) := by
  fun_induction explore calls path pool search ids generalizing caller with
  | case1 => exact .refl _ _
  | case2 path pool search id rest onPath circle =>
    -- the circle is closed by an edge from the caller, as no other one is
    rename_i ih
    obtain ⟨absent, distinct⟩ := List.nodup_cons.mp distinct
    obtain ⟨here, later⟩ := List.forall_mem_cons.mp linked
    have first : Closes [[caller, id]] search { search with circles := search.circles ++ [circle] } :=
      record trail (List.contains_iff_mem.mp onPath)
    refine first.trans (ih trail started distinct later) ?_ (head_mem started (id :: rest))
    exact List.singleton_disjoint.mpr (by simpa using absent)
  | case3 path pool search id rest offPath visited ih =>
    have after := ih trail started (List.nodup_cons.mp distinct).2 (List.forall_mem_cons.mp linked).2
    exact after.mono (List.subset_cons_self _ _)
  | case4 path pool search id rest offPath fresh member below ihBelow =>
    -- circles below are closed by edges from ids that were not met before
    rename_i ihRest
    obtain ⟨absent, distinct⟩ := List.nodup_cons.mp distinct
    obtain ⟨here, later⟩ := List.forall_mem_cons.mp linked
    have unvisited : id ∉ search.visited := by simpa using fresh
    have inner := enter unvisited <|
      ihBelow (trail.extend here (by simpa using offPath)) List.mem_cons_self (once id) fun _ linked => linked
    have outer := ihRest trail (inner.grown started) distinct later
    have after := inner.trans outer (List.disjoint_nil_left _) (head_mem started rest)
    exact after.mono (List.subset_cons_self _ _)
  | case5 path pool search id rest offPath fresh outside ih =>
    have after := ih trail started (List.nodup_cons.mp distinct).2 (List.forall_mem_cons.mp linked).2
    exact after.mono (List.subset_cons_self _ _)

/-- The search from all ids closes circles by different edges. -/
theorem exploredAll (once : ∀ id, (neighbours calls id).Nodup) (roots : List String) :
    Closes [] search (exploreAll calls ids search roots) := by
  induction roots generalizing search with
  | nil => exact .refl _ _
  | cons root rest ih =>
    rw [exploreAll]
    split
    · exact ih
    · next fresh =>
      let entered : Search := { search with visited := root :: search.visited }
      have inner : Closes _ entered
          (explore calls [root] (otherIds root ids) entered (neighbours calls root)) :=
        explored once (.single root) List.mem_cons_self (once root) fun _ linked => linked
      exact (enter (by simpa using fresh) inner).trans ih (List.disjoint_nil_left _) (by simp)

end Closes

/-! ### The circles of an audit -/

theorem audit_searched (calls : List Call) :
    ∃ finished,
      Searched calls [] finished (exploreAll calls (calls.map Call.id) ⟨[], []⟩ (calls.map Call.id)) ∧
      calls.map Call.id ⊆ finished := by
  have start : Searched calls [] [] ⟨[], []⟩ := ⟨by simp, by simp, .nil calls [], by simp⟩
  exact start.exploredAll (List.Subset.refl _)

/-- A circle of the audit goes through several calls. -/
theorem IsCircle.several {circle : List String} (isCircle : IsCircle (Linked calls) id circle) :
    ∃ one ∈ circle, ∃ other ∈ circle, one ≠ other := by
  obtain ⟨inner, rfl, _, linked⟩ := isCircle
  cases inner with
  | nil => exact absurd rfl (linked_iff.mp (List.isChain_cons_cons.mp linked).1).2.1
  | cons other inner =>
    have apart := (linked_iff.mp (List.isChain_cons_cons.mp linked).1).2.1
    exact ⟨id, by simp, other, by simp, apart.symm⟩

theorem IsCircle.mono {edge wider : String → String → Prop} {circle : List String}
    (isCircle : IsCircle edge id circle) (weaker : ∀ one other, edge one other → wider one other) :
    IsCircle wider id circle := by
  obtain ⟨inner, split, distinct, linked⟩ := isCircle
  exact ⟨inner, split, distinct, linked.imp weaker⟩

/-- No round is left without the closing edges: every other edge of it leads to an id that the search has
finished before, or stays where it is. -/
theorem Searched.no_round (searched : Searched calls [] finished search) (all : calls.map Call.id ⊆ finished)
    (walk : List String) : ¬IsRound (fun one other =>
      DependsOn calls one other ∧ [one, other] ∉ search.circles.map closing) walk := by
  intro round
  refine round.false_of_rank (finished.idxOf ·) fun one _ other on edge => ?_
  by_cases same : one = other
  · exact .inl same
  · obtain ⟨next, ⟨call, member, rfl, _⟩, _⟩ := round.exists_next on
    obtain ⟨owner, inside, rfl, _⟩ := edge.1
    have linked := linked_iff.mpr ⟨edge.1, Ne.symm same, List.mem_map_of_mem member⟩
    exact .inr (searched.settled.idxOf_lt (all (List.mem_map_of_mem inside)) linked edge.2)

theorem neighbours_nodup (distinct : (calls.map Call.id).Nodup) (once : ∀ call ∈ calls, call.dependsOn.Nodup)
    (id : String) : (neighbours calls id).Nodup := by
  by_cases known : id ∈ calls.map Call.id
  · obtain ⟨call, member, rfl⟩ := List.mem_map.mp known
    rw [neighbours_eq distinct member]
    exact (once call member).filter _
  · have none : neighbours calls id = [] := by
      refine List.eq_nil_iff_forall_not_mem.mpr fun other linked => known ?_
      obtain ⟨call, member, same, _⟩ := (linked_iff.mp linked).1
      exact same ▸ List.mem_map_of_mem member
    rw [none]
    exact List.nodup_nil

/-- Every circle of an audit is a circle of dependencies between calls of the list, and goes through several
of them. Every round of dependencies uses the closing edge of one of them, so that none is left without
those edges. Where ids are distinct, and dependencies as well, as those of a recorded call are, no two
circles are closed by one edge. -/
theorem audit_circles_close_rounds (calls : List Call) :
    (∀ circle ∈ (audit calls).circles,
      (∃ id, IsCircle (fun one other => DependsOn calls one other ∧ one ∈ calls.map Call.id ∧
        other ∈ calls.map Call.id) id circle) ∧ ∃ one ∈ circle, ∃ other ∈ circle, one ≠ other) ∧
    (∀ walk, IsRound (DependsOn calls) walk → ∃ circle ∈ (audit calls).circles, closing circle <:+: walk) ∧
    (∀ walk, ¬IsRound (fun one other => DependsOn calls one other ∧
      [one, other] ∉ (audit calls).circles.map closing) walk) ∧
    ((calls.map Call.id).Nodup → (∀ call ∈ calls, call.dependsOn.Nodup) →
      ((audit calls).circles.map closing).Nodup) := by
  obtain ⟨finished, searched, all⟩ := audit_searched calls
  have unround := searched.no_round all
  refine ⟨fun circle listed => ?_, fun walk round => ?_, unround, fun distinct once => ?_⟩
  · obtain ⟨id, isCircle⟩ := searched.sound circle listed
    refine ⟨⟨id, isCircle.mono fun one other linked => ?_⟩, isCircle.several⟩
    obtain ⟨edge, _, known⟩ := linked_iff.mp linked
    have ⟨call, member, same, _⟩ := edge
    exact ⟨edge, same ▸ List.mem_map_of_mem member, known⟩
  · by_contra unused
    obtain ⟨id, inner, split, through, linked⟩ := round
    refine unround walk ⟨id, inner, split, through, ?_⟩
    refine List.isChain_iff_forall_rel_of_append_cons_cons.mpr fun one other front back here => ?_
    refine ⟨List.isChain_iff_forall_rel_of_append_cons_cons.mp linked here, fun closed => ?_⟩
    obtain ⟨circle, listed, closes⟩ := List.mem_map.mp closed
    exact unused ⟨circle, listed, front, back, by rw [closes, here]; simp⟩
  · have closes : Closes [] ⟨[], []⟩ (exploreAll calls (calls.map Call.id) ⟨[], []⟩ (calls.map Call.id)) :=
      .exploredAll (neighbours_nodup distinct once) _
    obtain ⟨more, found, distinctMore, _⟩ := closes.circles
    rw [audit, found]
    exact distinctMore

/-- Three calls in two circles, which are closed by different edges. -/
theorem audit_circles_close_rounds_of_three :
    let one : Call := ⟨"a", .null, .null, .null, ["b"], "", .null⟩
    let two : Call := ⟨"b", .null, .null, .null, ["a", "c"], "", .null⟩
    let three : Call := ⟨"c", .null, .null, .null, ["b"], "", .null⟩
    let calls := [one, two, three]
    (audit calls).circles = [["a", "b", "a"], ["b", "c", "b"]] ∧
      IsRound (DependsOn calls) ["b", "c", "b"] ∧
      (∃ circle ∈ (audit calls).circles, closing circle <:+: ["b", "c", "b"]) ∧
      ((audit calls).circles.map closing).Nodup := by
  intro one two three calls
  have fromOne : neighbours calls "a" = ["b"] := by decide
  have fromTwo : neighbours calls "b" = ["a", "c"] := by decide
  have fromThree : neighbours calls "c" = ["b"] := by decide
  have found : (audit calls).circles = [["a", "b", "a"], ["b", "c", "b"]] := by
    have ids : calls.map Call.id = ["a", "b", "c"] := rfl
    rw [audit, ids]
    simp [exploreAll, explore, fromOne, fromTwo, fromThree, otherIds, List.dropWhile]
  have forth : DependsOn calls "b" "c" := ⟨two, by simp [calls], rfl, by simp [two]⟩
  have back : DependsOn calls "c" "b" := ⟨three, by simp [calls], rfl, by simp [three]⟩
  have round : IsRound (DependsOn calls) ["b", "c", "b"] :=
    ⟨"b", ["c"], rfl, ⟨"c", by simp, by decide⟩, by simp [forth, back]⟩
  obtain ⟨_, uses, _, different⟩ := audit_circles_close_rounds calls
  exact ⟨found, round, uses _ round, different (by decide) (by simp [calls, one, two, three])⟩

end Scaffold.Call
