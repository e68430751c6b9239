import Scaffold.Proofs.Pattern.Matching

/-!
What every match captures. A name that is captured in each way through a pattern is captured in each
match of it.
-/

namespace Scaffold.Pattern

variable {pattern : Pattern} {start finish : State} {name : String} {text : List Char} {found : Match}

/-- The names that are captured in every way through a pattern. -/
def certainNames : Pattern → List String
  | append first second => first.certainNames ++ second.certainNames
  | group body => body.certainNames
  | capture name body => name :: body.certainNames
  | _ => []

theorem Leads.grows (leads : pattern.Leads start finish) :
    ∃ added, finish.captures = added ++ start.captures := by
  induction pattern generalizing start finish with
  | empty | char | one | many | any | few =>
    obtain ⟨_, _, _, same⟩ := (leads_iff_takes rfl).mp leads
    exact ⟨[], same⟩
  | optional body ih =>
    rcases leads with leads | same
    · exact ih leads
    · exact ⟨[], by rw [same, List.nil_append]⟩
  | append first second ih ih' =>
    obtain ⟨middle, leads, leads'⟩ := leads
    obtain ⟨added, same⟩ := ih leads
    obtain ⟨more, same'⟩ := ih' leads'
    exact ⟨more ++ added, by rw [same', same, List.append_assoc]⟩
  | either first second ih ih' => exact leads.elim ih ih'
  | group body ih => exact ih leads
  | capture name body ih =>
    obtain ⟨after, leads, _, same⟩ := leads
    obtain ⟨added, grown⟩ := ih leads
    exact ⟨_ :: added, by rw [same, grown]; rfl⟩
  | again name =>
    obtain ⟨_, _, _, same⟩ := leads
    exact ⟨[], same⟩

theorem Leads.captures_certain (leads : pattern.Leads start finish) (listed : name ∈ pattern.certainNames) :
    name ∈ finish.captures.map Prod.fst := by
  induction pattern generalizing start finish with
  | append first second ih ih' =>
    obtain ⟨middle, leads, leads'⟩ := leads
    rcases List.mem_append.mp listed with early | late
    · obtain ⟨added, same⟩ := leads'.grows
      rw [same, List.map_append]
      exact List.mem_append_right _ (ih leads early)
    · exact ih' leads' late
  | group body ih => exact ih leads listed
  | capture other body ih =>
    obtain ⟨after, leads, _, same⟩ := leads
    rw [same, List.map_cons]
    rcases List.mem_cons.mp listed with rfl | inside
    · exact List.mem_cons_self
    · exact List.mem_cons_of_mem _ (ih leads inside)
  | empty | char | one | many | any | few | optional | either | again => cases listed

theorem exists_lookup {captures : List (String × List Char)} (listed : name ∈ captures.map Prod.fst) :
    ∃ text, captures.lookup name = some text := by
  induction captures with
  | nil => cases listed
  | cons entry rest ih =>
    rw [List.lookup_cons]
    cases same : name == entry.1 with
    | true => exact ⟨entry.2, rfl⟩
    | false => exact ih ((List.mem_cons.mp listed).resolve_left (beq_eq_false_iff_ne.mp same))

theorem capture?_of_leads (leads : pattern.Leads start ⟨found.rest, found.captures⟩)
    (listed : name ∈ pattern.certainNames) : ∃ part, found.capture? name = some part :=
  exists_lookup (leads.captures_certain listed)

/-- The first match in a text is one that the pattern leads to. -/
theorem search?_leads (searched : pattern.search? text = some found) :
    ∃ start, pattern.Leads start ⟨found.rest, found.captures⟩ := by
  induction text with
  | nil => exact ⟨_, matchHere?_eq_some searched⟩
  | cons c text ih =>
    rcases Option.or_eq_some_iff.mp searched with here | ⟨_, later⟩
    · exact ⟨_, matchHere?_eq_some here⟩
    · exact ih later

/-! ### Sequences -/

theorem certainNames_sequence (parts : List Pattern) :
    (sequence parts).certainNames = parts.flatMap certainNames := by
  induction parts with
  | nil => rfl
  | cons part rest ih =>
    rw [List.flatMap_cons, ← ih]
    rfl

theorem names_sequence (parts : List Pattern) : (sequence parts).names = parts.flatMap names := by
  induction parts with
  | nil => rfl
  | cons part rest ih =>
    rw [List.flatMap_cons, ← ih]
    rfl

end Scaffold.Pattern
