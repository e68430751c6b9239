import Scaffold.Proofs.Pattern.Matching

/-!
What a search finds. A pattern that fits somewhere in a text is found there or before; whether it fits
does not depend on what follows; and the characters that it names are used up by each match.
-/

namespace Scaffold.Pattern

variable {α : Type} {holds : Char → Bool} {pattern : Pattern} {start finish : State}
  {text used rest : List Char} {captures captures' : List (String × List Char)} {found : Match}

/-! ### A pattern that fits is found -/

theorem longest_isSome {next : List Char → Option α} {run : List Char}
    (all : ∀ c ∈ run, holds c = true) (reached : (next rest).isSome) :
    (longest holds next (run ++ rest)).isSome := by
  induction run with
  | nil =>
    cases rest with
    | nil => exact reached
    | cons c rest =>
      rw [List.nil_append, longest]
      split
      · rw [Option.isSome_or, reached, Bool.or_true]
      · exact reached
  | cons c run ih =>
    obtain ⟨here, all⟩ := List.forall_mem_cons.mp all
    rw [List.cons_append, longest, if_pos here, Option.isSome_or, ih all, Bool.true_or]

theorem shortestRun_isSome {next : List Char → Option α} {run : List Char}
    (all : ∀ c ∈ run, holds c = true) (reached : (next rest).isSome) :
    (shortestRun holds next (run ++ rest)).isSome := by
  induction run with
  | nil =>
    cases rest with
    | nil => exact reached
    | cons c rest => rw [List.nil_append, shortestRun, Option.isSome_or, reached, Bool.true_or]
  | cons c run ih =>
    obtain ⟨here, all⟩ := List.forall_mem_cons.mp all
    rw [List.cons_append, shortestRun, Option.isSome_or, if_pos here, ih all, Bool.or_true]

theorem single_isSome {next : List Char → Option α} {c : Char} (here : holds c = true)
    (reached : (next rest).isSome) : (single holds next (c :: rest)).isSome := by
  rwa [single, if_pos here]

/-- Every way is tried until one goes on to the end. -/
theorem run_isSome {next : State → Option α} (leads : pattern.Leads start finish)
    (reached : (next finish).isSome) : (pattern.run start next).isSome := by
  induction pattern generalizing start finish next with
  | empty => rwa [← leads]
  | char c =>
    obtain ⟨rest, captures⟩ := start
    obtain ⟨rfl, rfl⟩ := leads
    exact single_isSome (beq_self_eq_true c) reached
  | one kind =>
    obtain ⟨rest, captures⟩ := start
    obtain ⟨c, here, rfl, rfl⟩ := leads
    exact single_isSome here reached
  | many kind =>
    obtain ⟨rest, captures⟩ := start
    obtain ⟨run, filled, all, rfl, rfl⟩ := leads
    obtain ⟨c, run, rfl⟩ := List.exists_cons_of_ne_nil filled
    obtain ⟨here, all⟩ := List.forall_mem_cons.mp all
    exact single_isSome here (longest_isSome all reached)
  | any kind =>
    obtain ⟨rest, captures⟩ := start
    obtain ⟨run, all, rfl, rfl⟩ := leads
    exact longest_isSome all reached
  | few kind =>
    obtain ⟨rest, captures⟩ := start
    obtain ⟨run, all, rfl, rfl⟩ := leads
    exact shortestRun_isSome all reached
  | optional body ih =>
    change ((body.run start next).or (next start)).isSome
    rw [Option.isSome_or, Bool.or_eq_true]
    rcases leads with inside | rfl
    · exact .inl (ih inside reached)
    · exact .inr reached
  | append first second ih ih' =>
    obtain ⟨middle, one, other⟩ := leads
    exact ih one (ih' other reached)
  | either first second ih ih' =>
    change ((first.run start next).or (second.run start next)).isSome
    rw [Option.isSome_or, Bool.or_eq_true]
    exact leads.imp (ih · reached) (ih' · reached)
  | group body ih => exact ih leads reached
  | capture name body ih =>
    obtain ⟨rest, captures⟩ := finish
    obtain ⟨after, inside, rfl, rfl⟩ := leads
    exact ih inside reached
  | again name =>
    obtain ⟨rest, captures⟩ := start
    obtain ⟨text, kept, rfl, rfl⟩ := leads
    have split := List.isPrefixOf?_eq_some_iff_append_eq.mpr (Eq.refl (text ++ finish.rest))
    simpa only [run, kept, split] using reached

/-- A text in which a match begins somewhere has a first match. -/
theorem search?_isSome_of_here {front : List Char} (here : (pattern.matchHere? false text).isSome) :
    (pattern.search? (front ++ text)).isSome := by
  induction front with
  | nil =>
    cases text with
    | nil => exact here
    | cons c text => rw [List.nil_append, search?, Option.isSome_or, here, Bool.true_or]
  | cons c front ih => rw [List.cons_append, search?, Option.isSome_or, ih, Bool.or_true]

/-- A pattern that fits at some place of a text is found in it. -/
theorem search?_isSome {front : List Char} (leads : pattern.Leads ⟨text, []⟩ finish) :
    (pattern.search? (front ++ text)).isSome :=
  search?_isSome_of_here (run_isSome leads rfl)

theorem search?_place (searched : pattern.search? text = some found) :
    ∃ front start, text = front ++ start ∧
      pattern.Leads ⟨start, []⟩ ⟨found.rest, found.captures⟩ := by
  induction text with
  | nil => exact ⟨[], [], rfl, matchHere?_eq_some searched⟩
  | cons c text ih =>
    rcases Option.or_eq_some_iff.mp searched with here | ⟨_, later⟩
    · exact ⟨[], c :: text, rfl, matchHere?_eq_some here⟩
    · obtain ⟨front, start, rfl, leads⟩ := ih later
      exact ⟨c :: front, start, rfl, leads⟩

/-! ### Whole texts -/

/-- A pattern matches a whole text. -/
def fits (pattern : Pattern) (text : List Char) : Bool :=
  (pattern.run ⟨text, []⟩ fun state => if state.rest.isEmpty then some () else none).isSome

theorem fits_iff : pattern.fits text = true ↔ ∃ captures, pattern.Leads ⟨text, []⟩ ⟨[], captures⟩ := by
  constructor
  · intro fitting
    obtain ⟨_, reached⟩ := Option.isSome_iff_exists.mp fitting
    obtain ⟨⟨rest, captures⟩, leads, ended⟩ := run_eq_some reached
    cases rest with
    | nil => exact ⟨captures, leads⟩
    | cons c rest => cases ended
  · rintro ⟨captures, leads⟩
    exact run_isSome leads rfl

/-- Whether a pattern fits does not depend on what follows. -/
theorem Leads.frame (leads : pattern.Leads start finish) (split : start.rest = used ++ finish.rest)
    (rest : List Char) :
    pattern.Leads ⟨used ++ rest, start.captures⟩ ⟨rest, finish.captures⟩ := by
  induction pattern generalizing start finish used rest with
  | empty | char | one | many | any | few =>
    obtain ⟨run, takes, begins, same⟩ := (leads_iff_takes rfl).mp leads
    obtain rfl := List.append_cancel_right (split.symm.trans begins)
    exact (leads_iff_takes rfl).mpr ⟨used, takes, rfl, same⟩
  | optional body ih =>
    rcases leads with inside | rfl
    · exact .inl (ih inside split rest)
    · obtain rfl := List.self_eq_append_left.mp split
      exact .inr rfl
  | append first second ih ih' =>
    obtain ⟨middle, one, other⟩ := leads
    obtain ⟨front, begins⟩ := one.used
    obtain ⟨back, ends⟩ := other.used
    have parts := begins.trans (congrArg (front ++ ·) ends)
    rw [← List.append_assoc] at parts
    obtain rfl := List.append_cancel_right (split.symm.trans parts)
    rw [List.append_assoc]
    exact ⟨_, ih one begins (back ++ rest), ih' other ends rest⟩
  | either first second ih ih' => exact leads.imp (ih · split rest) (ih' · split rest)
  | group body ih => exact ih leads split rest
  | capture name body ih =>
    obtain ⟨after, inside, same, kept⟩ := leads
    rw [same] at split
    refine ⟨⟨rest, after.captures⟩, ih inside split rest, rfl, ?_⟩
    rw [kept, split, between_append, between_append]
  | again name =>
    obtain ⟨text, kept, begins, same⟩ := leads
    obtain rfl := List.append_cancel_right (split.symm.trans begins)
    exact ⟨used, kept, rfl, same⟩

/-! ### Characters that are used up -/

/-- How often a match uses up a character, at least. -/
def least (c : Char) : Pattern → Nat
  | char d => if d = c then 1 else 0
  | append first second => first.least c + second.least c
  | either first second => min (first.least c) (second.least c)
  | group body => body.least c
  | capture _ body => body.least c
  | empty | one _ | many _ | any _ | few _ | optional _ | again _ => 0

/-- All matches use up a character equally often. -/
def isEven (c : Char) : Pattern → Bool
  | empty | char _ => true
  | one kind | many kind | any kind | few kind => !kind.holds c
  | optional body => body.isEven c && body.least c == 0
  | append first second => first.isEven c && second.isEven c
  | either first second => first.isEven c && second.isEven c && first.least c == second.least c
  | group body => body.isEven c
  | capture _ body => body.isEven c
  | again _ => false

theorem Leads.least_le (leads : pattern.Leads start finish) (c : Char) :
    finish.rest.count c + pattern.least c ≤ start.rest.count c := by
  induction pattern generalizing start finish with
  | char d =>
    obtain ⟨begins, _⟩ := leads
    rw [begins, List.count_cons, least]
    simp
  | append first second ih ih' =>
    obtain ⟨middle, one, other⟩ := leads
    have early := ih one
    have late := ih' other
    rw [least]
    omega
  | either first second ih ih' =>
    rw [least]
    rcases leads with one | other
    · have := ih one
      omega
    · have := ih' other
      omega
  | group body ih => exact ih leads
  | capture name body ih =>
    obtain ⟨after, inside, same, _⟩ := leads
    rw [same]
    exact ih inside
  | empty | one | many | any | few | optional | again =>
    obtain ⟨used, begins⟩ := leads.used
    rw [begins, List.count_append, least]
    omega

/-- A pattern without parts takes up a character equally often when it names it or does not allow it. -/
theorem Takes.count_eq {run : List Char} {c : Char} (takes : pattern.Takes run)
    (even : pattern.isEven c = true) : run.count c = pattern.least c := by
  have absent {kind : CharClass} (other : (!kind.holds c) = true)
      (all : ∀ d ∈ run, kind.holds d = true) : run.count c = 0 := by
    refine List.count_eq_zero.mpr fun member => ?_
    rw [all c member] at other
    cases other
  cases pattern with
  | empty =>
    obtain rfl := takes
    rfl
  | char d =>
    obtain rfl := takes
    rw [List.count_singleton, least]
    simp
  | one kind =>
    obtain ⟨d, here, rfl⟩ := takes
    exact absent even (by simpa using here)
  | many kind => exact absent even takes.2
  | any kind | few kind => exact absent even takes
  | _ => cases takes

theorem Leads.count_eq (leads : pattern.Leads start finish) {c : Char}
    (even : pattern.isEven c = true) :
    start.rest.count c = finish.rest.count c + pattern.least c := by
  induction pattern generalizing start finish with
  | empty | char | one | many | any | few =>
    obtain ⟨run, takes, begins, _⟩ := (leads_iff_takes rfl).mp leads
    rw [begins, List.count_append, takes.count_eq even, Nat.add_comm]
  | optional body ih =>
    obtain ⟨even, none⟩ := Bool.and_eq_true_iff.mp even
    rw [least]
    rcases leads with inside | rfl
    · rw [ih inside even, eq_of_beq none]
    · rfl
  | append first second ih ih' =>
    obtain ⟨even, even'⟩ := Bool.and_eq_true_iff.mp even
    obtain ⟨middle, one, other⟩ := leads
    rw [ih one even, ih' other even', least]
    omega
  | either first second ih ih' =>
    obtain ⟨both, same⟩ := Bool.and_eq_true_iff.mp even
    obtain ⟨even, even'⟩ := Bool.and_eq_true_iff.mp both
    have same := eq_of_beq same
    rw [least]
    rcases leads with one | other
    · rw [ih one even]
      omega
    · rw [ih' other even']
      omega
  | group body ih => exact ih leads even
  | capture name body ih =>
    obtain ⟨after, inside, same, _⟩ := leads
    rw [same]
    exact ih inside even
  | again => cases even

theorem isEven_sequence {c : Char} {parts : List Pattern} :
    (sequence parts).isEven c = parts.all (isEven c) := by
  induction parts with
  | nil => rfl
  | cons part rest ih =>
    rw [List.all_cons, ← ih]
    rfl

/-- What a pattern matches ends in a character. -/
def EndsIn (c : Char) (pattern : Pattern) : Prop :=
  ∀ ⦃start finish⦄, pattern.Leads start finish → ∃ front, start.rest = front ++ c :: finish.rest

theorem endsIn_sequence (parts : List Pattern) (c : Char) :
    (sequence (parts ++ [.char c])).EndsIn c := by
  intro start finish leads
  obtain ⟨middle, leads, after, ⟨last, _⟩, same⟩ := leads_sequence_append.mp leads
  obtain ⟨used, begins⟩ := leads.used
  obtain rfl : finish = after := same
  exact ⟨used, by rw [begins, last]⟩

end Scaffold.Pattern
