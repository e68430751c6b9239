import Scaffold.Pattern.Match
import Scaffold.Proofs.Text.Scan

/-!
What a pattern matches. A match that is found is one of the ways in which the parts of the pattern fit
the text; and the way that is tried first is the one that is found whenever the rest goes on from it.
-/

namespace Scaffold.Pattern

open Text

variable {α : Type} {holds : Char → Bool}

/-! ### Runs of a class -/

theorem longest_eq_some {next : List Char → Option α} {text : List Char} {result : α}
    (found : longest holds next text = some result) :
    ∃ run rest, text = run ++ rest ∧ (∀ c ∈ run, holds c = true) ∧ next rest = some result := by
  induction text with
  | nil => exact ⟨[], [], rfl, by simp, found⟩
  | cons c text ih =>
    rw [longest] at found
    split at found
    · next here =>
      rcases Option.or_eq_some_iff.mp found with more | ⟨_, stopped⟩
      · obtain ⟨run, rest, rfl, all, reached⟩ := ih more
        exact ⟨c :: run, rest, rfl, List.forall_mem_cons.mpr ⟨here, all⟩, reached⟩
      · exact ⟨[], c :: text, rfl, by simp, stopped⟩
    · exact ⟨[], c :: text, rfl, by simp, found⟩

theorem shortestRun_eq_some {next : List Char → Option α} {text : List Char} {result : α}
    (found : shortestRun holds next text = some result) :
    ∃ run rest, text = run ++ rest ∧ (∀ c ∈ run, holds c = true) ∧ next rest = some result := by
  induction text with
  | nil => exact ⟨[], [], rfl, by simp, found⟩
  | cons c text ih =>
    rw [shortestRun] at found
    rcases Option.or_eq_some_iff.mp found with stopped | ⟨_, more⟩
    · exact ⟨[], c :: text, rfl, by simp, stopped⟩
    · split at more
      · next here =>
        obtain ⟨run, rest, rfl, all, reached⟩ := ih more
        exact ⟨c :: run, rest, rfl, List.forall_mem_cons.mpr ⟨here, all⟩, reached⟩
      · cases more

theorem single_eq_some {next : List Char → Option α} {text : List Char} {result : α} :
    single holds next text = some result ↔
      ∃ c rest, text = c :: rest ∧ holds c = true ∧ next rest = some result := by
  cases text with
  | nil => simp [single]
  | cons c text =>
    rw [single]
    constructor
    · intro found
      split at found
      · next here => exact ⟨c, text, rfl, here, found⟩
      · cases found
    · rintro ⟨_, _, ⟨⟩, here, reached⟩
      rw [if_pos here]
      exact reached

/-- A run that cannot be longer is tried first. -/
theorem longest_of_stopped {next : List Char → Option α} {run rest : List Char} {result : α}
    (all : ∀ c ∈ run, holds c = true) (stopped : ∀ c ∈ rest.head?, holds c = false)
    (reached : next rest = some result) : longest holds next (run ++ rest) = some result := by
  induction run with
  | nil =>
    cases rest with
    | nil => exact reached
    | cons c rest =>
      rw [List.nil_append, longest, stopped c rfl]
      exact reached
  | cons c run ih =>
    rw [List.forall_mem_cons] at all
    rw [List.cons_append, longest, if_pos all.1, ih all.2, Option.some_or]

theorem between_append (used rest : List Char) : between (used ++ rest) rest = used := by
  rw [between, List.length_append, Nat.add_sub_cancel, List.take_left]

/-! ### All ways -/

/-- A pattern fits the text between two states, and the second has what it captures there. -/
def Leads : Pattern → State → State → Prop
  | empty, start, finish => finish = start
  | char c, start, finish =>
    start.rest = c :: finish.rest ∧ finish.captures = start.captures
  | one kind, start, finish =>
    ∃ c, kind.holds c = true ∧ start.rest = c :: finish.rest ∧ finish.captures = start.captures
  | many kind, start, finish =>
    ∃ run ≠ [], (∀ c ∈ run, kind.holds c = true) ∧ start.rest = run ++ finish.rest ∧
      finish.captures = start.captures
  | any kind, start, finish =>
    ∃ run, (∀ c ∈ run, kind.holds c = true) ∧ start.rest = run ++ finish.rest ∧
      finish.captures = start.captures
  | few kind, start, finish =>
    ∃ run, (∀ c ∈ run, kind.holds c = true) ∧ start.rest = run ++ finish.rest ∧
      finish.captures = start.captures
  | optional body, start, finish => Leads body start finish ∨ finish = start
  | append first second, start, finish =>
    ∃ middle, Leads first start middle ∧ Leads second middle finish
  | either first second, start, finish => Leads first start finish ∨ Leads second start finish
  | group body, start, finish => Leads body start finish
  | capture name body, start, finish =>
    ∃ after, Leads body start after ∧ finish.rest = after.rest ∧
      finish.captures = (name, between start.rest after.rest) :: after.captures
  | again name, start, finish =>
    ∃ text, start.captures.lookup name = some text ∧ start.rest = text ++ finish.rest ∧
      finish.captures = start.captures

/-- A pattern has no parts and refers to no capture. -/
def isLeaf : Pattern → Bool
  | empty | char _ | one _ | many _ | any _ | few _ => true
  | _ => false

/-- The runs of characters that a pattern without parts takes up. -/
def Takes : Pattern → List Char → Prop
  | empty, run => run = []
  | char c, run => run = [c]
  | one kind, run => ∃ c, kind.holds c = true ∧ run = [c]
  | many kind, run => run ≠ [] ∧ ∀ c ∈ run, kind.holds c = true
  | any kind, run | few kind, run => ∀ c ∈ run, kind.holds c = true
  | _, _ => False

/-- A pattern without parts takes up a run of characters and captures nothing. -/
theorem leads_iff_takes {pattern : Pattern} (leaf : pattern.isLeaf = true) {start finish : State} :
    pattern.Leads start finish ↔ ∃ run, pattern.Takes run ∧ start.rest = run ++ finish.rest ∧
      finish.captures = start.captures := by
  cases pattern with
  | empty =>
    constructor
    · rintro rfl
      exact ⟨[], rfl, rfl, rfl⟩
    · obtain ⟨rest, captures⟩ := start
      obtain ⟨rest', captures'⟩ := finish
      rintro ⟨_, rfl, ⟨⟩, ⟨⟩⟩
      rfl
  | char c => simp only [Leads, Takes, exists_eq_left, List.singleton_append]
  | one kind =>
    constructor
    · rintro ⟨c, here, split⟩
      exact ⟨[c], ⟨c, here, rfl⟩, split⟩
    · rintro ⟨_, ⟨c, here, rfl⟩, split⟩
      exact ⟨c, here, split⟩
  | many kind => simp only [Leads, Takes, and_assoc]
  | any | few => rfl
  | _ => cases leaf

theorem run_eq_some {pattern : Pattern} {start : State} {next : State → Option α} {result : α}
    (found : pattern.run start next = some result) :
    ∃ finish, pattern.Leads start finish ∧ next finish = some result := by
  induction pattern generalizing start next with
  | empty => exact ⟨start, rfl, found⟩
  | char c =>
    obtain ⟨d, rest, split, same, reached⟩ := single_eq_some.mp found
    obtain rfl := eq_of_beq same
    exact ⟨{ start with rest }, ⟨split, rfl⟩, reached⟩
  | one kind =>
    obtain ⟨c, rest, split, here, reached⟩ := single_eq_some.mp found
    exact ⟨{ start with rest }, ⟨c, here, split, rfl⟩, reached⟩
  | many kind =>
    obtain ⟨c, rest, split, here, more⟩ := single_eq_some.mp found
    obtain ⟨run, after, rfl, all, reached⟩ := longest_eq_some more
    exact ⟨{ start with rest := after }, ⟨c :: run, List.cons_ne_nil _ _,
      List.forall_mem_cons.mpr ⟨here, all⟩, split, rfl⟩, reached⟩
  | any kind =>
    obtain ⟨run, rest, split, all, reached⟩ := longest_eq_some found
    exact ⟨{ start with rest }, ⟨run, all, split, rfl⟩, reached⟩
  | few kind =>
    obtain ⟨run, rest, split, all, reached⟩ := shortestRun_eq_some found
    exact ⟨{ start with rest }, ⟨run, all, split, rfl⟩, reached⟩
  | optional body ih =>
    rcases Option.or_eq_some_iff.mp found with inside | ⟨_, outside⟩
    · obtain ⟨finish, leads, reached⟩ := ih inside
      exact ⟨finish, .inl leads, reached⟩
    · exact ⟨start, .inr rfl, outside⟩
  | append first second ih ih' =>
    obtain ⟨middle, leads, found⟩ := ih found
    obtain ⟨finish, leads', reached⟩ := ih' found
    exact ⟨finish, ⟨middle, leads, leads'⟩, reached⟩
  | either first second ih ih' =>
    rcases Option.or_eq_some_iff.mp found with one | ⟨_, other⟩
    · obtain ⟨finish, leads, reached⟩ := ih one
      exact ⟨finish, .inl leads, reached⟩
    · obtain ⟨finish, leads, reached⟩ := ih' other
      exact ⟨finish, .inr leads, reached⟩
  | group body ih => exact ih found
  | capture name body ih =>
    obtain ⟨after, leads, reached⟩ := ih found
    exact ⟨⟨after.rest, (name, between start.rest after.rest) :: after.captures⟩,
      ⟨after, leads, rfl, rfl⟩, reached⟩
  | again name =>
    rw [run] at found
    split at found
    · next text kept =>
      split at found
      · next rest split =>
        have form := (List.isPrefixOf?_eq_some_iff_append_eq.mp split).symm
        exact ⟨{ start with rest }, ⟨text, kept, form, rfl⟩, found⟩
      · cases found
    · cases found

/-- A pattern leads from a state to one with less of the text. -/
theorem Leads.used {pattern : Pattern} {start finish : State} (leads : pattern.Leads start finish) :
    ∃ used, start.rest = used ++ finish.rest := by
  induction pattern generalizing start finish with
  | empty | char | one | many | any | few =>
    obtain ⟨run, _, split, _⟩ := (leads_iff_takes rfl).mp leads
    exact ⟨run, split⟩
  | optional body ih =>
    rcases leads with leads | same
    · exact ih leads
    · exact ⟨[], by rw [same, List.nil_append]⟩
  | append first second ih ih' =>
    obtain ⟨middle, leads, leads'⟩ := leads
    obtain ⟨used, split⟩ := ih leads
    obtain ⟨more, split'⟩ := ih' leads'
    exact ⟨used ++ more, by rw [split, split', List.append_assoc]⟩
  | either first second ih ih' => exact leads.elim ih ih'
  | group body ih => exact ih leads
  | capture name body ih =>
    obtain ⟨after, leads, same, _⟩ := leads
    obtain ⟨used, split⟩ := ih leads
    exact ⟨used, by rw [split, same]⟩
  | again name =>
    obtain ⟨text, _, split, _⟩ := leads
    exact ⟨text, split⟩

theorem leads_sequence_append {front back : List Pattern} {start finish : State} :
    (sequence (front ++ back)).Leads start finish ↔
      ∃ middle, (sequence front).Leads start middle ∧ (sequence back).Leads middle finish := by
  induction front generalizing start with
  | nil => simp [sequence, Leads]
  | cons part front ih =>
    change (∃ after, part.Leads start after ∧ (sequence (front ++ back)).Leads after finish) ↔
      ∃ middle, (∃ after, part.Leads start after ∧ (sequence front).Leads after middle) ∧
        (sequence back).Leads middle finish
    simp only [ih]
    constructor
    · rintro ⟨after, one, middle, front, back⟩
      exact ⟨middle, ⟨after, one, front⟩, back⟩
    · rintro ⟨middle, ⟨after, one, front⟩, back⟩
      exact ⟨after, one, middle, front, back⟩

theorem leads_literal {text : List Char} {start finish : State} :
    (literal text).Leads start finish ↔
      start.rest = text ++ finish.rest ∧ finish.captures = start.captures := by
  induction text generalizing start with
  | nil =>
    obtain ⟨rest, captures⟩ := start
    obtain ⟨rest', captures'⟩ := finish
    simp [literal, sequence, Leads, eq_comm]
  | cons c text ih =>
    change (∃ after : State, (start.rest = c :: after.rest ∧ after.captures = start.captures) ∧
      (literal text).Leads after finish) ↔ _
    simp only [ih]
    constructor
    · rintro ⟨after, ⟨split, same⟩, split', same'⟩
      exact ⟨by rw [split, split', List.cons_append], same'.trans same⟩
    · rintro ⟨split, same⟩
      exact ⟨⟨text ++ finish.rest, start.captures⟩, ⟨split, rfl⟩, rfl, same⟩

/-! ### The first way -/

/-- The first way in which a pattern goes on from a state leads to another one. -/
def First (pattern : Pattern) (start finish : State) : Prop :=
  ∀ ⦃α : Type⦄ (next : State → Option α) (result : α), next finish = some result →
    pattern.run start next = some result

/-- A pattern does not go on from a state in any way. -/
def Fails (pattern : Pattern) (start : State) : Prop :=
  ∀ ⦃α : Type⦄ (next : State → Option α), pattern.run start next = none

theorem fails_of_not_leads {pattern : Pattern} {start : State}
    (never : ∀ finish, ¬ pattern.Leads start finish) : pattern.Fails start := by
  intro α next
  by_contra found
  obtain ⟨result, found⟩ := Option.ne_none_iff_exists'.mp found
  obtain ⟨finish, leads, _⟩ := run_eq_some found
  exact never finish leads

theorem fails_literal {c d : Char} (other : c ≠ d) (text rest : List Char)
    (captures : List (String × List Char)) :
    (literal (c :: text)).Fails ⟨d :: rest, captures⟩ := by
  refine fails_of_not_leads fun finish leads => ?_
  obtain ⟨split, _⟩ := leads_literal.mp leads
  exact other (List.cons.inj split).1.symm

theorem run_sequence_append (front back : List Pattern) (start : State)
    (next : State → Option α) :
    (sequence (front ++ back)).run start next =
      (sequence front).run start fun middle => (sequence back).run middle next := by
  induction front generalizing start with
  | nil => rfl
  | cons part front ih =>
    change (part.run start fun after => (sequence (front ++ back)).run after next) =
      part.run start fun after =>
        (sequence front).run after fun middle => (sequence back).run middle next
    simp only [ih]

namespace First

variable {pattern first second : Pattern} {start middle finish : State} {rest : List Char}
  {captures : List (String × List Char)}

theorem empty (start : State) : Pattern.empty.First start start :=
  fun _ _ _ reached => reached

theorem char (c : Char) (rest : List Char) (captures : List (String × List Char)) :
    (Pattern.char c).First ⟨c :: rest, captures⟩ ⟨rest, captures⟩ := by
  intro α next result reached
  exact single_eq_some.mpr ⟨c, rest, rfl, beq_self_eq_true c, reached⟩

theorem one (kind : CharClass) {c : Char} (here : kind.holds c = true) (rest : List Char)
    (captures : List (String × List Char)) :
    (Pattern.one kind).First ⟨c :: rest, captures⟩ ⟨rest, captures⟩ := by
  intro α next result reached
  exact single_eq_some.mpr ⟨c, rest, rfl, here, reached⟩

theorem many (kind : CharClass) {run : List Char} (filled : run ≠ [])
    (all : ∀ c ∈ run, kind.holds c = true) (stopped : ∀ c ∈ rest.head?, kind.holds c = false)
    (captures : List (String × List Char)) :
    (Pattern.many kind).First ⟨run ++ rest, captures⟩ ⟨rest, captures⟩ := by
  intro α next result reached
  obtain ⟨c, run, rfl⟩ := List.exists_cons_of_ne_nil filled
  rw [List.forall_mem_cons] at all
  exact single_eq_some.mpr ⟨c, run ++ rest, rfl, all.1, longest_of_stopped all.2 stopped reached⟩

theorem any (kind : CharClass) {run : List Char} (all : ∀ c ∈ run, kind.holds c = true)
    (stopped : ∀ c ∈ rest.head?, kind.holds c = false) (captures : List (String × List Char)) :
    (Pattern.any kind).First ⟨run ++ rest, captures⟩ ⟨rest, captures⟩ :=
  fun _ _ _ reached => longest_of_stopped all stopped reached

theorem append (one : first.First start middle) (other : second.First middle finish) :
    (Pattern.append first second).First start finish :=
  fun _ next result reached => one _ result (other next result reached)

theorem optional (inside : pattern.First start finish) :
    (Pattern.optional pattern).First start finish := by
  intro α next result reached
  change (pattern.run start next).or (next start) = some result
  rw [inside next result reached, Option.some_or]

theorem optional_of_fails (fails : pattern.Fails start) :
    (Pattern.optional pattern).First start start := by
  intro α next result reached
  change (pattern.run start next).or (next start) = some result
  rw [fails next, Option.none_or, reached]

theorem either_left (one : first.First start finish) :
    (Pattern.either first second).First start finish := by
  intro α next result reached
  change (first.run start next).or (second.run start next) = some result
  rw [one next result reached, Option.some_or]

theorem either_right (fails : first.Fails start) (other : second.First start finish) :
    (Pattern.either first second).First start finish := by
  intro α next result reached
  change (first.run start next).or (second.run start next) = some result
  rw [fails next, Option.none_or, other next result reached]

theorem capture (name : String) {used : List Char}
    (inside : pattern.First ⟨used ++ rest, captures⟩ ⟨rest, captures⟩) :
    (Pattern.capture name pattern).First ⟨used ++ rest, captures⟩
      ⟨rest, (name, used) :: captures⟩ := by
  intro α next result reached
  refine inside _ result ?_
  rw [between_append]
  exact reached

/-- The shortest run that lets the rest match is taken when the rest fails within it. -/
theorem few_append (kind : CharClass) {run : List Char} (all : ∀ c ∈ run, kind.holds c = true)
    (fails : ∀ front back, run = front ++ back → back ≠ [] → second.Fails ⟨back ++ rest, captures⟩)
    (other : second.First ⟨rest, captures⟩ finish) :
    (Pattern.append (.few kind) second).First ⟨run ++ rest, captures⟩ finish := by
  intro α next result reached
  change shortestRun kind.holds (fun rest => second.run ⟨rest, captures⟩ next) (run ++ rest) = _
  induction run with
  | nil =>
    have found := other next result reached
    cases rest with
    | nil => exact found
    | cons c rest => rw [List.nil_append, shortestRun, found, Option.some_or]
  | cons c run ih =>
    obtain ⟨here, all⟩ := List.forall_mem_cons.mp all
    have missed := fails [] (c :: run) rfl (List.cons_ne_nil c run) next
    have later : ∀ front back, run = front ++ back → back ≠ [] →
        second.Fails ⟨back ++ rest, captures⟩ :=
      fun front back split => fails (c :: front) back (by rw [split]; rfl)
    rw [List.cons_append] at missed ⊢
    rw [shortestRun, missed, Option.none_or, if_pos here, ih all later]

theorem again {name : String} {text : List Char} (kept : captures.lookup name = some text)
    (rest : List Char) : (Pattern.again name).First ⟨text ++ rest, captures⟩ ⟨rest, captures⟩ := by
  intro α next result reached
  simp only [run, kept, List.isPrefixOf?_eq_some_iff_append_eq.mpr rfl, reached]

theorem literal (text rest : List Char) (captures : List (String × List Char)) :
    (Pattern.literal text).First ⟨text ++ rest, captures⟩ ⟨rest, captures⟩ := by
  induction text with
  | nil => exact empty _
  | cons c text ih => exact append (char c (text ++ rest) captures) ih

theorem sequence_append {front back : List Pattern} (one : (sequence front).First start middle)
    (other : (sequence back).First middle finish) :
    (sequence (front ++ back)).First start finish := by
  intro α next result reached
  rw [run_sequence_append]
  exact one _ result (other next result reached)

end First

/-! ### All matches of a text -/

variable {pattern : Pattern} {text rest : List Char} {found : Match}

theorem matchHere?_eq_some {nonempty : Bool} (here : pattern.matchHere? nonempty text = some found) :
    pattern.Leads ⟨text, []⟩ ⟨found.rest, found.captures⟩ := by
  obtain ⟨⟨rest, captures⟩, leads, reached⟩ := run_eq_some here
  split at reached
  · cases reached
  · obtain rfl := Option.some.inj reached
    exact leads

theorem matchesAfter_eq_drop (pattern : Pattern) {skip : Nat} (within : skip ≤ text.length) :
    pattern.matchesAfter skip text = pattern.findMatches (text.drop skip) := by
  induction text generalizing skip with
  | nil =>
    obtain rfl := Nat.le_zero.mp within
    rfl
  | cons c text ih =>
    cases skip with
    | zero => rfl
    | succ skip =>
      rw [matchesAfter, List.drop_succ_cons]
      exact ih (Nat.le_of_succ_le_succ within)

theorem mem_matchesAfter {skip : Nat} (listed : found ∈ pattern.matchesAfter skip text) :
    ∃ start, pattern.Leads ⟨start, []⟩ ⟨found.rest, found.captures⟩ := by
  induction text generalizing skip with
  | nil =>
    cases skip with
    | zero => exact ⟨[], matchHere?_eq_some (Option.mem_toList.mp listed)⟩
    | succ skip => cases listed
  | cons c text ih =>
    cases skip with
    | succ skip => exact ih listed
    | zero =>
      rw [matchesAfter] at listed
      split at listed
      · exact ih listed
      · next other here =>
        have leads := matchHere?_eq_some here
        split at listed
        · split at listed
          · rcases List.mem_cons.mp listed with rfl | later
            · exact ⟨_, leads⟩
            · exact ih later
          · next next again =>
            rcases List.mem_cons.mp listed with rfl | listed
            · exact ⟨_, leads⟩
            rcases List.mem_cons.mp listed with rfl | later
            · exact ⟨_, matchHere?_eq_some again⟩
            · exact ih later
        · rcases List.mem_cons.mp listed with rfl | later
          · exact ⟨_, leads⟩
          · exact ih later

/-- The first way to match at the start of a text is the first match that is found. -/
theorem findMatches_first {captures : List (String × List Char)} {used : List Char}
    (first : pattern.First ⟨used ++ rest, []⟩ ⟨rest, captures⟩) (filled : used ≠ []) :
    pattern.findMatches (used ++ rest) = ⟨captures, rest⟩ :: pattern.findMatches rest := by
  obtain ⟨c, used, rfl⟩ := List.exists_cons_of_ne_nil filled
  have here : pattern.matchHere? false (c :: (used ++ rest)) = some ⟨captures, rest⟩ :=
    first _ _ rfl
  have longer : ¬ rest.length = (used ++ rest).length + 1 := by
    rw [List.length_append]
    omega
  rw [List.cons_append, findMatches, matchesAfter, here]
  simp only
  rw [if_neg longer, matchesAfter_eq_drop pattern (Nat.sub_le _ _), List.length_append,
    Nat.add_sub_cancel, List.drop_left]

/-- The first way to match at the start of a text is the first match in it. -/
theorem search?_first {finish : State} (first : pattern.First ⟨text, []⟩ finish) :
    pattern.search? text = some ⟨finish.captures, finish.rest⟩ := by
  have here : pattern.matchHere? false text = some ⟨finish.captures, finish.rest⟩ :=
    first _ _ rfl
  cases text with
  | nil => exact here
  | cons c text => rw [search?, here, Option.some_or]

/-- What a pattern matches begins with something that is no blank. -/
def Solid (pattern : Pattern) : Prop :=
  ∀ start finish, pattern.Leads start finish →
    ∃ c used, start.rest = c :: (used ++ finish.rest) ∧ isBlank c = false

namespace Solid

theorem matchHere?_nil (solid : pattern.Solid) (nonempty : Bool) :
    pattern.matchHere? nonempty [] = none := by
  by_contra present
  obtain ⟨found, here⟩ := Option.ne_none_iff_exists'.mp present
  obtain ⟨c, used, split, _⟩ := solid _ _ (matchHere?_eq_some here)
  cases split

theorem findMatches_nil (solid : pattern.Solid) : pattern.findMatches [] = [] := by
  rw [findMatches, matchesAfter, solid.matchHere?_nil]
  rfl

/-- No match begins at a blank. -/
theorem findMatches_blanks (solid : pattern.Solid) {blanks : List Char}
    (all : ∀ c ∈ blanks, isBlank c = true) (rest : List Char) :
    pattern.findMatches (blanks ++ rest) = pattern.findMatches rest := by
  induction blanks with
  | nil => rfl
  | cons c blanks ih =>
    rw [List.forall_mem_cons] at all
    have missed : pattern.matchHere? false (c :: (blanks ++ rest)) = none := by
      by_contra present
      obtain ⟨found, here⟩ := Option.ne_none_iff_exists'.mp present
      obtain ⟨d, used, split, apart⟩ := solid _ _ (matchHere?_eq_some here)
      obtain ⟨rfl, _⟩ := List.cons.inj split
      rw [all.1] at apart
      cases apart
    rw [List.cons_append, findMatches, matchesAfter, missed]
    exact ih all.2

end Solid

end Scaffold.Pattern
