import Scaffold.Extract.Matcher
import Scaffold.Proofs.Extract.Fragments
import Scaffold.Proofs.Pattern.Language

/-!
Renderings of a text: its characters, other blanks in place of its blanks, any text within a line in
place of its statements, and in place of its expressions what they are filled with. The pattern of a text
leads over its renderings, and fits nothing else unless it has references.
-/

namespace Scaffold.Extract

open Text Template Pattern

/-- What may stand in place of the expressions of a text, where this may depend on the expressions
before. -/
structure Filling (σ : Type) where
  admits : σ → List Char → List Char → Prop
  next : σ → List Char → σ

/-- A rendering of a text, from a state on. -/
inductive Rendering {σ : Type} (filling : Filling σ) : σ → List Char → List Char → Prop
  | done (state : σ) : Rendering filling state [] []
  | literal {state : σ} {c : Char} {rest out : List Char}
      (alone : ∀ fragment after, ¬ BeginsWith (c :: rest) fragment after)
      (more : Rendering filling state rest out) : Rendering filling state (c :: rest) (c :: out)
  | blanks {state : σ} {text run after out : List Char} (begins : BeginsWith text .blanks after)
      (filled : run ≠ []) (blank : ∀ c ∈ run, isBlank c = true)
      (more : Rendering filling state after out) : Rendering filling state text (run ++ out)
  | statement {state : σ} {text part after out : List Char} (begins : BeginsWith text .statement after)
      (inLine : '\n' ∉ part) (more : Rendering filling state after out) :
      Rendering filling state text (part ++ out)
  | expression {state : σ} {text inner part after out : List Char}
      (begins : BeginsWith text (.expression inner) after) (admitted : filling.admits state inner part)
      (more : Rendering filling (filling.next state inner) after out) :
      Rendering filling state text (part ++ out)

variable {σ τ : Type} {filling : Filling σ} {expression : τ → List Char → Pattern × τ} {state : σ}
  {captured : τ} {text out : List Char} {captures : List (String × List Char)}

/-! ### Fragments and patterns -/

theorem fragments_of_beginsWith {fragment : Fragment} {after : List Char}
    (begins : BeginsWith text fragment after) : fragments text = fragment :: fragments after := by
  have found := fragment?_eq_some.mpr begins
  obtain ⟨used, filled, rfl⟩ := fragment?_consuming _ _ _ found
  exact fragments_of_some filled found

theorem fragments_of_alone {c : Char} {rest : List Char}
    (alone : ∀ fragment after, ¬ BeginsWith (c :: rest) fragment after) :
    fragments (c :: rest) = .char c :: fragments rest :=
  fragments_of_none (fragment?_eq_none.mpr alone)

/-- What holds of the patterns of expressions, and of those of the other fragments, holds of all. -/
theorem forall_patternsFrom {holds : Pattern → Prop} (expressions : ∀ state inner,
      holds (expression state inner).1)
    (char : ∀ c, holds (.char c)) (statement : holds wildcard) (blanks : holds (.many .blank))
    (state : τ) (parts : List Fragment) : ∀ part ∈ patternsFrom expression state parts, holds part := by
  induction parts generalizing state with
  | nil => exact List.forall_mem_nil holds
  | cons part parts ih =>
    cases part with
    | char c => exact List.forall_mem_cons.mpr ⟨char c, ih state⟩
    | expression inner => exact List.forall_mem_cons.mpr ⟨expressions state inner, ih _⟩
    | statement => exact List.forall_mem_cons.mpr ⟨statement, ih state⟩
    | blanks => exact List.forall_mem_cons.mpr ⟨blanks, ih state⟩

/-- The pattern of a text leads over a rendering, if the patterns of its expressions lead over what they
are filled with. What the states and the captures have to do with each other is an invariant. -/
theorem Rendering.leads (agree : σ → τ → List (String × List Char) → Prop)
    (step : ∀ state captured captures inner part, agree state captured captures →
      filling.admits state inner part → ∀ rest, ∃ captures',
        (expression captured inner).1.Leads ⟨part ++ rest, captures⟩ ⟨rest, captures'⟩ ∧
          agree (filling.next state inner) (expression captured inner).2 captures')
    (rendering : Rendering filling state text out) (rest : List Char)
    (agreed : agree state captured captures) :
    ∃ captures', (patternOf expression captured text).Leads ⟨out ++ rest, captures⟩
      ⟨rest, captures'⟩ := by
  induction rendering generalizing captured captures with
  | done state => exact ⟨captures, rfl⟩
  | @literal state c text out alone more ih =>
    obtain ⟨captures', leads⟩ := ih agreed
    rw [patternOf, fragments_of_alone alone]
    exact ⟨captures', ⟨out ++ rest, captures⟩, ⟨rfl, rfl⟩, leads⟩
  | @blanks state text run after out begins filled blank more ih =>
    obtain ⟨captures', leads⟩ := ih agreed
    rw [patternOf, fragments_of_beginsWith begins, List.append_assoc]
    exact ⟨captures', ⟨out ++ rest, captures⟩, ⟨run, filled, blank, rfl, rfl⟩, leads⟩
  | @statement state text part after out begins inLine more ih =>
    obtain ⟨captures', leads⟩ := ih agreed
    rw [patternOf, fragments_of_beginsWith begins, List.append_assoc]
    refine ⟨captures', ⟨out ++ rest, captures⟩, ⟨part, fun c member => ?_, rfl, rfl⟩, leads⟩
    exact bne_iff_ne.mpr (ne_of_mem_of_not_mem member inLine)
  | @expression state text inner part after out begins admitted more ih =>
    obtain ⟨between, here, agreed⟩ := step state captured captures inner part agreed admitted (out ++ rest)
    obtain ⟨captures', leads⟩ := ih agreed
    rw [patternOf, fragments_of_beginsWith begins, List.append_assoc]
    exact ⟨captures', _, here, leads⟩

/-! ### What a pattern fits -/

/-- Nothing but renderings of a text is fitted by its pattern, if the patterns of its expressions refer
to no captures and fit nothing but what the expressions are filled with. -/
theorem rendering_of_fits {expression : σ → List Char → Pattern × σ}
    (free : ∀ state inner, (expression state inner).1.isFree = true)
    (admits : ∀ state inner part, (expression state inner).1.fits part = true →
      filling.admits state inner part)
    (next : ∀ state inner, (expression state inner).2 = filling.next state inner)
    (fitting : (patternOf expression state text).fits out = true) :
    Rendering filling state text out := by
  have all : ∀ parts state, (patternsFrom expression state parts).all isFree = true := by
    intro parts state
    have blanks : (Pattern.many .blank).isFree = true := rfl
    have statement : wildcard.isFree = true := rfl
    exact List.all_eq_true.mpr (forall_patternsFrom free (fun _ => rfl) statement blanks state parts)
  rw [patternOf] at fitting
  induction text using scan_induction fragment?_consuming generalizing state out with
  | nil =>
    obtain rfl := fits_empty.mp fitting
    exact .done state
  | char c rest missed ih =>
    have alone := fragment?_eq_none.mp missed
    rw [fragments_of_alone alone] at fitting
    obtain ⟨front, back, rfl, here, more⟩ := (fits_sequence_cons (all _ state)).mp fitting
    obtain rfl := fits_char.mp here
    exact .literal alone (ih more)
  | found used rest fragment filled found ih =>
    have begins := fragment?_eq_some.mp found
    rw [fragments_of_beginsWith begins] at fitting
    cases fragment with
    | char c =>
      generalize used ++ rest = text at begins
      cases begins
    | blanks =>
      obtain ⟨front, back, rfl, here, more⟩ := (fits_sequence_cons (all _ state)).mp fitting
      obtain ⟨filled, blank⟩ := fits_many.mp here
      exact .blanks begins filled blank (ih more)
    | statement =>
      obtain ⟨front, back, rfl, here, more⟩ := (fits_sequence_cons (all _ state)).mp fitting
      refine .statement begins (fun member => ?_) (ih more)
      cases fits_few.mp here '\n' member
    | expression inner =>
      obtain ⟨front, back, rfl, here, more⟩ := (fits_sequence_cons (all _ _)).mp fitting
      rw [next] at more
      exact .expression begins (admits state inner front here) (ih more)

end Scaffold.Extract
