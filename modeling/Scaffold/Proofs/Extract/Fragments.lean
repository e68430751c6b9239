import Mathlib.Data.List.Infix
import Scaffold.Proofs.Extract.Placeholders

/-!
What the fragments of a text are. An expression reaches from an opening pair of braces to the first
closing pair, and a statement likewise from a brace and a percent sign; neither says anything on more
than one line. Blanks reach as far as they can. All that the search for fragments recognises at the start
of a text is one of these, and nothing else is.
-/

namespace Scaffold.Extract

open Text Template

variable {text rest after inside : List Char} {fragment : Fragment} {c d : Char}

/-- The text without a dash at its end, if it has one. -/
def withoutDash (text : List Char) : List Char :=
  if text.getLast? = some '-' then text.dropLast else text

/-- The text without the blanks at its end and a dash behind them. -/
def withoutGap (text : List Char) : List Char :=
  trimRight (withoutDash text)

/-- What an expression says: the text between its braces, without the dash and the blanks that stand
beside either pair. -/
def saying (inside : List Char) : List Char :=
  withoutGap (trimLeft (dropOptional '-' inside))

/-- A text is over where a pair of signs first follows it. -/
def EndsFirst (c d : Char) (inside : List Char) : Prop :=
  ¬ [c, d] <:+: inside ++ [c]

/-- A text begins with a fragment that is not a character on its own. -/
inductive BeginsWith : List Char → Fragment → List Char → Prop
  | expression (inside after : List Char) (first : EndsFirst '}' '}' inside)
      (inLine : '\n' ∉ saying inside) :
      BeginsWith ('{' :: '{' :: (inside ++ '}' :: '}' :: after)) (.expression (saying inside)) after
  | statement (inside after : List Char) (first : EndsFirst '%' '}' inside) (inLine : '\n' ∉ inside) :
      BeginsWith ('{' :: '%' :: (inside ++ '%' :: '}' :: after)) .statement after
  | blanks (run after : List Char) (filled : run ≠ []) (blank : ∀ c ∈ run, isBlank c = true)
      (stopped : ∀ c ∈ after.head?, isBlank c = false) : BeginsWith (run ++ after) .blanks after

/-! ### Closing pairs -/

theorem EndsFirst.of_suffix {part : List Char} (first : EndsFirst c d inside) (suffix : part <:+ inside) :
    EndsFirst c d part := by
  obtain ⟨front, rfl⟩ := suffix
  refine fun within => first ?_
  rw [List.append_assoc]
  exact List.infix_append_of_infix_right within

/-- Before its end a text does not begin with the pair. -/
theorem EndsFirst.afterPrefix? (first : EndsFirst c d inside) (after : List Char) :
    afterPrefix? [c, d] (inside ++ c :: d :: after) = if inside = [] then some after else none := by
  split
  · next empty =>
    rw [empty, afterPrefix?_eq_some]
    rfl
  · next filled =>
    by_contra found
    obtain ⟨other, found⟩ := Option.ne_none_iff_exists'.mp found
    rw [afterPrefix?_eq_some] at found
    refine first (List.IsPrefix.isInfix ?_)
    match inside, filled with
    | [e], _ =>
      obtain ⟨rfl, more⟩ := List.cons.inj found
      obtain ⟨rfl, _⟩ := List.cons.inj more
      exact List.prefix_refl _
    | e :: f :: inside, _ =>
      obtain ⟨rfl, more⟩ := List.cons.inj found
      obtain ⟨rfl, _⟩ := List.cons.inj more
      exact ⟨inside ++ [e], rfl⟩

/-- A text in which a pair of signs occurs is over where it first does. -/
theorem exists_endsFirst (occurs : [c, d] <:+: text) :
    ∃ inside after, text = inside ++ c :: d :: after ∧ EndsFirst c d inside := by
  induction text with
  | nil => simp at occurs
  | cons e text ih =>
    by_cases here : [c, d] <+: e :: text
    · obtain ⟨after, same⟩ := here
      refine ⟨[], after, same.symm, fun within => ?_⟩
      have long := within.length_le
      simp at long
    · obtain ⟨inside, after, rfl, first⟩ := ih ((List.infix_cons_iff.mp occurs).resolve_left here)
      refine ⟨e :: inside, after, rfl, fun within => ?_⟩
      rcases List.infix_cons_iff.mp within with begins | later
      · have whole : inside ++ [c] <+: inside ++ c :: d :: after := ⟨d :: after, by simp⟩
        exact here (begins.trans ((List.prefix_cons_inj e).mpr whole))
      · exact first later

/-! ### Expressions -/

theorem trimRight_cons (c : Char) (text : List Char) :
    trimRight (c :: text) = [] ∨ trimRight (c :: text) = c :: trimRight text := by
  simp only [trimRight, dropRightWhile, List.reverse_cons, List.dropWhile_append]
  split
  · next all =>
    rw [List.isEmpty_iff.mp all, List.reverse_nil]
    by_cases blank : isBlank c = true
    · left
      rw [List.dropWhile_cons_of_pos blank]
      rfl
    · right
      rw [List.dropWhile_cons_of_neg blank]
      rfl
  · right
    simp

theorem trimRight_eq_nil : trimRight text = [] ↔ ∀ c ∈ text, isBlank c = true := by
  rw [trimRight, dropRightWhile, List.reverse_eq_nil_iff, List.dropWhile_eq_nil_iff]
  simp only [List.mem_reverse]

theorem withoutGap_cons (c : Char) (text : List Char) :
    withoutGap (c :: text) = [] ∨ withoutGap (c :: text) = c :: withoutGap text := by
  cases text with
  | nil =>
    by_cases dash : c = '-'
    · subst dash
      exact .inl rfl
    · have kept : withoutDash [c] = [c] := if_neg (by simpa using dash)
      rw [withoutGap, kept]
      exact trimRight_cons c []
  | cons d text =>
    have step : withoutDash (c :: d :: text) = c :: withoutDash (d :: text) := by
      simp only [withoutDash, List.getLast?_cons_cons, List.dropLast_cons_cons]
      split <;> rfl
    rw [withoutGap, step]
    exact trimRight_cons c _

/-- Nothing stands before a gap. -/
theorem withoutGap_eq_nil : withoutGap text = [] ↔ dropOptional '-' (trimLeft text) = [] := by
  obtain ⟨blanks, all, split, begins⟩ := trimLeft_spec text
  rw [withoutGap, trimRight_eq_nil, split, trimLeft_append blanks all begins]
  generalize trimLeft text = core at begins
  match core with
  | [] =>
    -- a text of blanks: no dash is taken off
    have kept : withoutDash (blanks ++ []) = blanks := by
      rw [List.append_nil]
      refine if_neg fun dash => ?_
      cases all '-' (List.mem_of_getLast? dash)
    rw [kept]
    exact iff_of_true all rfl
  | c :: more =>
    -- of the other texts only one dash leaves nothing
    by_cases gap : c = '-' ∧ more = []
    · obtain ⟨rfl, rfl⟩ := gap
      have kept : withoutDash (blanks ++ ['-']) = blanks := by simp [withoutDash]
      rw [kept]
      exact iff_of_true all rfl
    · refine iff_of_false (fun blank => ?_) fun empty => ?_
      · have solid := begins c rfl
        rw [blank c ?_] at solid
        · cases solid
        · rw [withoutDash]
          split
          · next dash =>
            cases more with
            | nil => exact absurd ⟨by simpa using dash, rfl⟩ gap
            | cons d more => simp [List.dropLast_append_of_ne_nil]
          · simp
      · rw [dropOptional] at empty
        split at empty
        · next dash => exact gap ⟨dash, empty⟩
        · cases empty

theorem trimLeft_append_cons (solid : isBlank d = false) (text rest : List Char) :
    trimLeft (text ++ d :: rest) = trimLeft text ++ d :: rest := by
  simp only [trimLeft, List.dropWhile_append, List.dropWhile_cons, solid]
  split
  · next all =>
    rw [List.isEmpty_iff.mp all]
    rfl
  · rfl

theorem dropOptional_append_cons (other : d ≠ c) (text rest : List Char) :
    dropOptional c (text ++ d :: rest) = dropOptional c text ++ d :: rest := by
  cases text with
  | nil => exact if_neg other
  | cons e text =>
    rw [List.cons_append, dropOptional, dropOptional]
    split <;> rfl

/-- An expression is closed where only a gap stands before the closing pair. -/
theorem afterClosing?_endsFirst (first : EndsFirst '}' '}' inside) (after : List Char) :
    afterClosing? ['}', '}'] (inside ++ '}' :: '}' :: after) =
      if withoutGap inside = [] then some after else none := by
  have suffix : dropOptional '-' (trimLeft inside) <:+ inside :=
    (dropOptional_suffix '-' _).trans (List.dropWhile_suffix isBlank)
  rw [afterClosing?, trimLeft_append_cons rfl, dropOptional_append_cons (by decide),
    (first.of_suffix suffix).afterPrefix?]
  simp only [withoutGap_eq_nil]

theorem expressionBody?_endsFirst (first : EndsFirst '}' '}' inside) (after : List Char) :
    expressionBody? (inside ++ '}' :: '}' :: after) =
      if '\n' ∈ withoutGap inside then none else some (withoutGap inside, after) := by
  induction inside with
  | nil => rfl
  | cons c inside ih =>
    have closed := afterClosing?_endsFirst first after
    have later := ih (first.of_suffix (List.suffix_cons c inside))
    rw [List.cons_append] at closed ⊢
    rw [expressionBody?_cons, closed]
    rcases withoutGap_cons c inside with gap | more
    · rw [gap]
      rfl
    · rw [more, if_neg (List.cons_ne_nil c _), later]
      by_cases ends : c = '\n'
      · simp [ends]
      · simp only [List.mem_cons, ends, Ne.symm ends, if_false, false_or]
        split <;> rfl

theorem occurs_of_expressionBody? {inner : List Char} (found : expressionBody? text = some (inner, after)) :
    ['}', '}'] <:+: text := by
  induction text generalizing inner with
  | nil => cases found
  | cons c text ih =>
    rw [expressionBody?_cons] at found
    split at found
    · next closed =>
      obtain ⟨gap, split, _⟩ := afterClosing?_eq_some closed
      rw [split]
      exact ⟨gap, _, List.append_assoc _ _ _⟩
    · split at found
      · cases found
      · obtain ⟨⟨_, _⟩, more, same⟩ := Option.map_eq_some_iff.mp found
        cases same
        exact List.infix_cons (ih more)

/-! ### Statements -/

theorem statementBody?_endsFirst (first : EndsFirst '%' '}' inside) (after : List Char) :
    statementBody? (inside ++ '%' :: '}' :: after) = if '\n' ∈ inside then none else some after := by
  induction inside with
  | nil => rfl
  | cons c inside ih =>
    have closed := first.afterPrefix? after
    have later := ih (first.of_suffix (List.suffix_cons c inside))
    rw [if_neg (List.cons_ne_nil c inside), List.cons_append] at closed
    rw [List.cons_append, statementBody?, closed, later]
    by_cases ends : c = '\n'
    · simp [ends]
    · simp only [List.mem_cons, ends, Ne.symm ends, if_false, false_or]

theorem occurs_of_statementBody? (found : statementBody? text = some after) :
    ['%', '}'] <:+: text := by
  induction text with
  | nil => cases found
  | cons c text ih =>
    rw [statementBody?] at found
    split at found
    · next closed =>
      rw [afterPrefix?_eq_some.mp closed]
      exact List.infix_append_of_infix_left (List.infix_refl _)
    · split at found
      · cases found
      · exact List.infix_cons (ih found)

/-! ### Fragments -/

theorem isPrefix_withoutDash (text : List Char) : withoutDash text <+: text := by
  rw [withoutDash]
  split
  · exact List.dropLast_prefix text
  · exact List.prefix_refl text

/-- What an expression says has no blanks at either end. -/
theorem trim_saying (inside : List Char) : trim (saying inside) = saying inside := by
  obtain ⟨_, _, _, begins⟩ := trimLeft_spec (dropOptional '-' inside)
  obtain ⟨blanks, _, split, ends⟩ := trimRight_spec (withoutDash (trimLeft (dropOptional '-' inside)))
  have front : saying inside <+: trimLeft (dropOptional '-' inside) :=
    List.IsPrefix.trans ⟨blanks, split.symm⟩ (isPrefix_withoutDash _)
  refine trim_eq_self_iff.mpr ⟨fun c first => begins c ?_, ends⟩
  obtain ⟨rest, whole⟩ := front
  rw [← whole, List.head?_append, Option.mem_def.mp first]
  rfl

theorem afterOpening?_append (inside after : List Char) :
    afterOpening? ['{', '{'] ('{' :: '{' :: (inside ++ '}' :: '}' :: after)) =
      some (trimLeft (dropOptional '-' inside) ++ '}' :: '}' :: after) := by
  have opened : afterPrefix? ['{', '{'] ('{' :: '{' :: (inside ++ '}' :: '}' :: after)) =
      some (inside ++ '}' :: '}' :: after) := afterPrefix?_eq_some.mpr rfl
  rw [afterOpening?, opened, Option.map_some, dropOptional_append_cons (by decide),
    trimLeft_append_cons rfl]

theorem suffix_opening (inside : List Char) : trimLeft (dropOptional '-' inside) <:+ inside :=
  (List.dropWhile_suffix isBlank).trans (dropOptional_suffix '-' inside)

theorem beginsWith_of_expression {inner : List Char} (opened : afterOpening? ['{', '{'] text = some rest)
    (body : expressionBody? rest = some (inner, after)) :
    BeginsWith text (.expression (trim inner)) after := by
  obtain ⟨raw, cut, trimmed⟩ := Option.map_eq_some_iff.mp opened
  rw [afterPrefix?_eq_some] at cut
  subst cut trimmed
  have occurs := (occurs_of_expressionBody? body).trans (suffix_opening raw).isInfix
  obtain ⟨inside, after', rfl, first⟩ := exists_endsFirst occurs
  rw [dropOptional_append_cons (by decide), trimLeft_append_cons rfl,
    expressionBody?_endsFirst (first.of_suffix (suffix_opening inside))] at body
  split at body
  · cases body
  · next inLine =>
    cases body
    change BeginsWith _ (.expression (trim (saying inside))) _
    rw [trim_saying]
    exact .expression inside _ first inLine

theorem beginsWith_of_statement (opened : afterPrefix? ['{', '%'] text = some rest)
    (body : statementBody? rest = some after) : BeginsWith text .statement after := by
  rw [afterPrefix?_eq_some] at opened
  subst opened
  obtain ⟨inside, after', rfl, first⟩ := exists_endsFirst (occurs_of_statementBody? body)
  rw [statementBody?_endsFirst first] at body
  split at body
  · cases body
  · next inLine =>
    cases body
    exact .statement inside _ first inLine

theorem beginsWith_of_blanks (found : afterBlanks? text = some after) :
    BeginsWith text .blanks after := by
  cases text with
  | nil => cases found
  | cons c text =>
    rw [afterBlanks?] at found
    split at found
    · next blank =>
      obtain ⟨run, all, split, stopped⟩ := dropWhile_eq_iff.mp (Option.some.inj found)
      rw [split, ← List.cons_append]
      exact .blanks (c :: run) _ (List.cons_ne_nil c run) (List.forall_mem_cons.mpr ⟨blank, all⟩) stopped
    · cases found

/-- What the search recognises at the start of a text is the fragment that the text begins with. -/
theorem fragment?_eq_some :
    fragment? text = some (fragment, after) ↔ BeginsWith text fragment after := by
  constructor
  · intro found
    rw [fragment?] at found
    split at found
    · next rest opened =>
      obtain ⟨⟨inner, _⟩, body, same⟩ := Option.map_eq_some_iff.mp found
      cases same
      exact beginsWith_of_expression opened body
    · split at found
      · next rest opened =>
        obtain ⟨_, body, same⟩ := Option.map_eq_some_iff.mp found
        cases same
        exact beginsWith_of_statement opened body
      · obtain ⟨_, blanks, same⟩ := Option.map_eq_some_iff.mp found
        cases same
        exact beginsWith_of_blanks blanks
  · intro begins
    cases begins with
    | expression inside after first inLine =>
      have body : expressionBody? (trimLeft (dropOptional '-' inside) ++ '}' :: '}' :: after) =
          some (saying inside, after) :=
        (expressionBody?_endsFirst (first.of_suffix (suffix_opening inside)) after).trans (if_neg inLine)
      rw [fragment?, afterOpening?_append]
      simp only [body, Option.map_some, trim_saying]
    | statement inside after first inLine =>
      have notOpened : afterOpening? ['{', '{'] ('{' :: '%' :: (inside ++ '%' :: '}' :: after)) = none := rfl
      have opened : afterPrefix? ['{', '%'] ('{' :: '%' :: (inside ++ '%' :: '}' :: after)) =
          some (inside ++ '%' :: '}' :: after) := afterPrefix?_eq_some.mpr rfl
      rw [fragment?, notOpened]
      simp only [opened, statementBody?_endsFirst first, if_neg inLine, Option.map_some]
    | blanks run after filled blank stopped => exact fragment?_blanks filled blank stopped

theorem fragment?_eq_none :
    fragment? text = none ↔ ∀ fragment after, ¬ BeginsWith text fragment after := by
  rw [Option.eq_none_iff_forall_ne_some]
  simp only [Prod.forall, ne_eq, fragment?_eq_some]

end Scaffold.Extract
