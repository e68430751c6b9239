import Scaffold.Render.Reading

/-!
Reading tokens. What a reader makes of the tokens before it is told by what its parts make of theirs;
and an expression that is followed by the end of its tag is read by its first operand alone.
-/

namespace Scaffold.Render

open Reader

variable {α β : Type} {before middle after : List Token} {token next : Token} {kind : TokenKind}
  {fuel : Nat} {owner expr : Expr} {name : String}

/-- A reader gives a result and leaves tokens. -/
def Reads (reader : Reader α) (before : List Token) (result : α) (after : List Token) : Prop :=
  reader before = .ok (result, after)

namespace Reads

theorem pure (result : α) (tokens : List Token) :
    Reads (Pure.pure result) tokens result tokens :=
  rfl

theorem bind {reader : Reader α} {more : α → Reader β} {result : α} {final : β}
    (first : Reads reader before result middle) (second : Reads (more result) middle final after) :
    Reads (reader >>= more) before final after := by
  change (reader before >>= fun pair => more pair.1 pair.2) = _
  rw [show reader before = _ from first]
  exact second

theorem current (token : Token) (rest : List Token) :
    Reads current (token :: rest) token (token :: rest) :=
  rfl

theorem advance (token : Token) (sound : next.kind ≠ .failure) (rest : List Token) :
    Reads advance (token :: next :: rest) () (next :: rest) :=
  if_neg sound

theorem at? (kind : TokenKind) (token : Token) (rest : List Token) :
    Reads (at? kind) (token :: rest) (token.kind == kind) (token :: rest) :=
  bind (current token rest) (pure _ _)

theorem skipIf (same : token.kind = kind) (sound : next.kind ≠ .failure) (rest : List Token) :
    Reads (skipIf kind) (token :: next :: rest) true (next :: rest) := by
  refine bind (at? kind token (next :: rest)) ?_
  rw [beq_iff_eq.mpr same]
  exact bind (advance token sound rest) (pure _ _)

theorem skipIf_other (other : token.kind ≠ kind) (rest : List Token) :
    Reads (Reader.skipIf kind) (token :: rest) false (token :: rest) := by
  refine bind (at? kind token rest) ?_
  rw [beq_eq_false_iff_ne.mpr other]
  exact pure _ _

theorem expect (same : token.kind = kind) (sound : next.kind ≠ .failure) (rest : List Token) :
    Reads (expect kind) (token :: next :: rest) () (next :: rest) := by
  refine bind (current token (next :: rest)) ?_
  rw [if_pos same]
  exact advance token sound rest

theorem anyName (named : token.kind = .name name) (sound : next.kind ≠ .failure)
    (rest : List Token) :
    Reads anyName (token :: next :: rest) (name, token.line) (next :: rest) := by
  refine bind (current token (next :: rest)) ?_
  rw [named]
  exact bind (advance token sound rest) (pure _ _)

end Reads

/-! ### Expressions -/

/-- A token that ends a tag. -/
def Closes (token : Token) : Prop :=
  token.kind = .closeExpression ∨ token.kind = .closeStatement

theorem Closes.ne {kind : TokenKind} (closes : Closes token)
    (other : kind ≠ .closeExpression ∧ kind ≠ .closeStatement) : token.kind ≠ kind := by
  rintro rfl
  exact closes.elim other.1 other.2

namespace Reads

theorem primary (named : token.kind = .name name) (free : wordValue? name = none)
    (sound : next.kind ≠ .failure) (rest : List Token) :
    Reads (primary (fuel + 1)) (token :: next :: rest) (.name name) (next :: rest) := by
  rw [Render.primary]
  refine bind (current token (next :: rest)) ?_
  rw [named]
  refine bind (advance token sound rest) ?_
  rw [free]
  exact pure _ _

theorem postfixes_end (closes : Closes token) (fuel : Nat) (rest : List Token) :
    Reads (postfixes fuel owner) (token :: rest) owner (token :: rest) := by
  cases fuel with
  | zero => exact pure _ _
  | succ fuel =>
    rw [postfixes]
    exact bind (skipIf_other (closes.ne (by decide)) rest) (pure _ _)

theorem filters_end (closes : Closes token) (fuel : Nat) (rest : List Token) :
    Reads (filters fuel owner) (token :: rest) owner (token :: rest) := by
  cases fuel with
  | zero => rw [filters]; exact pure _ _
  | succ fuel =>
    rw [filters]
    exact bind (skipIf_other (closes.ne (by decide)) rest) (pure _ _)

theorem member (dot : token.kind = .operator ".") {part : Token} (named : part.kind = .name name)
    (closes : Closes next) (rest : List Token) :
    Reads (postfixes (fuel + 1) owner) (token :: part :: next :: rest) (.member owner name)
      (next :: rest) := by
  have sound : part.kind ≠ .failure := by rw [named]; exact nofun
  have afterDot : Reads (afterDot owner) (part :: next :: rest) (.member owner name)
      (next :: rest) := by
    refine bind (current part (next :: rest)) (bind (advance part (closes.ne (by decide)) rest) ?_)
    rw [named]
    exact pure _ _
  rw [postfixes]
  exact bind (skipIf dot sound (next :: rest)) (bind afterDot (postfixes_end closes fuel rest))

theorem filtered (operand : Reads (Render.primary fuel) before owner middle)
    (parts : Reads (postfixes fuel owner) middle expr (token :: after)) (closes : Closes token) :
    Reads (filtered (fuel + 1)) before expr (token :: after) := by
  rw [Render.filtered]
  exact bind operand (bind parts (filters_end closes fuel after))

/-- An operand alone before the end of a tag is the expression. -/
theorem expression (free : token.kind ≠ .name "not")
    (operand : Reads (Render.filtered fuel) (token :: before) expr (next :: after))
    (closes : Closes next) :
    Reads (expression (fuel + 4)) (token :: before) expr (next :: after) := by
  have noSign : comparison? next.kind = none := by
    rcases closes with same | same <;> rw [same] <;> rfl
  have compared : Reads (comparisons (fuel + 1)) (token :: before) expr (next :: after) := by
    rw [comparisons]
    refine bind operand ?_
    have none : Reads (moreComparisons fuel) (next :: after) [] (next :: after) := by
      cases fuel with
      | zero => rw [moreComparisons]; exact pure _ _
      | succ fuel =>
        rw [moreComparisons]
        refine bind (current next after) ?_
        rw [noSign]
        exact pure _ _
    exact bind none (pure _ _)
  have negated : Reads (negated (fuel + 2)) (token :: before) expr (next :: after) := by
    rw [Render.negated]
    exact bind (skipIf_other free before) compared
  have joined : Reads (conjunctions (fuel + 3)) (token :: before) expr (next :: after) := by
    rw [conjunctions]
    refine bind negated ?_
    rw [moreConjunctions]
    exact bind (skipIf_other (closes.ne (by decide)) after) (pure _ _)
  rw [Render.expression]
  refine bind joined ?_
  rw [moreDisjunctions]
  exact bind (skipIf_other (closes.ne (by decide)) after) (pure _ _)

end Reads

end Scaffold.Render
