import Mathlib.Data.List.Infix
import Scaffold.Proofs.Render.TokenSteps

/-!
The first words of tags. The rendering cuts a template into tokens; the analysis only looks for an
opening and the word behind it, in the template without its comments. Main statement: it finds every
name that is the first word of an expression or of what a loop goes through.
-/

namespace Scaffold.Render

open Text Template

variable {text rest after : List Char} {kind : TokenKind} {name : String} {c : Char}
  {opening : Opening} {brackets : List String} {afterDot : Bool} {fuel line latest : Nat}
  {out tail : List Token}

/-! ### First words -/

/-- A token that goes on with a tag or ends it, and is no brace: the word before it stands for itself
in the analysis as well. -/
def Follows (token : Token) : Prop :=
  token.kind ≠ .finish ∧ token.kind ≠ .operator "\x7b"

instance (token : Token) : Decidable (Follows token) :=
  inferInstanceAs (Decidable (_ ∧ _))

/-- A name of word characters. -/
def isWordName (name : String) : Bool :=
  name.toList.all isWord

/-- The first word of an expression, or of what a loop goes through, at the start of tokens. -/
def firstWord? : List Token → Option String
  | ⟨_, .openExpression⟩ :: ⟨_, .name word⟩ :: next :: _ =>
    if isWordName word ∧ Follows next then some word else none
  | ⟨_, .openStatement⟩ :: ⟨_, .name "for"⟩ :: ⟨_, .name item⟩ :: ⟨_, .name "in"⟩ ::
      ⟨_, .name word⟩ :: next :: _ =>
    if isWordName item ∧ isWordName word ∧ Follows next then some word else none
  | _ => none

/-- The first words of all tags. -/
def firstWords : List Token → List String
  | [] => []
  | token :: rest => (firstWord? (token :: rest)).toList ++ firstWords rest

/-- A token that opens no tag. -/
def Plain (kind : TokenKind) : Prop :=
  kind ≠ .openExpression ∧ kind ≠ .openStatement

theorem firstWords_cons (plain : Plain kind) (line : Nat) (rest : List Token) :
    firstWords (⟨line, kind⟩ :: rest) = firstWords rest := by
  have none : firstWord? (⟨line, kind⟩ :: rest) = none := by
    unfold firstWord?
    split
    · next same => exact absurd (Token.mk.inj (List.cons.inj same).1).2 plain.1
    · next same => exact absurd (Token.mk.inj (List.cons.inj same).1).2 plain.2
    · rfl
  rw [firstWords, none]
  rfl

theorem afterOpening?_append {sign : Char} {dash word : List Char} (known : dash = [] ∨ dash = ['-'])
    {blanks : List Char} (blank : ∀ c ∈ blanks, isBlank c = true) (filled : word ≠ [])
    (all : ∀ c ∈ word, isWord c = true) (rest : List Char) :
    afterOpening? ['{', sign] ('{' :: sign :: (dash ++ (blanks ++ (word ++ rest)))) =
      some (word ++ rest) := by
  have opened : afterPrefix? ['{', sign] ('{' :: sign :: (dash ++ (blanks ++ (word ++ rest)))) =
      some (dash ++ (blanks ++ (word ++ rest))) := afterPrefix?_eq_some.mpr rfl
  have begins : ∀ c ∈ (word ++ rest).head?, isBlank c = false := by
    rw [List.head?_append_of_ne_nil _ filled]
    exact fun c first => isBlank_of_isWord (all c (List.mem_of_mem_head? first))
  have dashed : dropOptional '-' (dash ++ (blanks ++ (word ++ rest))) = blanks ++ (word ++ rest) := by
    rcases known with rfl | rfl
    · cases blanks with
      | cons c blanks =>
        refine if_neg ?_
        rintro rfl
        cases blank '-' List.mem_cons_self
      | nil =>
        obtain ⟨c, word, rfl⟩ := List.exists_cons_of_ne_nil filled
        refine if_neg ?_
        rintro rfl
        cases all '-' List.mem_cons_self
    · rfl
  rw [afterOpening?, opened, Option.map_some, dashed, trimLeft_append blanks blank begins]

/-- No tag opens with a plus sign. -/
def Unsigned (text : List Char) : Prop :=
  ¬ ['{', '{', '+'] <:+: text ∧ ¬ ['{', '%', '+'] <:+: text

instance (text : List Char) : Decidable (Unsigned text) :=
  inferInstanceAs (Decidable (_ ∧ _))

/-- A quoted text that holds the mark of a comment. -/
def marked : TokenKind → Bool
  | .text chars => decide (commentMark <:+: chars)
  | _ => false

/-- No quoted text holds the mark of a comment. -/
def Unmarked (tokens : List Token) : Prop :=
  ∀ token ∈ tokens, marked token.kind = false

instance (tokens : List Token) : Decidable (Unmarked tokens) :=
  inferInstanceAs (Decidable (∀ token ∈ tokens, _))

theorem Unsigned.suffix (unsigned : Unsigned text) (suffix : rest <:+ text) : Unsigned rest :=
  ⟨fun within => unsigned.1 (within.trans suffix.isInfix),
    fun within => unsigned.2 (within.trans suffix.isInfix)⟩

theorem Unmarked.subset {tokens others : List Token} (unmarked : Unmarked tokens)
    (subset : others ⊆ tokens) : Unmarked others :=
  fun token member => unmarked token (subset member)

/-- Behind a step no comment begins that began before it, unless a hash follows, which is no token. -/
def Clear (text rest : List Char) : Prop :=
  rest <:+ text ∧ (Uncommented text rest ∨ rest.head? = some '#')

theorem Uncommented.clear (uncommented : Uncommented text rest) : Clear text rest :=
  ⟨uncommented.isSuffix, .inl uncommented⟩

theorem tagToken?_hash (rest : List Char) : tagToken? afterDot ('#' :: rest) = none := by
  have name : name? ('#' :: rest) = none := rfl
  have quoted : quoted? ('#' :: rest) = none := rfl
  have sign : sign? ('#' :: rest) = none := rfl
  rw [tagToken?, float?_of_not_isDigit rfl, integer?_of_not_isDigit rfl, name, quoted, sign]
  rfl

theorem firstWords_hash (hash : text.head? = some '#') :
    firstWords (tokensFrom fuel (.inside opening brackets afterDot) line latest text) = [] := by
  obtain ⟨rest, rfl⟩ := List.head?_eq_some_iff.mp hash
  cases fuel with
  | zero => exact firstWords_cons ⟨by simp, by simp⟩ _ []
  | succ fuel =>
    have open' : (if brackets.isEmpty = true then afterClose? opening ('#' :: rest) else none) =
        none := by
      split
      · cases opening <;> rfl
      · rfl
    have solid : ('#' :: rest).takeWhile isBlank = [] := rfl
    rw [tokensFrom]
    · simp only [open', solid, tagToken?_hash]
      exact firstWords_cons ⟨by simp, by simp⟩ _ []
    · exact List.cons_ne_nil _ _

/-- The first words of all that follows are found, for a number of steps. -/
def FindsAll (fuel : Nat) : Prop :=
  ∀ place line latest text, Unsigned text → Unmarked (tokensFrom fuel place line latest text) →
    firstWords (tokensFrom fuel place line latest text) ⊆ findAll usedName? (withoutComments text)

/-- Where a tag goes on after a clear step. -/
theorem FindsAll.inside (finds : FindsAll fuel) (unsigned : Unsigned text) (clear : Clear text rest)
    (unmarked : Unmarked (tokensFrom fuel (.inside opening brackets afterDot) line latest rest)) :
    firstWords (tokensFrom fuel (.inside opening brackets afterDot) line latest rest) ⊆
      findAll usedName? (withoutComments text) := by
  obtain ⟨suffix, uncommented | hash⟩ := clear
  · exact List.Subset.trans (finds _ _ _ _ (unsigned.suffix suffix) unmarked) uncommented.subset
  · rw [firstWords_hash hash]
    exact List.nil_subset _

end Scaffold.Render
