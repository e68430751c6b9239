import Scaffold.Proofs.Template.UsedNames
import Scaffold.Render.Token

/-!
What a token inside a tag takes off the text. Only a brace of its own and a quoted text can hold an
opening brace; and when a quoted text stands for one without the mark of a comment, it holds none
itself, so that the search for comments passes it.
-/

namespace Scaffold.Render

open Text Template

variable {text rest : List Char} {kind : TokenKind} {afterDot : Bool} {name : String} {c : Char}

/-! ### Numbers -/

/-- The mark that begins a comment. -/
def commentMark : List Char :=
  ['{', '#']

/-- How a token is taken off a text. -/
inductive Takes (text rest : List Char) : TokenKind → Prop
  | integer (value : Nat) (passed : Passed text rest) : Takes text rest (.integer value)
  | float (value : Binary64) (passed : Passed text rest) : Takes text rest (.float value)
  | name (run : List Char) (filled : run ≠ []) (all : ∀ c ∈ run, isNamePart c = true)
      (split : text = run ++ rest) (stopped : ∀ c ∈ rest.head?, isNamePart c = false) :
      Takes text rest (.name (String.ofList run))
  | quoted (chars used : List Char) (split : text = used ++ rest)
      (ends : ∀ c ∈ used.getLast?, c ≠ '{')
      (marks : commentMark <:+: used → commentMark <:+: chars) : Takes text rest (.text chars)
  | sign (sign : String) (listed : sign ∈ signs) (split : text = sign.toList ++ rest) :
      Takes text rest (.operator sign)
  | failure : Takes text rest .failure

end Scaffold.Render
