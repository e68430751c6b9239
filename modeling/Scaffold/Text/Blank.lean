/-!
Blanks: the characters that separate words, in every script, and the trimming of texts.
-/

namespace Scaffold.Text

/-- Spaces, tabs, line and paragraph breaks of every script, and the four ASCII separators from the
file to the unit separator. -/
def isBlank (c : Char) : Bool :=
  let code := c.toNat
  (9 ≤ code && code ≤ 13) || (28 ≤ code && code ≤ 32) || code == 0x85 || code == 0xa0 ||
    code == 0x1680 || (0x2000 ≤ code && code ≤ 0x200a) || code == 0x2028 || code == 0x2029 ||
    code == 0x202f || code == 0x205f || code == 0x3000

/-- The text without the characters of a class at its end. -/
def dropRightWhile (p : Char → Bool) (text : List Char) : List Char :=
  (text.reverse.dropWhile p).reverse

/-- The text without blanks at its start. -/
def trimLeft (text : List Char) : List Char :=
  text.dropWhile isBlank

/-- The text without blanks at its end. -/
def trimRight (text : List Char) : List Char :=
  dropRightWhile isBlank text

/-- The text without blanks at either end. -/
def trim (text : List Char) : List Char :=
  trimRight (trimLeft text)

theorem isBlank_of_isWhitespace {c : Char} (h : c.isWhitespace = true) : isBlank c = true := by
  simp only [Char.isWhitespace, Bool.or_eq_true, decide_eq_true_eq] at h
  rcases h with ((rfl | rfl) | rfl) | rfl <;> decide

theorem dropRightWhile_append_of_all {p : Char → Bool} {front back : List Char}
    (all : ∀ c ∈ back, p c = true) : dropRightWhile p (front ++ back) = dropRightWhile p front := by
  simp only [dropRightWhile, List.reverse_append]
  rw [List.dropWhile_append_of_pos (by simpa using all)]

end Scaffold.Text
