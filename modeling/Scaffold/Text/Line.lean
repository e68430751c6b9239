import Scaffold.Text.Blank

/-!
Cutting, joining and searching texts. A text is a list of characters; a line ends at a line feed.
-/

namespace Scaffold.Text

/-- The pieces between the occurrences of a separator; there is one more piece than separators. -/
def splitOn (separator : Char) : List Char → List (List Char)
  | [] => [[]]
  | c :: rest =>
    match splitOn separator rest with
    | [] => []
    | piece :: pieces => if c = separator then [] :: piece :: pieces else (c :: piece) :: pieces

/-- The lines of a text, without their line feeds. -/
def lines (text : List Char) : List (List Char) :=
  splitOn '\n' text

/-- The lines of a text, each with its line feed; the last one may lack it. -/
def wholeLines : List Char → List (List Char)
  | [] => []
  | c :: rest =>
    if c = '\n' then [c] :: wholeLines rest
    else
      match wholeLines rest with
      | [] => [[c]]
      | line :: others => (c :: line) :: others

/-- The pieces with a separator between any two neighbours. -/
def joinWith (separator : List Char) : List (List Char) → List Char
  | [] => []
  | [piece] => piece
  | piece :: pieces => piece ++ separator ++ joinWith separator pieces

/-- What follows a given beginning, if the text has it. -/
def afterPrefix? (front : List Char) (text : List Char) : Option (List Char) :=
  front.isPrefixOf? text

/-- What follows the first occurrence of a word, if it occurs. -/
def after? (word : List Char) : List Char → Option (List Char)
  | [] => afterPrefix? word []
  | c :: rest => (afterPrefix? word (c :: rest)).or (after? word rest)

def holds (word text : List Char) : Bool :=
  (after? word text).isSome

def endsWith (word text : List Char) : Bool :=
  word.reverse.isPrefixOf text.reverse

/-- Every occurrence of a nonempty word replaced by another, from the left, where `skip` characters
belong to an occurrence already replaced. -/
def replaceAfter (word other : List Char) (skip : Nat) : List Char → List Char
  | [] => []
  | c :: rest =>
    if skip = 0 then
      if word.isPrefixOf (c :: rest) then other ++ replaceAfter word other (word.length - 1) rest
      else c :: replaceAfter word other 0 rest
    else replaceAfter word other (skip - 1) rest

/-- Every occurrence of a word replaced by another, from the left. The empty word occurs before every
character and at the end. -/
def replaceAll (word other text : List Char) : List Char :=
  if word.isEmpty then other ++ text.flatMap fun c => c :: other
  else replaceAfter word other 0 text

/-- The text in which each line break, whatever its form, is a line feed. -/
def unifyBreaks : List Char → List Char
  | [] => []
  | '\r' :: '\n' :: rest => '\n' :: unifyBreaks rest
  | c :: rest => (if c = '\r' then '\n' else c) :: unifyBreaks rest

theorem splitOn_ne_nil (separator : Char) (text : List Char) : splitOn separator text ≠ [] := by
  induction text with
  | nil => simp [splitOn]
  | cons c rest ih =>
    cases pieces : splitOn separator rest with
    | nil => exact absurd pieces ih
    | cons => simp only [splitOn, pieces]; split <;> simp

theorem joinWith_splitOn (separator : Char) (text : List Char) :
    joinWith [separator] (splitOn separator text) = text := by
  induction text with
  | nil => rfl
  | cons c rest ih =>
    cases pieces : splitOn separator rest with
    | nil => exact absurd pieces (splitOn_ne_nil separator rest)
    | cons piece more =>
      rw [pieces] at ih
      simp only [splitOn, pieces]
      split
      · next same => rw [joinWith.eq_3 _ _ _ (by simp), ih]; simp [same]
      · cases more <;> simp_all [joinWith]

theorem flatten_wholeLines (text : List Char) : (wholeLines text).flatten = text := by
  induction text with
  | nil => rfl
  | cons c rest ih =>
    simp only [wholeLines]
    split
    · next same => simp [ih, same]
    · cases found : wholeLines rest with
      | nil => rw [found] at ih; simp [← ih]
      | cons line others => rw [found] at ih; simp [← ih]

end Scaffold.Text
