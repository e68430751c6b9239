import Scaffold.Proofs.Extract.Placeholders
import Scaffold.Proofs.Template.LoopLine

/-!
The tags of all loops. The template language loops over a name or over a field of one; the analysis
knows the opening tags of the first kind only, and the closing tags of both. Main statement: the
analysis cuts a template where its loop tags are, but for the opening tags with a dotted name, which
it takes for text.
-/

namespace Scaffold.Template

open Text

/-! ### Tags of all loops -/

/-- The opening tag of a loop over a name or over a field of one: the tag up to the first name of its
collection, and the fields behind that, each with its dot. -/
structure PathTag where
  head : ForTag
  fields : List Char
  deriving DecidableEq, Repr

/-- A tag that opens or closes a loop of either kind. -/
inductive NestTag
  | opens (tag : PathTag)
  | closes
  deriving DecidableEq, Repr

/-- A character of a dotted name. -/
def isPathPart (c : Char) : Bool :=
  isWord c || c == '.'

/-- The whole opening tag of a loop over a name or a dotted name. -/
def pathTag? (text : List Char) : Option (PathTag × List Char) := do
  let (head, text) ← forHead? text
  let fields := text.takeWhile isPathPart
  if holds ['.', '.'] fields || endsWith ['.'] fields then none
  else
    let text ← afterClosing? ['%', '}'] (text.dropWhile isPathPart)
    some (⟨head, fields⟩, text)

/-- A loop tag of either kind at the start of a text. -/
def nestTag? (text : List Char) : Option (NestTag × List Char) :=
  match pathTag? text with
  | some (tag, rest) => some (.opens tag, rest)
  | none => (endTag? text).map fun (_, rest) => (.closes, rest)

variable {text rest more : List Char} {tag : ForTag} {head : ForTag} {fields : List Char}

/-- The rest of a text behind something without opening braces. -/
def Passed (text rest : List Char) : Prop :=
  ∃ used, '{' ∉ used ∧ text = used ++ rest

theorem Passed.refl (text : List Char) : Passed text text :=
  ⟨[], List.not_mem_nil, rfl⟩

theorem Passed.trans (first : Passed text more) (second : Passed more rest) : Passed text rest := by
  obtain ⟨used, absent, rfl⟩ := first
  obtain ⟨used', absent', rfl⟩ := second
  exact ⟨used ++ used', by simp [absent, absent'], (List.append_assoc used used' rest).symm⟩

theorem passed_dropWhile {p : Char → Bool} (other : p '{' = false) (text : List Char) :
    Passed text (text.dropWhile p) := by
  refine ⟨text.takeWhile p, fun member => ?_, List.takeWhile_append_dropWhile.symm⟩
  rw [List.mem_takeWhile_imp member] at other
  cases other

theorem passed_dropOptional {c : Char} (other : c ≠ '{') (text : List Char) :
    Passed text (dropOptional c text) := by
  cases text with
  | nil => exact .refl []
  | cons d text =>
    rw [dropOptional]
    split
    · next same => exact ⟨[d], by simpa [same] using Ne.symm other, rfl⟩
    · exact .refl _

theorem passed_afterPrefix? {front : List Char} (absent : '{' ∉ front)
    (found : afterPrefix? front text = some rest) : Passed text rest :=
  ⟨front, absent, afterPrefix?_eq_some.mp found⟩

theorem passed_word? {name : String} (found : word? text = some (name, rest)) : Passed text rest := by
  obtain ⟨_, all, split, _⟩ := word?_eq_some.mp found
  refine ⟨name.toList, fun member => ?_, split⟩
  cases all '{' member

theorem passed_afterBlanks? (found : afterBlanks? text = some rest) : Passed text rest := by
  cases text with
  | nil => cases found
  | cons c text =>
    rw [afterBlanks?] at found
    split at found
    · next blank =>
      cases found
      have solid : c ≠ '{' := by
        rintro rfl
        cases blank
      exact .trans ⟨[c], by simpa using Ne.symm solid, rfl⟩ (passed_dropWhile rfl text)
    · cases found

theorem passed_afterClosing? (found : afterClosing? ['%', '}'] text = some rest) :
    Passed text rest :=
  ((passed_dropWhile rfl text).trans (passed_dropOptional (by decide) _)).trans
    (passed_afterPrefix? (by decide) found)

/-- A tag of a statement begins with a brace, and what it was recognised by holds no other. -/
theorem passed_afterOpening? (found : afterOpening? ['{', '%'] text = some rest) :
    ∃ tail, text = '{' :: tail ∧ Passed tail rest := by
  obtain ⟨after, cut, rfl⟩ := Option.map_eq_some_iff.mp found
  obtain rfl := afterPrefix?_eq_some.mp cut
  refine ⟨'%' :: after, rfl, .trans ⟨['%'], by decide, rfl⟩ ?_⟩
  exact (passed_dropOptional (by decide) after).trans (passed_dropWhile rfl _)

/-- The head of a loop's opening tag says `for` right behind its opening. -/
theorem forHead?_eq_some (found : forHead? text = some (tag, rest)) :
    ∃ after, afterOpening? ['{', '%'] text = some ('f' :: after) ∧ Passed ('f' :: after) rest := by
  simp only [forHead?, Option.bind_eq_bind, Option.bind_eq_some_iff, Prod.exists] at found
  obtain ⟨after, opened, past, word, spaced, blank, item, behind, named, between, blank', past',
    preposition, spaced', blank'', collection, last, named', same⟩ := found
  cases same
  obtain rfl := afterPrefix?_eq_some.mp word
  refine ⟨['o', 'r'] ++ past, opened, ?_⟩
  have opening : Passed (['f', 'o', 'r'] ++ past) spaced :=
    (passed_afterPrefix? (by decide) word).trans (passed_afterBlanks? blank)
  have item : Passed spaced past' := ((passed_word? named).trans (passed_afterBlanks? blank')).trans
    (passed_afterPrefix? (by decide) preposition)
  exact (opening.trans item).trans ((passed_afterBlanks? blank'').trans (passed_word? named'))

theorem endTag?_eq_none_of_forHead? (found : forHead? text = some (tag, rest)) :
    endTag? text = none := by
  obtain ⟨after, opened, _⟩ := forHead?_eq_some found
  rw [endTag?, opened]
  rfl

/-- No tag ends where a dotted name goes on. -/
theorem afterClosing?_of_isPathPart {c : Char} (part : isPathPart c = true) (rest : List Char) :
    afterClosing? ['%', '}'] (c :: rest) = none := by
  have solid : isBlank c = false := by
    rcases (Bool.or_eq_true _ _).mp part with word | dot
    · exact isBlank_of_isWord word
    · obtain rfl := beq_iff_eq.mp dot
      rfl
  have other : ∀ d, isPathPart d = false → c ≠ d := by
    rintro d apart rfl
    rw [part] at apart
    cases apart
  rw [afterClosing?, trimLeft, List.dropWhile_cons_of_neg (by simp [solid]), dropOptional,
    if_neg (other '-' rfl), afterPrefix?_of_ne (other '%' rfl)]

theorem takeWhile_of_afterClosing? (closed : afterClosing? ['%', '}'] text = some rest) :
    text.takeWhile isPathPart = [] := by
  cases text with
  | nil => rfl
  | cons c text =>
    refine List.takeWhile_cons_of_neg fun part => ?_
    rw [afterClosing?_of_isPathPart part] at closed
    cases closed

theorem dropWhile_of_takeWhile {p : Char → Bool} (none : text.takeWhile p = []) :
    text.dropWhile p = text := by
  have whole := List.takeWhile_append_dropWhile (p := p) (l := text)
  rwa [none] at whole

/-- The tags that the analysis knows are those without fields. -/
theorem forTag?_eq_some_iff :
    forTag? text = some (tag, rest) ↔ pathTag? text = some (⟨tag, []⟩, rest) := by
  cases head : forHead? text with
  | none => simp [forTag?, pathTag?, head]
  | some found =>
    obtain ⟨found, after⟩ := found
    simp only [forTag?, pathTag?, head, Option.bind_eq_bind, Option.bind_some]
    constructor
    · intro whole
      obtain ⟨last, closed, same⟩ := Option.bind_eq_some_iff.mp whole
      cases same
      have none := takeWhile_of_afterClosing? closed
      rw [none, dropWhile_of_takeWhile none, closed]
      rfl
    · intro whole
      split at whole
      · cases whole
      · obtain ⟨last, closed, same⟩ := Option.bind_eq_some_iff.mp whole
        simp only [Option.some.injEq, Prod.mk.injEq, PathTag.mk.injEq] at same
        obtain ⟨⟨rfl, none⟩, rfl⟩ := same
        rw [dropWhile_of_takeWhile none] at closed
        rw [closed]
        rfl

theorem loopTag?_of_opens (found : nestTag? text = some (.opens ⟨tag, []⟩, rest)) :
    loopTag? text = some (.opens tag, rest) := by
  have known : forTag? text = some (tag, rest) := by
    rw [nestTag?] at found
    split at found
    · next scanned =>
      cases found
      exact forTag?_eq_some_iff.mpr scanned
    · obtain ⟨_, _, same⟩ := Option.map_eq_some_iff.mp found
      cases same
  rw [loopTag?, known]

/-- What is no tag of any loop is none that the analysis knows. -/
theorem forTag?_of_pathTag? (missed : pathTag? text = none) : forTag? text = none := by
  by_contra other
  obtain ⟨⟨tag, rest⟩, found⟩ := Option.ne_none_iff_exists'.mp other
  rw [forTag?_eq_some_iff.mp found] at missed
  cases missed

theorem loopTag?_of_closes (found : nestTag? text = some (.closes, rest)) :
    loopTag? text = some (.closes, rest) := by
  rw [nestTag?] at found
  split at found
  · cases found
  · next missed =>
    obtain ⟨⟨_, _⟩, ended, same⟩ := Option.map_eq_some_iff.mp found
    cases same
    rw [loopTag?, forTag?_of_pathTag? missed, ended]
    rfl

theorem loopTag?_of_none (missed : nestTag? text = none) : loopTag? text = none := by
  rw [nestTag?] at missed
  split at missed
  · cases missed
  · next unknown =>
    rw [Option.map_eq_none_iff] at missed
    rw [loopTag?, forTag?_of_pathTag? unknown, missed]
    rfl

theorem pathTag?_of_opens {tag : PathTag} (found : nestTag? text = some (.opens tag, rest)) :
    pathTag? text = some (tag, rest) := by
  rw [nestTag?] at found
  split at found
  · next scanned =>
    cases found
    exact scanned
  · obtain ⟨_, _, same⟩ := Option.map_eq_some_iff.mp found
    cases same

/-- The opening tag of a loop over a field is none that the analysis knows. -/
theorem loopTag?_of_dotted {c : Char}
    (found : nestTag? text = some (.opens ⟨tag, c :: fields⟩, rest)) : loopTag? text = none := by
  have scanned := pathTag?_of_opens found
  have unknown : forTag? text = none := by
    by_contra other
    obtain ⟨⟨tag', rest'⟩, plain⟩ := Option.ne_none_iff_exists'.mp other
    rw [forTag?_eq_some_iff.mp plain] at scanned
    cases scanned
  obtain ⟨⟨head, after⟩, headed, _⟩ := Option.bind_eq_some_iff.mp scanned
  rw [loopTag?, unknown, endTag?_eq_none_of_forHead? headed]
  rfl

/-- A loop tag is a brace and something without another one. -/
theorem nestTag?_passed {tag : NestTag} (found : nestTag? text = some (tag, rest)) :
    ∃ tail, text = '{' :: (tail ++ rest) ∧ '{' ∉ tail := by
  have passed : ∃ tail, text = '{' :: tail ∧ Passed tail rest := by
    rw [nestTag?] at found
    split at found
    · next scanned =>
      cases found
      obtain ⟨⟨head, after⟩, headed, closed⟩ := Option.bind_eq_some_iff.mp scanned
      obtain ⟨word, opened, past⟩ := forHead?_eq_some headed
      obtain ⟨tail, split, behind⟩ := passed_afterOpening? opened
      refine ⟨tail, split, (behind.trans past).trans ?_⟩
      dsimp only at closed
      split at closed
      · cases closed
      · obtain ⟨last, closed, same⟩ := Option.bind_eq_some_iff.mp closed
        cases same
        exact (passed_dropWhile rfl after).trans (passed_afterClosing? closed)
    · obtain ⟨⟨_, _⟩, ended, same⟩ := Option.map_eq_some_iff.mp found
      cases same
      simp only [endTag?, Option.bind_eq_bind, Option.bind_eq_some_iff] at ended
      obtain ⟨after, opened, past, word, last, closed, same⟩ := ended
      cases same
      obtain ⟨tail, split, behind⟩ := passed_afterOpening? opened
      exact ⟨tail, split, behind.trans
        ((passed_afterPrefix? (by decide) word).trans (passed_afterClosing? closed))⟩
  obtain ⟨tail, rfl, used, absent, rfl⟩ := passed
  exact ⟨used, rfl, absent⟩

theorem nestTag?_consuming : Consuming nestTag? := by
  intro text tag rest found
  obtain ⟨tail, split, _⟩ := nestTag?_passed found
  exact ⟨'{' :: tail, List.cons_ne_nil _ _, split⟩

/-- What the analysis sees of a piece: a tag of a loop over a field is text. -/
def visible : Piece NestTag → List (Piece LoopTag)
  | .char c => [.char c]
  | .found .closes source => [.found .closes source]
  | .found (.opens ⟨tag, []⟩) source => [.found (.opens tag) source]
  | .found (.opens ⟨_, _ :: _⟩) source => source.map .char

/-- The analysis cuts a template where its loops are cut, but for the tags that it does not see. -/
theorem pieces_loopTag? (text : List Char) :
    pieces loopTag? text = (pieces nestTag? text).flatMap visible := by
  induction text using scan_induction nestTag?_consuming with
  | nil => rfl
  | char c rest missed ih =>
    rw [pieces_none missed, pieces_none (loopTag?_of_none missed), ih]
    rfl
  | found used rest tag filled found ih =>
    rw [pieces_some filled found, List.flatMap_cons, ← ih]
    match tag with
    | .closes => exact pieces_some filled (loopTag?_of_closes found)
    | .opens ⟨tag, []⟩ => exact pieces_some filled (loopTag?_of_opens found)
    | .opens ⟨tag, c :: fields⟩ =>
      obtain ⟨tail, split, absent⟩ := nestTag?_passed found
      obtain rfl : used = '{' :: tail := List.append_cancel_right split
      have missed := loopTag?_of_dotted found
      rw [List.cons_append] at missed ⊢
      rw [pieces_none missed, atBrace_loopTag?.pieces_append absent]
      rfl

end Scaffold.Template
