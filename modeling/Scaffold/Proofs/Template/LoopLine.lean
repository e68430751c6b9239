import Scaffold.Pattern.Basic
import Scaffold.Proofs.Text.Word
import Scaffold.Render.Datum
import Scaffold.Template.Analysis

/-!
Templates that are one loop with one line for its body: references to fields of the item, with texts
before, between and after them. The analysis of such a template finds the loop and nothing else, with
its trimmed body and the fields in the order of their first use.
-/

namespace Scaffold.Template

open Text

/-- A loop with one line for its body. The line is a text and a reference to a field, then more of
both, and a text at the end. -/
structure LoopLine where
  item : String
  collection : String
  first : List Char
  field : String
  more : List (List Char × String)
  last : List Char

/-- A reference to a field of a loop's item. -/
def reference (item field : String) : List Char :=
  ['{', '{', ' '] ++ (item.toList ++ ('.' :: (field.toList ++ [' ', '}', '}'])))

/-- The opening tag of a loop over a named collection. -/
def forOpening (item collection : String) : List Char :=
  ['{', '%', ' ', 'f', 'o', 'r', ' '] ++
    (item.toList ++ ([' ', 'i', 'n', ' '] ++ (collection.toList ++ [' ', '%', '}'])))

/-- Texts, each with what stands for the field after it. -/
def filledPlaces (shown : String → List Char) (places : List (List Char × String)) : List Char :=
  places.flatMap fun place => place.1 ++ shown place.2

/-- A character that neither opens nor closes a tag nor breaks a line. -/
def isLiteral (c : Char) : Bool :=
  c != '{' && c != '}' && c != '\n' && c != '\r'

/-- A character at which the value of a field ends. -/
def isStop (c : Char) : Bool :=
  !CharClass.bare.holds c

/-- The words that the template language has a use for in a loop. -/
def reservedWords : List String :=
  ["true", "false", "none", "True", "False", "None", "and", "or", "not", "in", "is", "if", "else",
   "recursive", "loop", "self"]

namespace LoopLine

/-- The references of the line, each with the text before it. -/
def places (line : LoopLine) : List (List Char × String) :=
  (line.first, line.field) :: line.more

/-- The texts of the line. -/
def literals (line : LoopLine) : List (List Char) :=
  line.first :: (line.more.map (·.1) ++ [line.last])

/-- The names of the fields that the line refers to, one after the other. -/
def names (line : LoopLine) : List String :=
  line.places.map (·.2)

/-- The fields of the line in the order of their first use. -/
def fields (line : LoopLine) : List String :=
  line.names.eraseDups

/-- The line with something in place of its references. -/
def fill (line : LoopLine) (shown : String → List Char) : List Char :=
  filledPlaces shown line.places ++ line.last

/-- A line for each of several assignments of texts to fields. -/
def filledLines (line : LoopLine) (assignments : List (String → List Char)) : List Char :=
  assignments.flatMap fun texts => line.fill texts ++ ['\n']

def body (line : LoopLine) : List Char :=
  line.fill (reference line.item)

/-- The opening tag of the loop. -/
def opening (line : LoopLine) : List Char :=
  ['{', '%', ' ', 'f', 'o', 'r', ' '] ++
    (line.item.toList ++ ([' ', 'i', 'n', ' '] ++ (line.collection.toList ++ [' ', '%', '}'])))

/-- The closing tag of the loop. -/
def closing : List Char :=
  "\x7b% endfor %\x7d".toList

/-- The template: the two tags and the line between them, each on a line of its own. -/
def template (line : LoopLine) : List Char :=
  line.opening ++ ('\n' :: (line.body ++ ('\n' :: (closing ++ ['\n']))))

/-- The names are names of variables that mean nothing else; the texts have neither braces nor line
breaks; and after each reference comes a character at which a value ends. -/
structure Shaped (line : LoopLine) : Prop where
  item : isVariable line.item.toList = true ∧ line.item ∉ reservedWords
  collection : isVariable line.collection.toList = true ∧ line.collection ∉ reservedWords
  fields : ∀ place ∈ line.places,
    isVariable place.2.toList = true ∧ place.2 ∉ Render.operationNames (.map [])
  literals : ∀ text ∈ line.literals, ∀ c ∈ text, isLiteral c = true
  between : ∀ place ∈ line.more, place.1.head?.any isStop = true
  last : line.last.head?.all isStop = true

/-- The line without blanks around it. -/
def trimmed (line : LoopLine) : LoopLine :=
  { line with first := trimLeft line.first, last := trimRight line.last }

end LoopLine

variable {line : LoopLine} {shown : String → List Char} {item collection field : String}
  {front back text rest : List Char} {places : List (List Char × String)}

theorem reference_ne_nil (item field : String) : reference item field ≠ [] :=
  List.cons_ne_nil _ _

theorem filledPlaces_cons (shown : String → List Char) (text : List Char) (field : String)
    (places : List (List Char × String)) :
    filledPlaces shown ((text, field) :: places) =
      text ++ (shown field ++ filledPlaces shown places) := by
  rw [filledPlaces, List.flatMap_cons, List.append_assoc]
  rfl

/-! ### Trimming -/

namespace LoopLine

/-- Whatever the line is filled with, the trimmed line stands in it between the same blanks. -/
theorem fill_trimmed (line : LoopLine) :
    ∃ front back, (∀ c ∈ front, isBlank c = true) ∧ (∀ c ∈ back, isBlank c = true) ∧
      ∀ shown, line.fill shown = front ++ (line.trimmed.fill shown ++ back) := by
  obtain ⟨front, before, first, _⟩ := trimLeft_spec line.first
  obtain ⟨back, after, last, _⟩ := trimRight_spec line.last
  refine ⟨front, back, before, after, fun shown => ?_⟩
  simp only [fill, places, trimmed, filledPlaces_cons, List.append_assoc]
  rw [← last, ← List.append_assoc front, ← first]

theorem Shaped.trimmed (shaped : line.Shaped) : line.trimmed.Shaped := by
  obtain ⟨blanks, _, first, _⟩ := trimLeft_spec line.first
  obtain ⟨more, _, last, _⟩ := trimRight_spec line.last
  have literals := shaped.literals
  simp only [LoopLine.literals, List.forall_mem_cons, List.forall_mem_append,
    List.not_mem_nil, false_implies, implies_true, and_true] at literals
  refine ⟨shaped.item, shaped.collection, ?_, ?_, shaped.between, ?_⟩
  · rintro place (_ | ⟨_, later⟩)
    · exact shaped.fields (line.first, line.field) (List.mem_cons_self)
    · exact shaped.fields place (List.mem_cons_of_mem _ later)
  · simp only [LoopLine.literals, List.forall_mem_cons, List.forall_mem_append,
      List.not_mem_nil, false_implies, implies_true, and_true]
    refine ⟨fun c member => literals.1 c ?_, literals.2.1, fun c member => literals.2.2 c ?_⟩
    · rw [first]
      exact List.mem_append_right _ member
    · rw [last]
      exact List.mem_append_left _ member
  · have begins := shaped.last
    rw [last] at begins
    change (trimRight line.last).head?.all isStop = true
    cases kept : trimRight line.last with
    | nil => rfl
    | cons c text =>
      rw [kept] at begins
      exact begins

theorem tight_append_filledPlaces (tight : Tight front)
    (others : ∀ place ∈ places, Tight (shown place.2)) :
    Tight (front ++ filledPlaces shown places) := by
  induction places generalizing front with
  | nil => rwa [filledPlaces, List.flatMap_nil, List.append_nil]
  | cons place places ih =>
    rw [List.forall_mem_cons] at others
    have longer := ih (tight.append place.1 others.1) others.2
    rwa [List.append_assoc, List.append_assoc, ← filledPlaces_cons] at longer

/-- A line whose references are filled with tight texts is tight once it is trimmed. -/
theorem tight_fill (tight : ∀ place ∈ line.places, Tight (shown place.2)) :
    Tight (line.trimmed.fill shown) := by
  obtain ⟨value, others⟩ := List.forall_mem_cons.mp tight
  obtain ⟨_, _, _, begins⟩ := trimLeft_spec line.first
  obtain ⟨_, _, _, ends⟩ := trimRight_spec line.last
  have whole := ((tight_append_filledPlaces value others).precede begins).follow ends
  rwa [← filledPlaces_cons] at whole

/-- Such a line is left when the filled line is trimmed, with blanks around it or not. -/
theorem trim_fill (tight : ∀ place ∈ line.places, Tight (shown place.2))
    (before : ∀ c ∈ front, isBlank c = true) (after : ∀ c ∈ back, isBlank c = true) :
    trim (front ++ (line.fill shown ++ back)) = line.trimmed.fill shown := by
  obtain ⟨front', back', before', after', split⟩ := line.fill_trimmed
  have whole := trim_between (List.forall_mem_append.mpr ⟨before, before'⟩)
    (List.forall_mem_append.mpr ⟨after', after⟩) (tight_fill tight)
  simpa only [split, List.append_assoc] using whole

end LoopLine

/-! ### Scanning the line -/

/-- The texts are literals, and the fields have names of variables. -/
def PlainPlaces (places : List (List Char × String)) : Prop :=
  ∀ place ∈ places, (∀ c ∈ place.1, isLiteral c = true) ∧ isVariable place.2.toList = true

/-- A literal text lacks the characters that are not literal. -/
theorem absent_of_forall_isLiteral {d : Char} (literal : ∀ c ∈ text, isLiteral c = true)
    (other : isLiteral d = false) : d ∉ text := by
  intro member
  rw [literal d member] at other
  cases other

theorem absent_of_isLiteral (literal : ∀ c ∈ text, isLiteral c = true) : '{' ∉ text :=
  absent_of_forall_isLiteral literal rfl

namespace LoopLine

theorem Shaped.plainPlaces (shaped : line.Shaped) : PlainPlaces line.places := by
  have literals := shaped.literals
  simp only [LoopLine.literals, List.forall_mem_cons, List.forall_mem_append,
    List.forall_mem_map] at literals
  intro place member
  refine ⟨?_, (shaped.fields place member).1⟩
  rcases List.mem_cons.mp member with rfl | later
  · exact literals.1
  · exact literals.2.1 place later

theorem Shaped.literal_last (shaped : line.Shaped) : ∀ c ∈ line.last, isLiteral c = true :=
  shaped.literals line.last (by simp [LoopLine.literals])

end LoopLine

/-- A scanner recognises nothing that does not begin with a brace. -/
def AtBrace {α : Type} (scan : Scan α) : Prop :=
  ∀ c rest, c ≠ '{' → scan (c :: rest) = none

theorem afterPrefix?_of_ne {c d : Char} (other : c ≠ d) (front rest : List Char) :
    afterPrefix? (d :: front) (c :: rest) = none := by
  simp [afterPrefix?, List.isPrefixOf?, Ne.symm other]

theorem afterOpening?_of_ne {c d : Char} (other : c ≠ d) (front rest : List Char) :
    afterOpening? (d :: front) (c :: rest) = none := by
  rw [afterOpening?, afterPrefix?_of_ne other]
  rfl

theorem atBrace_comment? : AtBrace comment? := by
  intro c rest other
  rw [comment?, afterPrefix?_of_ne other]
  rfl

theorem atBrace_loopTag? : AtBrace loopTag? := by
  intro c rest other
  rw [loopTag?, forTag?, forHead?, endTag?, afterOpening?_of_ne other]
  rfl

theorem atBrace_fieldReference? (item : String) : AtBrace (fieldReference? item) := by
  intro c rest other
  rw [fieldReference?, afterOpening?_of_ne other]
  rfl

section Pieces

variable {α : Type} {scan : Scan α}

/-- Characters other than braces stand alone. -/
theorem AtBrace.pieces_append (atBrace : AtBrace scan) (absent : '{' ∉ front)
    (back : List Char) :
    pieces scan (front ++ back) = front.map .char ++ pieces scan back := by
  refine pieces_append_of_none ?_
  rintro before (_ | ⟨c, after⟩) rfl nonempty
  · exact absurd rfl nonempty
  · refine atBrace c (after ++ back) ?_
    rintro rfl
    exact absent (by simp)

theorem AtBrace.findAll_append (atBrace : AtBrace scan) (absent : '{' ∉ front)
    (back : List Char) : findAll scan (front ++ back) = findAll scan back := by
  rw [findAll, atBrace.pieces_append absent, List.filterMap_append, List.filterMap_map,
    List.filterMap_eq_nil_iff.mpr (by simp [Piece.value?]), List.nil_append, findAll]

/-- A scanner that recognises nothing at the braces of an expression passes it. -/
theorem AtBrace.pieces_expression (atBrace : AtBrace scan)
    (first : ∀ rest, scan ('{' :: '{' :: rest) = none)
    (second : ∀ rest, scan ('{' :: ' ' :: rest) = none) {inner : List Char} (absent : '{' ∉ inner)
    (back : List Char) :
    pieces scan ('{' :: '{' :: ' ' :: (inner ++ back)) =
      ('{' :: '{' :: ' ' :: inner).map .char ++ pieces scan back := by
  have inside : '{' ∉ ' ' :: inner := by simp [absent]
  have passed := atBrace.pieces_append inside back
  rw [pieces_none (first _), pieces_none (second _)]
  exact congrArg (fun more => Piece.char '{' :: Piece.char '{' :: more) passed

theorem AtBrace.pieces_reference (atBrace : AtBrace scan)
    (first : ∀ rest, scan ('{' :: '{' :: rest) = none)
    (second : ∀ rest, scan ('{' :: ' ' :: rest) = none)
    (proper : isVariable item.toList = true ∧ isVariable field.toList = true) (back : List Char) :
    pieces scan (reference item field ++ back) =
      (reference item field).map .char ++ pieces scan back := by
  have inside : '{' ∉ item.toList ++ ('.' :: (field.toList ++ [' ', '}', '}'])) := by
    have item : '{' ∉ item.toList := absent_of_isVariable proper.1 (by decide)
    have field : '{' ∉ field.toList := absent_of_isVariable proper.2 (by decide)
    simp [item, field]
  exact atBrace.pieces_expression first second inside back

theorem AtBrace.pieces_places (atBrace : AtBrace scan)
    (first : ∀ rest, scan ('{' :: '{' :: rest) = none)
    (second : ∀ rest, scan ('{' :: ' ' :: rest) = none) (proper : isVariable item.toList = true)
    (plain : PlainPlaces places) (back : List Char) :
    pieces scan (filledPlaces (reference item) places ++ back) =
      (filledPlaces (reference item) places).map .char ++ pieces scan back := by
  induction places with
  | nil => rfl
  | cons place places ih =>
    obtain ⟨⟨literal, proper'⟩, plain⟩ := List.forall_mem_cons.mp plain
    rw [filledPlaces_cons, List.append_assoc, List.append_assoc,
      atBrace.pieces_append (absent_of_isLiteral literal),
      atBrace.pieces_reference first second ⟨proper, proper'⟩, ih plain]
    simp only [List.map_append, List.append_assoc]

/-- Such a scanner passes a whole line. -/
theorem AtBrace.pieces_body (atBrace : AtBrace scan)
    (first : ∀ rest, scan ('{' :: '{' :: rest) = none)
    (second : ∀ rest, scan ('{' :: ' ' :: rest) = none) (shaped : line.Shaped) (back : List Char) :
    pieces scan (line.body ++ back) = line.body.map .char ++ pieces scan back := by
  rw [LoopLine.body, LoopLine.fill, List.append_assoc,
    atBrace.pieces_places first second shaped.item.1 shaped.plainPlaces,
    atBrace.pieces_append (absent_of_isLiteral shaped.literal_last), List.map_append,
    List.append_assoc]

end Pieces

/-! ### The tags -/

theorem word?_of_isTagName (proper : isTagName field.toList = true)
    (stopped : ∀ c ∈ rest.head?, isWord c = false) :
    word? (field.toList ++ rest) = some (field, rest) :=
  word?_append (ne_nil_of_isTagName proper) (isTagName_iff.mp proper).2 stopped

theorem head_append_of_isTagName (proper : isTagName field.toList = true) (rest : List Char) :
    ∀ c ∈ (field.toList ++ rest).head?, isBlank c = false :=
  begins_of_isWord (ne_nil_of_isTagName proper) (isTagName_iff.mp proper).2 rest

/-- Blanks between an opening pair and a name are passed. -/
theorem afterOpening?_name {blanks : List Char} (blank : ∀ c ∈ blanks, isBlank c = true)
    (proper : isTagName field.toList = true) (opening rest : List Char) :
    afterOpening? opening (opening ++ (blanks ++ (field.toList ++ rest))) =
      some (field.toList ++ rest) := by
  obtain ⟨c, letters, form, word, _⟩ := first_of_isTagName proper
  have dashless : dropOptional '-' (blanks ++ (field.toList ++ rest)) =
      blanks ++ (field.toList ++ rest) := by
    rw [form]
    cases blanks with
    | nil =>
      refine if_neg ?_
      rintro rfl
      cases word
    | cons b blanks =>
      refine if_neg ?_
      rintro rfl
      cases blank '-' List.mem_cons_self
  rw [afterOpening?, afterPrefix?_eq_some.mpr rfl, Option.map_some, dashless,
    trimLeft_append blanks blank (head_append_of_isTagName proper rest)]

/-- Blanks before a closing pair are passed. -/
theorem afterClosing?_blanks {blanks : List Char} (blank : ∀ c ∈ blanks, isBlank c = true)
    (back : List Char) : afterClosing? ['}', '}'] (blanks ++ '}' :: '}' :: back) = some back := by
  rw [afterClosing?, trimLeft_append blanks blank (by simp [isBlank])]
  rfl

theorem afterOpening?_reference (proper : isTagName item.toList = true) (field : String)
    (back : List Char) : afterOpening? ['{', '{'] (reference item field ++ back) =
      some (item.toList ++ ('.' :: (field.toList ++ (' ' :: '}' :: '}' :: back)))) := by
  have blank : ∀ c ∈ [' '], isBlank c = true := List.forall_mem_singleton.mpr rfl
  have opened := afterOpening?_name blank proper ['{', '{']
    ('.' :: (field.toList ++ (' ' :: '}' :: '}' :: back)))
  simpa [reference] using opened

theorem fieldReference?_reference (proper : isTagName item.toList = true)
    (proper' : isTagName field.toList = true) (back : List Char) :
    fieldReference? item (reference item field ++ back) = some (field, back) := by
  have named : afterPrefix? (item.toList ++ ['.'])
      (item.toList ++ ('.' :: (field.toList ++ (' ' :: '}' :: '}' :: back)))) =
        some (field.toList ++ (' ' :: '}' :: '}' :: back)) := by
    rw [afterPrefix?_eq_some, List.append_assoc]
    rfl
  have word : word? (field.toList ++ (' ' :: '}' :: '}' :: back)) =
      some (field, ' ' :: '}' :: '}' :: back) := word?_of_isTagName proper' (by simp [isWord])
  have closed : afterClosing? ['}', '}'] (' ' :: '}' :: '}' :: back) = some back := rfl
  simp only [fieldReference?, Option.bind_eq_bind, afterOpening?_reference proper,
    Option.bind_some, named, word, closed]

theorem findAll_filledPlaces (proper : isVariable item.toList = true)
    (plain : PlainPlaces places) (back : List Char) :
    findAll (fieldReference? item) (filledPlaces (reference item) places ++ back) =
      places.map (·.2) ++ findAll (fieldReference? item) back := by
  induction places with
  | nil => rfl
  | cons place places ih =>
    obtain ⟨⟨literal, proper'⟩, plain⟩ := List.forall_mem_cons.mp plain
    rw [filledPlaces_cons, List.append_assoc, List.append_assoc,
      (atBrace_fieldReference? item).findAll_append (absent_of_isLiteral literal),
      findAll_some (reference_ne_nil item _) (fieldReference?_reference
        (isTagName_of_isVariable proper) (isTagName_of_isVariable proper') _), ih plain]
    rfl

theorem forOpening_ne_nil (item collection : String) : forOpening item collection ≠ [] :=
  List.cons_ne_nil _ _

theorem forTag?_forOpening (named : isTagName item.toList = true)
    (named' : isTagName collection.toList = true) (back : List Char) :
    forTag? (forOpening item collection ++ back) = some (⟨item, collection⟩, back) := by
  have opened : afterOpening? ['{', '%'] (forOpening item collection ++ back) =
      some (['f', 'o', 'r'] ++ ([' '] ++ (item.toList ++ ([' '] ++ (['i', 'n'] ++ ([' '] ++
        (collection.toList ++ ' ' :: '%' :: '}' :: back))))))) := by
    simp only [forOpening, List.append_assoc, List.cons_append, List.nil_append]
    rfl
  have cut (front back : List Char) : afterPrefix? front (front ++ back) = some back :=
    afterPrefix?_eq_some.mpr rfl
  have space {rest : List Char} (begins : ∀ c ∈ rest.head?, isBlank c = false) :
      afterBlanks? ([' '] ++ rest) = some rest :=
    afterBlanks?_append (List.cons_ne_nil _ _) (List.forall_mem_singleton.mpr rfl) begins
  have preposition : ∀ c ∈ (['i', 'n'] ++ ([' '] ++ (collection.toList ++
      ' ' :: '%' :: '}' :: back))).head?, isBlank c = false := by
    simp [isBlank]
  have first : word? (item.toList ++ ([' '] ++ (['i', 'n'] ++ ([' '] ++ (collection.toList ++
      ' ' :: '%' :: '}' :: back))))) = some (item, _) := word?_of_isTagName named (by simp [isWord])
  have second : word? (collection.toList ++ ' ' :: '%' :: '}' :: back) = some (collection, _) :=
    word?_of_isTagName named' (by simp [isWord])
  have closed : afterClosing? ['%', '}'] (' ' :: '%' :: '}' :: back) = some back := rfl
  simp only [forTag?, forHead?, Option.bind_eq_bind, opened, Option.bind_some, cut,
    space (head_append_of_isTagName named _), first, space preposition,
    space (head_append_of_isTagName named' _), second, closed]

theorem pieces_comment?_forOpening (named : isTagName item.toList = true)
    (named' : isTagName collection.toList = true) (back : List Char) :
    pieces comment? (forOpening item collection ++ back) =
      (forOpening item collection).map .char ++ pieces comment? back := by
  have absent : '{' ∉ '%' :: ([' ', 'f', 'o', 'r', ' '] ++ (item.toList ++ ([' ', 'i', 'n', ' '] ++
      (collection.toList ++ [' ', '%', '}'])))) := by
    have item : '{' ∉ item.toList := absent_of_isTagName named (by decide)
    have collection : '{' ∉ collection.toList := absent_of_isTagName named' (by decide)
    simp [item, collection]
  have missed (rest : List Char) : comment? ('{' :: '%' :: rest) = none := rfl
  have passed := atBrace_comment?.pieces_append absent back
  exact (pieces_none (missed _)).trans (congrArg (Piece.char '{' :: ·) passed)

namespace LoopLine

theorem Shaped.findAll_body (shaped : line.Shaped) :
    findAll (fieldReference? line.item) line.body = line.names := by
  have scanned := findAll_filledPlaces shaped.item.1 shaped.plainPlaces line.last
  have rest := (atBrace_fieldReference? line.item).findAll_append
    (absent_of_isLiteral shaped.literal_last) []
  rw [List.append_nil] at rest
  rw [body, fill, scanned, rest]
  exact List.append_nil _

theorem opening_ne_nil (line : LoopLine) : line.opening ≠ [] :=
  List.cons_ne_nil _ _

theorem Shaped.forTag?_opening (shaped : line.Shaped) (back : List Char) :
    forTag? (line.opening ++ back) = some (⟨line.item, line.collection⟩, back) :=
  forTag?_forOpening (isTagName_of_isVariable shaped.item.1)
    (isTagName_of_isVariable shaped.collection.1) back

/-! ### The analysis -/

theorem Shaped.withoutComments_template (shaped : line.Shaped) :
    withoutComments line.template = line.template := by
  have body := atBrace_comment?.pieces_body (fun _ => rfl) (fun _ => rfl) shaped
  have lineFeed (rest : List Char) : pieces comment? ('\n' :: rest) =
      .char '\n' :: pieces comment? rest :=
    pieces_none (atBrace_comment? '\n' rest (by decide))
  have opened : ∀ back, pieces comment? (line.opening ++ back) =
      line.opening.map .char ++ pieces comment? back :=
    pieces_comment?_forOpening (isTagName_of_isVariable shaped.item.1)
      (isTagName_of_isVariable shaped.collection.1)
  have closed : pieces comment? (closing ++ ['\n']) = (closing ++ ['\n']).map .char := rfl
  have alone : pieces comment? line.template = line.template.map .char := by
    rw [template, opened, lineFeed, body, lineFeed, closed]
    simp only [List.map_append, List.map_cons]
  rw [withoutComments, eraseAll, alone, List.filterMap_map]
  exact List.filterMap_some

theorem remainderOf_map_char (chars source : List Char) (rest : List (Piece LoopTag)) :
    remainderOf 0 (chars.map .char ++ .found .closes source :: rest) =
      ⟨chars, false, some (source, outlineOf rest)⟩ := by
  induction chars with
  | nil => rfl
  | cons c chars ih =>
    rw [List.map_cons, List.cons_append, remainderOf, ih]
    rfl

theorem Shaped.outline_template (shaped : line.Shaped) :
    outline line.template =
      .loop [] ⟨⟨line.item, line.collection⟩, line.opening, '\n' :: (line.body ++ ['\n']), false,
        closing⟩ (.done ['\n']) := by
  have opens (rest : List Char) : loopTag? (line.opening ++ rest) =
      some (.opens ⟨line.item, line.collection⟩, rest) := by
    rw [loopTag?, shaped.forTag?_opening]
  have lineFeed (rest : List Char) : pieces loopTag? ('\n' :: rest) =
      .char '\n' :: pieces loopTag? rest :=
    pieces_none (atBrace_loopTag? '\n' rest (by decide))
  have body := atBrace_loopTag?.pieces_body (fun _ => rfl) (fun _ => rfl) shaped
  have closes : pieces loopTag? (closing ++ ['\n']) = [.found .closes closing, .char '\n'] := rfl
  have inner : remainderOf 0 (.char '\n' :: (line.body.map .char ++
      [.char '\n', .found .closes closing, .char '\n'])) =
        ⟨'\n' :: (line.body ++ ['\n']), false, some (closing, outlineOf [.char '\n'])⟩ := by
    simpa using remainderOf_map_char ('\n' :: (line.body ++ ['\n'])) closing [.char '\n']
  rw [outline, template, pieces_some line.opening_ne_nil (opens _), lineFeed, body, lineFeed, closes,
    outlineOf]
  change Outline.ofLoop _ _ (remainderOf 0 _) = _
  rw [inner]
  rfl

/-- The block of the loop: the trimmed line with its fields. -/
def block (line : LoopLine) : LoopBlock where
  name := line.collection
  body := line.trimmed.body
  item := line.item
  fields := line.fields.map (·, Kind.string)

theorem tight_reference (item field : String) : Tight (reference item field) := by
  refine ⟨reference_ne_nil item field, by simp [reference, isBlank], ?_⟩
  have split : reference item field =
      ('{' :: '{' :: ' ' :: (item.toList ++ ('.' :: (field.toList ++ [' ', '}'])))) ++ ['}'] := by
    simp [reference]
  rw [split, List.getLast?_append_of_ne_nil _ (List.cons_ne_nil _ _)]
  simp [isBlank]

theorem Shaped.readLoop_template (shaped : line.Shaped) (preceding opening closing : List Char) :
    readLoop preceding ⟨⟨line.item, line.collection⟩, opening, '\n' :: (line.body ++ ['\n']), false,
      closing⟩ = ⟨line.collection, some line.block, none⟩ := by
  have body : trim ('\n' :: (line.body ++ ['\n'])) = line.trimmed.body :=
    trim_fill (fun place _ => tight_reference line.item place.2) (by simp [isBlank] : ∀ c ∈ ['\n'], _)
      (by simp [isBlank])
  have fields : fieldsUsed line.item line.trimmed.body = line.fields := by
    rw [fieldsUsed]
    exact congrArg List.eraseDups shaped.trimmed.findAll_body
  have used : line.fields.isEmpty = false := by
    rw [LoopLine.fields, names, places, List.map_cons, List.eraseDups_cons]
    rfl
  simp only [readLoop, body, fields, used]
  rfl

/-- The analysis finds the loop and nothing else, and nothing stands in its way. -/
theorem Shaped.analyze_template (shaped : line.Shaped) (strict : Bool) :
    analyze strict line.template = ([], .ok [.loop line.block]) := by
  have analysis : Analysis.ofTemplate line.template =
      ⟨[.loop ⟨line.collection, some line.block, none⟩], none⟩ := by
    rw [Analysis.ofTemplate, shaped.withoutComments_template, shaped.outline_template,
      Analysis.ofOutline, shaped.readLoop_template]
    rfl
  rw [analyze, analysis]
  cases strict <;> rfl

end LoopLine

end Scaffold.Template
