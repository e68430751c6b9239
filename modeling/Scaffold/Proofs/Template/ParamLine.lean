import Scaffold.Proofs.Template.LoopLine
import Scaffold.Proofs.Template.Outline
import Scaffold.Proofs.Text.Lines

/-!
Templates that are one line with placeholders: references to parameters, with texts before, between
and after them. The analysis of such a template finds each parameter once, in the order of their first
use, with the trimmed line.
-/

namespace Scaffold.Template

open Text

/-- A line with placeholders: a text and a placeholder, then more of both, and a text at the end. -/
structure ParamLine where
  first : List Char
  name : String
  more : List (List Char × String)
  last : List Char

/-- A placeholder for a parameter. -/
def placeholder (name : String) : List Char :=
  '{' :: '{' :: ' ' :: (name.toList ++ [' ', '}', '}'])

/-- A character that neither goes on with a value nor with a number: the value before it ends. -/
def isEnd (c : Char) : Bool :=
  !isWord c && c != '$' && c != '.' && c != '-'

/-- A character of a literal text: it neither opens nor closes a tag, nor breaks a line, nor quotes. -/
def isBare (c : Char) : Bool :=
  isLiteral c && c != '\'' && c != '"'

/-- The names that mean something else than a parameter in an expression of their own. -/
def reservedNames : List String :=
  ["true", "false", "none", "True", "False", "None", "not", "self"]

namespace ParamLine

/-- The placeholders of the line, each with the text before it. -/
def places (line : ParamLine) : List (List Char × String) :=
  (line.first, line.name) :: line.more

/-- The texts of the line. -/
def literals (line : ParamLine) : List (List Char) :=
  line.first :: (line.more.map (·.1) ++ [line.last])

/-- The names in the placeholders, one after the other. -/
def names (line : ParamLine) : List String :=
  line.places.map (·.2)

/-- The parameters in the order of their first use. -/
def params (line : ParamLine) : List String :=
  line.names.eraseDups

/-- The line with something in place of its placeholders. -/
def fill (line : ParamLine) (shown : String → List Char) : List Char :=
  filledPlaces shown line.places ++ line.last

def template (line : ParamLine) : List Char :=
  line.fill placeholder

/-- The names are names of variables that are not reserved, and the texts have neither braces nor line
breaks. -/
structure Plain (line : ParamLine) : Prop where
  names : ∀ name ∈ line.names, isVariable name.toList = true ∧ name ∉ reservedNames
  literals : ∀ text ∈ line.literals, ∀ c ∈ text, isLiteral c = true

/-- The names are names of variables that are not reserved; the texts have neither braces nor quotes
nor line breaks; the line begins with something that is no blank; and after each placeholder comes
the end of the line or a character at which a value ends. -/
structure Shaped (line : ParamLine) : Prop where
  names : ∀ name ∈ line.names, isVariable name.toList = true ∧ name ∉ reservedNames
  literals : ∀ text ∈ line.literals, ∀ c ∈ text, isBare c = true
  begins : line.first.head?.any (!isBlank ·) = true
  between : ∀ place ∈ line.more, place.1.head?.any isEnd = true
  last : line.last.head?.all isEnd = true

/-- The line without blanks at its end. -/
def trimmed (line : ParamLine) : ParamLine :=
  { line with last := trimRight line.last }

/-- The line without blanks at either end. -/
def stripped (line : ParamLine) : ParamLine :=
  { line with first := trimLeft line.first, last := trimRight line.last }

end ParamLine

variable {line : ParamLine} {name : String} {back : List Char} {places : List (List Char × String)}

theorem placeholder_ne_nil (name : String) : placeholder name ≠ [] :=
  List.cons_ne_nil _ _

theorem isLiteral_of_isBare {c : Char} (bare : isBare c = true) : isLiteral c = true := by
  simp only [isBare, Bool.and_eq_true] at bare
  exact bare.1.1

namespace ParamLine

theorem Shaped.plain (shaped : line.Shaped) : line.Plain :=
  ⟨shaped.names, fun text listed c member => isLiteral_of_isBare (shaped.literals text listed c member)⟩

theorem Plain.free (plain : line.Plain) : ∀ name ∈ line.names, name ∉ reservedNames :=
  fun name listed => (plain.names name listed).2

theorem Plain.plainPlaces (plain : line.Plain) : PlainPlaces line.places := by
  have literals := plain.literals
  simp only [ParamLine.literals, List.forall_mem_cons, List.forall_mem_append,
    List.forall_mem_map] at literals
  intro place member
  refine ⟨?_, (plain.names _ (List.mem_map_of_mem member)).1⟩
  rcases List.mem_cons.mp member with rfl | later
  · exact literals.1
  · exact literals.2.1 place later

theorem Plain.literal_last (plain : line.Plain) : ∀ c ∈ line.last, isLiteral c = true :=
  plain.literals line.last (by simp [ParamLine.literals])

theorem Shaped.trimmed (shaped : line.Shaped) : line.trimmed.Shaped := by
  obtain ⟨blanks, _, split, _⟩ := trimRight_spec line.last
  have literals := shaped.literals
  simp only [ParamLine.literals, List.forall_mem_cons, List.forall_mem_append,
    List.not_mem_nil, false_implies, implies_true, and_true] at literals
  refine ⟨shaped.names, ?_, shaped.begins, shaped.between, ?_⟩
  · simp only [ParamLine.literals, List.forall_mem_cons, List.forall_mem_append,
      List.not_mem_nil, false_implies, implies_true, and_true]
    refine ⟨literals.1, literals.2.1, fun c member => literals.2.2 c ?_⟩
    rw [split]
    exact List.mem_append_left _ member
  · have ends := shaped.last
    rw [split] at ends
    change (trimRight line.last).head?.all isEnd = true
    cases kept : trimRight line.last with
    | nil => rfl
    | cons c text =>
      rw [kept] at ends
      exact ends

end ParamLine

/-! ### Scanning the line -/

theorem absent_placeholder (proper : isVariable name.toList = true) :
    '{' ∉ name.toList ++ [' ', '}', '}'] := by
  have name : '{' ∉ name.toList := absent_of_isVariable proper (by decide)
  simp [name]

section Pieces

variable {α : Type} {scan : Scan α}

theorem AtBrace.pieces_placeholders (atBrace : AtBrace scan)
    (first : ∀ rest, scan ('{' :: '{' :: rest) = none)
    (second : ∀ rest, scan ('{' :: ' ' :: rest) = none) (plain : PlainPlaces places)
    (back : List Char) :
    pieces scan (filledPlaces placeholder places ++ back) =
      (filledPlaces placeholder places).map .char ++ pieces scan back := by
  induction places with
  | nil => rfl
  | cons place places ih =>
    obtain ⟨⟨literal, proper⟩, plain⟩ := List.forall_mem_cons.mp plain
    have here : pieces scan (placeholder place.2 ++ (filledPlaces placeholder places ++ back)) = _ :=
      atBrace.pieces_expression first second (absent_placeholder proper) _
    rw [filledPlaces_cons, List.append_assoc, List.append_assoc,
      atBrace.pieces_append (absent_of_isLiteral literal), here, ih plain]
    simp [placeholder]

/-- A scanner that recognises nothing at the braces of an expression passes the whole line. -/
theorem AtBrace.pieces_fill (atBrace : AtBrace scan)
    (first : ∀ rest, scan ('{' :: '{' :: rest) = none)
    (second : ∀ rest, scan ('{' :: ' ' :: rest) = none) (plain : line.Plain) :
    pieces scan line.template = line.template.map .char := by
  have last := atBrace.pieces_append (absent_of_isLiteral plain.literal_last) []
  rw [List.append_nil] at last
  rw [ParamLine.template, ParamLine.fill,
    atBrace.pieces_placeholders first second plain.plainPlaces, last, List.map_append]
  exact congrArg _ (List.append_nil _)

end Pieces

theorem atBrace_placeholder? : AtBrace placeholder? := by
  intro c rest other
  rw [placeholder?, afterOpening?_of_ne other]
  rfl

theorem afterOpening?_placeholder (proper : isVariable name.toList = true) (back : List Char) :
    afterOpening? ['{', '{'] (placeholder name ++ back) =
      some (name.toList ++ (' ' :: '}' :: '}' :: back)) := by
  have blank : ∀ c ∈ [' '], isBlank c = true := List.forall_mem_singleton.mpr rfl
  have opened := afterOpening?_name blank (isTagName_of_isVariable proper) ['{', '{']
    (' ' :: '}' :: '}' :: back)
  simpa [placeholder] using opened

/-- A name in braces is a placeholder, whatever blanks are around it. -/
theorem placeholder?_blanks {before behind : List Char} (blank : ∀ c ∈ before ++ behind, isBlank c = true)
    (proper : isTagName name.toList = true) (back : List Char) :
    placeholder? ('{' :: '{' :: (before ++ (name.toList ++ (behind ++ '}' :: '}' :: back)))) =
      some (name, back) := by
  obtain ⟨blank, blank'⟩ := List.forall_mem_append.mp blank
  have opened := afterOpening?_name blank proper ['{', '{'] (behind ++ '}' :: '}' :: back)
  have stopped : ∀ c ∈ (behind ++ '}' :: '}' :: back).head?, isWord c = false := by
    cases behind with
    | nil => simp [isWord]
    | cons b behind => exact head_blanks_append (List.cons_ne_nil b behind) blank' _
  simp only [List.cons_append, List.nil_append] at opened
  simp only [placeholder?, Option.bind_eq_bind, opened, Option.bind_some, word?_of_isTagName proper stopped,
    afterClosing?_blanks blank' back]

theorem placeholder?_placeholder (proper : isVariable name.toList = true) (back : List Char) :
    placeholder? (placeholder name ++ back) = some (name, back) := by
  have blank : ∀ c ∈ [' '] ++ [' '], isBlank c = true := by simp [isBlank]
  have found := placeholder?_blanks blank (isTagName_of_isVariable proper) back
  simpa [placeholder] using found

theorem findAll_placeholders (plain : PlainPlaces places) (back : List Char) :
    findAll placeholder? (filledPlaces placeholder places ++ back) =
      places.map (·.2) ++ findAll placeholder? back := by
  induction places with
  | nil => rfl
  | cons place places ih =>
    obtain ⟨⟨literal, proper⟩, plain⟩ := List.forall_mem_cons.mp plain
    rw [filledPlaces_cons, List.append_assoc, List.append_assoc,
      atBrace_placeholder?.findAll_append (absent_of_isLiteral literal),
      findAll_some (placeholder_ne_nil _) (placeholder?_placeholder proper _), ih plain]
    rfl

namespace ParamLine

theorem Plain.findAll_template (plain : line.Plain) :
    findAll placeholder? line.template = line.names := by
  have scanned := findAll_placeholders plain.plainPlaces line.last
  have rest := atBrace_placeholder?.findAll_append (absent_of_isLiteral plain.literal_last) []
  rw [List.append_nil] at rest
  rw [template, fill, scanned, rest]
  exact List.append_nil _

theorem Plain.withoutComments_template (plain : line.Plain) :
    withoutComments line.template = line.template := by
  rw [withoutComments, eraseAll,
    atBrace_comment?.pieces_fill (fun _ => rfl) (fun _ => rfl) plain, List.filterMap_map]
  exact List.filterMap_some

/-! ### The analysis -/

theorem tight_placeholder (name : String) : Tight (placeholder name) := by
  refine ⟨placeholder_ne_nil name, by simp [placeholder, isBlank], ?_⟩
  have split : placeholder name = ('{' :: '{' :: ' ' :: (name.toList ++ [' ', '}'])) ++ ['}'] := by
    simp [placeholder]
  rw [split, List.getLast?_append_of_ne_nil _ (List.cons_ne_nil _ _)]
  simp [isBlank]

theorem trim_template (line : ParamLine) : trim line.template = line.stripped.template := by
  obtain ⟨before, all, opened, begins⟩ := trimLeft_spec line.first
  obtain ⟨after, all', closed, ends⟩ := trimRight_spec line.last
  have tight : Tight (placeholder line.name ++ filledPlaces placeholder line.more) :=
    LoopLine.tight_append_filledPlaces (tight_placeholder line.name)
      fun place _ => tight_placeholder place.2
  have whole : Tight line.stripped.template := by
    have both := (tight.precede begins).follow ends
    rwa [← filledPlaces_cons] at both
  have form : line.template = before ++ (line.stripped.template ++ after) := by
    simp only [template, fill, places, stripped, filledPlaces_cons, List.append_assoc]
    rw [← closed, ← List.append_assoc before, ← opened]
  rw [form]
  exact trim_between all all' whole

theorem Shaped.trim_template (shaped : line.Shaped) :
    trim line.template = line.trimmed.template := by
  have begins : trimLeft line.first = line.first := by
    refine trimLeft_append [] (by simp) fun c head => ?_
    simpa [Option.mem_def.mp head] using shaped.begins
  rw [ParamLine.trim_template, stripped, begins]
  rfl

def lineKind (trimmed : List Char) : Kind :=
  if trimmed.contains '\'' || trimmed.contains '"' then .stringLiteral else .identifier

/-- The block of a parameter: the trimmed line that holds its placeholder. -/
def block (line : ParamLine) (name : String) : ParamBlock :=
  ⟨name, line.trimmed.template, .identifier⟩

theorem absent_template {d : Char} (absent : ∀ text ∈ line.literals, d ∉ text)
    (plain : PlainPlaces line.places) (strange : isVariablePart d = false)
    (noSign : d ≠ '{' ∧ d ≠ ' ' ∧ d ≠ '}') : d ∉ line.template := by
  simp only [ParamLine.literals, List.forall_mem_cons, List.forall_mem_append,
    List.forall_mem_map, List.not_mem_nil, false_implies, implies_true, and_true] at absent
  rw [template, fill, List.mem_append, not_or]
  refine ⟨fun member => ?_, absent.2.2⟩
  obtain ⟨place, listed, within⟩ := List.mem_flatMap.mp member
  have before : d ∉ place.1 := by
    rcases List.mem_cons.mp listed with rfl | later
    · exact absent.1
    · exact absent.2.1 place later
  have name : d ∉ place.2.toList := absent_of_isVariable (plain place listed).2 strange
  simp [placeholder, before, name, noSign] at within

theorem Plain.absent_template {d : Char} (plain : line.Plain) (other : isLiteral d = false)
    (strange : isVariablePart d = false) (noSign : d ≠ '{' ∧ d ≠ ' ' ∧ d ≠ '}') :
    d ∉ line.template :=
  ParamLine.absent_template
    (fun text listed => absent_of_forall_isLiteral (plain.literals text listed) other)
    plain.plainPlaces strange noSign

/-- Of blocks whose names are new, the first of each name is kept. -/
theorem newParams_map (seen names : List String) (block : String → ParamBlock)
    (named : ∀ name, (block name).name = name) :
    Analysis.newParams seen (names.map block) =
      ((names.filter (!seen.contains ·)).eraseDups).map block := by
  induction names generalizing seen with
  | nil => rfl
  | cons name names ih =>
    rw [List.map_cons, Analysis.newParams, named]
    cases known : seen.contains name with
    | true =>
      rw [if_pos rfl, ih, List.filter_cons_of_neg (by rw [known]; decide)]
    | false =>
      have later : (names.filter (!seen.contains ·)).filter (!· == name) =
          names.filter (!(name :: seen).contains ·) := by
        rw [List.filter_filter]
        refine List.filter_congr fun other _ => ?_
        rw [List.contains_cons, Bool.not_or]
      rw [if_neg Bool.false_ne_true, ih, List.filter_cons_of_pos (by rw [known]; rfl),
        List.eraseDups_cons, later, List.map_cons]

theorem Plain.textParams_template (plain : line.Plain) :
    textParams line.template =
      line.names.map (⟨·, line.stripped.template, lineKind line.stripped.template⟩) := by
  have inLine : '\n' ∉ line.template := plain.absent_template rfl rfl (by decide)
  rw [textParams, lines, splitOn_of_absent inLine, List.flatMap_singleton, lineParams,
    plain.findAll_template, ParamLine.trim_template]
  rfl

/-- The analysis finds each parameter once, and nothing stands in its way. -/
theorem Plain.analyze_template (plain : line.Plain) (strict : Bool) :
    analyze strict line.template = ([], .ok (line.params.map fun name =>
      .param ⟨name, line.stripped.template, lineKind line.stripped.template⟩)) := by
  let block (name : String) : ParamBlock :=
    ⟨name, line.stripped.template, lineKind line.stripped.template⟩
  have pieces : pieces loopTag? line.template = line.template.map .char :=
    atBrace_loopTag?.pieces_fill (fun _ => rfl) (fun _ => rfl) plain
  have whole : outline line.template = .done line.template := by
    have text := outlineOf_map_char line.template []
    rw [List.append_nil] at text
    rw [outline, pieces, text]
    exact congrArg Outline.done (List.append_nil _)
  have found := newParams_map [] line.names block fun _ => rfl
  have all : line.names.filter (fun name => !([] : List String).contains name) = line.names :=
    List.filter_eq_self.mpr fun _ _ => rfl
  rw [all] at found
  have analysis : Analysis.ofTemplate line.template =
      ⟨line.params.map fun name => .param (block name), none⟩ := by
    rw [Analysis.ofTemplate, plain.withoutComments_template, whole, Analysis.ofOutline,
      plain.textParams_template, found, List.map_map]
    rfl
  have blocks : (Analysis.ofTemplate line.template).blocks =
      line.params.map fun name => .param (block name) := by
    rw [analysis, Analysis.blocks, List.filterMap_map]
    exact congrFun List.filterMap_eq_map' _
  rw [← blocks]
  refine Analysis.analyze_of_clear ?_ ?_ strict
  · rw [analysis]
  · simp [analysis]

/-- Without quotes the parameters are identifiers. -/
theorem Shaped.analyze_template (shaped : line.Shaped) (strict : Bool) :
    analyze strict line.template =
      ([], .ok (line.params.map fun name => .param (line.block name))) := by
  have trimmed : line.stripped.template = line.trimmed.template := by
    rw [← ParamLine.trim_template, shaped.trim_template]
  have unquoted : ∀ d, isBare d = false → isVariablePart d = false → d ≠ '{' ∧ d ≠ ' ' ∧ d ≠ '}' →
      line.trimmed.template.contains d = false := by
    intro d other strange noSign
    rw [Bool.eq_false_iff, Ne, List.contains_iff_mem]
    refine ParamLine.absent_template (fun text listed member => ?_) shaped.trimmed.plain.plainPlaces
      strange noSign
    rw [shaped.trimmed.literals text listed d member] at other
    cases other
  have kind : lineKind line.trimmed.template = .identifier := by
    rw [lineKind, unquoted '\'' rfl rfl (by decide), unquoted '"' rfl rfl (by decide)]
    rfl
  rw [shaped.plain.analyze_template, trimmed, kind]
  rfl

end ParamLine

end Scaffold.Template
