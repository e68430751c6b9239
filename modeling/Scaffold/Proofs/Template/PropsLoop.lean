import Scaffold.Proofs.Template.Container
import Scaffold.Proofs.Template.ParamLine

/-!
Templates that are a loop inside a block for properties: a header line with placeholders, a line for
each item, and the brace that closes the block. The analysis finds the placeholders of the header, and
the loop with the header as its container.
-/

namespace Scaffold.Template

open Text

/-- A placeholder, with the text before it and the blanks around its name. -/
structure Slot where
  text : List Char
  before : List Char
  name : String
  behind : List Char

namespace Slot

def braced (slot : Slot) : List Char :=
  '{' :: '{' :: (slot.before ++ (slot.name.toList ++ (slot.behind ++ ['}', '}'])))

def source (slot : Slot) : List Char :=
  slot.text ++ slot.braced

/-- The text, and what is shown in place of the placeholder. -/
def fill (shown : String → List Char) (slot : Slot) : List Char :=
  slot.text ++ shown slot.name

/-- The text has neither braces nor line breaks, nor do the blanks, and the name can stand in a tag. -/
structure Proper (slot : Slot) : Prop where
  text : ∀ c ∈ slot.text, isLiteral c = true
  blank : ∀ c ∈ slot.before ++ slot.behind, isBlank c = true
  inLine : ∀ c ∈ slot.before ++ slot.behind, isLiteral c = true
  name : isTagName slot.name.toList = true

end Slot

/-- A loop inside a block: the header is texts and placeholders, a text after them, and a brace. -/
structure PropsLoop where
  slots : List Slot
  last : List Char
  item : String
  collection : String
  indent : List Char
  separator : List Char
  ending : List Char

namespace PropsLoop

def names (loop : PropsLoop) : List String :=
  loop.slots.map Slot.name

/-- The placeholders of the header, each with the text before it. -/
def places (loop : PropsLoop) : List (List Char × String) :=
  loop.slots.map fun slot => (slot.text, slot.name)

def header (loop : PropsLoop) : List Char :=
  loop.slots.flatMap Slot.source ++ (loop.last ++ ['{'])

/-- The indented placeholder for an item. -/
def slot (loop : PropsLoop) : Slot :=
  ⟨loop.indent, [' '], loop.item, [' ']⟩

def row (loop : PropsLoop) : List Char :=
  loop.slot.source ++ loop.separator

/-- The template: the header, the two tags of the loop with the line between them, and the brace that
closes the block, each on a line of its own. -/
def template (loop : PropsLoop) : List Char :=
  loop.header ++ '\n' :: (forOpening loop.item loop.collection ++ '\n' :: (loop.row ++
    '\n' :: (LoopLine.closing ++ '\n' :: '}' :: loop.ending)))

/-- The loop, cut off the template. -/
def span (loop : PropsLoop) : LoopSpan where
  tag := ⟨loop.item, loop.collection⟩
  opening := forOpening loop.item loop.collection
  inner := '\n' :: (loop.row ++ ['\n'])
  nested := false
  closing := LoopLine.closing

def param (loop : PropsLoop) (name : String) : ParamBlock :=
  ⟨name, loop.header, ParamLine.lineKind loop.header⟩

def block (loop : PropsLoop) : LoopBlock where
  name := loop.collection
  body := loop.slot.braced ++ loop.separator
  item := loop.item
  scalar := true
  container := some loop.header

/-- The header with texts in place of its placeholders. -/
def title (loop : PropsLoop) (shown : String → List Char) : List Char :=
  loop.slots.flatMap (Slot.fill shown) ++ (loop.last ++ ['{'])

def rowOf (loop : PropsLoop) (item : List Char) : List Char :=
  loop.indent ++ (item ++ loop.separator)

/-- The block with texts in place of the placeholders of its header, and a line for each item. -/
def fill (loop : PropsLoop) (shown : String → List Char) (items : List (List Char)) : List Char :=
  loop.title shown ++ '\n' :: (items.flatMap (fun item => loop.rowOf item ++ ['\n']) ++
    '}' :: loop.ending)

/-- The header opens a block for properties, begins with no blank, and has no braces but the last and
those of its placeholders; names can stand in tags and are not reserved; the indentation is blanks
within a line; commas and semicolons separate items; and behind the block no tag opens. -/
structure Shaped (loop : PropsLoop) : Prop where
  slots : ∀ slot ∈ loop.slots, slot.Proper
  free : ∀ name ∈ loop.names, name ∉ reservedNames
  last : ∀ c ∈ loop.last, isLiteral c = true
  begins : ∀ c ∈ loop.header.head?, isBlank c = false
  opens : isContainerHeader loop.header = true
  item : isTagName loop.item.toList = true ∧ loop.item ∉ reservedWords
  collection : isTagName loop.collection.toList = true ∧ loop.collection ∉ reservedWords
  indent : ∀ c ∈ loop.indent, isBlank c = true ∧ isLiteral c = true
  separator : ∀ c ∈ loop.separator, c = ';' ∨ c = ','
  ending : '{' ∉ loop.ending ∧ '\r' ∉ loop.ending

end PropsLoop

variable {slot : Slot} {slots : List Slot} {loop : PropsLoop} {back : List Char} {d : Char}

/-! ### Placeholders -/

namespace Slot

theorem braced_ne_nil (slot : Slot) : slot.braced ≠ [] :=
  List.cons_ne_nil _ _

theorem braced_append (slot : Slot) (back : List Char) : slot.braced ++ back =
    '{' :: '{' :: (slot.before ++ (slot.name.toList ++ (slot.behind ++ '}' :: '}' :: back))) := by
  simp [braced]

theorem tight_braced (slot : Slot) : Tight slot.braced := by
  refine ⟨slot.braced_ne_nil, by simp [braced, isBlank], ?_⟩
  have split : slot.braced =
      ('{' :: '{' :: (slot.before ++ (slot.name.toList ++ (slot.behind ++ ['}'])))) ++ ['}'] := by
    simp [braced]
  rw [split, List.getLast?_append_of_ne_nil _ (List.cons_ne_nil _ _)]
  simp [isBlank]

namespace Proper

/-- No character of a placeholder is one that stands neither in blanks nor in words nor in braces. -/
theorem absent (proper : slot.Proper) (noBlank : isBlank d = false) (noWord : isWord d = false)
    (noBrace : d ≠ '}') :
    d ∉ slot.before ++ (slot.name.toList ++ (slot.behind ++ ['}', '}'])) := by
  obtain ⟨before, behind⟩ := List.forall_mem_append.mp proper.blank
  have name : d ∉ slot.name.toList := absent_of_isTagName proper.name noWord
  have none : ∀ {run : List Char}, (∀ c ∈ run, isBlank c = true) → d ∉ run := by
    intro run blank member
    rw [blank d member] at noBlank
    cases noBlank
  simp [none before, none behind, name, noBrace]

theorem absent_source (proper : slot.Proper) (other : isLiteral d = false) (noWord : isWord d = false)
    (noBrace : d ≠ '{' ∧ d ≠ '}') : d ∉ slot.source := by
  obtain ⟨before, behind⟩ := List.forall_mem_append.mp proper.inLine
  simp [source, braced, noBrace, absent_of_forall_isLiteral proper.text other,
    absent_of_forall_isLiteral before other, absent_of_forall_isLiteral behind other,
    absent_of_isTagName proper.name noWord]

theorem afterOpening?_braced (proper : slot.Proper) (back : List Char) :
    afterOpening? ['{', '{'] (slot.braced ++ back) =
      some (slot.name.toList ++ (slot.behind ++ '}' :: '}' :: back)) := by
  rw [slot.braced_append]
  exact afterOpening?_name (List.forall_mem_append.mp proper.blank).1 proper.name ['{', '{'] _

theorem placeholder?_braced (proper : slot.Proper) (back : List Char) :
    placeholder? (slot.braced ++ back) = some (slot.name, back) := by
  rw [slot.braced_append]
  exact placeholder?_blanks proper.blank proper.name back

theorem itemReference?_braced (proper : slot.Proper) (back : List Char) :
    itemReference? slot.name (slot.braced ++ back) = some ((), back) := by
  have named (rest : List Char) : afterPrefix? slot.name.toList (slot.name.toList ++ rest) =
      some rest := afterPrefix?_eq_some.mpr rfl
  simp only [itemReference?, Option.bind_eq_bind, proper.afterOpening?_braced, Option.bind_some,
    named, afterClosing?_blanks (List.forall_mem_append.mp proper.blank).2]

end Proper

end Slot

/-! ### The loop -/

namespace PropsLoop

theorem mem_names (loop : PropsLoop) {place : List Char × String} (listed : place ∈ loop.places) :
    place.2 ∈ loop.names := by
  obtain ⟨slot, member, rfl⟩ := List.mem_map.mp listed
  exact List.mem_map_of_mem member

theorem title_eq (loop : PropsLoop) (shown : String → List Char) :
    loop.title shown = filledPlaces shown loop.places ++ (loop.last ++ ['{']) := by
  rw [title, filledPlaces, places, List.flatMap_map]
  rfl

theorem template_eq (loop : PropsLoop) : loop.template =
    loop.header ++ '\n' :: (forOpening loop.item loop.collection ++
      (loop.span.inner ++ (LoopLine.closing ++ '\n' :: '}' :: loop.ending))) := by
  simp [template, span]

namespace Shaped

theorem proper_slot (shaped : loop.Shaped) : loop.slot.Proper := by
  refine ⟨fun c member => (shaped.indent c member).2, ?_, ?_, shaped.item.1⟩
  · simp [PropsLoop.slot, isBlank]
  · simp [PropsLoop.slot, isLiteral]

theorem absent_separator (shaped : loop.Shaped) (other : d ≠ ';' ∧ d ≠ ',') :
    d ∉ loop.separator := by
  intro member
  rcases shaped.separator d member with same | same
  · exact other.1 same
  · exact other.2 same

end Shaped

end PropsLoop

/-! ### Scanning -/

/-- A scanner recognises only what begins with a brace and a sign, which stands in no name and beside no
name in braces. -/
structure Signed {α : Type} (scan : Scan α) (sign : Char) : Prop where
  atBrace : AtBrace scan
  missed : ∀ c rest, c ≠ sign → scan ('{' :: c :: rest) = none
  strange : isBlank sign = false ∧ isWord sign = false ∧ sign ≠ '{' ∧ sign ≠ '}'

theorem signed_comment? : Signed comment? '#' := by
  refine ⟨atBrace_comment?, fun c rest other => ?_, by decide⟩
  have missed : afterPrefix? ['{', '#'] ('{' :: c :: rest) = none := by
    simp [afterPrefix?, List.isPrefixOf?, Ne.symm other]
  rw [comment?, missed]
  rfl

theorem signed_loopTag? : Signed loopTag? '%' := by
  refine ⟨atBrace_loopTag?, fun c rest other => ?_, by decide⟩
  have missed : afterOpening? ['{', '%'] ('{' :: c :: rest) = none := by
    simp [afterOpening?, afterPrefix?, List.isPrefixOf?, Ne.symm other]
  rw [loopTag?, forTag?, forHead?, endTag?, missed]
  rfl

namespace Signed

variable {α : Type} {scan : Scan α} {sign : Char}

theorem pieces_braced (signed : Signed scan sign) (proper : slot.Proper) (back : List Char) :
    pieces scan (slot.braced ++ back) = slot.braced.map .char ++ pieces scan back := by
  obtain ⟨noBlank, noWord, noOpening, noClosing⟩ := signed.strange
  have absent : '{' ∉ slot.before ++ (slot.name.toList ++ (slot.behind ++ ['}', '}'])) :=
    proper.absent (by decide) (by decide) (by decide)
  have apart := proper.absent noBlank noWord noClosing
  obtain ⟨c, inner, form⟩ : ∃ c inner,
      slot.before ++ (slot.name.toList ++ (slot.behind ++ ['}', '}'])) = c :: inner :=
    List.exists_cons_of_ne_nil (by simp)
  rw [Slot.braced]
  rw [form] at absent apart ⊢
  have passed := signed.atBrace.pieces_append absent back
  have first : scan ('{' :: '{' :: (c :: inner ++ back)) = none :=
    signed.missed '{' _ (Ne.symm noOpening)
  have second : scan ('{' :: (c :: inner ++ back)) = none :=
    signed.missed c _ fun same => apart (by simp [same])
  exact (pieces_none first).trans (congrArg (Piece.char '{' :: ·)
    ((pieces_none second).trans (congrArg (Piece.char '{' :: ·) passed)))

theorem pieces_source (signed : Signed scan sign) (proper : slot.Proper) (back : List Char) :
    pieces scan (slot.source ++ back) = slot.source.map .char ++ pieces scan back := by
  rw [Slot.source, List.append_assoc,
    signed.atBrace.pieces_append (absent_of_isLiteral proper.text), signed.pieces_braced proper,
    List.map_append, List.append_assoc]

theorem pieces_slots {slots : List Slot} (signed : Signed scan sign)
    (proper : ∀ slot ∈ slots, slot.Proper) (back : List Char) :
    pieces scan (slots.flatMap Slot.source ++ back) =
      (slots.flatMap Slot.source).map .char ++ pieces scan back := by
  induction slots with
  | nil => rfl
  | cons slot slots ih =>
    obtain ⟨here, more⟩ := List.forall_mem_cons.mp proper
    rw [List.flatMap_cons, List.append_assoc, signed.pieces_source here, ih more,
      List.map_append, List.append_assoc]

theorem pieces_header (signed : Signed scan sign) (shaped : loop.Shaped) (back : List Char) :
    pieces scan (loop.header ++ '\n' :: back) =
      (loop.header ++ ['\n']).map .char ++ pieces scan back := by
  have lineFeed : '\n' ≠ sign := by
    rintro rfl
    cases signed.strange.1
  rw [PropsLoop.header, List.append_assoc, signed.pieces_slots shaped.slots, List.append_assoc,
    signed.atBrace.pieces_append (absent_of_isLiteral shaped.last), List.singleton_append,
    pieces_none (signed.missed '\n' back lineFeed), pieces_none (signed.atBrace '\n' back (by decide))]
  simp

theorem pieces_inner (signed : Signed scan sign) (shaped : loop.Shaped) (back : List Char) :
    pieces scan (loop.span.inner ++ back) = loop.span.inner.map .char ++ pieces scan back := by
  have absent : '{' ∉ loop.separator ++ ['\n'] := by
    simp [shaped.absent_separator]
  have form : loop.span.inner = ['\n'] ++ (loop.slot.source ++ (loop.separator ++ ['\n'])) := by
    simp [PropsLoop.span, PropsLoop.row]
  rw [form, List.append_assoc, signed.atBrace.pieces_append (by decide), List.append_assoc,
    signed.pieces_source shaped.proper_slot, signed.atBrace.pieces_append absent]
  simp

theorem pieces_ending (signed : Signed scan sign) (shaped : loop.Shaped) :
    pieces scan ('\n' :: '}' :: loop.ending) = ('\n' :: '}' :: loop.ending).map .char := by
  have absent : '{' ∉ '\n' :: '}' :: loop.ending := by simp [shaped.ending.1]
  have passed := signed.atBrace.pieces_append absent []
  rw [List.append_nil] at passed
  exact passed.trans (List.append_nil _)

end Signed

theorem textParams_of_absent {text : List Char} (absent : '{' ∉ text) : textParams text = [] := by
  refine List.flatMap_eq_nil_iff.mpr fun line listed => ?_
  have none : '{' ∉ line := by
    intro member
    refine absent ?_
    rw [← joinWith_splitOn '\n' text]
    exact mem_joinWith listed member
  have nothing := atBrace_placeholder?.findAll_append none []
  rw [List.append_nil] at nothing
  rw [lineParams, nothing]
  rfl

namespace PropsLoop

namespace Shaped

theorem withoutComments_template (shaped : loop.Shaped) :
    withoutComments loop.template = loop.template := by
  have closing (back : List Char) : pieces comment? (LoopLine.closing ++ back) =
      LoopLine.closing.map .char ++ pieces comment? back := by
    have absent : '{' ∉ "% endfor %\x7d".toList := by decide
    have passed := atBrace_comment?.pieces_append absent back
    exact (pieces_none rfl).trans (congrArg (Piece.char '{' :: ·) passed)
  have alone : pieces comment? loop.template = loop.template.map .char := by
    rw [loop.template_eq, signed_comment?.pieces_header shaped,
      pieces_comment?_forOpening shaped.item.1 shaped.collection.1,
      signed_comment?.pieces_inner shaped, closing, signed_comment?.pieces_ending shaped]
    simp only [List.map_append, List.map_cons, List.map_nil, List.append_assoc,
      List.singleton_append]
  rw [withoutComments, eraseAll, alone, List.filterMap_map]
  exact List.filterMap_some

/-! ### The analysis -/

/-- The characters of the header are those of its texts, of words, blanks and braces. -/
theorem absent_header (shaped : loop.Shaped) (other : isLiteral d = false) (noWord : isWord d = false)
    (noBrace : d ≠ '{' ∧ d ≠ '}') : d ∉ loop.header := by
  rw [header, List.mem_append, List.mem_append, List.mem_singleton, not_or, not_or]
  refine ⟨fun member => ?_, absent_of_forall_isLiteral shaped.last other, noBrace.1⟩
  obtain ⟨slot, listed, within⟩ := List.mem_flatMap.mp member
  exact (shaped.slots slot listed).absent_source other noWord noBrace within

theorem outline_template (shaped : loop.Shaped) :
    outline loop.template =
      .loop (loop.header ++ ['\n']) loop.span (.done ('\n' :: '}' :: loop.ending)) := by
  have opens (rest : List Char) : loopTag? (forOpening loop.item loop.collection ++ rest) =
      some (.opens ⟨loop.item, loop.collection⟩, rest) := by
    rw [loopTag?, forTag?_forOpening shaped.item.1 shaped.collection.1]
  have filled : LoopLine.closing ≠ [] := by decide
  have closes (rest : List Char) : loopTag? (LoopLine.closing ++ rest) = some (.closes, rest) := rfl
  have ended : outlineOf (('\n' :: '}' :: loop.ending).map .char) =
      .done ('\n' :: '}' :: loop.ending) := by
    have text := outlineOf_map_char ('\n' :: '}' :: loop.ending) []
    rw [List.append_nil] at text
    exact text.trans (congrArg Outline.done (List.append_nil _))
  rw [outline, loop.template_eq, signed_loopTag?.pieces_header shaped,
    pieces_some (forOpening_ne_nil _ _) (opens _), signed_loopTag?.pieces_inner shaped,
    pieces_some filled (closes _), signed_loopTag?.pieces_ending shaped, outlineOf_map_char, outlineOf,
    LoopLine.remainderOf_map_char, ended]
  exact congrArg (Outline.loop · _ _) (List.append_nil _)

theorem tight_header (shaped : loop.Shaped) : Tight loop.header := by
  refine ⟨?_, shaped.begins, ?_⟩
  · simp [header]
  · rw [header, ← List.append_assoc]
    simp [isBlank]

theorem lines_header (shaped : loop.Shaped) :
    lines (loop.header ++ ['\n']) = [loop.header, []] :=
  splitOn_append_cons (shaped.absent_header rfl (by decide) (by decide)) []

theorem findAll_header (shaped : loop.Shaped) :
    findAll placeholder? loop.header = loop.names := by
  have last : findAll placeholder? (loop.last ++ ['{']) = [] := by
    rw [atBrace_placeholder?.findAll_append (absent_of_isLiteral shaped.last)]
    rfl
  have slots : ∀ slots : List Slot, (∀ slot ∈ slots, slot.Proper) →
      findAll placeholder? (slots.flatMap Slot.source ++ (loop.last ++ ['{'])) =
        slots.map Slot.name := by
    intro slots proper
    induction slots with
    | nil => exact last
    | cons slot slots ih =>
      obtain ⟨here, more⟩ := List.forall_mem_cons.mp proper
      rw [List.flatMap_cons, Slot.source, List.append_assoc, List.append_assoc,
        atBrace_placeholder?.findAll_append (absent_of_isLiteral here.text),
        findAll_some slot.braced_ne_nil (here.placeholder?_braced _), ih more]
      rfl
  exact slots loop.slots shaped.slots

theorem textParams_header (shaped : loop.Shaped) :
    textParams (loop.header ++ ['\n']) = loop.names.map loop.param := by
  rw [textParams, shaped.lines_header, List.flatMap_cons, lineParams, shaped.findAll_header,
    shaped.tight_header.trim_eq]
  exact List.append_nil _

theorem container?_header (shaped : loop.Shaped) :
    container? (loop.header ++ ['\n']) = some loop.header := by
  have opens : isContainerHeader (trim loop.header) = true := by
    rw [shaped.tight_header.trim_eq]
    exact shaped.opens
  have found := container?_last (shaped.lines_header.trans (List.nil_append _).symm) opens
    (List.forall_mem_singleton.mpr rfl)
  rw [found, shaped.tight_header.trim_eq]
  rfl

/-- The trimmed body of the loop shows the item and has no fields. -/
theorem trim_inner (shaped : loop.Shaped) : trim loop.span.inner = loop.block.body := by
  have solid : ∀ c ∈ loop.separator, isBlank c = false := by
    intro c member
    rcases shaped.separator c member with rfl | rfl <;> decide
  have tight : Tight (loop.slot.braced ++ loop.separator) :=
    loop.slot.tight_braced.follow fun c last => solid c (List.mem_of_getLast? last)
  have before : ∀ c ∈ '\n' :: loop.indent, isBlank c = true :=
    List.forall_mem_cons.mpr ⟨rfl, fun c member => (shaped.indent c member).1⟩
  have after : ∀ c ∈ ['\n'], isBlank c = true := List.forall_mem_singleton.mpr rfl
  have trimmed := trim_between before after tight
  have form : loop.span.inner = '\n' :: loop.indent ++ (loop.slot.braced ++ loop.separator ++ ['\n']) := by
    simp [span, row, Slot.source, slot]
  rw [form, trimmed]
  rfl

theorem fieldsUsed_body (shaped : loop.Shaped) : fieldsUsed loop.item loop.block.body = [] := by
  have undotted (back : List Char) : afterPrefix? (loop.item.toList ++ ['.'])
      (loop.item.toList ++ (' ' :: '}' :: '}' :: back)) = none := by
    rw [Option.eq_none_iff_forall_ne_some]
    intro rest found
    rw [afterPrefix?_eq_some, List.append_assoc, List.append_cancel_left_eq] at found
    cases found
  have opened : afterOpening? ['{', '{'] loop.block.body =
      some (loop.item.toList ++ (' ' :: '}' :: '}' :: loop.separator)) :=
    shaped.proper_slot.afterOpening?_braced loop.separator
  have first : fieldReference? loop.item loop.block.body = none := by
    simp only [fieldReference?, Option.bind_eq_bind, opened, Option.bind_some, undotted,
      Option.bind_none]
  have absent : '{' ∉ ' ' :: (loop.item.toList ++ ([' ', '}', '}'] ++ loop.separator)) := by
    have item : '{' ∉ loop.item.toList := absent_of_isTagName shaped.item.1 (by decide)
    simp [item, shaped.absent_separator]
  have form : loop.block.body =
      '{' :: '{' :: ' ' :: (loop.item.toList ++ ([' ', '}', '}'] ++ loop.separator)) := by
    simp [block, slot, Slot.braced]
  have none := (atBrace_fieldReference? loop.item).findAll_append absent []
  rw [List.append_nil] at none
  rw [form] at first ⊢
  rw [fieldsUsed, findAll_none first, findAll_none rfl, none]
  rfl

/-- A loop that shows its item is read as a scalar one, with the header as its container. -/
theorem readLoop_span (shaped : loop.Shaped) :
    readLoop (loop.header ++ ['\n']) loop.span = ⟨loop.collection, some loop.block, none⟩ := by
  have trimmed := shaped.trim_inner
  have fieldless : fieldsUsed loop.span.tag.item (trim loop.span.inner) = [] := by
    rw [trimmed]
    exact shaped.fieldsUsed_body
  have written : findAll (itemReference? loop.span.tag.item) (trim loop.span.inner) ≠ [] := by
    have shown : itemReference? loop.item (loop.slot.braced ++ loop.separator) =
        some ((), loop.separator) := shaped.proper_slot.itemReference?_braced loop.separator
    have found := findAll_some loop.slot.braced_ne_nil shown
    rw [trimmed]
    exact fun none => List.cons_ne_nil _ _ (found.symm.trans none)
  rw [readLoop_scalar rfl fieldless written, scalarBlock, trimmed, shaped.container?_header]
  rfl

/-- The analysis finds the parameters of the header, each once, and the loop, and nothing stands in its
way. -/
theorem analyze_template (shaped : loop.Shaped) (strict : Bool) :
    analyze strict loop.template =
      ([], .ok (loop.names.eraseDups.map (.param <| loop.param ·) ++ [.loop loop.block])) := by
  let params := loop.names.eraseDups.map loop.param
  have found := ParamLine.newParams_map [] loop.names loop.param fun _ => rfl
  have all : loop.names.filter (fun name => !([] : List String).contains name) = loop.names :=
    List.filter_eq_self.mpr fun _ _ => rfl
  have ended : textParams ('\n' :: '}' :: loop.ending) = [] :=
    textParams_of_absent (by simp [shaped.ending.1])
  rw [all] at found
  have analysis : Analysis.ofTemplate loop.template =
      ⟨params.map .param ++ [.loop ⟨loop.collection, some loop.block, none⟩], none⟩ := by
    rw [Analysis.ofTemplate, shaped.withoutComments_template, shaped.outline_template]
    simp only [Analysis.ofOutline, shaped.textParams_header, found, List.nil_append,
      shaped.readLoop_span, ended]
    simp [Analysis.precede, Analysis.newParams, params]
  have blocks : (Analysis.ofTemplate loop.template).blocks =
      params.map .param ++ [.loop loop.block] := by
    have each : params.filterMap (Analysis.blockOf? ∘ Finding.param) = params.map .param :=
      congrFun List.filterMap_eq_map' _
    rw [analysis, Analysis.blocks, List.filterMap_append, List.filterMap_map, each]
    rfl
  have whole := Analysis.analyze_of_clear (by rw [analysis]) (by simp [analysis]) strict
  rw [whole, blocks, List.map_map]
  rfl

end Shaped

end PropsLoop

end Scaffold.Template
