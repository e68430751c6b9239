import Scaffold.Proofs.Extract.ParamMatches
import Scaffold.Proofs.Pattern.Searching
import Scaffold.Proofs.Render.ParamDocument

/-!
A placeholder between quotes. Whatever the line is filled with, as long as it has no quotes, the two
quotes of the line are found again and all that stands between them is read, without the blanks at its
ends.
-/

namespace Scaffold

namespace Template

open Text

/-- A line with one placeholder, between two quotes. -/
structure QuotedLine where
  before : List Char
  quote : Char
  name : String
  behind : List Char

namespace QuotedLine

def fill (line : QuotedLine) (text : List Char) : List Char :=
  line.before ++ line.quote :: (text ++ line.quote :: line.behind)

def template (line : QuotedLine) : List Char :=
  line.fill (placeholder line.name)

/-- The texts have neither quotes nor braces nor line breaks, and the name is that of a variable that is
not reserved. -/
structure Proper (line : QuotedLine) : Prop where
  before : ∀ c ∈ line.before, isBare c = true
  quote : line.quote = '\'' ∨ line.quote = '"'
  name : isVariable line.name.toList = true ∧ line.name ∉ reservedNames
  behind : ∀ c ∈ line.behind, isBare c = true

/-- The line as a line with placeholders. -/
def toParamLine (line : QuotedLine) : ParamLine :=
  ⟨line.before ++ [line.quote], line.name, [], line.quote :: line.behind⟩

/-- The line without blanks at its ends. -/
def trimmed (line : QuotedLine) : QuotedLine :=
  { line with before := trimLeft line.before, behind := trimRight line.behind }

variable {line : QuotedLine}

theorem fill_toParamLine (line : QuotedLine) (shown : String → List Char) :
    line.toParamLine.fill shown = line.fill (shown line.name) := by
  simp [toParamLine, ParamLine.fill, ParamLine.places, filledPlaces, fill]

theorem template_toParamLine (line : QuotedLine) : line.toParamLine.template = line.template :=
  line.fill_toParamLine placeholder

namespace Proper

theorem solid (proper : line.Proper) : isBlank line.quote = false := by
  rcases proper.quote with same | same <;> rw [same] <;> decide

theorem literal (proper : line.Proper) : isLiteral line.quote = true := by
  rcases proper.quote with same | same <;> rw [same] <;> decide

theorem quoted {c : Char} (proper : line.Proper) (bare : isBare c = true) : c ≠ line.quote := by
  rintro rfl
  rcases proper.quote with same | same <;>
    · rw [same] at bare
      cases bare

theorem trimmed (proper : line.Proper) : line.trimmed.Proper := by
  obtain ⟨_, _, before, _⟩ := trimLeft_spec line.before
  obtain ⟨_, _, behind, _⟩ := trimRight_spec line.behind
  refine ⟨fun c member => proper.before c ?_, proper.quote, proper.name,
    fun c member => proper.behind c ?_⟩
  · rw [before]
    exact List.mem_append_right _ member
  · rw [behind]
    exact List.mem_append_left _ member

theorem plain (proper : line.Proper) : line.toParamLine.Plain := by
  refine ⟨by simpa [toParamLine, ParamLine.names, ParamLine.places] using proper.name, ?_⟩
  have before := fun c member => isLiteral_of_isBare (proper.before c member)
  have behind := fun c member => isLiteral_of_isBare (proper.behind c member)
  change ∀ text ∈ [line.before ++ [line.quote], line.quote :: line.behind], _
  simp only [List.forall_mem_cons, List.forall_mem_append, proper.literal, List.not_mem_nil,
    false_implies, implies_true, and_true, true_and]
  exact ⟨before, behind⟩

theorem stripped_toParamLine (proper : line.Proper) :
    line.toParamLine.stripped = line.trimmed.toParamLine := by
  obtain ⟨opening, blank, before, begins⟩ := trimLeft_spec line.before
  obtain ⟨closing, blank', behind, ends⟩ := trimRight_spec line.behind
  have first : trimLeft (line.before ++ [line.quote]) = trimLeft line.before ++ [line.quote] := by
    conv_lhs => rw [before, List.append_assoc]
    refine trimLeft_append opening blank ?_
    cases kept : trimLeft line.before with
    | nil => simpa using proper.solid
    | cons c rest => rwa [kept] at begins
  have last : trimRight (line.quote :: line.behind) = line.quote :: trimRight line.behind := by
    conv_lhs => rw [behind, ← List.cons_append]
    rw [trimRight, dropRightWhile_append_of_all blank']
    refine trimRight_eq_self ?_
    cases kept : trimRight line.behind with
    | nil => simpa using proper.solid
    | cons c rest =>
      rw [kept] at ends
      simpa using ends
  rw [ParamLine.stripped, toParamLine, first, last]
  rfl

theorem lineKind_template (proper : line.Proper) :
    ParamLine.lineKind line.template = .stringLiteral := by
  have quoted : (line.template.contains '\'' || line.template.contains '"') = true := by
    rw [Bool.or_eq_true, List.contains_iff_mem, List.contains_iff_mem, template, fill]
    exact proper.quote.imp (fun same => by simp [same]) (fun same => by simp [same])
  rw [ParamLine.lineKind, quoted]
  rfl

end Proper

end QuotedLine

end Template

namespace Extract

open Text Template Pattern

variable {line : QuotedLine} {text : List Char}

/-! ### The extractor -/

/-- The pattern of the line: the value is all that stands between the quotes. -/
def quotedPattern (line : QuotedLine) : Pattern :=
  .sequence (literalPatterns line.before ++
    .char line.quote :: .capture valueName (kindPattern .stringLiteral) :: .char line.quote ::
      literalPatterns line.behind)

theorem paramPattern_toParamLine (proper : line.Proper) :
    paramPattern line.toParamLine line.name .stringLiteral = quotedPattern line := by
  have before : literalPatterns (line.before ++ [line.quote]) =
      literalPatterns line.before ++ [.char line.quote] := by
    have alone := literalPatterns_solid proper.solid proper.literal []
    have cut : literalPatterns (line.before ++ [line.quote]) =
        literalPatterns line.before ++ literalPatterns [line.quote] :=
      patternsFrom_literal (fun c member => isLiteral_of_isBare (proper.before c member))
        (by simpa using proper.solid)
    exact cut.trans (congrArg (literalPatterns line.before ++ ·) alone)
  have behind := literalPatterns_solid proper.solid proper.literal line.behind
  have value : placeholderPattern line.name .stringLiteral [] line.name =
      (.capture valueName (kindPattern .stringLiteral), [valueName]) := by
    rw [placeholderPattern, if_pos rfl]
    rfl
  rw [paramPattern, quotedPattern, QuotedLine.toParamLine, ParamLine.places, paramPatterns, before,
    behind, value, paramPatterns]
  simp

/-- The extractor of the line has one matcher, which takes a text between the quotes. -/
theorem build_quoted (proper : line.Proper) (strict : Bool) :
    Extractor.build line.template [] strict =
      ([], .ok ⟨line.template,
        [.param line.name (quotedPattern line.trimmed) .stringLiteral]⟩) := by
  have plain := proper.trimmed.plain
  have analyzed := proper.plain.analyze_template strict
  rw [proper.stripped_toParamLine, QuotedLine.template_toParamLine, QuotedLine.template_toParamLine,
    proper.trimmed.lineKind_template] at analyzed
  have pattern : patternOf (paramExpression line.name .stringLiteral) [] line.trimmed.template =
      quotedPattern line.trimmed := by
    rw [← paramPattern_toParamLine proper.trimmed, ← QuotedLine.template_toParamLine]
    exact congrArg Pattern.sequence (patternsFrom_placeholders plain.plainPlaces plain.literal_last)
  have matcher : matcherOf (.param ⟨line.name, line.trimmed.template, .stringLiteral⟩) [] =
      .param line.name (quotedPattern line.trimmed) .stringLiteral := by
    rw [← pattern]
    rfl
  have wellFormed : (quotedPattern line.trimmed).isWellFormed = true := by
    rw [← paramPattern_toParamLine proper.trimmed, paramPattern, isWellFormed_sequence, List.all_append,
      isWellFormed_paramPatterns plain.plainPlaces, isWellFormed_literalPatterns plain.literal_last]
    rfl
  have compiled : compile (.param ⟨line.name, line.trimmed.template, .stringLiteral⟩) [] =
      .ok (.param line.name (quotedPattern line.trimmed) .stringLiteral) := by
    rw [compile, matcher]
    exact if_pos wellFormed
  have alone : line.toParamLine.params = [line.name] := rfl
  rw [Extractor.build, analyzed, alone]
  change ([], (do return ⟨line.template, ← [_].mapM fun block => compile block []⟩ :
    Except Error Extractor)) = _
  rw [List.mapM_cons, List.mapM_nil, compiled]
  rfl

/-! ### Reading the value -/

/-- Two quotes with no other quotes around and between them can be told from the whole. -/
theorem between_quotes {c : Char} {front back front' run back' : List Char}
    (same : front ++ c :: (text ++ c :: back) = front' ++ c :: (run ++ c :: back'))
    (before : c ∉ front) (inside : c ∉ text) (behind : c ∉ back) (inside' : c ∉ run) : run = text := by
  -- Both sides hold the quote twice, so that no quote is left for the text before the first one.
  have counted := congrArg (List.count c) same
  simp only [List.count_append, List.count_cons_self, List.count_eq_zero.mpr before,
    List.count_eq_zero.mpr inside, List.count_eq_zero.mpr behind, List.count_eq_zero.mpr inside']
    at counted
  have before' : c ∉ front' := List.count_eq_zero.mp (by omega)
  have free : ∀ {part : List Char}, c ∉ part → ∀ d ∈ part, (d == c) = false :=
    fun absent d member => beq_eq_false_iff_ne.mpr (ne_of_mem_of_not_mem member absent)
  have here := beq_self_eq_true c
  obtain ⟨_, _, rest⟩ := first_unique same (free before) (free before') here here
  exact (first_unique rest (free inside) (free inside') here here).1.symm

theorem first_quotedPattern (proper : line.Proper) (filled : text ≠ [])
    (unquoted : ∀ c ∈ text, CharClass.unquoted.holds c = true)
    (ends : ∀ c ∈ line.behind.getLast?, isBlank c = false) (rest : List Char) :
    (quotedPattern line).First ⟨line.fill text ++ rest, []⟩ ⟨rest, [(valueName, text)]⟩ := by
  have before := fun c member => isLiteral_of_isBare (proper.before c member)
  have behind := fun c member => isLiteral_of_isBare (proper.behind c member)
  have stopped : CharClass.unquoted.holds line.quote = false := by
    rcases proper.quote with same | same <;> rw [same] <;> decide
  have value : (kindPattern .stringLiteral).First
      ⟨text ++ line.quote :: (line.behind ++ rest), []⟩ ⟨line.quote :: (line.behind ++ rest), []⟩ :=
    First.many .unquoted filled unquoted (by simpa using stopped) []
  have form : line.fill text ++ rest =
      line.before ++ line.quote :: (text ++ line.quote :: (line.behind ++ rest)) := by
    simp [QuotedLine.fill]
  rw [form]
  exact First.sequence_append (first_literalPatterns before (.inr (by simpa using proper.solid)) []) <|
    First.append (First.char _ _ _) <| First.append (First.capture valueName value) <|
      First.append (First.char _ _ _) (first_literalPatterns behind (.inl ends) _)

theorem captures_quotedPattern {start : List Char} {found : Match} (proper : line.Proper)
    (leads : (quotedPattern line).Leads ⟨start, []⟩ ⟨found.rest, found.captures⟩) :
    ∃ used run back, start = used ++ line.quote :: (run ++ line.quote :: back) ∧
      (∀ c ∈ run, CharClass.unquoted.holds c = true) ∧ found.capture? valueName = some run := by
  have behind := fun c member => isLiteral_of_isBare (proper.behind c member)
  obtain ⟨middle, leads, opened, ⟨opens, _⟩, taken, ⟨after, ⟨run, _, all, runs, _⟩, same, captured⟩,
    closed, ⟨closes, kept⟩, leads'⟩ := leads_sequence_append.mp leads
  obtain ⟨used, begins⟩ := leads.used
  have captures : found.captures = closed.captures := leads_literalPatterns behind leads'
  refine ⟨used, run, closed.rest, ?_, all, ?_⟩
  · change start = used ++ middle.rest at begins
    rw [begins, opens, runs, ← same, closes]
  · rw [Match.capture?, captures, kept, captured, List.lookup_cons_self, runs, between_append]

/-- A text between the quotes is found and captured as a whole. -/
theorem search?_quoted (proper : line.Proper) (filled : text ≠ [])
    (unquoted : ∀ c ∈ text, CharClass.unquoted.holds c = true) :
    ∃ found, (quotedPattern line.trimmed).search? (line.fill text) = some found ∧
      found.capture? valueName = some text := by
  obtain ⟨opening, _, before, _⟩ := trimLeft_spec line.before
  obtain ⟨closing, _, behind, ends⟩ := trimRight_spec line.behind
  have form : line.fill text = opening ++ (line.trimmed.fill text ++ closing) := by
    conv_lhs => rw [QuotedLine.fill, before, behind]
    simp [QuotedLine.fill, QuotedLine.trimmed]
  have first := first_quotedPattern proper.trimmed filled unquoted ends closing
  have here : ((quotedPattern line.trimmed).matchHere? false
      (line.trimmed.fill text ++ closing)).isSome :=
    Option.isSome_of_eq_some (first _ _ rfl)
  have somewhere : ((quotedPattern line.trimmed).search? (line.fill text)).isSome := by
    rw [form]
    exact search?_isSome_of_here here
  obtain ⟨found, searched⟩ := Option.isSome_iff_exists.mp somewhere
  refine ⟨found, searched, ?_⟩
  -- The search may begin earlier than the trimmed line does; the quotes still tell what is captured.
  obtain ⟨front, start, split, leads⟩ := search?_place searched
  obtain ⟨used, run, back, begins, all, captured⟩ := captures_quotedPattern proper.trimmed leads
  have apart : ∀ {part : List Char}, (∀ c ∈ part, isBare c = true) → line.quote ∉ part :=
    fun bare member => proper.quoted (bare _ member) rfl
  have inside : ∀ {part : List Char}, (∀ c ∈ part, CharClass.unquoted.holds c = true) →
      line.quote ∉ part := by
    intro part all member
    have held := all _ member
    rcases proper.quote with same | same <;>
      · rw [same] at held
        cases held
  rw [begins, ← List.append_assoc] at split
  rw [captured, between_quotes split (apart proper.before) (inside unquoted) (apart proper.behind)
    (inside all)]

/-! ### The round trip -/

theorem extract_quoted (proper : line.Proper) (filled : text ≠ [])
    (unquoted : ∀ c ∈ text, CharClass.unquoted.holds c = true) (template : List Char) :
    Extractor.extract ⟨template, [.param line.name (quotedPattern line.trimmed) .stringLiteral]⟩
        (line.fill text) = .ok [(line.name, .text (String.ofList (trim text)))] := by
  obtain ⟨found, searched, held⟩ := search?_quoted proper filled unquoted
  have read : captured found valueName = .ok (trim text) := by
    rw [captured, held]
  have value : Matcher.extract (.param line.name (quotedPattern line.trimmed) .stringLiteral)
      (line.fill text) = .ok (some (.text (String.ofList (trim text)))) := by
    rw [Matcher.extract, searched]
    change (do let text ← captured found valueName; _) = _
    rw [read]
    rfl
  change (do
    let value ← Matcher.extract _ (line.fill text)
    return (value.map fun value => (line.name, value)).toList ++ []) = _
  rw [value]
  rfl

theorem compile_quoted (proper : line.Proper) :
    Render.compile line.template = .ok (Render.paramDocument line.toParamLine) := by
  rw [← QuotedLine.template_toParamLine, Render.compile_plainLine proper.plain]

theorem render_quoted {params : Record} {value : String} (proper : line.Proper)
    (held : Keyed.field? params line.name = some (.text value)) :
    (Render.paramDocument line.toParamLine).render params = .ok (line.fill value.toList) := by
  have rendered : (Render.paramDocument line.toParamLine).render params =
      .ok (line.toParamLine.fill fun _ => (Value.text value).shown) :=
    Render.render_plainDocument proper.plain (List.forall_mem_singleton.mpr held)
  rwa [QuotedLine.fill_toParamLine] at rendered

/-- A template with one placeholder between two quotes compiles, for extraction and for rendering. A
value without quotes and line feeds that is not empty is rendered in its place, and from the rendered
text it is extracted without the blanks at its ends: so the value itself comes back exactly when it
neither begins nor ends with a blank. -/
theorem extract_render_quoted (proper : line.Proper) (strict : Bool) :
    ∃ extractor document,
      Extractor.build line.template [] strict = ([], .ok extractor) ∧
      Render.compile line.template = .ok document ∧
      ∀ value : String, value ≠ "" → (∀ c ∈ value.toList, CharClass.unquoted.holds c = true) →
        (∀ params : Record, Keyed.field? params line.name = some (.text value) →
          document.render params = .ok (line.fill value.toList)) ∧
        extractor.extract (line.fill value.toList) =
          .ok [(line.name, .text (String.ofList (trim value.toList)))] ∧
        (extractor.extract (line.fill value.toList) = .ok [(line.name, .text value)] ↔
          (∀ c ∈ value.toList.head?, isBlank c = false) ∧
            ∀ c ∈ value.toList.getLast?, isBlank c = false) := by
  refine ⟨_, _, build_quoted proper strict, compile_quoted proper,
    fun value filled unquoted => ⟨?_, ?_, ?_⟩⟩
  · exact fun params held => render_quoted proper held
  · exact extract_quoted proper (by simpa using filled) unquoted _
  · rw [extract_quoted proper (by simpa using filled) unquoted, ← trim_eq_self_iff]
    constructor
    · intro same
      have texts : String.ofList (trim value.toList) = value := by simpa [Value.text] using same
      conv_rhs => rw [← texts, String.toList_ofList]
    · intro same
      rw [same, String.ofList_toList]

/-- A value with a blank before it is read without the blank. -/
theorem extract_render_padded :
    let line : QuotedLine := ⟨"x = ".toList, '\'', "v", [';']⟩
    line.Proper ∧
    ∃ extractor document,
      Extractor.build line.template [] false = ([], .ok extractor) ∧
      Render.compile line.template = .ok document ∧
      document.render [(.text "v", .text " a")] = .ok "x = ' a';".toList ∧
      extractor.extract "x = ' a';".toList = .ok [("v", .text "a")] ∧
      extractor.extract "x = ' a';".toList ≠ .ok [("v", .text " a")] := by
  intro line
  have proper : line.Proper := ⟨List.all_eq_true.mp rfl, .inl rfl, by decide, List.all_eq_true.mp rfl⟩
  have text : line.fill " a".toList = "x = ' a';".toList := rfl
  have read : Extractor.extract ⟨line.template, _⟩ (line.fill " a".toList) = .ok [("v", .text "a")] :=
    extract_quoted proper (by decide) (List.all_eq_true.mp rfl) line.template
  have rendered : (Render.paramDocument line.toParamLine).render [(.text "v", .text " a")] =
      .ok (line.fill " a".toList) := render_quoted proper rfl
  rw [← text]
  refine ⟨proper, _, _, build_quoted proper false, compile_quoted proper, rendered, read, fun same => ?_⟩
  have apart : [("v", Value.text "a")] ≠ [("v", Value.text " a")] := by simp [Value.text]
  exact apart (Except.ok.inj (read.symm.trans same))

/-- A value that looks like the text around it. -/
theorem extract_render_quoted_of_assignment :
    let line : QuotedLine := ⟨"  x = ".toList, '"', "v", "; // ok".toList⟩
    line.Proper ∧
    ∃ extractor document,
      Extractor.build line.template [] true = ([], .ok extractor) ∧
      Render.compile line.template = .ok document ∧
      document.render [(.text "v", .text "y = ;")] = .ok "  x = \"y = ;\"; // ok".toList ∧
      extractor.extract "  x = \"y = ;\"; // ok".toList = .ok [("v", .text "y = ;")] := by
  intro line
  have proper : line.Proper := ⟨List.all_eq_true.mp rfl, .inr rfl, by decide, List.all_eq_true.mp rfl⟩
  obtain ⟨extractor, document, built, compiled, trip⟩ := extract_render_quoted proper true
  have tight : (∀ c ∈ "y = ;".toList.head?, isBlank c = false) ∧
      ∀ c ∈ "y = ;".toList.getLast?, isBlank c = false := by
    simp [isBlank]
  obtain ⟨rendered, _, same⟩ := trip "y = ;" (by decide) (List.all_eq_true.mp rfl)
  exact ⟨proper, extractor, document, built, compiled, rendered _ rfl, same.mpr tight⟩

end Extract

end Scaffold
