import Scaffold.Extract.Extractor
import Scaffold.Proofs.Template.LoopLine

/-!
The pattern of a loop's line. Its texts stand for themselves but for their runs of blanks, the first
reference to a field is captured by the pattern of the field's kind, and later ones refer back to it.
-/

namespace Scaffold.Extract

open Text Template

variable {σ : Type} {expression : σ → List Char → Pattern × σ} {state : σ}
  {item field : String} {text back : List Char} {places : List (List Char × String)}

/-! ### Literal text -/

/-- The patterns of a text without tags. -/
def literalPatterns (text : List Char) : List Pattern :=
  patternsFrom (fun _ _ => (.empty, ())) () (fragments text)

theorem fragment?_of_solid {c : Char} (solid : isBlank c = false) (literal : isLiteral c = true)
    (rest : List Char) : fragment? (c :: rest) = none := by
  have other : c ≠ '{' := by
    rintro rfl
    cases literal
  rw [fragment?, afterOpening?_of_ne other, afterPrefix?_of_ne other, afterBlanks?]
  simp [solid]

theorem fragments_of_none {c : Char} {rest : List Char} (missed : fragment? (c :: rest) = none) :
    fragments (c :: rest) = .char c :: fragments rest := by
  rw [fragments, pieces_none missed]
  rfl

theorem fragments_of_some {used rest : List Char} {fragment : Fragment} (filled : used ≠ [])
    (found : fragment? (used ++ rest) = some (fragment, rest)) :
    fragments (used ++ rest) = fragment :: fragments rest := by
  rw [fragments, pieces_some filled found]
  rfl

theorem fragments_solid {c : Char} (solid : isBlank c = false) (literal : isLiteral c = true)
    (rest : List Char) : fragments (c :: rest) = .char c :: fragments rest :=
  fragments_of_none (fragment?_of_solid solid literal rest)

theorem fragment?_blanks {run rest : List Char} (filled : run ≠ [])
    (blank : ∀ c ∈ run, isBlank c = true) (stopped : ∀ c ∈ rest.head?, isBlank c = false) :
    fragment? (run ++ rest) = some (.blanks, rest) := by
  obtain ⟨c, run, rfl⟩ := List.exists_cons_of_ne_nil filled
  have both := List.forall_mem_cons.mp blank
  have other : c ≠ '{' := by
    rintro rfl
    cases both.1
  rw [List.cons_append, fragment?, afterOpening?_of_ne other, afterPrefix?_of_ne other,
    afterBlanks?, if_pos both.1, trimLeft_append run both.2 stopped]
  rfl

theorem fragments_blanks {run rest : List Char} (filled : run ≠ [])
    (blank : ∀ c ∈ run, isBlank c = true) (stopped : ∀ c ∈ rest.head?, isBlank c = false) :
    fragments (run ++ rest) = .blanks :: fragments rest :=
  fragments_of_some filled (fragment?_blanks filled blank stopped)

theorem literalPatterns_solid {c : Char} (solid : isBlank c = false) (literal : isLiteral c = true)
    (rest : List Char) : literalPatterns (c :: rest) = .char c :: literalPatterns rest := by
  rw [literalPatterns, fragments_solid solid literal]
  rfl

theorem literalPatterns_blanks {run rest : List Char} (filled : run ≠ [])
    (blank : ∀ c ∈ run, isBlank c = true) (stopped : ∀ c ∈ rest.head?, isBlank c = false) :
    literalPatterns (run ++ rest) = .many .blank :: literalPatterns rest := by
  rw [literalPatterns, fragments_blanks filled blank stopped]
  rfl

/-- A literal text is cut off what follows it, unless that begins with a blank. -/
theorem fragments_literal (literal : ∀ c ∈ text, isLiteral c = true)
    (stopped : ∀ c ∈ back.head?, isBlank c = false) :
    fragments (text ++ back) = fragments text ++ fragments back := by
  induction text using blanks_induction with
  | nil => rfl
  | solid c rest solid ih =>
    obtain ⟨here, more⟩ := List.forall_mem_cons.mp literal
    rw [List.cons_append, fragments_solid solid here, fragments_solid solid here, ih more,
      List.cons_append]
  | blanks run rest filled blank ends ih =>
    obtain ⟨_, more⟩ := List.forall_mem_append.mp literal
    have begins : ∀ c ∈ (rest ++ back).head?, isBlank c = false := by
      cases rest with
      | nil => exact stopped
      | cons c rest => exact ends
    rw [List.append_assoc, fragments_blanks filled blank begins, fragments_blanks filled blank ends,
      ih more, List.cons_append]

/-- A fragment that is no tag. -/
def Tagless (part : Fragment) : Prop :=
  (∃ c, part = .char c) ∨ part = .blanks

theorem tagless_of_mem_fragments (literal : ∀ c ∈ text, isLiteral c = true) :
    ∀ part ∈ fragments text, Tagless part := by
  induction text using blanks_induction with
  | nil => exact fun part member => by cases member
  | solid c rest solid ih =>
    obtain ⟨here, more⟩ := List.forall_mem_cons.mp literal
    rw [fragments_solid solid here]
    exact List.forall_mem_cons.mpr ⟨.inl ⟨c, rfl⟩, ih more⟩
  | blanks run rest filled blank ends ih =>
    rw [fragments_blanks filled blank ends]
    exact List.forall_mem_cons.mpr ⟨.inr rfl, ih (List.forall_mem_append.mp literal).2⟩

/-- The patterns of fragments without tags come first, and the expressions after them see no
difference. -/
theorem patternsFrom_tagless {front behind : List Fragment} (tagless : ∀ part ∈ front, Tagless part) :
    patternsFrom expression state (front ++ behind) =
      patternsFrom (fun _ _ => (.empty, ())) () front ++ patternsFrom expression state behind := by
  induction front with
  | nil => rfl
  | cons part front ih =>
    obtain ⟨⟨c, rfl⟩ | rfl, more⟩ := List.forall_mem_cons.mp tagless
    · exact congrArg (_ :: ·) (ih more)
    · exact congrArg (_ :: ·) (ih more)

theorem patternsFrom_literal (literal : ∀ c ∈ text, isLiteral c = true)
    (stopped : ∀ c ∈ back.head?, isBlank c = false) :
    patternsFrom expression state (fragments (text ++ back)) =
      literalPatterns text ++ patternsFrom expression state (fragments back) := by
  rw [fragments_literal literal stopped, patternsFrom_tagless (tagless_of_mem_fragments literal)]
  rfl

theorem patternsFrom_literal_last (literal : ∀ c ∈ text, isLiteral c = true) :
    patternsFrom expression state (fragments text) = literalPatterns text := by
  have whole : patternsFrom expression state (fragments (text ++ [])) = literalPatterns text ++ [] :=
    patternsFrom_literal literal (by simp)
  rwa [List.append_nil, List.append_nil] at whole

/-! ### References -/

/-- What a reference to a field says. -/
def path (item field : String) : List Char :=
  item.toList ++ ('.' :: field.toList)

theorem forall_mem_path (proper : isVariable item.toList = true)
    (proper' : isVariable field.toList = true) :
    ∀ c ∈ path item field, isBlank c = false ∧ c ≠ '-' ∧ c ≠ '}' ∧ c ≠ '\n' := by
  have name : ∀ c, isVariablePart c = true →
      isBlank c = false ∧ c ≠ '-' ∧ c ≠ '}' ∧ c ≠ '\n' :=
    fun c part => ⟨isBlank_of_isVariablePart part, ne_of_isVariablePart part (by decide),
      ne_of_isVariablePart part (by decide), ne_of_isVariablePart part (by decide)⟩
  rw [path, List.forall_mem_append, List.forall_mem_cons]
  exact ⟨fun c member => name c ((isVariable_iff.mp proper).2 c member), by decide,
    fun c member => name c ((isVariable_iff.mp proper').2 c member)⟩

-- Without the seal the two sides are compared by running the search for the closing pair.
seal afterClosing? in
theorem expressionBody?_cons (c : Char) (rest : List Char) :
    expressionBody? (c :: rest) =
      match afterClosing? ['}', '}'] (c :: rest) with
      | some after => some ([], after)
      | none =>
        if c = '\n' then none
        else (expressionBody? rest).map fun (inner, after) => (c :: inner, after) :=
  rfl

/-- A body without blanks, dashes and braces goes on to the closing pair behind it. -/
theorem expressionBody?_of_closing {inner : List Char}
    (plain : ∀ c ∈ inner, isBlank c = false ∧ c ≠ '-' ∧ c ≠ '}' ∧ c ≠ '\n')
    (closed : afterClosing? ['}', '}'] back = some rest) :
    expressionBody? (inner ++ back) = some (inner, rest) := by
  induction inner with
  | nil =>
    cases back with
    | nil => cases closed
    | cons c back => rw [List.nil_append, expressionBody?_cons, closed]
  | cons c inner ih =>
    obtain ⟨⟨solid, noDash, noBrace, inLine⟩, more⟩ := List.forall_mem_cons.mp plain
    have notClosed (rest : List Char) : afterClosing? ['}', '}'] (c :: rest) = none := by
      rw [afterClosing?, trimLeft, List.dropWhile_cons_of_neg (by simp [solid]), dropOptional,
        if_neg noDash, afterPrefix?_of_ne noBrace]
    rw [List.cons_append, expressionBody?_cons, notClosed]
    simp only [if_neg inLine, ih more, Option.map_some]

theorem expressionBody?_append {inner : List Char}
    (plain : ∀ c ∈ inner, isBlank c = false ∧ c ≠ '-' ∧ c ≠ '}' ∧ c ≠ '\n') (back : List Char) :
    expressionBody? (inner ++ (' ' :: '}' :: '}' :: back)) = some (inner, back) :=
  expressionBody?_of_closing plain rfl

theorem fragments_reference (proper : isVariable item.toList = true)
    (proper' : isVariable field.toList = true) (back : List Char) :
    fragments (reference item field ++ back) =
      .expression (path item field) :: fragments back := by
  have inside := forall_mem_path proper proper'
  have kept : trim (path item field) = path item field :=
    (tight_of_forall (by simp [path]) fun c member => (inside c member).1).trim_eq
  have body := expressionBody?_append inside back
  rw [path, List.append_assoc, List.cons_append] at body
  have found : fragment? (reference item field ++ back) =
      some (.expression (path item field), back) := by
    rw [fragment?, afterOpening?_reference (isTagName_of_isVariable proper)]
    simp only [body, Option.map_some]
    rw [← path, kept]
  exact fragments_of_some (reference_ne_nil item field) found

theorem fieldNamed?_path (proper : isVariable field.toList = true) (item : String) :
    fieldNamed? item (path item field) = some field := by
  have named : afterPrefix? (item.toList ++ ['.']) (path item field) = some field.toList := by
    rw [afterPrefix?_eq_some, path, List.append_assoc]
    rfl
  have word : word? (field.toList ++ []) = some (field, []) :=
    word?_of_isTagName (isTagName_of_isVariable proper) (by simp)
  rw [List.append_nil] at word
  simp only [fieldNamed?, named, word, Option.bind_eq_bind, Option.bind_some]
  rfl

/-! ### The line -/

/-- The pattern of an expression in a loop's body. -/
def fieldExpression (item : String) (kinds : List (String × Kind)) (captured : List String)
    (inner : List Char) : Pattern × List String :=
  match fieldNamed? item inner with
  | some field => captureOnce captured field (fieldPattern (kindOf kinds field))
  | none => (wildcard, captured)

/-- The fields that are captured after a reference. -/
def capturedAfter (captured : List String) (field : String) : List String :=
  if captured.contains field then captured else field :: captured

theorem mem_capturedAfter {captured : List String} {field other : String} :
    other ∈ capturedAfter captured field ↔ other = field ∨ other ∈ captured := by
  rw [capturedAfter]
  split
  · next known =>
    rw [List.contains_iff_mem] at known
    constructor
    · exact .inr
    · rintro (rfl | member)
      · exact known
      · exact member
  · exact List.mem_cons

theorem captureOnce_snd (captured : List String) (field : String) (body : Pattern) :
    (captureOnce captured field body).2 = capturedAfter captured field := by
  rw [captureOnce, capturedAfter]
  split <;> rfl

/-- The patterns of texts and the references after them, given the fields captured before. -/
def placePatterns (kind : String → Kind) :
    List String → List (List Char × String) → List Pattern
  | _, [] => []
  | captured, (text, field) :: places =>
    literalPatterns text ++ (captureOnce captured field (fieldPattern (kind field))).1 ::
      placePatterns kind (capturedAfter captured field) places

theorem patternsFrom_filledPlaces {kind : String → Kind} {kinds : List (String × Kind)}
    {captured : List String} {last : List Char} (proper : isVariable item.toList = true)
    (plain : PlainPlaces places) (agree : ∀ place ∈ places, kindOf kinds place.2 = kind place.2)
    (literal : ∀ c ∈ last, isLiteral c = true) :
    patternsFrom (fieldExpression item kinds) captured
        (fragments (filledPlaces (reference item) places ++ last)) =
      placePatterns kind captured places ++ literalPatterns last := by
  induction places generalizing captured with
  | nil =>
    rw [filledPlaces, List.flatMap_nil, List.nil_append, patternsFrom_literal_last literal]
    rfl
  | cons place places ih =>
    obtain ⟨⟨literal', proper'⟩, plain⟩ := List.forall_mem_cons.mp plain
    obtain ⟨same, agree⟩ := List.forall_mem_cons.mp agree
    rw [filledPlaces_cons, List.append_assoc, List.append_assoc,
      patternsFrom_literal literal' (by simp [reference, isBlank]),
      fragments_reference proper proper', patternsFrom, placePatterns]
    simp only [fieldExpression, fieldNamed?_path proper' item, same, captureOnce_snd,
      List.append_assoc, List.cons_append]
    rw [← ih plain agree]

/-- The pattern of a line, given the kinds of its fields. -/
def linePattern (kind : String → Kind) (line : LoopLine) : Pattern :=
  .sequence (placePatterns kind [] line.places ++ literalPatterns line.last)

/-! ### The matcher -/

/-- The kind of the values of a field, as far as hints tell. -/
def fieldKind (line : LoopLine) (hints : Hints) (field : String) : Kind :=
  match hints.lookup line.collection with
  | some (.fields kinds) => (kinds.lookup field).getD .string
  | _ => .string

/-- The fields whose values are of a kind. -/
def fieldsOf (line : LoopLine) (hints : Hints) (kind : Kind) : List String :=
  line.fields.filter fun field => fieldKind line hints field == kind

def lineMatcher (line : LoopLine) (hints : Hints) : Matcher :=
  .loop line.collection (linePattern (fieldKind line hints) line.trimmed) line.fields
    (fieldsOf line hints .number) (fieldsOf line hints .boolean)

theorem lookup_map_of_mem {α β : Type} [BEq α] [LawfulBEq α] {keys : List α} {key : α}
    (member : key ∈ keys) (value : α → β) :
    (keys.map fun key => (key, value key)).lookup key = some (value key) := by
  induction keys with
  | nil => cases member
  | cons other keys ih =>
    rw [List.map_cons, List.lookup_cons]
    cases same : key == other with
    | true => rw [eq_of_beq same]
    | false => exact ih ((List.mem_cons.mp member).resolve_left (beq_eq_false_iff_ne.mp same))

theorem kindOf_fieldKinds {line : LoopLine} {field : String} (member : field ∈ line.fields)
    (kinds : List (String × Kind)) :
    kindOf (fieldKinds line.block kinds) field = (kinds.lookup field).getD .string := by
  have keyed : fieldKinds line.block kinds =
      line.fields.map fun field => (field, (kinds.lookup field).getD .string) := by
    rw [fieldKinds, LoopLine.block, List.map_map]
    rfl
  rw [kindOf, keyed, ← List.map_reverse, lookup_map_of_mem (List.mem_reverse.mpr member)]
  rfl

theorem mem_fields {line : LoopLine} {place : List Char × String}
    (member : place ∈ line.places) : place.2 ∈ line.fields :=
  List.mem_eraseDups.mpr (List.mem_map_of_mem member)

theorem loopMatcher_block {line : LoopLine} (shaped : line.Shaped) {kinds : List (String × Kind)}
    {kind : String → Kind}
    (agree : ∀ field ∈ line.fields, kindOf (fieldKinds line.block kinds) field = kind field) :
    loopMatcher line.block kinds =
      .loop line.collection (linePattern kind line.trimmed) line.fields
        (line.fields.filter fun field => kind field == .number)
        (line.fields.filter fun field => kind field == .boolean) := by
  have fields : line.block.fields.map (·.1) = line.fields := by
    rw [LoopLine.block, List.map_map]
    exact List.map_id _
  have pattern : patternOf (fieldExpression line.item (fieldKinds line.block kinds)) []
      line.trimmed.body = linePattern kind line.trimmed := by
    have trimmed := shaped.trimmed
    refine congrArg Pattern.sequence (patternsFrom_filledPlaces shaped.item.1 trimmed.plainPlaces
      ?_ trimmed.literal_last)
    intro place member
    exact agree place.2 (@mem_fields line.trimmed place member)
  have filtered (wanted : Kind) :
      (line.fields.filter fun field => kindOf (fieldKinds line.block kinds) field == wanted) =
        line.fields.filter fun field => kind field == wanted :=
    List.filter_congr fun field member => by rw [agree field member]
  rw [loopMatcher]
  change Matcher.loop _ (patternOf (fieldExpression line.item _) [] line.trimmed.body) _ _ _ = _
  rw [pattern, fields, filtered, filtered]
  rfl

theorem matcherOf_block {line : LoopLine} (shaped : line.Shaped) (hints : Hints) :
    matcherOf (.loop line.block) hints = lineMatcher line hints := by
  have unhinted {kind : String → Kind} (all : ∀ field, kind field = .string) :
      ∀ field ∈ line.fields, kindOf (fieldKinds line.block []) field = kind field := by
    intro field member
    rw [kindOf_fieldKinds member, all]
    rfl
  change (match hints.lookup line.collection with
    | some (.fields kinds) => loopMatcher line.block kinds
    | _ => loopMatcher line.block []) = _
  rw [lineMatcher]
  split
  · next kinds found =>
    refine loopMatcher_block shaped fun field member => ?_
    rw [kindOf_fieldKinds member, fieldKind, found]
  · next other =>
    refine loopMatcher_block shaped (unhinted fun field => ?_)
    rw [fieldKind]
    split
    · next kinds found => exact absurd found (other kinds)
    · rfl

/-! ### Well-formedness -/

theorem isWellFormed_sequence (parts : List Pattern) :
    (Pattern.sequence parts).isWellFormed = parts.all Pattern.isWellFormed := by
  induction parts with
  | nil => rfl
  | cons part parts ih =>
    rw [List.all_cons, ← ih]
    exact List.all_append

theorem isWellFormed_literalPatterns (literal : ∀ c ∈ text, isLiteral c = true) :
    (literalPatterns text).all Pattern.isWellFormed = true := by
  induction text using blanks_induction with
  | nil => rfl
  | solid c rest solid ih =>
    obtain ⟨here, more⟩ := List.forall_mem_cons.mp literal
    rw [literalPatterns_solid solid here, List.all_cons, ih more]
    rfl
  | blanks run rest filled blank stopped ih =>
    obtain ⟨_, more⟩ := List.forall_mem_append.mp literal
    rw [literalPatterns_blanks filled blank stopped, List.all_cons, ih more]
    rfl

theorem isWellFormed_captureOnce (captured : List String) (proper : isVariable field.toList = true)
    (kind : Kind) : (captureOnce captured field (fieldPattern kind)).1.isWellFormed = true := by
  have identifier := isIdentifier_of_isVariable proper
  have named : ∀ body : Pattern, body.names = [] →
      (captureOnce captured field body).1.isWellFormed = true := by
    intro body nameless
    rw [captureOnce]
    split
    · simp only [Pattern.isWellFormed, Pattern.names, List.all_cons, identifier, List.all_nil,
        Bool.and_self]
    · simp only [Pattern.isWellFormed, Pattern.names, nameless, List.all_cons, identifier,
        List.all_nil, Bool.and_self]
  refine named (fieldPattern kind) ?_
  cases kind <;> rfl

theorem isWellFormed_placePatterns {kind : String → Kind} {captured : List String}
    (plain : PlainPlaces places) :
    (placePatterns kind captured places).all Pattern.isWellFormed = true := by
  induction places generalizing captured with
  | nil => rfl
  | cons place places ih =>
    obtain ⟨⟨literal, proper⟩, plain⟩ := List.forall_mem_cons.mp plain
    rw [placePatterns, List.all_append, List.all_cons, isWellFormed_literalPatterns literal,
      isWellFormed_captureOnce captured proper, ih plain]
    rfl

theorem isWellFormed_linePattern {line : LoopLine} (shaped : line.Shaped)
    (kind : String → Kind) : (linePattern kind line).isWellFormed = true := by
  rw [linePattern, isWellFormed_sequence, List.all_append,
    isWellFormed_placePatterns shaped.plainPlaces,
    isWellFormed_literalPatterns shaped.literal_last]
  rfl

theorem build_template {line : LoopLine} (shaped : line.Shaped) (hints : Hints) (strict : Bool) :
    Extractor.build line.template hints strict =
      ([], .ok ⟨line.template, [lineMatcher line hints]⟩) := by
  have compiled : compile (.loop line.block) hints = .ok (lineMatcher line hints) := by
    rw [compile, matcherOf_block shaped]
    exact if_pos (isWellFormed_linePattern shaped.trimmed _)
  rw [Extractor.build, shaped.analyze_template strict]
  change ([], (do return ⟨line.template, ← [Block.loop line.block].mapM fun block =>
    compile block hints⟩ : Except Error Extractor)) = _
  rw [List.mapM_cons, compiled]
  rfl

end Scaffold.Extract
