import Scaffold.Proofs.Extract.LineMatches
import Scaffold.Proofs.Extract.ParamText
import Scaffold.Proofs.Outcome

/-!
The pattern of a line with placeholders, for one of its parameters. The first placeholder of the
parameter is captured, later ones refer back to it, and the placeholders of other parameters stand for
any text within a line, the shortest that lets the rest match. In a line that is filled with values
each of these ends where its value ends.
-/

namespace Scaffold.Extract

open Text Template Pattern

variable {text rest back : List Char} {name other : String} {kind : Kind} {captured : List String}
  {captures : List (String × List Char)} {places : List (List Char × String)} {c d : Char}

/-! ### The pattern -/

/-- The pattern of an expression in the line of a parameter. -/
def paramExpression (name : String) (kind : Kind) (captured : List String) (inner : List Char) :
    Pattern × List String :=
  if inner = name.toList then captureOnce captured valueName (kindPattern kind)
  else (wildcard, captured)

/-- The pattern of a placeholder in the line of a parameter. -/
def placeholderPattern (name : String) (kind : Kind) (captured : List String) (other : String) :
    Pattern × List String :=
  if other = name then captureOnce captured valueName (kindPattern kind) else (wildcard, captured)

/-- The patterns of texts and the placeholders after them, given what was captured before. -/
def paramPatterns (name : String) (kind : Kind) :
    List String → List (List Char × String) → List Pattern
  | _, [] => []
  | captured, (text, other) :: places =>
    literalPatterns text ++ (placeholderPattern name kind captured other).1 ::
      paramPatterns name kind (placeholderPattern name kind captured other).2 places

/-- The pattern of a parameter of a line. -/
def paramPattern (line : ParamLine) (name : String) (kind : Kind) : Pattern :=
  .sequence (paramPatterns name kind [] line.places ++ literalPatterns line.last)

theorem fragments_placeholder (proper : isVariable name.toList = true) (back : List Char) :
    fragments (placeholder name ++ back) = .expression name.toList :: fragments back := by
  have parts := (isVariable_iff.mp proper).2
  have inside : ∀ c ∈ name.toList, isBlank c = false ∧ c ≠ '-' ∧ c ≠ '}' ∧ c ≠ '\n' :=
    fun c member => isPlain_of_isWord (isWord_of_isVariablePart (parts c member))
  have filled : name.toList ≠ [] := by
    obtain ⟨⟨c, more, form, _⟩, _⟩ := isVariable_iff.mp proper
    rw [form]
    exact List.cons_ne_nil c more
  have kept : trim name.toList = name.toList :=
    (tight_of_forall filled fun c member => (inside c member).1).trim_eq
  have found : fragment? (placeholder name ++ back) = some (.expression name.toList, back) := by
    rw [fragment?, afterOpening?_placeholder proper]
    simp only [expressionBody?_append inside back, Option.map_some, kept]
  exact fragments_of_some (placeholder_ne_nil name) found

theorem paramExpression_toList (captured : List String) (other : String) :
    paramExpression name kind captured other.toList = placeholderPattern name kind captured other := by
  simp only [paramExpression, placeholderPattern, String.toList_inj]

theorem patternsFrom_placeholders {last : List Char} (plain : PlainPlaces places)
    (literal : ∀ c ∈ last, isLiteral c = true) :
    patternsFrom (paramExpression name kind) captured
        (fragments (filledPlaces placeholder places ++ last)) =
      paramPatterns name kind captured places ++ literalPatterns last := by
  induction places generalizing captured with
  | nil =>
    rw [filledPlaces, List.flatMap_nil, List.nil_append, patternsFrom_literal_last literal]
    rfl
  | cons place places ih =>
    obtain ⟨⟨literal', proper⟩, plain⟩ := List.forall_mem_cons.mp plain
    rw [filledPlaces_cons, List.append_assoc, List.append_assoc,
      patternsFrom_literal literal' (by simp [placeholder, isBlank]),
      fragments_placeholder proper, patternsFrom, paramPatterns, paramExpression_toList]
    simp only [List.append_assoc, List.cons_append, ih plain]

/-! ### The matcher -/

/-- The kind of the values of a parameter, as far as hints tell. -/
def paramKind (hints : Hints) (name : String) : Kind :=
  match hints.lookup name with
  | some (.kind (.other _)) => .identifier
  | some (.kind kind) => kind
  | _ => .identifier

theorem matcherOf_param {line : ParamLine} (shaped : line.Shaped) (hints : Hints) (name : String) :
    matcherOf (.param (line.block name)) hints =
      .param name (paramPattern line.trimmed name (paramKind hints name)) (paramKind hints name) := by
  have pattern (kind : Kind) : patternOf (paramExpression name kind) [] line.trimmed.template =
      paramPattern line.trimmed name kind :=
    congrArg Pattern.sequence
      (patternsFrom_placeholders shaped.trimmed.plain.plainPlaces shaped.trimmed.plain.literal_last)
  rw [← pattern]
  rfl

theorem isWellFormed_placeholderPattern (captured : List String) (other : String) :
    (placeholderPattern name kind captured other).1.isWellFormed = true := by
  have value : Text.isIdentifier valueName.toList = true := by decide
  have nameless : (kindPattern kind).names = [] := by cases kind <;> rfl
  rw [placeholderPattern, captureOnce]
  repeat' split
  · simp [Pattern.isWellFormed, Pattern.names, value]
  · simp [Pattern.isWellFormed, Pattern.names, value, nameless]
  · rfl

theorem isWellFormed_paramPatterns (plain : PlainPlaces places) :
    (paramPatterns name kind captured places).all Pattern.isWellFormed = true := by
  induction places generalizing captured with
  | nil => rfl
  | cons place places ih =>
    obtain ⟨⟨literal, _⟩, plain⟩ := List.forall_mem_cons.mp plain
    rw [paramPatterns, List.all_append, List.all_cons, isWellFormed_literalPatterns literal,
      isWellFormed_placeholderPattern, ih plain]
    rfl

/-- The block of a parameter is compiled to a matcher with the pattern of the trimmed line. -/
theorem compile_param {line : ParamLine} (shaped : line.Shaped) (hints : Hints) (name : String) :
    compile (.param (line.block name)) hints =
      .ok (.param name (paramPattern line.trimmed name (paramKind hints name))
        (paramKind hints name)) := by
  have wellFormed : (paramPattern line.trimmed name (paramKind hints name)).isWellFormed = true := by
    rw [paramPattern, isWellFormed_sequence, List.all_append,
      isWellFormed_paramPatterns shaped.trimmed.plain.plainPlaces,
      isWellFormed_literalPatterns shaped.trimmed.plain.literal_last]
    rfl
  rw [compile, matcherOf_param shaped]
  exact if_pos wellFormed

/-- The extractor of a line has one matcher for each parameter. -/
theorem build_params {line : ParamLine} (shaped : line.Shaped) (hints : Hints) (strict : Bool) :
    Extractor.build line.template hints strict =
      ([], .ok ⟨line.template, line.params.map fun name =>
        .param name (paramPattern line.trimmed name (paramKind hints name))
          (paramKind hints name)⟩) := by
  have compiled : (line.params.map fun name => Block.param (line.block name)).mapM
      (fun block => compile block hints) =
      .ok (line.params.map fun name =>
        .param name (paramPattern line.trimmed name (paramKind hints name))
          (paramKind hints name)) := by
    rw [mapM_eq_ok, List.forall₂_map_left_iff, List.forall₂_map_right_iff, List.forall₂_same]
    exact fun name _ => compile_param shaped hints name
  rw [Extractor.build, shaped.analyze_template strict]
  change ([], (do return ⟨line.template, ← (line.params.map _).mapM fun block =>
    compile block hints⟩ : Except Error Extractor)) = _
  rw [compiled]
  rfl

/-! ### Filled lines -/

/-- A text at whose first character a value ends does not go on within a value. -/
theorem fails_literalPatterns (literal : ∀ c ∈ text, isLiteral c = true) (first : c ∈ text.head?)
    (ends : isEnd c = true) (part : isValuePart d = true) (behind : List Pattern) :
    (sequence (literalPatterns text ++ behind)).Fails ⟨d :: rest, captures⟩ := by
  have apart : isEnd d = false := isEnd_of_isValuePart part
  refine fails_of_not_leads fun finish leads => ?_
  obtain ⟨middle, leads, _⟩ := leads_sequence_append.mp leads
  cases text using blanks_induction with
  | nil => cases first
  | solid e text solid =>
    obtain rfl := Option.some.inj first
    rw [literalPatterns_solid solid (literal e List.mem_cons_self)] at leads
    obtain ⟨after, ⟨split, _⟩, _⟩ := leads
    obtain ⟨rfl, _⟩ := List.cons.inj split
    rw [ends] at apart
    cases apart
  | blanks run text filled blank stopped =>
    rw [literalPatterns_blanks filled blank stopped] at leads
    obtain ⟨after, ⟨used, filled', blank', split, _⟩, _⟩ := leads
    obtain ⟨e, used, rfl⟩ := List.exists_cons_of_ne_nil filled'
    obtain ⟨rfl, _⟩ := List.cons.inj split
    rw [isEnd_of_isBlank (blank' d List.mem_cons_self)] at apart
    cases apart

/-- No value ends before the texts after it begin, whatever blanks they have. -/
theorem isEnd_head_of_respaced {other : List Char} (respaced : Respaced text other)
    (begins : ∀ c ∈ text.head?, isEnd c = true) : ∀ c ∈ other.head?, isEnd c = true := by
  intro c first
  rcases respaced.head first with same | ⟨blank, _⟩
  · exact begins c same
  · exact isEnd_of_isBlank blank

/-- The same names, with texts that differ in their blanks only. -/
def RespacedPlaces (places places' : List (List Char × String)) : Prop :=
  List.Forall₂ (fun place place' => Respaced place.1 place'.1 ∧ place'.2 = place.2) places places'

section Filled

variable {places' : List (List Char × String)} {last last' : List Char} {value : String → Value}
  {kinds : String → Kind}

/-- What is not the end of the line goes on, after a value, with a character at which values end. -/
theorem isEnd_head_filledPlaces {shown : String → List Char} (spaced : RespacedPlaces places places')
    (between : ∀ place ∈ places, place.1.head?.any isEnd = true)
    (stopped : ∀ c ∈ rest.head?, isEnd c = true) :
    ∀ c ∈ (filledPlaces shown places' ++ rest).head?, isEnd c = true := by
  cases spaced with
  | nil => exact stopped
  | @cons place place' _ _ here _ =>
    have begins := (List.forall_mem_cons.mp between).1
    have filled : place'.1 ≠ [] := by
      rw [Ne, ← here.1.eq_nil_iff]
      rintro empty
      rw [empty] at begins
      cases begins
    rw [filledPlaces_cons, List.append_assoc, List.head?_append_of_ne_nil _ filled]
    refine isEnd_head_of_respaced here.1 fun c first => ?_
    rw [Option.mem_def.mp first] at begins
    exact begins

/-- Unless nothing is left of the line, what is left fails within a value. -/
theorem fails_paramPatterns (plain : PlainPlaces places) (literal : ∀ c ∈ last, isLiteral c = true)
    (between : ∀ place ∈ places, place.1.head?.any isEnd = true)
    (ends : ∀ c ∈ last.head?, isEnd c = true) (more : places = [] → last ≠ [])
    (part : isValuePart d = true) :
    (sequence (paramPatterns name kind captured places ++ literalPatterns last)).Fails
      ⟨d :: rest, captures⟩ := by
  cases places with
  | nil =>
    obtain ⟨c, text, rfl⟩ := List.exists_cons_of_ne_nil (more rfl)
    have fails : (sequence (literalPatterns (c :: text) ++ [])).Fails ⟨d :: rest, captures⟩ :=
      fails_literalPatterns literal rfl (ends c rfl) part []
    rwa [List.append_nil] at fails
  | cons place places =>
    obtain ⟨text, other⟩ := place
    have begins := (List.forall_mem_cons.mp between).1
    cases text with
    | nil => cases begins
    | cons c text =>
      rw [paramPatterns, List.append_assoc]
      exact fails_literalPatterns (List.forall_mem_cons.mp plain).1.1 rfl begins part _

/-- The placeholder of the parameter takes the text of its value, which is captured or was before. -/
theorem first_valuePattern {suited : Value} (fits : Suited kind suited)
    (stopped : ∀ c ∈ rest.head?, isEnd c = true)
    (held : captured.contains valueName = true →
      captures.lookup valueName = some suited.shown) :
    ∃ captures', captures'.lookup valueName = some suited.shown ∧
      (captureOnce captured valueName (kindPattern kind)).2.contains valueName = true ∧
      (captureOnce captured valueName (kindPattern kind)).1.First ⟨suited.shown ++ rest, captures⟩
        ⟨rest, captures'⟩ := by
  rw [captureOnce]
  split
  · next known => exact ⟨captures, held known, known, First.again (held known) rest⟩
  · exact ⟨_, List.lookup_cons_self, by simp, First.capture valueName (fits.first stopped captures)⟩

/-- A wildcard takes the text of a value when the patterns after it fail within values. -/
theorem first_wildcard {second : Pattern} {finish : State} {suited : Value}
    (fits : Suited kind suited)
    (fails : ∀ d back, isValuePart d = true → second.Fails ⟨d :: back, captures⟩)
    (first : second.First ⟨rest, captures⟩ finish) :
    (Pattern.append wildcard second).First ⟨suited.shown ++ rest, captures⟩ finish := by
  refine First.few_append .inLine (fun c member => ?_) (fun front back split filled => ?_) first
  · have part := fits.text.2 c member
    rw [CharClass.holds, bne_iff_ne]
    rintro rfl
    cases part
  · obtain ⟨d, back, rfl⟩ := List.exists_cons_of_ne_nil filled
    exact fails d (back ++ rest) (fits.text.2 d (by simp [split]))

/-- A wildcard takes nothing when the patterns after it match where it begins. -/
theorem first_wildcard_empty {second : Pattern} {finish : State}
    (first : second.First ⟨rest, captures⟩ finish) :
    (Pattern.append wildcard second).First ⟨rest, captures⟩ finish := by
  have within : ∀ front back : List Char, [] = front ++ back → back ≠ [] →
      second.Fails ⟨back ++ rest, captures⟩ :=
    fun front back split filled => absurd (List.append_eq_nil_iff.mp split.symm).2 filled
  exact First.few_append .inLine (by simp) within first

/-- A line that is filled with values, with any runs of blanks in its texts, is matched from any place
on; what the parameter captures is the text of its value. -/
theorem first_paramPatterns (spaced : RespacedPlaces places places') (respaced : Respaced last last')
    (plain : PlainPlaces places) (literal : ∀ c ∈ last, isLiteral c = true)
    (between : ∀ place ∈ places.tail, place.1.head?.any isEnd = true)
    (begins : ∀ c ∈ last.head?, isEnd c = true) (ends : ∀ c ∈ last.getLast?, isBlank c = false)
    (stopped : ∀ c ∈ rest.head?, isEnd c = true)
    (suited : ∀ place ∈ places, Suited (kinds place.2) (value place.2))
    (held : captured.contains valueName = true →
      captures.lookup valueName = some (value name).shown) :
    ∃ finish,
      (sequence (paramPatterns name (kinds name) captured places ++ literalPatterns last)).First
        ⟨filledPlaces (fun name => (value name).shown) places' ++ (last' ++ rest), captures⟩ finish ∧
      (captured.contains valueName = true ∨ name ∈ places.map (·.2) →
        finish.captures.lookup valueName = some (value name).shown) := by
  have final : ∀ c ∈ (last' ++ rest).head?, isEnd c = true := by
    have first := isEnd_head_of_respaced respaced begins
    cases form : last' with
    | nil => exact stopped
    | cons d text => rwa [form] at first
  induction spaced generalizing captured captures with
  | nil =>
    refine ⟨_, first_respaced respaced literal (.inl ends) captures, fun known => held ?_⟩
    exact known.resolve_right (by simp)
  | @cons place place' places places' here more ih =>
    obtain ⟨text, other⟩ := place
    obtain ⟨text', other'⟩ := place'
    obtain ⟨spacing, rfl⟩ := here
    obtain ⟨⟨literal', _⟩, plain⟩ := List.forall_mem_cons.mp plain
    obtain ⟨fits, suited⟩ := List.forall_mem_cons.mp suited
    have later : ∀ place ∈ places.tail, place.1.head?.any isEnd = true :=
      fun place member => between place (List.mem_of_mem_tail member)
    have after : ∀ c ∈ (filledPlaces (fun name => (value name).shown) places' ++
        (last' ++ rest)).head?, isEnd c = true :=
      isEnd_head_filledPlaces more between final
    have solid : ∀ c ∈ ((value other').shown ++ (filledPlaces (fun name => (value name).shown)
        places' ++ (last' ++ rest))).head?, isBlank c = false := by
      rw [List.head?_append_of_ne_nil _ fits.tight.filled]
      exact fits.tight.begins
    have before := first_respaced spacing literal' (.inr solid) captures
    rw [filledPlaces_cons, List.append_assoc, List.append_assoc, paramPatterns, List.append_assoc]
    rw [placeholderPattern]
    split
    · next same =>
      -- the parameter itself: its value is captured here or was before
      subst same
      obtain ⟨captures', kept, known, value⟩ := first_valuePattern fits after held
      obtain ⟨finish, first, caught⟩ := ih plain later suited fun _ => kept
      exact ⟨finish, First.sequence_append before (First.append value first),
        fun _ => caught (.inl known)⟩
    · next apart =>
      -- another parameter: what follows fails within its value, so the wildcard ends where the value does
      have unnamed : captured.contains valueName = true ∨ name ∈ other' :: places.map (·.2) →
          captured.contains valueName = true ∨ name ∈ places.map (·.2) :=
        Or.imp_right fun member => (List.mem_cons.mp member).resolve_left (Ne.symm apart)
      by_cases whole : places = [] ∧ last = []
      · obtain ⟨rfl, rfl⟩ := whole
        refine ⟨_, First.sequence_append before (first_wildcard_empty (First.empty _)),
          fun known => held ?_⟩
        exact (unnamed known).resolve_right (by simp)
      · obtain ⟨finish, first, caught⟩ := ih plain later suited held
        have fails : ∀ d back, isValuePart d = true → (sequence (paramPatterns name (kinds name)
            captured places ++ literalPatterns last)).Fails ⟨d :: back, captures⟩ :=
          fun d back => fails_paramPatterns plain literal between begins
            fun none empty => whole ⟨none, empty⟩
        exact ⟨finish, First.sequence_append before (first_wildcard fits fails first),
          fun known => caught (unnamed known)⟩

end Filled

end Scaffold.Extract
