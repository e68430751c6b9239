import Scaffold.Proofs.Extract.KindText
import Scaffold.Proofs.Extract.ParamValues
import Scaffold.Proofs.Extract.Renderings
import Scaffold.Proofs.Extract.Totality
import Scaffold.Proofs.Render.BareDocument

/-!
Every rendering of a text is accepted. What is written for a text, with places for its expressions, is a
regular expression for just the renderings of the text; and the matcher of a parameter finds something
wherever a rendering of its line stands, also one with other blanks.
-/

namespace Scaffold.Extract

open Text Template Pattern

variable {σ : Type} {yields : σ → List Char → Place × σ} {state : σ} {text out rest : List Char}
  {name : String} {kind : Kind} {value : List Char}

/-! ### Places for expressions -/

/-- The pattern of a text whose expressions yield places, where this may depend on the expressions
before. -/
def placedPattern (yields : σ → List Char → Place × σ) (state : σ) (text : List Char) : Pattern :=
  patternOf (fun state inner => ((yields state inner).1.pattern, (yields state inner).2)) state text

/-- Expressions are filled with what their places admit. -/
def placed (yields : σ → List Char → Place × σ) : Filling σ where
  admits state inner part := (yields state inner).1.Admits part
  next state inner := (yields state inner).2

theorem isLegible_sequence {parts : List Pattern}
    (legible : ∀ part ∈ parts, part.isLegible = true ∧ part.isChoice = false) :
    (Pattern.sequence parts).isLegible = true := by
  induction parts with
  | nil => rfl
  | cons part parts ih =>
    obtain ⟨⟨here, single⟩, more⟩ := List.forall_mem_cons.mp legible
    have behind : (Pattern.sequence parts).isChoice = false := by cases parts <;> rfl
    change ((!part.isChoice && !(Pattern.sequence parts).isChoice) &&
      (part.isLegible && (Pattern.sequence parts).isLegible)) = true
    rw [single, behind, here, ih more]
    rfl

theorem isLegible_placedPattern : (placedPattern yields state text).isLegible = true :=
  isLegible_sequence (forall_patternsFrom (fun _ _ => Place.isLegible_pattern _) (fun _ => ⟨rfl, rfl⟩)
    ⟨rfl, rfl⟩ ⟨rfl, rfl⟩ state (fragments text))

/-- The pattern of a text whose expressions yield places fits just the renderings of the text. -/
theorem fits_placedPattern :
    (placedPattern yields state text).fits out = true ↔ Rendering (placed yields) state text out := by
  have legible (place : Place) : place.pattern.isFree = true :=
    isFree_of_isLegible place.isLegible_pattern.1
  constructor
  · exact rendering_of_fits (fun _ _ => legible _) (fun _ _ _ => Place.fits_pattern.mp) fun _ _ => rfl
  · intro rendering
    rw [fits_iff_leads (isFree_of_isLegible isLegible_placedPattern) [] []]
    refine rendering.leads (fun state state' _ => state = state') ?_ [] rfl
    rintro state _ captures inner part rfl admitted rest
    obtain ⟨captures', leads⟩ := (fits_iff_leads (legible _) rest captures).mp
      (Place.fits_pattern.mpr admitted)
    exact ⟨captures', leads, rfl⟩

/-- What is written for a text is written piece by piece. -/
theorem source_placedPattern (place : List Char → Place) (text : List Char) :
    (placedPattern (fun _ inner => (place inner, ())) () text).source =
      translate text fun inner => (place inner).pattern.source := by
  rw [placedPattern, patternOf, source_sequence, translate]
  induction fragments text with
  | nil => rfl
  | cons part parts ih =>
    rw [List.flatMap_cons, ← ih]
    cases part <;> rfl

/-- What is written for a text is read as a regular expression for just the renderings of the text. -/
theorem exists_read?_placedPattern (distinct : (placedPattern yields state text).names.Nodup)
    (proper : (placedPattern yields state text).isWellFormed = true) :
    ∃ regex, Notation.read? (placedPattern yields state text).source = some regex ∧
      ∀ out, regex.Matches out ↔ Rendering (placed yields) state text out := by
  obtain ⟨regex, read, same⟩ := exists_read?_source isLegible_placedPattern proper distinct
  exact ⟨regex, read, fun out => (same out).trans fits_placedPattern⟩

/-! ### Parameters -/

/-- The kind of the values of a parameter. A hint of a kind with a shape of its own goes before the kind of
the block. -/
def valueKind (block : ParamBlock) (hints : Hints) : Kind :=
  match hints.lookup block.name with
  | some (.kind (.other _)) => block.kind
  | some (.kind kind) => kind
  | _ => block.kind

theorem matcherOf_paramBlock (block : ParamBlock) (hints : Hints) : matcherOf (.param block) hints =
    .param block.name (patternOf (paramExpression block.name (valueKind block hints)) [] block.line)
      (valueKind block hints) :=
  rfl

/-- The expressions of a parameter are filled with the text of its value, and others with any text within a
line. -/
def paramFilling (name : String) (value : List Char) : Filling Unit where
  admits _ inner part := if inner = name.toList then part = value else '\n' ∉ part
  next _ _ := ()

/-- The pattern of a parameter leads over a rendering of its line: the value is captured where it first
stands, and is found again where it stands later. -/
theorem leads_paramExpression (written : KindText kind value)
    (rendering : Rendering (paramFilling name value) () text out) (rest : List Char) :
    ∃ captures, (patternOf (paramExpression name kind) [] text).Leads ⟨out ++ rest, []⟩
      ⟨rest, captures⟩ := by
  refine rendering.leads (fun _ captured captures => captured.contains valueName = true →
    captures.lookup valueName = some value) ?_ rest nofun
  intro _ captured captures inner part agreed admitted rest
  change if inner = name.toList then part = value else '\n' ∉ part at admitted
  rw [paramExpression]
  split at admitted
  · next same =>
    obtain rfl := admitted
    rw [if_pos same, captureOnce]
    split
    · next known => exact ⟨captures, ⟨part, agreed known, rfl, rfl⟩, fun _ => agreed known⟩
    · have free : (kindPattern kind).isFree = true := by cases kind <;> rfl
      obtain ⟨captures', leads⟩ := (fits_iff_leads free rest captures).mp (fits_kindPattern.mpr written)
      refine ⟨(valueName, between (part ++ rest) rest) :: captures', ⟨_, leads, rfl, rfl⟩, fun _ => ?_⟩
      rw [List.lookup_cons_self, between_append]
  · next other =>
    rw [if_neg other]
    refine ⟨captures, ⟨part, fun c member => ?_, rfl, rfl⟩, agreed⟩
    exact bne_iff_ne.mpr (ne_of_mem_of_not_mem member admitted)

theorem compile_paramBlock (block : ParamBlock) (hints : Hints) :
    compile (.param block) hints = .ok (matcherOf (.param block) hints) :=
  if_pos ((isWellFormed_matcherOf (.param block) hints).mpr trivial)

/-- The matcher of a parameter fits the renderings of its line, and finds something wherever one stands. -/
theorem extract_rendering {block : ParamBlock} {hints : Hints} (seen : Seen (.param block))
    (written : KindText (valueKind block hints) value)
    (rendering : Rendering (paramFilling block.name value) () block.line out) :
    (matcherOf (.param block) hints).pattern.fits out = true ∧ ∀ front back, ∃ found,
      (matcherOf (.param block) hints).extract (front ++ (out ++ back)) = .ok (some found) := by
  have leads := leads_paramExpression written rendering
  refine ⟨?_, fun front back => ?_⟩
  · obtain ⟨captures, whole⟩ := leads []
    rw [List.append_nil] at whole
    exact fits_iff.mpr ⟨captures, whole⟩
  · obtain ⟨captures, here⟩ := leads back
    have somewhere : ((patternOf (paramExpression block.name (valueKind block hints)) [] block.line).search?
        (front ++ (out ++ back))).isSome = true := search?_isSome here
    obtain ⟨found, searched⟩ := Option.isSome_iff_exists.mp somewhere
    obtain ⟨_, matched⟩ := search?_leads searched
    obtain ⟨part, kept⟩ := captured_ok matched (covers_matcherOf seen hints)
    refine ⟨paramValue (valueKind block hints) part, ?_⟩
    rw [matcherOf_paramBlock, Matcher.extract, searched]
    change (do let text ← captured found valueName; _) = _
    rw [kept]
    cases valueKind block hints <;> rfl

/-! ### Lines of texts and placeholders -/

section Lines

variable {filling : Filling σ} {filled : Filling Unit} {line : BareLine} {line' : ParamLine} {slot : Slot}
  {back : List Char} {c : Char} {shown : String → List Char}

/-- Where nothing opens, every character but the blanks stands for itself. -/
theorem alone_of_untagged (untagged : Untagged (c :: (text ++ back.head?.toList)))
    (solid : isBlank c = false) :
    ∀ fragment after, ¬ BeginsWith (c :: (text ++ back)) fragment after := by
  intro fragment after begins
  generalize whole : c :: (text ++ back) = source at begins
  cases begins with
  | expression =>
    obtain ⟨brace, behind⟩ := List.cons.inj whole
    exact untagged.apart_append brace '{' (by rw [behind]; rfl) (by simp)
  | statement =>
    obtain ⟨brace, behind⟩ := List.cons.inj whole
    exact untagged.apart_append brace '%' (by rw [behind]; rfl) (by simp)
  | blanks run after filled blank =>
    obtain ⟨d, run, rfl⟩ := List.exists_cons_of_ne_nil filled
    obtain ⟨rfl, _⟩ := List.cons.inj whole
    rw [blank c List.mem_cons_self] at solid
    cases solid

theorem beginsWith_run {run : List Char} (filled : run ≠ []) (blank : ∀ c ∈ run, isBlank c = true)
    (stopped : ∀ c ∈ text.head?, isBlank c = false) (stopped' : ∀ c ∈ back.head?, isBlank c = false) :
    BeginsWith (run ++ (text ++ back)) .blanks (text ++ back) := by
  refine .blanks run (text ++ back) filled blank ?_
  cases text with
  | nil => exact stopped'
  | cons => exact stopped

/-- A text in which nothing opens is rendered with any blanks in place of its own. -/
theorem rendering_text {other : List Char} (untagged : Untagged (text ++ back.head?.toList))
    (stopped : ∀ c ∈ back.head?, isBlank c = false) (respaced : Respaced text other)
    (more : Rendering filling state back out) : Rendering filling state (text ++ back) (other ++ out) := by
  induction respaced with
  | nil => exact more
  | solid c solid _ ih => exact .literal (alone_of_untagged untagged solid) (ih untagged.tail)
  | blanks filled filled' blank blank' stopped' _ ih =>
    rw [List.append_assoc] at untagged
    rw [List.append_assoc, List.append_assoc]
    exact .blanks (beginsWith_run filled blank stopped' stopped) filled' blank' (ih untagged.suffix)

/-- What stands behind a text in which nothing opens is cut into fragments on its own. -/
theorem suffix_fragments (untagged : Untagged (text ++ back.head?.toList))
    (stopped : ∀ c ∈ back.head?, isBlank c = false) : fragments back <:+ fragments (text ++ back) := by
  induction text using blanks_induction with
  | nil => exact List.suffix_refl (fragments back)
  | solid c rest solid ih =>
    rw [List.cons_append, fragments_of_alone (alone_of_untagged untagged solid)]
    exact (ih untagged.tail).trans (List.suffix_cons _ _)
  | blanks run rest filled blank stopped' ih =>
    rw [List.append_assoc] at untagged ⊢
    rw [fragments_of_beginsWith (beginsWith_run filled blank stopped' stopped)]
    exact (ih untagged.suffix).trans (List.suffix_cons _ _)

theorem beginsWith_braced (shaped : line.Shaped) (listed : slot ∈ line.slots) (back : List Char) :
    BeginsWith (slot.braced ++ back) (.expression slot.name.toList) back := by
  obtain ⟨middle, form, found⟩ := encloses_of_placeholder? (shaped.placeholder?_braced listed back)
  have here := found back
  rw [← form] at here
  exact fragment?_eq_some.mp here

/-- No blank opens a placeholder. -/
theorem solid_braced (slot : Slot) (back : List Char) :
    ∀ c ∈ (slot.braced ++ back).head?, isBlank c = false := by
  simp [Slot.braced, isBlank]

/-- A placeholder of the line is one of its fragments. -/
theorem expression_mem_fragments (shaped : line.Shaped) (listed : name ∈ line.toParamLine.names) :
    .expression name.toList ∈ fragments line.source := by
  rw [BareLine.names_toParamLine, List.mem_map] at listed
  obtain ⟨slot, member, rfl⟩ := listed
  have slots : ∀ slots : List Slot, (∀ slot ∈ slots, slot ∈ line.slots) → slot ∈ slots →
      .expression slot.name.toList ∈ fragments (slots.flatMap Slot.source ++ line.last) := by
    intro slots all member
    induction slots with
    | nil => cases member
    | cons first slots ih =>
      obtain ⟨here, all⟩ := List.forall_mem_cons.mp all
      have behind := suffix_fragments (shaped.texts first here)
        (solid_braced first (slots.flatMap Slot.source ++ line.last))
      rw [List.flatMap_cons, Slot.source, List.append_assoc, List.append_assoc]
      refine behind.subset ?_
      rw [fragments_of_beginsWith (beginsWith_braced shaped here _)]
      rcases List.mem_cons.mp member with rfl | later
      · exact List.mem_cons_self
      · exact List.mem_cons_of_mem _ (ih all later)
  exact slots line.slots (fun _ => id) member

theorem seen_bareLine {block : ParamBlock} (shaped : line.Shaped) (own : block.line = line.source)
    (listed : block.name ∈ line.toParamLine.names) : Seen (.param block) := by
  rw [Seen, own]
  exact expression_mem_fragments shaped listed

/-- The filled line is a rendering of the line, also with other blanks in its texts. -/
theorem rendering_fill (shaped : line.Shaped) (spaced : line.toParamLine.Respaced line')
    (admitted : ∀ name ∈ line.toParamLine.names, filled.admits () name.toList (shown name)) :
    Rendering filled () line.source (line'.fill shown) := by
  rw [BareLine.names_toParamLine, List.forall_mem_map] at admitted
  have last : Rendering filled () (line.last ++ []) (line'.last ++ []) :=
    rendering_text (by simpa using shaped.last) (by simp) spaced.2 (.done ())
  rw [List.append_nil, List.append_nil] at last
  have slots : ∀ (slots : List Slot) (places : List (List Char × String)),
      (∀ slot ∈ slots, slot ∈ line.slots) →
      RespacedPlaces (slots.map fun slot => (slot.text, slot.name)) places →
      Rendering filled () (slots.flatMap Slot.source ++ line.last)
        (filledPlaces shown places ++ line'.last) := by
    intro slots
    induction slots with
    | nil =>
      rintro _ _ ⟨⟩
      exact last
    | cons slot slots ih =>
      rintro _ all (_ | @⟨_, place, _, places, ⟨respaced, named⟩, spaced⟩)
      obtain ⟨here, all⟩ := List.forall_mem_cons.mp all
      rw [List.flatMap_cons, Slot.source, filledPlaces_cons, named, List.append_assoc, List.append_assoc,
        List.append_assoc, List.append_assoc]
      exact rendering_text (shaped.texts slot here) (solid_braced slot _) respaced
        (.expression (beginsWith_braced shaped here _) (admitted slot here) (ih places all spaced))
  exact slots line.slots line'.places (fun _ => id) spaced.1

end Lines

/-! ### Acceptance -/

/-- What is written for a text whose expressions yield places, with distinct identifiers for the names of
captures, is a regular expression that matches just the renderings of the text: its characters, blanks in
place of its blanks, any text within a line in place of its statements, and in place of its expressions what
their places admit. The pattern fits the same texts. Where the places depend on the expressions only, what is
written is the translation of the text.

A line of literal texts and placeholders is rendered with the values of its parameters in place of their
placeholders. For each of its parameters it compiles to a matcher. When that parameter has a value of its
kind, and the others have any within a line, the matcher fits the filled line, also with other blanks in its
texts, and finds something wherever that stands in a text. -/
theorem translate_accepts_renderings :
    (∀ {σ : Type} (yields : σ → List Char → Place × σ) (state : σ) (text : List Char),
      (placedPattern yields state text).names.Nodup →
      (placedPattern yields state text).isWellFormed = true →
        ∃ regex, Notation.read? (placedPattern yields state text).source = some regex ∧
          ∀ out, (regex.Matches out ↔ Rendering (placed yields) state text out) ∧
            ((placedPattern yields state text).fits out = true ↔
              Rendering (placed yields) state text out)) ∧
    (∀ (place : List Char → Place) (text : List Char),
      (placedPattern (fun _ inner => (place inner, ())) () text).source =
        translate text fun inner => (place inner).pattern.source) ∧
    ∀ (line : BareLine) (block : ParamBlock) (hints : Hints), line.Shaped → block.line = line.source →
      block.name ∈ line.toParamLine.names →
        (line.Renderable → ∃ document, Render.compile line.source = .ok document ∧
          ∀ (params : Record) (value : String → Value),
            (∀ name ∈ line.toParamLine.names, Keyed.field? params name = some (value name)) →
              document.render params = .ok (line.toParamLine.fill fun name => (value name).shown)) ∧
        ∃ matcher, compile (.param block) hints = .ok matcher ∧
          ∀ (shown : String → List Char) (line' : ParamLine),
            KindText (valueKind block hints) (shown block.name) →
            (∀ name ∈ line.toParamLine.names, '\n' ∉ shown name) → line.toParamLine.Respaced line' →
              matcher.pattern.fits (line'.fill shown) = true ∧ ∀ front back, ∃ found,
                matcher.extract (front ++ (line'.fill shown ++ back)) = .ok (some found) := by
  refine ⟨fun yields state text distinct proper => ?_, source_placedPattern,
    fun line block hints shaped own listed => ⟨fun renderable => ?_, ?_⟩⟩
  · obtain ⟨regex, read, same⟩ := exists_read?_placedPattern distinct proper
    exact ⟨regex, read, fun out => ⟨same out, fits_placedPattern⟩⟩
  · exact ⟨_, Render.compile_bareLine shaped renderable,
      fun params value => Render.render_freeDocument renderable.free⟩
  · refine ⟨_, compile_paramBlock block hints, fun shown line' written inLine spaced => ?_⟩
    refine extract_rendering (seen_bareLine shaped own listed) written ?_
    rw [own]
    refine rendering_fill shaped spaced fun name used => ?_
    change if name.toList = block.name.toList then _ else _
    split
    · next same => rw [String.toList_inj.mp same]
    · exact inLine name used

/-- A label in braces of its own, with a placeholder for the variant of a button before it. -/
def buttonLine : BareLine where
  slot := ⟨"<Button kind=".toList, [' '], "variant", [' ']⟩
  more := [⟨"  label=\x7b ".toList, [], "label", []⟩]
  last := " \x7d/>".toList

/-- The value of the first placeholder is an identifier, those of later ones are numbers. -/
def buttonPlace (count : Nat) (inner : List Char) : Place × Nat :=
  (.value (String.ofList inner) (if count = 0 then .identifier else .number), count + 1)

theorem translate_accepts_renderings_of_button :
    (∃ regex, Notation.read? (placedPattern buttonPlace 0 buttonLine.source).source = some regex ∧
      regex.Matches "<Button kind=plain\n  label=\x7b 7\t\x7d/>".toList) ∧
    ∃ document matcher, Render.compile buttonLine.source = .ok document ∧
      document.render [(.text "variant", .text "plain"), (.text "label", .int 7)] =
        .ok "<Button kind=plain  label=\x7b 7 \x7d/>".toList ∧
      compile (.param ⟨"label", buttonLine.source, .number⟩) [] = .ok matcher ∧
      ∀ front back, ∃ found, matcher.extract
        (front ++ ("<Button kind=plain\n  label=\x7b 7\t\x7d/>".toList ++ back)) = .ok (some found) := by
  have texts : ∀ slot ∈ buttonLine.slots, Untagged (slot.text ++ ['{']) :=
    List.forall_mem_cons.mpr ⟨by decide +kernel, List.forall_mem_singleton.mpr (by decide +kernel)⟩
  have blank : ∀ slot ∈ buttonLine.slots, ∀ c ∈ slot.before ++ slot.behind, isBlank c = true :=
    List.forall_mem_cons.mpr ⟨List.all_eq_true.mp rfl, List.forall_mem_singleton.mpr (by simp)⟩
  have names : ∀ slot ∈ buttonLine.slots, isTagName slot.name.toList = true :=
    List.forall_mem_cons.mpr ⟨by decide, List.forall_mem_singleton.mpr (by decide)⟩
  have shaped : buttonLine.Shaped := ⟨texts, by decide +kernel, blank, names⟩
  obtain ⟨written, _, lines⟩ := translate_accepts_renderings
  obtain ⟨regex, read, same⟩ := written buttonPlace 0 buttonLine.source (by decide +kernel)
    (by decide +kernel)
  have matched := (same "<Button kind=plain\n  label=\x7b 7\t\x7d/>".toList).1.mpr
    ((same _).2.mp (by decide +kernel))
  obtain ⟨rendered, matcher, compiled, accepts⟩ :=
    lines buttonLine ⟨"label", buttonLine.source, .number⟩ [] shaped rfl (by decide)
  obtain ⟨document, made, shows⟩ := rendered ⟨by decide, by decide⟩
  let value (name : String) : Value := if name = "label" then .int 7 else .text "plain"
  let spaced : ParamLine :=
    ⟨"<Button kind=".toList, "variant", [("\n  label=\x7b ".toList, "label")], "\t\x7d/>".toList⟩
  have respaced : buttonLine.toParamLine.Respaced spaced :=
    ⟨.cons ⟨.refl _, rfl⟩ (.cons ⟨(Respaced.refl "label=\x7b ".toList).precede [' ', ' '] ['\n', ' ', ' ']
      (List.all_eq_true.mp rfl) (List.all_eq_true.mp rfl) (by simp), rfl⟩ .nil),
      (Respaced.refl "\x7d/>".toList).precede [' '] ['\t'] (List.all_eq_true.mp rfl)
        (List.all_eq_true.mp rfl) (by simp)⟩
  have seven : KindText .number ['7'] := .integer false (by simp) (List.all_eq_true.mp rfl)
  have found := (accepts (fun name => (value name).shown) spaced seven (by decide) respaced).2
  have shown := shows [(.text "variant", .text "plain"), (.text "label", .int 7)] value
    (List.forall_mem_cons.mpr ⟨rfl, List.forall_mem_singleton.mpr rfl⟩)
  exact ⟨⟨regex, read, matched⟩, document, matcher, made, shown, compiled, found⟩

end Scaffold.Extract
