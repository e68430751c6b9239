import Scaffold.Proofs.Render.FreeNames
import Scaffold.Proofs.Render.LineDocument
import Scaffold.Proofs.Template.ParamLine

/-!
The document of a line with placeholders. It is rendered as the line with the texts of the parameters
in place of their placeholders.
-/

namespace Scaffold.Render

open Text Template

variable {lineStarting : Bool} {line latest least : Nat} {text rest : List Char}
  {out after before : List Token} {found : List Node} {name : String} {words : List String}

def placeholderTokens (line : Nat) (name : String) : List Token :=
  [⟨line, .openExpression⟩, ⟨line, .name name⟩, ⟨line, .closeExpression⟩]

/-- The tokens of a line with placeholders. -/
def paramTokens (line : ParamLine) : List Token :=
  (line.places.flatMap fun place => dataTokens 1 place.1 ++ placeholderTokens 1 place.2) ++
    (dataTokens 1 line.last ++ [⟨1, .finish⟩])

/-- The document of a line with placeholders. -/
def paramDocument (line : ParamLine) : Document :=
  (line.places.flatMap fun place => textNodes place.1 ++ [.output (.name place.2)]) ++
    textNodes line.last

/-! ### Tokens -/

namespace Cuts

/-- A name in braces, with any blanks around it. -/
theorem braced {before behind : List Char} (unopened : Unopened text) (inLine : '\n' ∉ text)
    (blank : ∀ c ∈ before ++ behind, isBlank c = true) (inLine' : '\n' ∉ before ++ behind)
    (proper : isTagName name.toList = true) (after : Cuts (.outside false) line line rest out) :
    Cuts (.outside lineStarting) line latest
      (text ++ '{' :: '{' :: (before ++ (name.toList ++ (behind ++ '}' :: '}' :: rest))))
      (dataTokens line text ++ (placeholderTokens line name ++ out)) := by
  obtain ⟨blank, blank'⟩ := List.forall_mem_append.mp blank
  rw [List.mem_append, not_or] at inLine'
  obtain ⟨d, letters, form, word, _⟩ := first_of_isTagName proper
  have closed : Cuts (.inside .expression [] false) line line (behind ++ '}' :: '}' :: rest)
      (⟨line, .closeExpression⟩ :: out) :=
    blanks blank' inLine'.2 (by simp [isBlank]) (closeExpression after)
  have stopped : ∀ c ∈ (behind ++ '}' :: '}' :: rest).head?, isNamePart c = false := by
    cases behind with
    | nil => simpa using (by decide : isNamePart '}' = false)
    | cons c behind => simpa using isNamePart_of_isBlank (blank' c List.mem_cons_self)
  have noSign : ∀ c, isBlank c = true ∨ isWord c = true → c ≠ '-' ∧ c ≠ '+' := by
    intro c known
    constructor <;>
      · rintro rfl
        rcases known with known | known <;> cases known
  have unsigned : ∀ more, openingTrim (before ++ (name.toList ++ more)) =
      (.plain, before ++ (name.toList ++ more)) := by
    intro more
    cases before with
    | nil =>
      rw [form]
      exact openingTrim_plain (noSign d (.inr word)) _
    | cons c before => exact openingTrim_plain (noSign c (.inl (blank c List.mem_cons_self))) _
  exact openExpression unopened inLine (unsigned _) <|
    blanks blank inLine'.1 (head_append_of_isTagName proper _) (Cuts.name proper stopped closed)

theorem placeholder (literal : ∀ c ∈ text, isLiteral c = true)
    (proper : isVariable name.toList = true) (after : Cuts (.outside false) line line rest out) :
    Cuts (.outside lineStarting) line latest (text ++ (Template.placeholder name ++ rest))
      (dataTokens line text ++ (placeholderTokens line name ++ out)) := by
  have blank : ∀ c ∈ [' '] ++ [' '], isBlank c = true := by simp [isBlank]
  have whole : Cuts (.outside lineStarting) line latest _ _ :=
    braced (unopened_of_absent (absent_of_isLiteral literal)) (absent_break_of_isLiteral literal).1
      blank (by decide) (isTagName_of_isVariable proper) after
  simpa [Template.placeholder] using whole

/-- A text at the end in which no tag opens is a token of its own. -/
theorem remaining (filled : text ≠ []) (alone : untilOpening text = (text, none)) :
    Cuts (.outside lineStarting) line latest text [⟨line, .data text⟩, ⟨line, .finish⟩] := by
  refine of_step fun fuel _ => ?_
  rw [tokensFrom]
  · simp only [alone]
  · exact filled

theorem last (alone : untilOpening text = (text, none)) :
    Cuts (.outside lineStarting) line line text (dataTokens line text ++ [⟨line, .finish⟩]) := by
  cases text with
  | nil => exact finish _ line line
  | cons c text => exact remaining (List.cons_ne_nil c text) alone

end Cuts

variable {line : ParamLine}

theorem tokens_paramLine (plain : line.Plain) : tokens line.template = paramTokens line := by
  have noReturn : '\r' ∉ line.template := plain.absent_template rfl rfl (by decide)
  have whole : Cuts (.outside true) 1 1 _ _ :=
    Cuts.flatMap_places Cuts.placeholder plain.plainPlaces fun lineStarting before latest => by
      obtain rfl : before = 1 := by simpa using latest
      exact Cuts.last (unopened_of_absent (absent_of_isLiteral plain.literal_last)).alone
  rw [tokens, unifyBreaks_eq_self noReturn]
  exact whole _ (Nat.lt_succ_self _)

/-! ### Reading -/

theorem begins_placeholderTokens {line : Nat} (name : String) (rest : List Token) :
    Begins (placeholderTokens line name ++ rest) :=
  ⟨_, _, rfl, by simp⟩

namespace Gives

variable {line : Nat} {rest : List Token}

theorem placeholder (names : Names name) (begins : Begins rest)
    (more : Gives (least + 6) words rest found after) :
    Gives (least + 7) words (placeholderTokens line name ++ rest) (.output (.name name) :: found)
      after := by
  obtain ⟨next, rest, rfl, sound⟩ := begins
  refine of_step fun fuel enough => ?_
  have closed : Reads (Reader.expect .closeExpression) (⟨line, .closeExpression⟩ :: next :: rest) ()
      (next :: rest) := Reads.expect rfl sound rest
  obtain ⟨steps, rfl⟩ := Nat.exists_eq_add_of_le' (Nat.le_of_add_left_le enough)
  rw [nodes]
  exact Reads.bind (Reads.current _ _) <| Reads.bind (Reads.advance _ (by simp) _) <|
    Reads.bind (reads_name names (.inl rfl) _) <| Reads.bind closed <|
      Reads.bind (more _ enough) (Reads.pure _ _)

/-- Placeholders are read one by one, with the texts before them. -/
theorem outputs {places : List (List Char × String)} (names : ∀ place ∈ places, Names place.2)
    (begins : Begins rest) (more : Gives (least + 6) words rest found after) :
    Gives (least + 2 * places.length + 6) words
      ((places.flatMap fun place => dataTokens line place.1 ++ placeholderTokens line place.2) ++ rest)
      ((places.flatMap fun place => textNodes place.1 ++ [.output (.name place.2)]) ++ found) after :=
  flatMap_places (placeholderTokens line) (fun name => .output (.name name)) begins_placeholderTokens
    (fun place listed _ _ _ => placeholder (names place listed)) begins more

end Gives

theorem names_of_not_reserved (free : name ∉ reservedNames) : Names name := by
  simp only [reservedNames, List.mem_cons, List.not_mem_nil, or_false, not_or] at free
  simp [Names, wordValue?, free]

theorem ofTokens_paramTokens (free : ∀ name ∈ line.names, name ∉ reservedNames) :
    Document.ofTokens (paramTokens line) = .ok (paramDocument line) := by
  have begins : Begins (dataTokens 1 line.last ++ [⟨1, .finish⟩]) :=
    begins_dataTokens _ ⟨_, _, rfl, by simp⟩
  have ended : Gives (0 + 6) [] (dataTokens 1 line.last ++ [⟨1, .finish⟩])
      (textNodes line.last ++ []) [⟨1, .finish⟩] :=
    (Gives.data _ ⟨_, _, rfl, by simp⟩ (Gives.finished 1 0)).weaken (by omega)
  have names : ∀ place ∈ line.places, Names place.2 := fun place listed =>
    names_of_not_reserved (free place.2 (List.mem_map_of_mem listed))
  have whole : Gives _ [] (paramTokens line) _ [⟨1, .finish⟩] := Gives.outputs names begins ended
  rw [List.append_nil] at whole
  refine ofTokens_of_gives (begins_flatMap_places begins_placeholderTokens begins) whole ?_
  -- A place is two nodes at most, and there are eight steps for each of its tokens.
  have counted := length_le_flatMap_places 1 (placeholderTokens 1) (fun _ => List.cons_ne_nil _ _)
    line.places
  rw [paramTokens, List.length_append]
  omega

/-! ### The document has no fault -/

theorem faultAmong?_textNodes (text : List Char) (found : List Node) :
    Node.faultAmong? false (textNodes text ++ found) = Node.faultAmong? false found := by
  cases text <;> rfl

theorem faultAmong?_outputs (places : List (List Char × String)) (found : List Node) :
    Node.faultAmong? false ((places.flatMap fun place =>
      textNodes place.1 ++ [.output (.name place.2)]) ++ found) = Node.faultAmong? false found := by
  induction places with
  | nil => rfl
  | cons place places ih =>
    rw [List.flatMap_cons, List.append_assoc, List.append_assoc, faultAmong?_textNodes]
    exact ih

theorem compile_of_tokens (cut : tokens text = paramTokens line)
    (free : ∀ name ∈ line.names, name ∉ reservedNames) : compile text = .ok (paramDocument line) := by
  have sound : Node.faultAmong? false (paramDocument line) = none := by
    have texts := faultAmong?_textNodes line.last []
    rw [List.append_nil] at texts
    rw [paramDocument, faultAmong?_outputs, texts]
    rfl
  rw [compile, Document.ofTemplate, cut, ofTokens_paramTokens free]
  simp only [sound]

theorem compile_plainLine (plain : line.Plain) :
    compile line.template = .ok (paramDocument line) :=
  compile_of_tokens (tokens_paramLine plain) plain.free

theorem compile_paramLine (shaped : line.Shaped) :
    compile line.template = .ok (paramDocument line) :=
  compile_plainLine shaped.plain

/-! ### Rendering -/

variable {params : Record} {value : String → Value}

/-- A parameter stands for its value, unless its name cannot be that of a parameter. -/
theorem find_ofParams (free : name ≠ "self") {given : Value}
    (held : Keyed.field? params name = some given) :
    (Scope.ofParams params).find name = .value given := by
  have passed : (name == "self") = false := beq_eq_false_iff_ne.mpr free
  rw [Scope.find, Scope.ofParams, List.append_assoc, List.lookup_append, Scope.reserved,
    List.lookup_cons, passed, List.lookup_append, lookup_texts, held]
  rfl

/-- Placeholders are rendered as the texts of their parameters, with the texts before them. -/
theorem renderAll_outputs {places : List (List Char × String)} {more : List Char}
    (held : ∀ place ∈ places,
      place.2 ∉ reservedNames ∧ Keyed.field? params place.2 = some (value place.2))
    (others : Node.renderAll (.ofParams params) found = .ok more) :
    Node.renderAll (.ofParams params)
        ((places.flatMap fun place => textNodes place.1 ++ [.output (.name place.2)]) ++ found) =
      .ok (filledPlaces (fun name => (value name).shown) places ++ more) := by
  refine renderAll_flatMap_places (fun name => .output (.name name)) (fun name => (value name).shown)
    (fun place listed => ?_) others
  obtain ⟨unreserved, held⟩ := held place listed
  have reserved : "self" ∈ reservedNames := by decide
  rw [Node.render, Expr.eval, find_ofParams (ne_of_mem_of_not_mem reserved unreserved).symm held]
  rfl

/-- The document is rendered as the line with the texts of the parameters. -/
theorem render_freeDocument (free : ∀ name ∈ line.names, name ∉ reservedNames)
    (held : ∀ name ∈ line.names, Keyed.field? params name = some (value name)) :
    (paramDocument line).render params = .ok (line.fill fun name => (value name).shown) := by
  refine renderAll_outputs (fun place listed => ?_) (renderAll_text _ line.last)
  have named : place.2 ∈ line.names := List.mem_map_of_mem listed
  exact ⟨free place.2 named, held place.2 named⟩

theorem render_plainDocument (plain : line.Plain)
    (held : ∀ name ∈ line.names, Keyed.field? params name = some (value name)) :
    (paramDocument line).render params = .ok (line.fill fun name => (value name).shown) :=
  render_freeDocument plain.free held

theorem render_paramDocument (shaped : line.Shaped)
    (held : ∀ name ∈ line.names, Keyed.field? params name = some (value name)) :
    (paramDocument line).render params = .ok (line.fill fun name => (value name).shown) :=
  render_plainDocument shaped.plain held

end Scaffold.Render
