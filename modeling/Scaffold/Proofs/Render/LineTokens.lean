import Scaffold.Proofs.Template.LoopLine
import Scaffold.Render.Token

/-!
The tokens of a template that is one loop with one line for its body. Each piece of the template is
cut off as its own tokens, whatever follows it.
-/

namespace Scaffold.Render

open Text Template

variable {opening : Opening} {afterDot lineStarting : Bool} {line latest : Nat}
  {text rest : List Char} {out : List Token} {field : String}

/-- Cutting a text gives tokens, when there are steps enough. -/
def Cuts (place : Place) (line latest : Nat) (text : List Char) (out : List Token) : Prop :=
  ∀ fuel, text.length < fuel → tokensFrom fuel place line latest text = out

/-! ### Names and signs -/

theorem isNamePart_of_isWord {c : Char} (word : isWord c = true) : isNamePart c = true := by
  rw [isNamePart, word, Bool.true_or]

theorem isNamePart_of_isBlank {c : Char} (blank : isBlank c = true) : isNamePart c = false := by
  rw [isNamePart, isWord_of_isBlank blank, Bool.false_or]
  by_contra part
  rw [isBlank_of_isIdentifierContinue (Bool.not_eq_false _ ▸ part)] at blank
  cases blank

theorem name?_append (proper : isTagName field.toList = true)
    (stopped : ∀ c ∈ rest.head?, isNamePart c = false) :
    name? (field.toList ++ rest) = some (.name field, rest) := by
  obtain ⟨identifier, words⟩ := isTagName_iff.mp proper
  have all : ∀ c ∈ field.toList, isNamePart c = true :=
    fun c member => isNamePart_of_isWord (words c member)
  have filled : field.toList.isEmpty = false := by simpa using ne_nil_of_isTagName proper
  simp only [name?, takeWhile_append all stopped,
    dropWhile_eq_iff.mpr ⟨field.toList, all, rfl, stopped⟩, filled, identifier,
    String.ofList_toList]
  rfl

theorem float?_of_not_isDigit {c : Char} (noDigit : c.isDigit = false) (afterDot : Bool)
    (rest : List Char) : float? afterDot (c :: rest) = none := by
  have whole : digitRun Char.isDigit false (c :: rest) = ([], c :: rest) := by
    simp [digitRun, noDigit]
  simp [float?, whole]

theorem integer?_of_not_isDigit {c : Char} (noDigit : c.isDigit = false) (rest : List Char) :
    integer? (c :: rest) = none := by
  unfold integer?
  split
  · next same =>
    obtain ⟨rfl, _⟩ := List.cons.inj same
    cases noDigit
  · next same =>
    obtain ⟨rfl, _⟩ := List.cons.inj same
    cases noDigit
  · next same =>
    obtain ⟨rfl, _⟩ := List.cons.inj same
    rw [if_neg (by simp [noDigit])]
  · rfl

theorem tagToken?_name (proper : isTagName field.toList = true)
    (stopped : ∀ c ∈ rest.head?, isNamePart c = false) :
    tagToken? afterDot (field.toList ++ rest) = some (.name field, rest) := by
  have named := name?_append proper stopped
  obtain ⟨c, more, form, _, noDigit⟩ := first_of_isTagName proper
  rw [form, List.cons_append] at named ⊢
  rw [tagToken?, float?_of_not_isDigit noDigit, integer?_of_not_isDigit noDigit, named]
  rfl

theorem tagToken?_dot (rest : List Char) :
    tagToken? afterDot ('.' :: rest) = some (.operator ".", rest) := by
  have name : name? ('.' :: rest) = none := rfl
  have quoted : quoted? ('.' :: rest) = none := rfl
  have sign : sign? ('.' :: rest) = some (.operator ".", rest) := rfl
  rw [tagToken?, float?_of_not_isDigit rfl, integer?_of_not_isDigit rfl, name, quoted, sign]
  rfl

/-- A tag is closed at a sign, with a dash or a plus sign before it at most. -/
theorem afterClose?_eq_none {c : Char} (other : c ≠ '-' ∧ c ≠ '}' ∧ c ≠ '+' ∧ c ≠ '%')
    (opening : Opening) (rest : List Char) : afterClose? opening (c :: rest) = none := by
  obtain ⟨noDash, noBrace, noPlus, noPercent⟩ := other
  unfold afterClose?
  split
  · next same => exact absurd (List.cons.inj same).1 noDash
  · next same => exact absurd (List.cons.inj same).1 noBrace
  · next same => exact absurd (List.cons.inj same).1 noPlus
  · next same => exact absurd (List.cons.inj same).1 noDash
  · next same => exact absurd (List.cons.inj same).1 noPercent
  · rfl

theorem afterClose?_of_isWord {c : Char} (word : isWord c = true) (opening : Opening)
    (rest : List Char) : afterClose? opening (c :: rest) = none := by
  refine afterClose?_eq_none ⟨?_, ?_, ?_, ?_⟩ opening rest <;>
    · rintro rfl
      cases word

theorem afterClose?_of_isBlank {c : Char} (blank : isBlank c = true) (opening : Opening)
    (rest : List Char) : afterClose? opening (c :: rest) = none := by
  refine afterClose?_eq_none ⟨?_, ?_, ?_, ?_⟩ opening rest <;>
    · rintro rfl
      cases blank

theorem take_used (used rest : List Char) :
    (used ++ rest).take ((used ++ rest).length - rest.length) = used := by
  rw [List.length_append, Nat.add_sub_cancel, List.take_left]

/-! ### Inside tags -/

namespace Cuts

theorem of_step {place : Place}
    (step : ∀ fuel, text.length ≤ fuel → tokensFrom (fuel + 1) place line latest text = out) :
    Cuts place line latest text out := by
  intro fuel enough
  obtain ⟨fuel, rfl⟩ := Nat.exists_eq_succ_of_ne_zero (Nat.ne_of_gt (Nat.zero_lt_of_lt enough))
  exact step fuel (Nat.le_of_lt_succ enough)

theorem finish (place : Place) (line latest : Nat) :
    Cuts place line latest [] [⟨latest, .finish⟩] :=
  of_step fun _ _ => rfl

/-- Blanks inside a tag are passed. -/
theorem blanks {run : List Char} (all : ∀ c ∈ run, isBlank c = true) (inLine : '\n' ∉ run)
    (stopped : ∀ c ∈ rest.head?, isBlank c = false)
    (after : Cuts (.inside opening [] false) line latest rest out) :
    Cuts (.inside opening [] false) line latest (run ++ rest) out := by
  cases run with
  | nil => exact after
  | cons c run =>
    refine of_step fun fuel enough => ?_
    have notClosed := afterClose?_of_isBlank (all c List.mem_cons_self) opening (run ++ rest)
    have dropped : (c :: run ++ rest).dropWhile isBlank = rest :=
      dropWhile_eq_iff.mpr ⟨c :: run, all, rfl, stopped⟩
    have none : breaks (c :: run) = 0 := List.count_eq_zero.mpr inLine
    rw [← List.cons_append] at notClosed
    rw [tokensFrom]
    · simp only [List.isEmpty_nil, if_true, notClosed, takeWhile_append all stopped, dropped, none]
      refine after fuel ?_
      rw [List.length_append, List.length_cons] at enough
      omega
    · exact List.cons_ne_nil _ _

theorem blank (stopped : ∀ c ∈ rest.head?, isBlank c = false)
    (after : Cuts (.inside opening [] false) line latest rest out) :
    Cuts (.inside opening [] false) line latest (' ' :: rest) out :=
  blanks (List.forall_mem_singleton.mpr rfl) (by decide) stopped after

/-- A name or a dot takes the characters it is made of, none of which is a line feed. -/
theorem token {used : List Char} {kind : TokenKind} {dotted : Bool}
    (known : (∃ name, kind = .name name ∧ dotted = false) ∨ kind = .operator "." ∧ dotted = true)
    (solid : ∃ c tail, used = c :: tail ∧ isBlank c = false) (inLine : '\n' ∉ used)
    (notClosed : afterClose? opening (used ++ rest) = none)
    (found : tagToken? afterDot (used ++ rest) = some (kind, rest))
    (after : Cuts (.inside opening [] dotted) line line rest out) :
    Cuts (.inside opening [] afterDot) line latest (used ++ rest) (⟨line, kind⟩ :: out) := by
  refine of_step fun fuel enough => ?_
  obtain ⟨c, tail, rfl, solid⟩ := solid
  have blanks : (c :: tail ++ rest).takeWhile isBlank = [] := by
    rw [List.cons_append, List.takeWhile_cons_of_neg (by simp [solid])]
  have taken := take_used (c :: tail) rest
  have none : breaks (c :: tail) = 0 := List.count_eq_zero.mpr inLine
  have shorter : rest.length < fuel := by
    rw [List.length_append, List.length_cons] at enough
    omega
  rw [tokensFrom]
  · rcases known with ⟨name, rfl, rfl⟩ | ⟨rfl, rfl⟩
    · simp only [List.isEmpty_nil, if_true, notClosed, blanks, found, taken, none, Nat.add_zero]
      exact congrArg (_ :: ·) (after fuel shorter)
    · simp only [List.isEmpty_nil, if_true, notClosed, blanks, found, taken, none, Nat.add_zero]
      exact congrArg (_ :: ·) (after fuel shorter)
  · exact List.cons_ne_nil _ _

theorem name (proper : isTagName field.toList = true)
    (stopped : ∀ c ∈ rest.head?, isNamePart c = false)
    (after : Cuts (.inside opening [] false) line line rest out) :
    Cuts (.inside opening [] afterDot) line latest (field.toList ++ rest)
      (⟨line, .name field⟩ :: out) := by
  obtain ⟨d, tail, form, word, _⟩ := first_of_isTagName proper
  have notClosed : afterClose? opening (field.toList ++ rest) = none := by
    rw [form]
    exact afterClose?_of_isWord word opening _
  exact token (.inl ⟨field, rfl, rfl⟩) ⟨d, tail, form, isBlank_of_isWord word⟩
    (absent_of_isTagName proper (by decide)) notClosed (tagToken?_name proper stopped) after

theorem blankName {c : Char} (proper : isTagName field.toList = true)
    (stopped : isNamePart c = false)
    (after : Cuts (.inside opening [] false) line line (c :: rest) out) :
    Cuts (.inside opening [] false) line latest (' ' :: (field.toList ++ c :: rest))
      (⟨line, .name field⟩ :: out) :=
  blank (head_append_of_isTagName proper _) (name proper (by simpa using stopped) after)

theorem dot (after : Cuts (.inside opening [] true) line line rest out) :
    Cuts (.inside opening [] afterDot) line latest ('.' :: rest)
      (⟨line, .operator "."⟩ :: out) := by
  have notClosed : afterClose? opening ('.' :: rest) = none := by cases opening <;> rfl
  exact token (.inr ⟨rfl, rfl⟩) ⟨'.', [], rfl, by decide⟩ (by decide) notClosed (tagToken?_dot rest)
    after

/-- The closing of a tag takes a line feed after it when it says so. -/
theorem close {used : List Char} (filled : used ≠ [])
    (closed : afterClose? opening (used ++ rest) = some rest)
    (after : Cuts (.outside (endsInBreak used)) (line + breaks used) line rest out) :
    Cuts (.inside opening [] afterDot) line latest (used ++ rest)
      (⟨line, if opening = .expression then .closeExpression else .closeStatement⟩ :: out) := by
  refine of_step fun fuel enough => ?_
  have shorter : rest.length < fuel := by
    have positive := List.length_pos_iff.mpr filled
    rw [List.length_append] at enough
    omega
  rw [tokensFrom]
  · simp only [List.isEmpty_nil, if_true, closed, take_used]
    exact congrArg (_ :: ·) (after fuel shorter)
  · exact List.append_ne_nil_of_left_ne_nil filled rest

theorem closeExpression (after : Cuts (.outside false) line line rest out) :
    Cuts (.inside .expression [] afterDot) line latest ('}' :: '}' :: rest)
      (⟨line, .closeExpression⟩ :: out) :=
  close (List.cons_ne_nil '}' ['}']) rfl after

theorem closeStatement (after : Cuts (.outside true) (line + 1) line rest out) :
    Cuts (.inside .statement [] afterDot) line latest ('%' :: '}' :: '\n' :: rest)
      (⟨line, .closeStatement⟩ :: out) :=
  close (List.cons_ne_nil '%' ['}', '\n']) rfl after

end Cuts

/-! ### Between tags -/

/-- The token of a text outside tags, unless the text is empty. -/
def dataTokens (line : Nat) (text : List Char) : List Token :=
  if text.isEmpty then [] else [⟨line, .data text⟩]

theorem opening?_of_ne {c : Char} (other : c ≠ '{') (rest : List Char) :
    opening? (c :: rest) = none := by
  unfold opening?
  split
  · next same => exact absurd (List.cons.inj same).1 other
  · next same => exact absurd (List.cons.inj same).1 other
  · next same => exact absurd (List.cons.inj same).1 other
  · rfl

/-- No tag opens in a text, whatever follows it. -/
def Unopened (text : List Char) : Prop :=
  ∀ rest, untilOpening (text ++ rest) = (text ++ (untilOpening rest).1, (untilOpening rest).2)

theorem unopened_of_absent (absent : '{' ∉ text) : Unopened text := by
  intro rest
  induction text with
  | nil => rfl
  | cons c text ih =>
    rw [List.mem_cons, not_or] at absent
    rw [List.cons_append, untilOpening, opening?_of_ne (Ne.symm absent.1)]
    simp only [ih absent.2]
    rfl

/-- A brace at the end of a line opens no tag. -/
theorem unopened_brace : Unopened ['{', '\n'] :=
  fun _ => rfl

/-- Nothing opens in the text when it stands alone. -/
theorem Unopened.alone (unopened : Unopened text) : untilOpening text = (text, none) := by
  simpa [untilOpening] using unopened []

theorem Unopened.append {more : List Char} (unopened : Unopened text) (unopened' : Unopened more) :
    Unopened (text ++ more) := by
  intro rest
  rw [List.append_assoc, unopened, unopened', List.append_assoc]

/-- A sign that stands at the start of a tag changes how the blanks beside it are treated. -/
theorem openingTrim_plain {c : Char} (other : c ≠ '-' ∧ c ≠ '+') (text : List Char) :
    openingTrim (c :: text) = (.plain, c :: text) := by
  unfold openingTrim
  split
  · next same => exact absurd (List.cons.inj same).1 other.1
  · next same => exact absurd (List.cons.inj same).1 other.2
  · rfl

namespace Cuts

/-- A tag that opens without a sign leaves the text before it as a token of its own. -/
theorem opens {sign : Char} (unopened : Unopened text)
    (opened : opening? ('{' :: sign :: rest) = some (opening, rest))
    (unsigned : openingTrim rest = (.plain, rest)) (noComment : opening ≠ .comment)
    (shown : beforeTag opening .plain lineStarting text = text)
    (after : Cuts (.inside opening [] false) (line + breaks text) (line + breaks text) rest out) :
    Cuts (.outside lineStarting) line latest (text ++ '{' :: sign :: rest)
      (dataTokens line text ++
        ⟨line + breaks text, if opening = .expression then .openExpression else .openStatement⟩ ::
          out) := by
  refine of_step fun fuel enough => ?_
  have shorter : rest.length < fuel := by
    simp only [List.length_append, List.length_cons] at enough
    omega
  have reached : untilOpening (text ++ '{' :: sign :: rest) = (text, some (opening, rest)) := by
    rw [unopened, untilOpening, opened, List.append_nil]
  rw [tokensFrom]
  · simp only [reached, unsigned, shown]
    cases opening with
    | comment => exact absurd rfl noComment
    | expression => exact congrArg (dataTokens line text ++ _ :: ·) (after fuel shorter)
    | statement => exact congrArg (dataTokens line text ++ _ :: ·) (after fuel shorter)
  · exact List.append_ne_nil_of_right_ne_nil text (List.cons_ne_nil _ _)

theorem openExpression (unopened : Unopened text) (inLine : '\n' ∉ text)
    (unsigned : openingTrim rest = (.plain, rest))
    (after : Cuts (.inside .expression [] false) line line rest out) :
    Cuts (.outside lineStarting) line latest (text ++ '{' :: '{' :: rest)
      (dataTokens line text ++ ⟨line, .openExpression⟩ :: out) := by
  have none : line = line + breaks text := by rw [breaks, List.count_eq_zero.mpr inLine]; rfl
  have opened : opening? ('{' :: '{' :: rest) = some (.expression, rest) := rfl
  rw [none] at after
  have whole := @opens .expression lineStarting line latest _ rest out _ unopened opened unsigned
    (by decide) rfl after
  rwa [← none] at whole

/-- Text before a statement is left as it is when it ends a line or there is none. -/
theorem openStatement (unopened : Unopened text) (ends : lastLine text = [])
    (after : Cuts (.inside .statement [] false) (line + breaks text) (line + breaks text)
      (' ' :: rest) out) :
    Cuts (.outside lineStarting) line latest (text ++ '{' :: '%' :: ' ' :: rest)
      (dataTokens line text ++ ⟨line + breaks text, .openStatement⟩ :: out) := by
  have opened : opening? ('{' :: '%' :: ' ' :: rest) = some (.statement, ' ' :: rest) := rfl
  refine opens unopened opened rfl (by decide) ?_ after
  simp [beforeTag, ends]

end Cuts

/-! ### The template -/

def referenceTokens (line : Nat) (item field : String) : List Token :=
  [⟨line, .openExpression⟩, ⟨line, .name item⟩, ⟨line, .operator "."⟩, ⟨line, .name field⟩,
   ⟨line, .closeExpression⟩]

/-- The tokens of texts and the references after them. -/
def placeTokens (line : Nat) (item : String) (places : List (List Char × String)) : List Token :=
  places.flatMap fun place => dataTokens line place.1 ++ referenceTokens line item place.2

/-- The tokens of the opening tag of a loop. -/
def loopTokens (line : Nat) (item collection : String) : List Token :=
  [⟨line, .openStatement⟩, ⟨line, .name "for"⟩, ⟨line, .name item⟩, ⟨line, .name "in"⟩,
    ⟨line, .name collection⟩, ⟨line, .closeStatement⟩]

def lineTokens (line : LoopLine) : List Token :=
  loopTokens 1 line.item line.collection ++
  (placeTokens 2 line.item line.places ++
  (dataTokens 2 (line.last ++ ['\n']) ++
    [⟨3, .openStatement⟩, ⟨3, .name "endfor"⟩, ⟨3, .closeStatement⟩, ⟨3, .finish⟩]))

theorem absent_break_of_isLiteral (literal : ∀ c ∈ text, isLiteral c = true) :
    '\n' ∉ text ∧ '\r' ∉ text :=
  ⟨absent_of_forall_isLiteral literal rfl, absent_of_forall_isLiteral literal rfl⟩

namespace Cuts

variable {item : String} {places : List (List Char × String)}

theorem reference (literal : ∀ c ∈ text, isLiteral c = true) (proper : isVariable item.toList = true)
    (proper' : isVariable field.toList = true) (after : Cuts (.outside false) line line rest out) :
    Cuts (.outside lineStarting) line latest (text ++ (Template.reference item field ++ rest))
      (dataTokens line text ++ (referenceTokens line item field ++ out)) := by
  have closed : Cuts (.inside .expression [] false) line line (' ' :: '}' :: '}' :: rest)
      (⟨line, .closeExpression⟩ :: out) := blank (by simp [isBlank]) (closeExpression after)
  have member : Cuts (.inside .expression [] false) line line
      ('.' :: (field.toList ++ ' ' :: '}' :: '}' :: rest)) _ :=
    dot (name (isTagName_of_isVariable proper') (by simpa using isNamePart_of_isBlank rfl) closed)
  have whole : Cuts (.outside lineStarting) line latest _ _ :=
    openExpression (unopened_of_absent (absent_of_isLiteral literal))
      (absent_break_of_isLiteral literal).1 rfl
      (blankName (isTagName_of_isVariable proper) (by decide) member)
  simpa [Template.reference, referenceTokens] using whole

/-- Parts that are cut off whatever follows them are cut off one by one. -/
theorem flatMap {α : Type} {parts : List α} {source : α → List Char} {partTokens : α → List Token}
    (each : ∀ part ∈ parts, ∀ {lineStarting latest rest out},
      Cuts (.outside false) line line rest out →
        Cuts (.outside lineStarting) line latest (source part ++ rest) (partTokens part ++ out))
    (after : ∀ lineStarting, ∀ before ∈ [latest, line],
      Cuts (.outside lineStarting) line before rest out) :
    Cuts (.outside lineStarting) line latest (parts.flatMap source ++ rest)
      (parts.flatMap partTokens ++ out) := by
  induction parts generalizing lineStarting latest with
  | nil => exact after _ latest List.mem_cons_self
  | cons part parts ih =>
    obtain ⟨first, each⟩ := List.forall_mem_cons.mp each
    have here : ∀ lineStarting, ∀ before ∈ [line, line],
        Cuts (.outside lineStarting) line before rest out :=
      fun lineStarting before member =>
        after lineStarting before (List.mem_cons_of_mem latest (by simpa using member))
    rw [List.flatMap_cons, List.append_assoc, List.flatMap_cons, List.append_assoc]
    exact first (ih each here)

/-- Tags that are cut off whatever follows them are cut off one by one, each with the text before. -/
theorem flatMap_places {tag : String → List Char} {tagTokens : String → List Token}
    (each : ∀ {lineStarting latest text field rest out}, (∀ c ∈ text, isLiteral c = true) →
      isVariable field.toList = true → Cuts (.outside false) line line rest out →
        Cuts (.outside lineStarting) line latest (text ++ (tag field ++ rest))
          (dataTokens line text ++ (tagTokens field ++ out)))
    (plain : PlainPlaces places)
    (after : ∀ lineStarting, ∀ before ∈ [latest, line],
      Cuts (.outside lineStarting) line before rest out) :
    Cuts (.outside lineStarting) line latest (Template.filledPlaces tag places ++ rest)
      ((places.flatMap fun place => dataTokens line place.1 ++ tagTokens place.2) ++ out) := by
  refine flatMap (fun place listed _ _ _ _ cuts => ?_) after
  rw [List.append_assoc, List.append_assoc]
  exact each (plain place listed).1 (plain place listed).2 cuts

theorem filledPlaces (proper : isVariable item.toList = true) (plain : PlainPlaces places)
    (after : ∀ lineStarting latest, Cuts (.outside lineStarting) line latest rest out) :
    Cuts (.outside lineStarting) line latest
      (Template.filledPlaces (Template.reference item) places ++ rest)
      (placeTokens line item places ++ out) :=
  flatMap_places (fun literal proper' => reference literal proper proper') plain
    fun lineStarting before _ => after lineStarting before

/-- The closing tag of a loop, with the line feed behind it. -/
theorem loopClosing (after : Cuts (.outside true) (line + 1) line rest out) :
    Cuts (.inside .statement [] false) line latest
      (' ' :: ("endfor".toList ++ ' ' :: '%' :: '}' :: '\n' :: rest))
      (⟨line, .name "endfor"⟩ :: ⟨line, .closeStatement⟩ :: out) := by
  have closed : Cuts (.inside .statement [] false) line line (' ' :: '%' :: '}' :: '\n' :: rest)
      (⟨line, .closeStatement⟩ :: out) := blank (by simp [isBlank]) (closeStatement after)
  have word : isTagName "endfor".toList = true := by decide
  exact blankName word (by decide) closed

/-- The opening tag of a loop, with the text before it and the line feed behind it. -/
theorem forOpening {collection : String} (unopened : Unopened text) (ends : lastLine text = [])
    (named : isTagName item.toList = true) (named' : isTagName collection.toList = true)
    (after : Cuts (.outside true) (line + breaks text + 1) (line + breaks text) rest out) :
    Cuts (.outside lineStarting) line latest (text ++ (Template.forOpening item collection ++ '\n' :: rest))
      (dataTokens line text ++ (loopTokens (line + breaks text) item collection ++ out)) := by
  have closed : Cuts (.inside .statement [] false) (line + breaks text) (line + breaks text)
      (' ' :: '%' :: '}' :: '\n' :: rest) (⟨line + breaks text, .closeStatement⟩ :: out) :=
    blank (by simp [isBlank]) (closeStatement after)
  have preposition : isTagName "in".toList = true := by decide
  have word : isTagName "for".toList = true := by decide
  have inside : Cuts (.inside .statement [] false) (line + breaks text) (line + breaks text) _ _ :=
    blankName word (by decide) <| blankName named (by decide) <|
      blankName preposition (by decide) <| blankName named' (by decide) closed
  have whole : Cuts (.outside lineStarting) line latest _ _ := openStatement unopened ends inside
  simpa [Template.forOpening, loopTokens] using whole

theorem loopOpening {loop : LoopLine} (shaped : loop.Shaped)
    (after : Cuts (.outside true) (line + 1) line rest out) :
    Cuts (.outside lineStarting) line latest (loop.opening ++ '\n' :: rest)
      (loopTokens line loop.item loop.collection ++ out) :=
  forOpening (unopened_of_absent List.not_mem_nil) rfl (isTagName_of_isVariable shaped.item.1)
    (isTagName_of_isVariable shaped.collection.1) after

end Cuts

theorem absent_template {loop : LoopLine} (shaped : loop.Shaped) : '\r' ∉ loop.template := by
  have name {field : String} (proper : isVariable field.toList = true) : '\r' ∉ field.toList :=
    absent_of_isVariable proper (by decide)
  have opening : '\r' ∉ loop.opening := by
    simp [LoopLine.opening, name shaped.item.1, name shaped.collection.1]
  have body : '\r' ∉ loop.body := by
    rw [LoopLine.body, LoopLine.fill, List.mem_append, not_or]
    refine ⟨fun member => ?_, (absent_break_of_isLiteral shaped.literal_last).2⟩
    obtain ⟨place, listed, within⟩ := List.mem_flatMap.mp member
    obtain ⟨literal, proper⟩ := shaped.plainPlaces place listed
    have text := (absent_break_of_isLiteral literal).2
    simp [reference, text, name proper, name shaped.item.1] at within
  have closing : '\r' ∉ '\n' :: (LoopLine.closing ++ ['\n']) := by decide
  rw [LoopLine.template, List.mem_append, List.mem_cons, List.mem_append]
  simp only [opening, body, closing, or_self, or_false, false_or]
  decide

/-- The tokens of the template are those of its pieces, line by line. -/
theorem tokens_template {loop : LoopLine} (shaped : loop.Shaped) :
    tokens loop.template = lineTokens loop := by
  have ends : lastLine (loop.last ++ ['\n']) = [] := by simp [lastLine]
  have one : breaks (loop.last ++ ['\n']) = 1 := by
    rw [breaks, List.count_append,
      List.count_eq_zero.mpr (absent_break_of_isLiteral shaped.literal_last).1]
    rfl
  have absent : '{' ∉ loop.last ++ ['\n'] := by
    simp [absent_of_isLiteral shaped.literal_last]
  have final (lineStarting : Bool) (latest : Nat) :
      Cuts (.outside lineStarting) 2 latest (loop.last ++ ['\n'] ++ (LoopLine.closing ++ ['\n']))
        (dataTokens 2 (loop.last ++ ['\n']) ++
          [⟨3, .openStatement⟩, ⟨3, .name "endfor"⟩, ⟨3, .closeStatement⟩, ⟨3, .finish⟩]) := by
    have cut : Cuts (.outside lineStarting) 2 latest _ _ :=
      Cuts.openStatement (unopened_of_absent absent) ends (Cuts.loopClosing (Cuts.finish _ _ _))
    rwa [one] at cut
  have whole : Cuts (.outside true) 1 1 _ _ :=
    Cuts.loopOpening shaped (Cuts.filledPlaces shaped.item.1 shaped.plainPlaces final)
  have text : loop.template = loop.opening ++ '\n' :: (filledPlaces (reference loop.item) loop.places ++
      (loop.last ++ ['\n'] ++ (LoopLine.closing ++ ['\n']))) := by
    simp only [LoopLine.template, LoopLine.body, LoopLine.fill, List.append_assoc,
      List.singleton_append]
  rw [tokens, unifyBreaks_eq_self (absent_template shaped), text]
  exact whole _ (Nat.lt_succ_self _)

end Scaffold.Render
