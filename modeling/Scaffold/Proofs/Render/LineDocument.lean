import Scaffold.Proofs.Outcome
import Scaffold.Proofs.Render.LineTokens
import Scaffold.Proofs.Render.Reading
import Scaffold.Render.Evaluation

/-!
The document of a template that is one loop with one line for its body, and what it is rendered as:
one line for each item, filled with the texts of the item's fields.
-/

namespace Scaffold.Render

open Text Template

variable {loop : LoopLine} {item field : String} {places : List (List Char × String)}
  {rest after : List Token} {token : Token} {found : List Node}

/-- The node of a text, unless the text is empty. -/
def textNodes (text : List Char) : List Node :=
  if text.isEmpty then [] else [.text text]

/-- The nodes of texts and the references after them. -/
def placeNodes (item : String) (places : List (List Char × String)) : List Node :=
  places.flatMap fun place => textNodes place.1 ++ [.output (.member (.name item) place.2)]

def lineDocument (loop : LoopLine) : Document :=
  [.loop loop.item 1 (.name loop.collection) none
    (placeNodes loop.item loop.places ++ textNodes (loop.last ++ ['\n'])) []]

/-! ### Reading the body -/

/-- Tokens begin with one that is no failure. -/
def Begins (tokens : List Token) : Prop :=
  ∃ token rest, tokens = token :: rest ∧ token.kind ≠ .failure

theorem begins_dataTokens {line : Nat} (text : List Char) (begins : Begins rest) :
    Begins (dataTokens line text ++ rest) := by
  cases text with
  | nil => exact begins
  | cons c text => exact ⟨_, _, rfl, by simp⟩

theorem begins_flatMap_places {line : Nat} {tagTokens : String → List Token}
    (each : ∀ field rest, Begins (tagTokens field ++ rest)) (begins : Begins rest) :
    Begins ((places.flatMap fun place => dataTokens line place.1 ++ tagTokens place.2) ++ rest) := by
  cases places with
  | nil => exact begins
  | cons place places =>
    rw [List.flatMap_cons, List.append_assoc, List.append_assoc]
    exact begins_dataTokens place.1 (each place.2 _)

theorem begins_placeTokens {line : Nat} (begins : Begins rest) :
    Begins (placeTokens line item places ++ rest) :=
  begins_flatMap_places (fun _ _ => ⟨_, _, rfl, by simp⟩) begins

/-- Nodes are read from tokens, when there are steps enough. -/
def Gives (least : Nat) (words : List String) (before : List Token) (found : List Node)
    (after : List Token) : Prop :=
  ∀ fuel, least ≤ fuel → Reads (nodes fuel words) before found after

/-- A name that stands for what is called so. -/
def Names (name : String) : Prop :=
  wordValue? name = none ∧ name ≠ "not"

/-- A name and its members before the end of a tag are the expression. -/
theorem reads_operand {fuel line : Nat} {next : Token} {expr : Expr} (names : Names item)
    (sound : next.kind ≠ .failure)
    (parts : Reads (postfixes (fuel + 1) (.name item)) (next :: rest) expr (token :: after))
    (closes : Closes token) :
    Reads (expression (fuel + 6)) (⟨line, .name item⟩ :: next :: rest) expr (token :: after) := by
  have operand : Reads (primary (fuel + 1)) (⟨line, .name item⟩ :: next :: rest) (.name item)
      (next :: rest) := Reads.primary rfl names.1 sound rest
  exact Reads.expression (by simpa using names.2) (Reads.filtered operand parts closes) closes

theorem reads_member {fuel line : Nat} (names : Names item) (rest : List Token) :
    Reads (expression (fuel + 6))
      (⟨line, .name item⟩ :: ⟨line, .operator "."⟩ :: ⟨line, .name field⟩ ::
        ⟨line, .closeExpression⟩ :: rest)
      (.member (.name item) field) (⟨line, .closeExpression⟩ :: rest) := by
  have closes : Closes ⟨line, .closeExpression⟩ := .inl rfl
  exact reads_operand names (by simp) (Reads.member rfl rfl closes rest) closes

namespace Gives

variable {least line : Nat} {words : List String}

theorem of_step
    (step : ∀ fuel, least ≤ fuel → Reads (nodes (fuel + 1) words) rest found after) :
    Gives (least + 1) words rest found after := by
  intro fuel enough
  obtain ⟨fuel, rfl⟩ := Nat.exists_eq_add_of_le' enough
  exact step (fuel + least) (Nat.le_add_left least fuel)

theorem weaken {more : Nat} (gives : Gives least words rest found after) (enough : least ≤ more) :
    Gives more words rest found after :=
  fun fuel larger => gives fuel (enough.trans larger)

theorem data (text : List Char) (begins : Begins rest) (more : Gives least words rest found after) :
    Gives (least + 1) words (dataTokens line text ++ rest) (textNodes text ++ found) after := by
  cases text with
  | nil => exact more.weaken (Nat.le_succ least)
  | cons c text =>
    obtain ⟨next, rest, rfl, sound⟩ := begins
    refine of_step fun fuel enough => ?_
    change Reads _ (⟨line, .data (c :: text)⟩ :: next :: rest) (.text (c :: text) :: found) after
    rw [nodes]
    exact Reads.bind (Reads.current _ _) <| Reads.bind (Reads.advance _ sound rest) <|
      Reads.bind (more fuel enough) (Reads.pure _ _)

theorem reference (names : Names item) (begins : Begins rest)
    (more : Gives (least + 6) words rest found after) :
    Gives (least + 7) words (referenceTokens line item field ++ rest)
      (.output (.member (.name item) field) :: found) after := by
  obtain ⟨next, rest, rfl, sound⟩ := begins
  refine of_step fun fuel enough => ?_
  have closed : Reads (Reader.expect .closeExpression) (⟨line, .closeExpression⟩ :: next :: rest) ()
      (next :: rest) := Reads.expect rfl sound rest
  obtain ⟨steps, rfl⟩ := Nat.exists_eq_add_of_le' (Nat.le_of_add_left_le enough)
  rw [nodes]
  exact Reads.bind (Reads.current _ _) <| Reads.bind (Reads.advance _ (by simp) _) <|
    Reads.bind (reads_member names _) <| Reads.bind closed <|
      Reads.bind (more _ enough) (Reads.pure _ _)

/-- Tags that are read as a node each, whatever follows them, are read one by one with the texts
before them. -/
theorem flatMap_places (tagTokens : String → List Token) (node : String → Node)
    (opens : ∀ field rest, Begins (tagTokens field ++ rest))
    (each : ∀ place ∈ places, ∀ {least rest found}, Begins rest →
      Gives (least + 6) words rest found after →
        Gives (least + 7) words (tagTokens place.2 ++ rest) (node place.2 :: found) after)
    (begins : Begins rest) (more : Gives (least + 6) words rest found after) :
    Gives (least + 2 * places.length + 6) words
      ((places.flatMap fun place => dataTokens line place.1 ++ tagTokens place.2) ++ rest)
      ((places.flatMap fun place => textNodes place.1 ++ [node place.2]) ++ found) after := by
  induction places with
  | nil => exact more
  | cons place places ih =>
    obtain ⟨here, each⟩ := List.forall_mem_cons.mp each
    have whole : Gives _ words (dataTokens line place.1 ++ _) _ after :=
      data place.1 (opens place.2 _) (here (begins_flatMap_places opens begins) (ih each))
    have enough : least + 2 * places.length + 8 ≤ least + 2 * (place :: places).length + 6 := by
      rw [List.length_cons]
      omega
    simpa using whole.weaken enough

theorem placeNodes (names : Names item) (begins : Begins rest)
    (more : Gives (least + 6) words rest found after) :
    Gives (least + 2 * places.length + 6) words (placeTokens line item places ++ rest)
      (Render.placeNodes item places ++ found) after :=
  flatMap_places (referenceTokens line item) (fun field => .output (.member (.name item) field))
    (fun _ _ => ⟨_, _, rfl, by simp⟩) (fun _ _ _ _ _ => reference names) begins more

/-- The closing tag of a loop ends the nodes before it. -/
theorem ended (rest : List Token) :
    Gives 1 ["endfor", "else"] (⟨line, .openStatement⟩ :: ⟨line, .name "endfor"⟩ :: rest) []
      (⟨line, .name "endfor"⟩ :: rest) := by
  refine of_step fun fuel _ => ?_
  have listed : Reads (atWord ["endfor", "else"]) (⟨line, .name "endfor"⟩ :: rest) true
      (⟨line, .name "endfor"⟩ :: rest) := Reads.bind (Reads.current _ _) (Reads.pure _ _)
  rw [nodes]
  exact Reads.bind (Reads.current _ _) <| Reads.bind (Reads.advance _ (by simp) _) <|
    Reads.bind listed (Reads.pure _ _)

/-- At the end of the template nothing more is read. -/
theorem finished (line least : Nat) :
    Gives (least + 1) words [⟨line, .finish⟩] [] [⟨line, .finish⟩] := by
  refine of_step fun fuel _ => ?_
  rw [nodes]
  exact Reads.bind (Reads.current _ _) (Reads.pure _ _)

end Gives

/-! ### Reading the loop -/

theorem reads_name {fuel line : Nat} (names : Names item) (closes : Closes token)
    (rest : List Token) :
    Reads (expression (fuel + 6)) (⟨line, .name item⟩ :: token :: rest) (.name item)
      (token :: rest) :=
  reads_operand names (closes.ne (by decide)) (Reads.postfixes_end closes _ _) closes

theorem reads_body {fuel line : Nat} {words : List String} (begins : Begins rest)
    (inner : Reads (nodes fuel words) rest found (token :: after)) (more : token.kind ≠ .finish) :
    Reads (body (fuel + 1) words) (⟨line, .closeStatement⟩ :: rest) found (token :: after) := by
  obtain ⟨next, rest, rfl, sound⟩ := begins
  rw [body]
  refine Reads.bind (Reads.skipIf_other (by simp) _) <| Reads.bind (Reads.expect rfl sound rest) <|
    Reads.bind inner <| Reads.bind (Reads.current _ _) ?_
  rw [if_neg more]
  exact Reads.pure _ _

/-- The words of a loop are read as its node. -/
theorem reads_statement {fuel line endLine : Nat} {collection : String}
    (target : Names item) (names : Names collection) (begins : Begins rest)
    (inner : Reads (nodes (fuel + 5) ["endfor", "else"]) rest found
      (⟨endLine, .name "endfor"⟩ :: ⟨endLine, .closeStatement⟩ :: after)) :
    Reads (statement (fuel + 7))
      (⟨line, .name "for"⟩ :: ⟨line, .name item⟩ :: ⟨line, .name "in"⟩ ::
        ⟨line, .name collection⟩ :: ⟨line, .closeStatement⟩ :: rest)
      (.loop item line (.name collection) none found []) (⟨endLine, .closeStatement⟩ :: after) := by
  have named : Reads loopTarget
      (⟨line, .name item⟩ :: ⟨line, .name "in"⟩ :: ⟨line, .name collection⟩ ::
        ⟨line, .closeStatement⟩ :: rest) (item, line)
      (⟨line, .name "in"⟩ :: ⟨line, .name collection⟩ :: ⟨line, .closeStatement⟩ :: rest) := by
    refine Reads.bind (Reads.anyName rfl (by simp) _) ?_
    simp only [target.1]
    exact Reads.pure _ _
  have body : Reads _ (⟨line, .closeStatement⟩ :: rest) found _ :=
    reads_body begins inner (by simp)
  rw [statement]
  exact Reads.bind (Reads.current _ _) <| Reads.bind (Reads.advance _ (by simp) _) <|
    Reads.bind named <| Reads.bind (Reads.expect rfl (by simp) _) <|
      Reads.bind (reads_name names (.inr rfl) _) <|
        Reads.bind (Reads.skipIf_other (by simp) _) <| Reads.bind (Reads.pure _ _) <|
          Reads.bind body <| Reads.bind (Reads.skipIf_other (by simp) _) <|
            Reads.bind (Reads.advance _ (by simp) _) (Reads.pure _ _)

/-- A statement is read as its node, with those after it. -/
theorem reads_leading {fuel line endLine : Nat} {word : String} {node : Node} {more : List Token}
    (inner : Reads (statement fuel) (⟨line, .name word⟩ :: more) node
      (⟨endLine, .closeStatement⟩ :: rest)) (begins : Begins rest)
    (others : Reads (nodes fuel []) rest found after) :
    Reads (nodes (fuel + 1) []) (⟨line, .openStatement⟩ :: ⟨line, .name word⟩ :: more)
      (node :: found) after := by
  obtain ⟨next, rest, rfl, sound⟩ := begins
  have noWord : Reads (atWord []) (⟨line, .name word⟩ :: more) false (⟨line, .name word⟩ :: more) :=
    Reads.bind (Reads.current _ _) (Reads.pure _ _)
  have closed : Reads (Reader.expect .closeStatement) (⟨endLine, .closeStatement⟩ :: next :: rest) ()
      (next :: rest) := Reads.expect rfl sound rest
  rw [nodes]
  exact Reads.bind (Reads.current _ _) <| Reads.bind (Reads.advance _ (by simp) _) <|
    Reads.bind noWord <| Reads.bind inner <| Reads.bind closed <|
      Reads.bind others (Reads.pure _ _)

/-- A loop is read as its node, with those after it. -/
theorem Gives.forLoop {least line endLine : Nat} {collection : String} {more : List Token}
    {later : List Node} {last : List Token} (target : Names item) (names : Names collection)
    (begins : Begins rest)
    (inner : Gives least ["endfor", "else"] rest found
      (⟨endLine, .name "endfor"⟩ :: ⟨endLine, .closeStatement⟩ :: more))
    (begins' : Begins more) (others : Gives least [] more later last) :
    Gives (least + 8) [] (loopTokens line item collection ++ rest)
      (.loop item line (.name collection) none found [] :: later) last := by
  intro fuel enough
  obtain ⟨steps, rfl⟩ := Nat.exists_eq_add_of_le' enough
  have looped : Reads (statement (steps + least + 7)) (⟨line, .name "for"⟩ :: _) _ _ :=
    reads_statement target names begins (inner (steps + least + 5) (by omega))
  exact reads_leading looped begins' (others (steps + least + 7) (by omega))

/-- What is read from tokens to the end is the document, when there are steps enough. -/
theorem ofTokens_of_gives {tokens : List Token} {least line : Nat} (begins : Begins tokens)
    (gives : Gives least [] tokens found [⟨line, .finish⟩])
    (enough : least ≤ 8 * tokens.length + 16) : Document.ofTokens tokens = .ok found := by
  obtain ⟨first, rest, rfl, sound⟩ := begins
  have read := gives _ enough
  rw [Document.ofTokens, if_neg sound, StateT.run', show nodes _ [] _ = _ from read]
  rfl

theorem names_of_not_mem (free : item ∉ reservedWords) : Names item := by
  simp only [reservedWords, List.mem_cons, List.not_mem_nil, or_false, not_or] at free
  simp [Names, wordValue?, free]

theorem length_le_flatMap_places (line : Nat) (tagTokens : String → List Token)
    (filled : ∀ field, tagTokens field ≠ []) (places : List (List Char × String)) :
    places.length ≤
      (places.flatMap fun place => dataTokens line place.1 ++ tagTokens place.2).length := by
  induction places with
  | nil => exact Nat.zero_le _
  | cons place places ih =>
    have positive := List.length_pos_iff.mpr (filled place.2)
    simp only [List.flatMap_cons, List.length_append, List.length_cons]
    omega

/-- The tokens of the template are read as its document. -/
theorem ofTokens_lineTokens (shaped : loop.Shaped) :
    Document.ofTokens (lineTokens loop) = .ok (lineDocument loop) := by
  let ending : List Token := [⟨3, .name "endfor"⟩, ⟨3, .closeStatement⟩, ⟨3, .finish⟩]
  let final := dataTokens 2 (loop.last ++ ['\n']) ++ ⟨3, .openStatement⟩ :: ending
  have begins : Begins final := begins_dataTokens _ ⟨_, _, rfl, by simp⟩
  have ended : Gives (0 + 6) ["endfor", "else"] final (textNodes (loop.last ++ ['\n']) ++ [])
      ending := (Gives.data _ ⟨_, _, rfl, by simp⟩ (Gives.ended _)).weaken (by omega)
  have inner : Gives _ ["endfor", "else"] (placeTokens 2 loop.item loop.places ++ final) _ ending :=
    Gives.placeNodes (names_of_not_mem shaped.item.2) begins ended
  have done : Gives (0 + 2 * loop.places.length + 6) [] [⟨3, .finish⟩] [] [⟨3, .finish⟩] :=
    (Gives.finished 3 0).weaken (by omega)
  have whole : Gives _ [] (lineTokens loop) _ [⟨3, .finish⟩] :=
    Gives.forLoop (names_of_not_mem shaped.item.2) (names_of_not_mem shaped.collection.2)
      (begins_placeTokens begins) inner ⟨_, _, rfl, by simp⟩ done
  rw [List.append_nil] at whole
  refine ofTokens_of_gives ⟨_, _, rfl, by simp⟩ whole ?_
  -- A place is two nodes at most, and there are eight steps for each of its tokens.
  have counted : loop.places.length ≤ (placeTokens 2 loop.item loop.places).length :=
    length_le_flatMap_places 2 (referenceTokens 2 loop.item) (fun _ => List.cons_ne_nil _ _) _
  rw [lineTokens]
  simp only [List.length_append]
  omega

/-! ### The document has no fault -/

variable {node : Node}

/-- A node that is a text or shows a member of a loop's item. -/
def Shows (item : String) (node : Node) : Prop :=
  (∃ text, node = .text text) ∨ ∃ field, node = .output (.member (.name item) field)

theorem forall_mem_textNodes (item : String) (text : List Char) :
    ∀ node ∈ textNodes text, Shows item node := by
  intro node member
  rw [textNodes] at member
  split at member
  · cases member
  · exact .inl ⟨text, List.mem_singleton.mp member⟩

theorem forall_mem_placeNodes : ∀ node ∈ placeNodes item places, Shows item node := by
  intro node member
  obtain ⟨place, _, shown⟩ := List.mem_flatMap.mp member
  rcases List.mem_append.mp shown with text | output
  · exact forall_mem_textNodes item place.1 node text
  · exact .inr ⟨place.2, List.mem_singleton.mp output⟩

theorem misnamedAmong?_of_shows (shown : ∀ node ∈ found, Shows item node) :
    Node.misnamedAmong? found = none := by
  induction found with
  | nil => rfl
  | cons node found ih =>
    obtain ⟨here, later⟩ := List.forall_mem_cons.mp shown
    rw [Node.misnamedAmong?, ih later]
    rcases here with ⟨text, rfl⟩ | ⟨field, rfl⟩ <;> rfl

theorem faultAmong?_of_shows (shown : ∀ node ∈ found, Shows item node) :
    Node.faultAmong? false found = none := by
  induction found with
  | nil => rfl
  | cons node found ih =>
    obtain ⟨here, later⟩ := List.forall_mem_cons.mp shown
    rw [Node.faultAmong?, ih later]
    rcases here with ⟨text, rfl⟩ | ⟨field, rfl⟩ <;> rfl

theorem faultAmong?_lineDocument (shaped : loop.Shaped) :
    Node.faultAmong? false (lineDocument loop) = none := by
  have shown : ∀ node ∈ placeNodes loop.item loop.places ++ textNodes (loop.last ++ ['\n']),
      Shows loop.item node :=
    List.forall_mem_append.mpr ⟨forall_mem_placeNodes, forall_mem_textNodes _ _⟩
  have reserved : loopName ∈ reservedWords := by decide
  have named : loop.item ≠ loopName := (ne_of_mem_of_not_mem reserved shaped.item.2).symm
  rw [lineDocument, Node.faultAmong?, Node.fault?, Node.misnamed?, if_neg named,
    misnamedAmong?_of_shows shown, faultAmong?_of_shows shown]
  rfl

theorem compile_template (shaped : loop.Shaped) :
    compile loop.template = .ok (lineDocument loop) := by
  rw [compile, Document.ofTemplate, tokens_template shaped, ofTokens_lineTokens shaped]
  simp only [faultAmong?_lineDocument shaped]

/-! ### Rendering -/

variable {scope : Scope} {record : Record}

/-- The text that the template shows for a field of a record. -/
def fieldText (record : Record) (field : String) : List Char :=
  (Keyed.field? record field).elim [] Value.shown

theorem text_memberOf (free : field ∉ operationNames (.map [])) :
    (Datum.memberOf (.map record) field).text = fieldText record field := by
  have noOperation : (operationNames (.map record)).contains field = false := by
    rw [← Bool.not_eq_true, List.contains_iff_mem]
    exact free
  have noPart : part? (.map record) field = none := rfl
  have found : (Value.map record).field? field = Keyed.field? record field := rfl
  rw [Datum.memberOf, noOperation, if_neg Bool.false_ne_true, noPart, found, Option.none_or,
    fieldText]
  cases Keyed.field? record field <;> rfl

theorem renderAll_cons {text more : List Char} (first : Node.render scope node = .ok text)
    (others : Node.renderAll scope found = .ok more) :
    Node.renderAll scope (node :: found) = .ok (text ++ more) := by
  rw [Node.renderAll, first, others]
  rfl

theorem renderAll_textNodes (text : List Char) {more : List Char}
    (others : Node.renderAll scope found = .ok more) :
    Node.renderAll scope (textNodes text ++ found) = .ok (text ++ more) := by
  cases text with
  | nil => exact others
  | cons c text => exact renderAll_cons (by rw [Node.render]) others

theorem renderAll_nil (scope : Scope) : Node.renderAll scope [] = .ok [] := by
  rw [Node.renderAll]

/-- A text on its own is rendered as it is. -/
theorem renderAll_text (scope : Scope) (text : List Char) :
    Node.renderAll scope (textNodes text) = .ok text := by
  have alone := renderAll_textNodes text (renderAll_nil scope)
  rwa [List.append_nil, List.append_nil] at alone

theorem render_member (held : scope.find item = .value (.map record))
    (free : field ∉ operationNames (.map [])) :
    Node.render scope (.output (.member (.name item) field)) = .ok (fieldText record field) := by
  rw [Node.render, Expr.eval, Expr.eval, held]
  exact congrArg Except.ok (text_memberOf free)

theorem renderAll_flatMap_places (node : String → Node) (shown : String → List Char)
    (each : ∀ place ∈ places, Node.render scope (node place.2) = .ok (shown place.2))
    {more : List Char} (others : Node.renderAll scope found = .ok more) :
    Node.renderAll scope
        ((places.flatMap fun place => textNodes place.1 ++ [node place.2]) ++ found) =
      .ok (filledPlaces shown places ++ more) := by
  induction places with
  | nil => exact others
  | cons place places ih =>
    obtain ⟨here, later⟩ := List.forall_mem_cons.mp each
    have whole := renderAll_textNodes place.1 (renderAll_cons here (ih later))
    rw [filledPlaces_cons]
    simpa using whole

theorem renderAll_placeNodes (held : scope.find item = .value (.map record))
    (free : ∀ place ∈ places, place.2 ∉ operationNames (.map [])) {more : List Char}
    (others : Node.renderAll scope found = .ok more) :
    Node.renderAll scope (placeNodes item places ++ found) =
      .ok (filledPlaces (fieldText record) places ++ more) :=
  renderAll_flatMap_places (fun field => .output (.member (.name item) field)) (fieldText record)
    (fun place listed => render_member held (free place listed)) others

theorem filterM_admits (scope : Scope) (target : String) (items : List Value) :
    items.filterM (Expr.admits scope target none) = .ok items := by
  have kept : ∀ before, items.filterAuxM (Expr.admits scope target none) before =
      .ok (items.reverse ++ before) := by
    induction items with
    | nil => exact fun _ => rfl
    | cons item items ih =>
      intro before
      rw [List.reverse_cons, List.append_assoc]
      exact ih (item :: before)
  rw [List.filterM, kept, List.append_nil]
  exact congrArg Except.ok (List.reverse_reverse items)

theorem inTurn_eq_ok {α : Type} {textOf : Nat → Value → Except Error (List Char)}
    {value : α → Value} {text : α → List Char}
    (each : ∀ index item, textOf index (value item) = .ok (text item)) (index : Nat)
    (items : List α) : inTurn textOf index (items.map value) = .ok (items.flatMap text) := by
  induction items generalizing index with
  | nil => rfl
  | cons item items ih =>
    rw [List.map_cons, inTurn, each, ih]
    rfl

/-- A loop gives the text of its body for each item. -/
theorem render_loop {α : Type} {target collection : String} {line : Nat} {value : α → Value}
    {text : α → List Char} {items : List α}
    (given : scope.find collection = .value (.list (items.map value)))
    (each : ∀ position one, Node.renderAll
      ((target, .value (value one)) :: (loopName, position) :: scope) found = .ok (text one)) :
    Node.render scope (.loop target line (.name collection) none found []) =
      .ok (items.flatMap text) := by
  rw [Node.render, Expr.eval, given]
  refine bind_eq_ok.mpr ⟨_, rfl, bind_eq_ok.mpr ⟨_, rfl,
    bind_eq_ok.mpr ⟨_, filterM_admits scope _ _, ?_⟩⟩⟩
  split
  · next none =>
    rw [List.isEmpty_iff, List.map_eq_nil_iff] at none
    rw [none, Node.renderAll]
    rfl
  · rw [inTurn_eq_ok fun _ => each _]

/-- The body gives the line, filled with the texts of the fields of the loop's item. -/
theorem renderAll_body (shaped : loop.Shaped) (held : scope.find loop.item = .value (.map record)) :
    Node.renderAll scope (placeNodes loop.item loop.places ++ textNodes (loop.last ++ ['\n'])) =
      .ok (loop.fill (fieldText record) ++ ['\n']) := by
  have free : ∀ place ∈ loop.places, place.2 ∉ operationNames (.map []) :=
    fun place listed => (shaped.fields place listed).2
  rw [renderAll_placeNodes held free (renderAll_text scope _), LoopLine.fill, List.append_assoc]

/-- The document gives a line for each record, filled with the texts of the record's fields. -/
theorem render_lineDocument (shaped : loop.Shaped) (records : List Record) :
    (lineDocument loop).render [(.text loop.collection, .list (records.map .map))] =
      .ok (loop.filledLines (records.map fieldText)) := by
  let scope := Scope.ofParams [(.text loop.collection, .list (records.map .map))]
  have given : scope.find loop.collection = .value (.list (records.map .map)) := by
    have reserved : "self" ∈ reservedWords := by decide
    have other : loop.collection ≠ "self" :=
      (ne_of_mem_of_not_mem reserved shaped.collection.2).symm
    have passed : (loop.collection == "self") = false := beq_eq_false_iff_ne.mpr other
    change ((List.lookup loop.collection (("self", _) :: (loop.collection, _) :: _)).getD _) = _
    rw [List.lookup_cons, passed, List.lookup_cons, beq_self_eq_true]
    rfl
  have each (position : Datum) (record : Record) :
      Node.renderAll ((loop.item, .value (.map record)) :: (loopName, position) :: scope)
        (placeNodes loop.item loop.places ++ textNodes (loop.last ++ ['\n'])) =
      .ok (loop.fill (fieldText record) ++ ['\n']) := by
    refine renderAll_body shaped ?_
    rw [Scope.find, List.lookup_cons, beq_self_eq_true]
    rfl
  have looped : Node.render scope (.loop loop.item 1 (.name loop.collection) none
      (placeNodes loop.item loop.places ++ textNodes (loop.last ++ ['\n'])) []) =
        .ok (loop.filledLines (records.map fieldText)) := by
    rw [LoopLine.filledLines, List.flatMap_map]
    exact render_loop given each
  rw [← List.append_nil (loop.filledLines _)]
  exact renderAll_cons looped (renderAll_nil scope)

end Scaffold.Render
