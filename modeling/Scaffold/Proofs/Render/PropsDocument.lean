import Scaffold.Proofs.Render.ParamDocument
import Scaffold.Proofs.Template.PropsLoop

/-!
The document of a loop inside a block for properties. It is rendered as the header with the texts of
the parameters, a line for each item, and the brace that closes the block.
-/

namespace Scaffold.Render

open Text Template

variable {slot : Slot} {loop : PropsLoop} {line latest : Nat} {lineStarting : Bool}
  {rest out : List Token}

/-- The tokens from the line for an item on. -/
def rowTokens (loop : PropsLoop) : List Token :=
  dataTokens 3 loop.indent ++
  (placeholderTokens 3 loop.item ++
  (dataTokens 3 (loop.separator ++ ['\n']) ++
    [⟨4, .openStatement⟩, ⟨4, .name "endfor"⟩, ⟨4, .closeStatement⟩, ⟨5, .data ('}' :: loop.ending)⟩,
     ⟨5, .finish⟩]))

/-- The tokens of the template, line by line. -/
def propsTokens (loop : PropsLoop) : List Token :=
  (loop.places.flatMap fun place => dataTokens 1 place.1 ++ placeholderTokens 1 place.2) ++
  (dataTokens 1 (loop.last ++ ['{', '\n']) ++
  (loopTokens 2 loop.item loop.collection ++ rowTokens loop))

/-- The nodes for an item: the indentation, the item, and what ends the line. -/
def rowNodes (loop : PropsLoop) : List Node :=
  textNodes loop.indent ++ .output (.name loop.item) :: textNodes (loop.separator ++ ['\n'])

def propsDocument (loop : PropsLoop) : Document :=
  (loop.places.flatMap fun place => textNodes place.1 ++ [.output (.name place.2)]) ++
  (textNodes (loop.last ++ ['{', '\n']) ++
    [.loop loop.item 2 (.name loop.collection) none (rowNodes loop) [], .text ('}' :: loop.ending)])

/-! ### Tokens -/

theorem absent_return (shaped : loop.Shaped) : '\r' ∉ loop.template := by
  have header : '\r' ∉ loop.header := shaped.absent_header rfl rfl (by decide)
  have row : '\r' ∉ loop.slot.source := shaped.proper_slot.absent_source rfl rfl (by decide)
  have separator : '\r' ∉ loop.separator := shaped.absent_separator (by decide)
  have opening : '\r' ∉ forOpening loop.item loop.collection := by
    have item : '\r' ∉ loop.item.toList := absent_of_isTagName shaped.item.1 (by decide)
    have collection : '\r' ∉ loop.collection.toList :=
      absent_of_isTagName shaped.collection.1 (by decide)
    simp [forOpening, item, collection]
  have closing : '\r' ∉ LoopLine.closing := by decide
  simp [PropsLoop.template, PropsLoop.row, header, row, separator, opening, closing,
    shaped.ending.2]

namespace Cuts

theorem source {rest : List Char} (proper : slot.Proper)
    (after : Cuts (.outside false) line line rest out) :
    Cuts (.outside lineStarting) line latest (slot.source ++ rest)
      (dataTokens line slot.text ++ (placeholderTokens line slot.name ++ out)) := by
  have inLine : '\n' ∉ slot.before ++ slot.behind := (absent_break_of_isLiteral proper.inLine).1
  have whole : Cuts (.outside lineStarting) line latest _ _ :=
    braced (unopened_of_absent (absent_of_isLiteral proper.text))
      (absent_break_of_isLiteral proper.text).1 proper.blank inLine proper.name after
  rwa [← slot.braced_append, ← List.append_assoc] at whole

theorem row (shaped : loop.Shaped) :
    Cuts (.outside lineStarting) 3 latest
      (loop.row ++ '\n' :: (LoopLine.closing ++ '\n' :: '}' :: loop.ending)) (rowTokens loop) := by
  have absent : '{' ∉ loop.separator ++ ['\n'] := by
    simp [shaped.absent_separator]
  have one : breaks (loop.separator ++ ['\n']) = 1 := by
    have absent : '\n' ∉ loop.separator := shaped.absent_separator (by decide)
    rw [breaks, List.count_append, List.count_eq_zero.mpr absent]
    rfl
  have behind : '{' ∉ '}' :: loop.ending := by simp [shaped.ending.1]
  have closing : Cuts (.outside false) 3 3 (loop.separator ++ ['\n'] ++
      (LoopLine.closing ++ '\n' :: '}' :: loop.ending)) _ :=
    openStatement (unopened_of_absent absent) (by simp [lastLine]) <|
      loopClosing (remaining (List.cons_ne_nil _ _) (unopened_of_absent behind).alone)
  rw [one] at closing
  have whole : Cuts (.outside lineStarting) 3 latest _ _ := source shaped.proper_slot closing
  rw [← List.append_cons, ← List.append_assoc] at whole
  exact whole

/-- What stands between the header's placeholders and the line for an item. -/
theorem opened {rest : List Char} (shaped : loop.Shaped)
    (after : Cuts (.outside true) 3 2 rest out) :
    Cuts (.outside lineStarting) 1 latest
      (loop.last ++ ['{', '\n'] ++ (Template.forOpening loop.item loop.collection ++ '\n' :: rest))
      (dataTokens 1 (loop.last ++ ['{', '\n']) ++ (loopTokens 2 loop.item loop.collection ++ out)) := by
  have unopened : Unopened (loop.last ++ ['{', '\n']) :=
    (unopened_of_absent (absent_of_isLiteral shaped.last)).append unopened_brace
  have one : breaks (loop.last ++ ['{', '\n']) = 1 := by
    rw [breaks, List.count_append, List.count_eq_zero.mpr (absent_break_of_isLiteral shaped.last).1]
    rfl
  have cut := @forOpening lineStarting 1 latest _ rest out loop.item loop.collection unopened
    (by simp [lastLine]) shaped.item.1 shaped.collection.1
  rw [one] at cut
  exact cut after

end Cuts

theorem tokens_propsLoop (shaped : loop.Shaped) : tokens loop.template = propsTokens loop := by
  have form : loop.template = loop.slots.flatMap Slot.source ++ (loop.last ++ ['{', '\n'] ++
      (forOpening loop.item loop.collection ++ '\n' :: (loop.row ++
        '\n' :: (LoopLine.closing ++ '\n' :: '}' :: loop.ending)))) := by
    simp [PropsLoop.template, PropsLoop.header]
  rw [tokens, unifyBreaks_eq_self (absent_return shaped), form, propsTokens, PropsLoop.places,
    List.flatMap_map]
  refine Cuts.flatMap (fun slot listed _ _ _ _ cuts => ?_)
    (fun _ _ _ => Cuts.opened shaped (Cuts.row shaped)) _ (Nat.lt_succ_self _)
  rw [List.append_assoc]
  exact Cuts.source (shaped.slots slot listed) cuts

/-! ### Reading -/

/-- The line for an item is read up to the closing tag. -/
theorem Gives.row (shaped : loop.Shaped) :
    Gives 8 ["endfor", "else"] (rowTokens loop) (rowNodes loop)
      [⟨4, .name "endfor"⟩, ⟨4, .closeStatement⟩, ⟨5, .data ('}' :: loop.ending)⟩, ⟨5, .finish⟩] := by
  let behind : List Token :=
    [⟨4, .closeStatement⟩, ⟨5, .data ('}' :: loop.ending)⟩, ⟨5, .finish⟩]
  have closed : Gives 1 ["endfor", "else"] (⟨4, .openStatement⟩ :: ⟨4, .name "endfor"⟩ :: behind) []
      (⟨4, .name "endfor"⟩ :: behind) := Gives.ended behind
  have ended : Gives (0 + 6) ["endfor", "else"] (dataTokens 3 (loop.separator ++ ['\n']) ++ _) _ _ :=
    (Gives.data _ ⟨_, _, rfl, by simp⟩ closed).weaken (by omega)
  have whole : Gives 8 _ (rowTokens loop) _ _ :=
    Gives.data loop.indent (begins_placeholderTokens loop.item _) <|
      Gives.placeholder (names_of_not_mem shaped.item.2)
        (begins_dataTokens _ ⟨_, _, rfl, by simp⟩) ended
  rwa [List.append_nil] at whole

theorem ofTokens_propsTokens (shaped : loop.Shaped) :
    Document.ofTokens (propsTokens loop) = .ok (propsDocument loop) := by
  have last : Gives 8 [] [⟨5, .data ('}' :: loop.ending)⟩, ⟨5, .finish⟩] [.text ('}' :: loop.ending)]
      [⟨5, .finish⟩] := by
    have text : Gives _ [] (dataTokens 5 ('}' :: loop.ending) ++ _) _ _ :=
      Gives.data _ ⟨_, _, rfl, by simp⟩ (Gives.finished 5 0)
    exact text.weaken (by omega)
  have rowBegins : Begins (rowTokens loop) :=
    begins_dataTokens loop.indent (begins_placeholderTokens loop.item _)
  have looped : Gives 16 [] (loopTokens 2 loop.item loop.collection ++ rowTokens loop) _
      [⟨5, .finish⟩] :=
    Gives.forLoop (names_of_not_mem shaped.item.2) (names_of_not_mem shaped.collection.2) rowBegins
      (Gives.row shaped) ⟨_, _, rfl, by simp⟩ last
  have opened : Gives (11 + 6) [] (dataTokens 1 (loop.last ++ ['{', '\n']) ++ _) _ [⟨5, .finish⟩] :=
    Gives.data _ ⟨_, _, rfl, by simp⟩ looped
  have begins : Begins (dataTokens 1 (loop.last ++ ['{', '\n']) ++
      (loopTokens 2 loop.item loop.collection ++ rowTokens loop)) :=
    begins_dataTokens _ ⟨_, _, rfl, by simp⟩
  have names : ∀ place ∈ loop.places, Names place.2 := fun place listed =>
    names_of_not_reserved (shaped.free place.2 (loop.mem_names listed))
  have whole : Gives _ [] (propsTokens loop) _ [⟨5, .finish⟩] := Gives.outputs names begins opened
  refine ofTokens_of_gives (begins_flatMap_places begins_placeholderTokens begins) whole ?_
  -- A place is two nodes at most, and there are eight steps for each of its tokens.
  have counted := length_le_flatMap_places 1 (placeholderTokens 1) (fun _ => List.cons_ne_nil _ _)
    loop.places
  simp only [propsTokens, List.length_append, loopTokens, List.length_cons]
  omega

/-! ### The document has no fault -/

theorem misnamedAmong?_textNodes (text : List Char) (found : List Node) :
    Node.misnamedAmong? (textNodes text ++ found) = Node.misnamedAmong? found := by
  cases text <;> rfl

theorem faultAmong?_propsDocument (shaped : loop.Shaped) :
    Node.faultAmong? false (propsDocument loop) = none := by
  have reserved : loopName ∈ reservedWords := by decide
  have named : loop.item ≠ loopName := (ne_of_mem_of_not_mem reserved shaped.item.2).symm
  have texts := faultAmong?_textNodes (loop.separator ++ ['\n']) []
  have texts' := misnamedAmong?_textNodes (loop.separator ++ ['\n']) []
  rw [List.append_nil] at texts texts'
  have sound : Node.faultAmong? false (rowNodes loop) = none := by
    rw [rowNodes, faultAmong?_textNodes, Node.faultAmong?, texts]
    rfl
  have named' : Node.misnamedAmong? (rowNodes loop) = none := by
    rw [rowNodes, misnamedAmong?_textNodes, Node.misnamedAmong?, texts']
    rfl
  rw [propsDocument, faultAmong?_outputs, faultAmong?_textNodes, Node.faultAmong?, Node.fault?,
    Node.misnamed?, if_neg named, named', sound]
  rfl

theorem compile_propsLoop (shaped : loop.Shaped) :
    compile loop.template = .ok (propsDocument loop) := by
  rw [compile, Document.ofTemplate, tokens_propsLoop shaped, ofTokens_propsTokens shaped]
  simp only [faultAmong?_propsDocument shaped]

/-! ### Rendering -/

variable {params : Record} {value : String → Value} {items : List String}

theorem renderAll_rowNodes {scope : Scope} {item : String}
    (held : scope.find loop.item = .value (.text item)) :
    Node.renderAll scope (rowNodes loop) = .ok (loop.rowOf item.toList ++ ['\n']) := by
  have shown : Node.render scope (.output (.name loop.item)) = .ok item.toList := by
    rw [Node.render, Expr.eval, held]
    rfl
  have ended := renderAll_text scope (loop.separator ++ ['\n'])
  rw [rowNodes, renderAll_textNodes loop.indent (renderAll_cons shown ended)]
  simp [PropsLoop.rowOf]

/-- The document is rendered as the block with the texts of the parameters and a line for each item. -/
theorem render_propsDocument (shaped : loop.Shaped)
    (held : ∀ name ∈ loop.names, Keyed.field? params name = some (value name))
    (given : Keyed.field? params loop.collection = some (.list (items.map .text))) :
    (propsDocument loop).render params =
      .ok (loop.fill (fun name => (value name).shown) (items.map String.toList)) := by
  let scope := Scope.ofParams params
  have row (position : Datum) (item : String) :
      Node.renderAll ((loop.item, .value (.text item)) :: (loopName, position) :: scope)
        (rowNodes loop) = .ok (loop.rowOf item.toList ++ ['\n']) := by
    refine renderAll_rowNodes ?_
    rw [Scope.find, List.lookup_cons, beq_self_eq_true]
    rfl
  have reserved : "self" ∈ reservedWords := by decide
  have free := (ne_of_mem_of_not_mem reserved shaped.collection.2).symm
  have looped : Node.render scope (.loop loop.item 2 (.name loop.collection) none (rowNodes loop) []) =
      .ok (items.flatMap fun item => loop.rowOf item.toList ++ ['\n']) :=
    render_loop (find_ofParams free given) row
  have last : Node.render scope (.text ('}' :: loop.ending)) = .ok ('}' :: loop.ending) := by
    rw [Node.render]
  have places : ∀ place ∈ loop.places,
      place.2 ∉ reservedNames ∧ Keyed.field? params place.2 = some (value place.2) :=
    fun place listed =>
      ⟨shaped.free place.2 (loop.mem_names listed), held place.2 (loop.mem_names listed)⟩
  have whole := renderAll_outputs places (renderAll_textNodes (loop.last ++ ['{', '\n'])
    (renderAll_cons looped (renderAll_cons last (renderAll_nil scope))))
  have form : loop.fill (fun name => (value name).shown) (items.map String.toList) =
      filledPlaces (fun name => (value name).shown) loop.places ++ (loop.last ++ ['{', '\n'] ++
        (items.flatMap (fun item => loop.rowOf item.toList ++ ['\n']) ++ ('}' :: loop.ending ++ []))) := by
    rw [PropsLoop.fill, PropsLoop.title_eq]
    simp [List.flatMap_map]
  rw [form]
  exact whole

end Scaffold.Render
