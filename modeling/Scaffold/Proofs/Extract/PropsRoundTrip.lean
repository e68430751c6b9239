import Scaffold.Proofs.Extract.BlockLines
import Scaffold.Proofs.Render.PropsDocument

/-!
A loop inside a block for properties gives its items back. The block is found again by its header,
whatever word characters stand in place of the header's placeholders, and each line of it is an item.
-/

namespace Scaffold.Extract

open Text Template Pattern

variable {slot : Slot} {slots : List Slot} {loop : PropsLoop} {text rest : List Char}
  {captures : List (String × List Char)} {shown : String → List Char}

/-! ### The header -/

/-- The fragments of a text and a placeholder. -/
def slotFragments (slot : Slot) : List Fragment :=
  fragments slot.text ++ [.expression slot.name.toList]

theorem fragments_source (proper : slot.Proper) (back : List Char) :
    fragments (slot.source ++ back) = slotFragments slot ++ fragments back := by
  obtain ⟨middle, form, found⟩ := encloses_of_placeholder? (proper.placeholder?_braced back)
  have here := found back
  rw [← form] at here
  have begins : ∀ c ∈ (slot.braced ++ back).head?, isBlank c = false := by
    simp [Slot.braced, isBlank]
  have placeholder : fragments (slot.braced ++ back) =
      .expression slot.name.toList :: fragments back :=
    fragments_of_some slot.braced_ne_nil here
  rw [Slot.source, List.append_assoc, fragments_literal proper.text begins, placeholder, slotFragments,
    List.append_assoc]
  rfl

theorem fragments_header (shaped : loop.Shaped) :
    fragments loop.header = loop.slots.flatMap slotFragments ++ (fragments loop.last ++ [.char '{']) := by
  have brace : fragments (loop.last ++ ['{']) = fragments loop.last ++ [.char '{'] :=
    fragments_literal shaped.last (by simp [isBlank])
  have slots : ∀ slots : List Slot, (∀ slot ∈ slots, slot.Proper) →
      fragments (slots.flatMap Slot.source ++ (loop.last ++ ['{'])) =
        slots.flatMap slotFragments ++ (fragments loop.last ++ [.char '{']) := by
    intro slots proper
    induction slots with
    | nil => exact brace
    | cons slot slots ih =>
      obtain ⟨here, more⟩ := List.forall_mem_cons.mp proper
      rw [List.flatMap_cons, List.append_assoc, fragments_source here, ih more, List.flatMap_cons,
        List.append_assoc]
  exact slots loop.slots shaped.slots

theorem untagged_header (shaped : loop.Shaped) : .statement ∉ fragments loop.header := by
  have literal : ∀ {text : List Char}, (∀ c ∈ text, isLiteral c = true) →
      .statement ∉ fragments text := by
    intro text literal member
    rcases tagless_of_mem_fragments literal _ member with ⟨c, same⟩ | same <;> cases same
  have slots : .statement ∉ loop.slots.flatMap slotFragments := by
    intro member
    obtain ⟨slot, listed, within⟩ := List.mem_flatMap.mp member
    have texts := literal (shaped.slots slot listed).text
    simp [slotFragments, texts] at within
  simp [fragments_header shaped, slots, literal shaped.last]

theorem seen_param (shaped : loop.Shaped) {name : String} (listed : name ∈ loop.names) :
    Seen (.param (loop.param name)) := by
  obtain ⟨slot, member, rfl⟩ := List.mem_map.mp listed
  change .expression slot.name.toList ∈ fragments loop.header
  rw [fragments_header shaped]
  exact List.mem_append_left _ (List.mem_flatMap_of_mem member (by simp [slotFragments]))

/-- The pattern of the header: its texts, and any words in place of the placeholders. -/
theorem headerPattern_block (shaped : loop.Shaped) :
    headerPattern loop.block = .sequence
      (loop.slots.flatMap (fun slot => literalPatterns slot.text ++ [.any .word]) ++
        (literalPatterns loop.last ++ [.char '{'])) := by
  have slots : ∀ slots : List Slot, (∀ slot ∈ slots, slot.Proper) →
      ∀ behind, patternsFrom (fun state _ => (Pattern.any .word, state)) ()
          (slots.flatMap slotFragments ++ behind) =
        slots.flatMap (fun slot => literalPatterns slot.text ++ [.any .word]) ++
          patternsFrom (fun state _ => (Pattern.any .word, state)) () behind := by
    intro slots proper behind
    induction slots with
    | nil => rfl
    | cons slot slots ih =>
      obtain ⟨here, more⟩ := List.forall_mem_cons.mp proper
      rw [List.flatMap_cons, slotFragments, List.append_assoc, List.append_assoc,
        patternsFrom_tagless (tagless_of_mem_fragments here.text), List.singleton_append]
      simp [patternsFrom, ih more, literalPatterns]
  obtain ⟨c, header, form⟩ := List.exists_cons_of_ne_nil shaped.tight_header.filled
  have container : loop.block.container = some (c :: header) := congrArg some form
  rw [headerPattern, container]
  simp only [patternOf]
  rw [← form, fragments_header shaped, slots _ shaped.slots,
    patternsFrom_tagless (tagless_of_mem_fragments shaped.last)]
  rfl

theorem leads_literalPatterns_self (literal : ∀ c ∈ text, isLiteral c = true) (rest : List Char)
    (captures : List (String × List Char)) :
    (Pattern.sequence (literalPatterns text)).Leads ⟨text ++ rest, captures⟩ ⟨rest, captures⟩ := by
  induction text using blanks_induction with
  | nil => rfl
  | solid c more solid ih =>
    obtain ⟨here, later⟩ := List.forall_mem_cons.mp literal
    rw [literalPatterns_solid solid here]
    exact ⟨⟨more ++ rest, captures⟩, ⟨rfl, rfl⟩, ih later⟩
  | blanks run more filled blank ends ih =>
    rw [literalPatterns_blanks filled blank ends, List.append_assoc]
    exact ⟨⟨more ++ rest, captures⟩, ⟨run, filled, blank, rfl, rfl⟩,
      ih (List.forall_mem_append.mp literal).2⟩

/-- The header fits when its placeholders are filled with word characters, or with nothing. -/
theorem fits_title (shaped : loop.Shaped)
    (words : ∀ name ∈ loop.names, ∀ c ∈ shown name, isWord c = true) :
    (headerPattern loop.block).fits (loop.title shown) = true := by
  have slots : ∀ slots : List Slot, (∀ slot ∈ slots, slot.Proper) →
      (∀ slot ∈ slots, ∀ c ∈ shown slot.name, isWord c = true) → ∀ rest,
      (Pattern.sequence (slots.flatMap fun slot => literalPatterns slot.text ++ [.any .word])).Leads
        ⟨slots.flatMap (Slot.fill shown) ++ rest, []⟩ ⟨rest, []⟩ := by
    intro slots proper words rest
    induction slots with
    | nil => rfl
    | cons slot slots ih =>
      obtain ⟨here, more⟩ := List.forall_mem_cons.mp proper
      obtain ⟨word, words⟩ := List.forall_mem_cons.mp words
      let behind := slots.flatMap (Slot.fill shown) ++ rest
      have text := leads_literalPatterns_self here.text (shown slot.name ++ behind) []
      have value : (Pattern.sequence [.any .word]).Leads ⟨shown slot.name ++ behind, []⟩ ⟨behind, []⟩ :=
        ⟨⟨behind, []⟩, ⟨shown slot.name, word, rfl, rfl⟩, rfl⟩
      have form : (slot :: slots).flatMap (Slot.fill shown) ++ rest =
          slot.text ++ (shown slot.name ++ behind) := by
        simp [Slot.fill, behind]
      rw [form, List.flatMap_cons]
      exact leads_sequence_append.mpr ⟨⟨behind, []⟩, leads_sequence_append.mpr ⟨_, text, value⟩,
        ih more words⟩
  have last : (Pattern.sequence (literalPatterns loop.last ++ [.char '{'])).Leads ⟨loop.last ++ ['{'], []⟩
      ⟨[], []⟩ :=
    leads_sequence_append.mpr ⟨⟨['{'], []⟩, leads_literalPatterns_self shaped.last ['{'] [],
      ⟨[], []⟩, ⟨rfl, rfl⟩, rfl⟩
  rw [headerPattern_block shaped, fits_iff]
  exact ⟨[], leads_sequence_append.mpr ⟨_, slots loop.slots shaped.slots
    (List.forall_mem_map.mp words) (loop.last ++ ['{']), last⟩⟩

/-! ### The items -/

/-- A text that can be read back as an item: it is not empty, has neither braces nor line feeds nor
blanks at its ends, and does not end in what separates items. -/
structure Listable (item : List Char) : Prop where
  tight : Tight item
  free : ∀ c ∈ item, isBrace c = false ∧ c ≠ '\n'
  ends : ∀ c ∈ item.getLast?, c ≠ ';' ∧ c ≠ ','

variable {item : List Char} {items : List (List Char)}

theorem cleaned_rowOf (shaped : loop.Shaped) (listable : Listable item) :
    cleaned (loop.rowOf item) = item := by
  have signs : ∀ c ∈ loop.separator, isBlank c = false ∧ (c == ';' || c == ',') = true := by
    intro c member
    rcases shaped.separator c member with rfl | rfl <;> decide
  have tight : Tight (item ++ loop.separator) :=
    listable.tight.follow fun c last => (signs c (List.mem_of_getLast? last)).1
  have trimmed : trim (loop.rowOf item) = item ++ loop.separator := by
    have whole := @trim_between loop.indent _ [] (fun c member => (shaped.indent c member).1) (by simp)
      tight
    rwa [List.append_nil] at whole
  have kept : dropRightWhile (fun c => c == ';' || c == ',') item = item := by
    refine dropRightWhile_eq_self fun c last => ?_
    obtain ⟨noSemicolon, noComma⟩ := listable.ends c last
    simp [noSemicolon, noComma]
  rw [cleaned, trimmed, dropRightWhile_append_of_all fun c member => (signs c member).2, kept,
    trimRight_eq_self listable.tight.ends]

/-- No line for an item has braces or line feeds. -/
theorem free_rowOf (shaped : loop.Shaped) (listable : Listable item) :
    ∀ c ∈ loop.rowOf item, isBrace c = false ∧ c ≠ '\n' := by
  have literal : ∀ {c}, isLiteral c = true → isBrace c = false ∧ c ≠ '\n' := by
    intro c literal
    simp only [isLiteral, Bool.and_eq_true, bne_iff_ne] at literal
    simp [isBrace, literal]
  rw [PropsLoop.rowOf, List.forall_mem_append, List.forall_mem_append]
  refine ⟨fun c member => literal (shaped.indent c member).2, listable.free, fun c member => ?_⟩
  rcases shaped.separator c member with rfl | rfl <;> decide

theorem keptItems_rows (shaped : loop.Shaped) (listable : ∀ item ∈ items, Listable item) :
    keptItems (items.map loop.rowOf) = items.map fun item => .text (String.ofList item) := by
  have free : (items.map loop.rowOf).filter (·.all (!isBrace ·)) = items.map loop.rowOf := by
    refine List.filter_eq_self.mpr (List.forall_mem_map.mpr fun item listed => ?_)
    refine List.all_eq_true.mpr fun c member => ?_
    rw [(free_rowOf shaped (listable item listed) c member).1]
    rfl
  have items' : (items.map loop.rowOf).map cleaned = items := by
    rw [List.map_map]
    exact List.map_congr_left (fun item listed => cleaned_rowOf shaped (listable item listed)) |>.trans
      (List.map_id items)
  have filled : items.filter (!·.isEmpty) = items :=
    List.filter_eq_self.mpr fun item listed => by simpa using (listable item listed).tight.filled
  rw [keptItems, free, items', filled]

/-- From a block with a line for each item the items are read. -/
theorem extract_filledBlock (shaped : loop.Shaped)
    (words : ∀ name ∈ loop.names, ∀ c ∈ shown name, isWord c = true)
    (listable : ∀ item ∈ items, Listable item) :
    (scalarLoopMatcher loop.block).extract (loop.fill shown items) =
      .ok (some (.list (items.map fun item => .text (String.ofList item)))) := by
  let rows := items.map loop.rowOf
  have inLine : ∀ row ∈ rows, '\n' ∉ row :=
    List.forall_mem_map.mpr fun item listed member =>
      (free_rowOf shaped (listable item listed) _ member).2 rfl
  have free : ∀ c ∈ '\n' :: rows.flatMap (· ++ ['\n']), isBrace c = false := by
    refine List.forall_mem_cons.mpr ⟨rfl, fun c member => ?_⟩
    obtain ⟨row, listed, within⟩ := List.mem_flatMap.mp member
    obtain ⟨item, one, rfl⟩ := List.mem_map.mp listed
    rcases List.mem_append.mp within with inRow | last
    · exact (free_rowOf shaped (listable item one) c inRow).1
    · rw [List.mem_singleton.mp last]
      rfl
  have braced : ∀ line ∈ loop.block.container, endsWith ['{'] line = true := by
    intro line held
    obtain rfl : loop.header = line := Option.some.inj held
    exact endsWith_singleton.mpr ⟨_, (List.append_assoc _ _ _).symm⟩
  have untagged : ∀ line ∈ loop.block.container, .statement ∉ fragments line := by
    intro line held
    obtain rfl : loop.header = line := Option.some.inj held
    exact untagged_header shaped
  have fitting := fits_title shaped words
  obtain ⟨found, searched, captured⟩ := search?_block (endsIn_headerPattern braced) fitting
    (count_of_fits untagged fitting).le free shaped.ending.1
  have form : loop.fill shown items =
      loop.title shown ++ ('\n' :: rows.flatMap (· ++ ['\n']) ++ '}' :: loop.ending) := by
    simp [PropsLoop.fill, rows, List.flatMap_map]
  rw [form, scalarLoopMatcher_eq, Matcher.extract]
  simp only [searched, captured, filterMap_lineItem?, keptItems_begun, keptItems_ended inLine]
  rw [keptItems_rows shaped listable]

/-! ### The extractor -/

/-- The matchers of the template: those of the header's parameters and that of the loop. -/
def propsMatchers (loop : PropsLoop) (hints : Hints) : List Matcher :=
  (loop.names.eraseDups.map fun name => matcherOf (.param (loop.param name)) hints) ++
    [scalarLoopMatcher loop.block]

theorem build_props (shaped : loop.Shaped) (hints : Hints) (strict : Bool) :
    Extractor.build loop.template hints strict =
      ([], .ok ⟨loop.template, propsMatchers loop hints⟩) := by
  let blocks : List Block :=
    loop.names.eraseDups.map (.param <| loop.param ·) ++ [.loop loop.block]
  have nameable : ∀ block ∈ blocks, Nameable block := by
    rw [List.forall_mem_append, List.forall_mem_singleton]
    exact ⟨List.forall_mem_map.mpr fun _ _ => trivial, fun scalar => by cases scalar⟩
  have compiled : (blocks.mapM fun block => compile block hints) =
      .ok (blocks.map fun block => matcherOf block hints) := Extractor.mapM_compile nameable
  have matchers : (blocks.map fun block => matcherOf block hints) = propsMatchers loop hints := by
    simp [blocks, propsMatchers, matcherOf, PropsLoop.block]
  rw [Extractor.build, shaped.analyze_template]
  change ([], (do return ⟨loop.template, ← blocks.mapM fun block => compile block hints⟩ :
    Except Error Extractor)) = _
  rw [compiled, matchers]
  rfl

/-- No matcher of the template fails, whatever the text. -/
theorem covers_propsMatchers (shaped : loop.Shaped) (hints : Hints) :
    ∀ matcher ∈ propsMatchers loop hints, matcher.Covers := by
  rw [propsMatchers, List.forall_mem_append, List.forall_mem_singleton]
  refine ⟨List.forall_mem_map.mpr fun name listed => ?_, certainNames_scalarLoopMatcher loop.block⟩
  exact covers_matcherOf (seen_param shaped (List.mem_eraseDups.mp listed)) hints

/-- The matcher of the loop decides on its collection, unless that is a parameter of the header too. -/
theorem decides_loop (apart : loop.collection ∉ loop.names) (hints : Hints) :
    Extractor.Decides (propsMatchers loop hints) (scalarLoopMatcher loop.block) := by
  have others : (loop.names.eraseDups.map fun name => matcherOf (.param (loop.param name)) hints).find?
      (fun other => other.name == (scalarLoopMatcher loop.block).name) = none := by
    rw [List.find?_eq_none]
    refine List.forall_mem_map.mpr fun name listed same => apart ?_
    rw [name_matcherOf] at same
    have same : name = loop.collection := eq_of_beq same
    rwa [← same, ← List.mem_eraseDups]
  rw [Extractor.Decides, propsMatchers, List.find?_append, others, Option.none_or]
  exact List.find?_cons_of_pos (beq_self_eq_true _)

/-! ### The round trip -/

/-- A loop inside a block for properties compiles, for extraction and for rendering. With words, or
nothing, for the parameters of the header it is rendered with a line for each item, and from the
rendered text just these items are extracted, one after the other. -/
theorem extract_render_props (shaped : loop.Shaped) (hints : Hints) (strict : Bool) :
    ∃ extractor document,
      Extractor.build loop.template hints strict = ([], .ok extractor) ∧
      Render.compile loop.template = .ok document ∧
      ∀ (params : Record) (value : String → Value) (items : List String),
        (∀ name ∈ loop.names, Keyed.field? params name = some (value name) ∧
          ∀ c ∈ (value name).shown, isWord c = true) →
        Keyed.field? params loop.collection = some (.list (items.map .text)) →
        (∀ item ∈ items, Listable item.toList) →
        ∃ text values, document.render params = .ok text ∧ extractor.extract text = .ok values ∧
          text = loop.fill (fun name => (value name).shown) (items.map String.toList) ∧
          values.lookup loop.collection = some (.list (items.map .text)) := by
  refine ⟨_, _, build_props shaped hints strict, Render.compile_propsLoop shaped, ?_⟩
  intro params value items held given listable
  let text := loop.fill (fun name => (value name).shown) (items.map String.toList)
  have rendered := Render.render_propsDocument shaped (fun name listed => (held name listed).1) given
  -- A list is shown in brackets, so that it is no value of a parameter in the header.
  have apart : loop.collection ∉ loop.names := by
    intro listed
    obtain ⟨same, words⟩ := held _ listed
    rw [given] at same
    have bracket := words '[' (by rw [← Option.some.inj same]; exact List.mem_cons_self)
    cases bracket
  obtain ⟨values, extracted⟩ : ∃ values,
      Extractor.extractFrom text [] (propsMatchers loop hints) = .ok values :=
    Extractor.extractFrom_total fun matcher _ decides =>
      (covers_propsMatchers shaped hints matcher (List.mem_of_find?_eq_some decides)).extract text
  have decided := (Extractor.extractFrom_gives extracted).decided _ List.not_mem_nil
    (decides_loop apart hints)
  have read := extract_filledBlock shaped (fun name listed => (held name listed).2)
    (List.forall_mem_map.mpr listable)
  refine ⟨text, values, rendered, extracted, rfl, ?_⟩
  rw [decided] at read
  have items' : (items.map String.toList).map (fun item => Value.text (String.ofList item)) =
      items.map .text := by
    simp
  rw [items'] at read
  exact Except.ok.inj read

/-- Items that look like lines of their own, the second with a separator in it. -/
theorem extract_render_props_of_interface :
    let loop : PropsLoop :=
      ⟨[⟨"export interface ".toList, [' '], "name", [' ']⟩], "Props ".toList, "p", "ps", [' ', ' '],
        [';'], ['\n']⟩
    let params : Record :=
      [(.text "name", .text "A"), (.text "ps", .list [.text "a: string", .text "b; c"])]
    loop.Shaped ∧ Listable "a: string".toList ∧ Listable "b; c".toList ∧
    ∃ extractor document values,
      Extractor.build loop.template [] true = ([], .ok extractor) ∧
      Render.compile loop.template = .ok document ∧
      document.render params = .ok "export interface AProps \x7b\n  a: string;\n  b; c;\n\x7d\n".toList ∧
      extractor.extract "export interface AProps \x7b\n  a: string;\n  b; c;\n\x7d\n".toList =
        .ok values ∧
      values.lookup "ps" = some (.list [.text "a: string", .text "b; c"]) := by
  intro loop params
  have slots : ∀ slot ∈ loop.slots, slot.Proper :=
    List.forall_mem_singleton.mpr ⟨List.all_eq_true.mp rfl, List.all_eq_true.mp rfl,
      List.all_eq_true.mp rfl, by decide⟩
  have begins : ∀ c ∈ loop.header.head?, isBlank c = false := by
    intro c first
    obtain rfl := Option.some.inj first
    rfl
  have shaped : loop.Shaped := by
    refine ⟨slots, List.forall_mem_singleton.mpr (by decide), List.all_eq_true.mp rfl, begins,
      by decide, by decide, by decide, ?_, ?_, by decide⟩
    · simp [loop, isBlank, isLiteral]
    · simp [loop]
  have first : Listable "a: string".toList :=
    ⟨⟨by decide, by simp [isBlank], by simp [isBlank]⟩, by simp [isBrace], by simp⟩
  have second : Listable "b; c".toList :=
    ⟨⟨by decide, by simp [isBlank], by simp [isBlank]⟩, by simp [isBrace], by simp⟩
  obtain ⟨extractor, document, built, compiled, trip⟩ := extract_render_props shaped [] true
  obtain ⟨text, values, rendered, extracted, form, found⟩ :=
    trip params (fun _ => .text "A") ["a: string", "b; c"]
      (List.forall_mem_singleton.mpr ⟨rfl, List.all_eq_true.mp rfl⟩) rfl
      (List.forall_mem_cons.mpr ⟨first, List.forall_mem_singleton.mpr second⟩)
  have same : text = "export interface AProps \x7b\n  a: string;\n  b; c;\n\x7d\n".toList :=
    form.trans rfl
  rw [same] at rendered extracted
  exact ⟨shaped, first, second, extractor, document, values, built, compiled, rendered, extracted, found⟩

end Scaffold.Extract
