import Mathlib.Data.List.Basic
import Scaffold.Proofs.Extract.LinePattern
import Scaffold.Proofs.Extract.Totality

/-!
Placeholders as fragments. The analysis of a template looks for placeholders everywhere in a line; the
fragments of the line are cut from the left, so that what stands inside a tag is never looked at. Both
see the same when no tag holds another opening pair of braces.
-/

namespace Scaffold.Extract

open Text Template

variable {text back rest inner opening : List Char} {item field name : String} {c : Char}

/-! ### Tags -/

/-- What stands between an opening pair and the first character behind it does not depend on what
follows that. -/
theorem afterOpening?_eq_some (found : afterOpening? opening text = some (c :: rest)) :
    ∃ gap, text = opening ++ (gap ++ c :: rest) ∧
      ∀ other, afterOpening? opening (opening ++ (gap ++ c :: other)) = some (c :: other) := by
  obtain ⟨after, cut, trimmed⟩ := Option.map_eq_some_iff.mp found
  rw [afterPrefix?_eq_some] at cut
  subst cut
  have opens : ∀ gap, (∀ other, trimLeft (dropOptional '-' (gap ++ c :: other)) = c :: other) →
      ∀ other, afterOpening? opening (opening ++ (gap ++ c :: other)) = some (c :: other) := by
    intro gap passes other
    rw [afterOpening?, afterPrefix?_eq_some.mpr rfl, Option.map_some, passes]
  cases after with
  | nil => cases trimmed
  | cons d after =>
    rw [dropOptional] at trimmed
    split at trimmed
    · next dash =>
      subst dash
      obtain ⟨blanks, all, split, solid⟩ := trimLeft_spec after
      rw [trimmed] at split solid
      refine ⟨'-' :: blanks, by rw [split]; rfl, opens _ fun other => ?_⟩
      rw [List.cons_append, dropOptional, if_pos rfl]
      exact trimLeft_append blanks all solid
    · next plain =>
      obtain ⟨blanks, all, split, solid⟩ := trimLeft_spec (d :: after)
      rw [trimmed] at split solid
      refine ⟨blanks, by rw [split], opens _ fun other => ?_⟩
      have kept : dropOptional '-' (blanks ++ c :: other) = blanks ++ c :: other := by
        cases blanks with
        | nil =>
          obtain ⟨rfl, _⟩ := List.cons.inj split
          exact if_neg plain
        | cons b blanks =>
          obtain ⟨rfl, _⟩ := List.cons.inj split
          exact if_neg plain
      rw [kept]
      exact trimLeft_append blanks all solid

/-- What stands before a closing pair does not depend on what follows the pair, and it does not go on
with a word. -/
theorem afterClosing?_eq_some (found : afterClosing? ['}', '}'] text = some rest) :
    ∃ gap, text = gap ++ '}' :: '}' :: rest ∧
      (∀ other, ∀ c ∈ (gap ++ '}' :: '}' :: other).head?, isWord c = false) ∧
      ∀ other, afterClosing? ['}', '}'] (gap ++ '}' :: '}' :: other) = some other := by
  obtain ⟨blanks, all, split, _⟩ := trimLeft_spec text
  rw [afterClosing?, afterPrefix?_eq_some] at found
  have spaced : ∀ more : List Char, (∀ c ∈ more.head?, isWord c = false) →
      ∀ c ∈ (blanks ++ more).head?, isWord c = false := by
    intro more begins c head
    cases blanks with
    | nil => exact begins c head
    | cons b blanks =>
      obtain rfl := Option.some.inj head
      exact isWord_of_isBlank (all b List.mem_cons_self)
  cases trimmed : trimLeft text with
  | nil =>
    rw [trimmed] at found
    cases found
  | cons d after =>
    rw [trimmed] at found split
    rw [dropOptional] at found
    split at found
    · next dash =>
      subst dash found
      refine ⟨blanks ++ ['-'], by simp [split], fun other => ?_, fun other => ?_⟩
      · rw [List.append_assoc]
        exact spaced _ (by simp [isWord])
      · have passed : trimLeft (blanks ++ ('-' :: '}' :: '}' :: other)) = '-' :: '}' :: '}' :: other :=
          trimLeft_append blanks all (by simp [isBlank])
        rw [List.append_assoc, List.singleton_append, afterClosing?, passed]
        rfl
    · rw [found] at split
      refine ⟨blanks, split, fun other => spaced _ (by simp [isWord]), fun other => ?_⟩
      have passed : trimLeft (blanks ++ ('}' :: '}' :: other)) = '}' :: '}' :: other :=
        trimLeft_append blanks all (by simp [isBlank])
      rw [afterClosing?, passed]
      rfl

/-- A character that no closing pair begins with, nor what may stand before one. -/
def IsPlain (c : Char) : Prop :=
  isBlank c = false ∧ c ≠ '-' ∧ c ≠ '}' ∧ c ≠ '\n'

theorem isPlain_of_isWord (word : isWord c = true) : IsPlain c := by
  refine ⟨isBlank_of_isWord word, ?_, ?_, ?_⟩ <;>
    · rintro rfl
      cases word

/-- A text begins with an expression between its braces, whatever follows. -/
def Encloses (inner text rest : List Char) : Prop :=
  ∃ middle, text = '{' :: '{' :: (middle ++ '}' :: '}' :: rest) ∧
    ∀ other, fragment? ('{' :: '{' :: (middle ++ '}' :: '}' :: other)) =
      some (.expression inner, other)

theorem encloses_of_plain (filled : inner ≠ []) (plain : ∀ c ∈ inner, IsPlain c)
    (opened : afterOpening? ['{', '{'] text = some (inner ++ back))
    (closed : afterClosing? ['}', '}'] back = some rest) : Encloses inner text rest := by
  obtain ⟨c, tail, rfl⟩ := List.exists_cons_of_ne_nil filled
  rw [List.cons_append] at opened
  obtain ⟨gap, split, opens⟩ := afterOpening?_eq_some opened
  obtain ⟨gap', split', _, closes⟩ := afterClosing?_eq_some closed
  refine ⟨gap ++ c :: (tail ++ gap'), by simp [split, split'], fun other => ?_⟩
  have opened := opens (tail ++ (gap' ++ '}' :: '}' :: other))
  have body := expressionBody?_of_closing plain (closes other)
  have kept : trim (c :: tail) = c :: tail :=
    (tight_of_forall (List.cons_ne_nil c tail) fun d member => (plain d member).1).trim_eq
  rw [List.cons_append] at body
  have form : '{' :: '{' :: (gap ++ c :: (tail ++ gap') ++ '}' :: '}' :: other) =
      ['{', '{'] ++ (gap ++ c :: (tail ++ (gap' ++ '}' :: '}' :: other))) := by simp
  rw [form, fragment?, opened]
  simp only [body, Option.map_some, kept]

/-- A placeholder is an expression of its name. -/
theorem encloses_of_placeholder? (found : placeholder? text = some (name, rest)) :
    Encloses name.toList text rest := by
  simp only [placeholder?, Option.bind_eq_bind, Option.bind_eq_some_iff, Prod.exists] at found
  obtain ⟨after, opened, word, back, named, last, closed, same⟩ := found
  cases same
  obtain ⟨filled, all, rfl, _⟩ := word?_eq_some.mp named
  exact encloses_of_plain filled (fun c member => isPlain_of_isWord (all c member)) opened closed

/-- A placeholder for a field is an expression of the item and the field. -/
theorem encloses_of_fieldReference? (proper : ∀ c ∈ item.toList, isWord c = true)
    (found : fieldReference? item text = some (field, rest)) :
    Encloses (path item field) text rest := by
  simp only [fieldReference?, Option.bind_eq_bind, Option.bind_eq_some_iff, Prod.exists] at found
  obtain ⟨after, opened, more, dotted, word, back, named, last, closed, same⟩ := found
  cases same
  obtain ⟨_, all, rfl, _⟩ := word?_eq_some.mp named
  rw [afterPrefix?_eq_some] at dotted
  subst dotted
  refine encloses_of_plain (by simp [path]) ?_ (by simpa [path] using opened) closed
  rw [path, List.forall_mem_append, List.forall_mem_cons]
  exact ⟨fun c member => isPlain_of_isWord (proper c member), by unfold IsPlain; decide,
    fun c member => isPlain_of_isWord (all c member)⟩

/-! ### Fragments -/

theorem expressionBody?_split {after : List Char} (found : expressionBody? text = some (inner, after)) :
    ∃ front, text = front ++ '}' :: after := by
  induction text generalizing inner with
  | nil => cases found
  | cons c text ih =>
    rw [expressionBody?_cons] at found
    split at found
    · next closed =>
      cases found
      obtain ⟨gap, split, _⟩ := afterClosing?_eq_some closed
      exact ⟨gap ++ ['}'], by rw [split]; simp⟩
    · split at found
      · cases found
      · obtain ⟨⟨_, _⟩, more, same⟩ := Option.map_eq_some_iff.mp found
        cases same
        obtain ⟨front, split⟩ := ih more
        exact ⟨c :: front, by rw [split]; rfl⟩

theorem statementBody?_split {after : List Char} (found : statementBody? text = some after) :
    ∃ front, text = front ++ '}' :: after := by
  induction text with
  | nil => cases found
  | cons c text ih =>
    rw [statementBody?] at found
    split at found
    · next closed =>
      cases found
      rw [afterPrefix?_eq_some] at closed
      exact ⟨['%'], closed⟩
    · split at found
      · cases found
      · obtain ⟨front, split⟩ := ih found
        exact ⟨c :: front, by rw [split]; rfl⟩

theorem afterBlanks?_split {after : List Char} (found : afterBlanks? text = some after) :
    ∃ front last, text = front ++ last :: after ∧ last ≠ '{' := by
  cases text with
  | nil => cases found
  | cons c text =>
    rw [afterBlanks?] at found
    split at found
    · next blank =>
      cases found
      obtain ⟨run, all, split, _⟩ := trimLeft_spec text
      have blanks : ∀ d ∈ c :: run, isBlank d = true := List.forall_mem_cons.mpr ⟨blank, all⟩
      have form := List.dropLast_append_getLast (List.cons_ne_nil c run)
      refine ⟨(c :: run).dropLast, (c :: run).getLast (List.cons_ne_nil c run), ?_, ?_⟩
      · rw [List.append_cons, form, List.cons_append, ← split]
      · intro brace
        have last := blanks _ (List.getLast_mem (List.cons_ne_nil c run))
        rw [brace] at last
        cases last
    · cases found

theorem dropOptional_suffix (c : Char) (text : List Char) : dropOptional c text <:+ text := by
  cases text with
  | nil => exact List.suffix_refl _
  | cons d text =>
    rw [dropOptional]
    split
    · exact List.suffix_cons d text
    · exact List.suffix_refl _

/-- A fragment does not end in an opening brace. -/
theorem fragment?_split {fragment : Fragment} (found : fragment? text = some (fragment, rest)) :
    ∃ front last, text = front ++ last :: rest ∧ last ≠ '{' := by
  rw [fragment?] at found
  split at found
  · next after opened =>
    obtain ⟨⟨inner, _⟩, body, same⟩ := Option.map_eq_some_iff.mp found
    cases same
    obtain ⟨front, split⟩ := expressionBody?_split body
    obtain ⟨tail, cut, trimmed⟩ := Option.map_eq_some_iff.mp opened
    rw [afterPrefix?_eq_some] at cut
    obtain ⟨gap, whole⟩ := (List.dropWhile_suffix isBlank).trans (dropOptional_suffix '-' tail)
    rw [← trimLeft, trimmed, split] at whole
    exact ⟨['{', '{'] ++ (gap ++ front), '}', by rw [cut, ← whole]; simp, by decide⟩
  · split at found
    · next after opened =>
      obtain ⟨_, body, same⟩ := Option.map_eq_some_iff.mp found
      cases same
      obtain ⟨front, split⟩ := statementBody?_split body
      rw [afterPrefix?_eq_some] at opened
      exact ⟨['{', '%'] ++ front, '}', by rw [opened, split]; simp, by decide⟩
    · obtain ⟨_, blanks, same⟩ := Option.map_eq_some_iff.mp found
      cases same
      exact afterBlanks?_split blanks

theorem fragment?_consuming : Consuming fragment? := by
  intro text fragment rest found
  obtain ⟨front, last, rfl, _⟩ := fragment?_split found
  exact ⟨front ++ [last], by simp, by simp⟩

/-- No tag of a text holds another opening pair of braces. -/
def Quiet (text : List Char) : Prop :=
  ∀ fragment source, .found fragment source ∈ pieces fragment? text → ¬ ['{', '{'] <:+: source.tail

theorem Quiet.tail {c : Char} (quiet : Quiet (c :: text)) (missed : fragment? (c :: text) = none) :
    Quiet text := by
  intro fragment source listed
  refine quiet fragment source ?_
  rw [pieces_none missed]
  exact List.mem_cons_of_mem _ listed

theorem Quiet.drop {used : List Char} {fragment : Fragment} (quiet : Quiet (used ++ rest))
    (filled : used ≠ []) (found : fragment? (used ++ rest) = some (fragment, rest)) : Quiet rest := by
  intro other source listed
  refine quiet other source ?_
  rw [pieces_some filled found]
  exact List.mem_cons_of_mem _ listed

/-- An opening pair of braces does not begin inside of a part that holds none but at its start, and does
not end in a brace. -/
theorem behind_of_opening {used more front : List Char} (whole : front ++ '{' :: '{' :: rest = used ++ more)
    (ended : ∃ before last, used = before ++ [last] ∧ last ≠ '{')
    (quiet : ¬ ['{', '{'] <:+: used.tail) (later : front ≠ []) :
    ∃ between, front = used ++ between ∧ more = between ++ '{' :: '{' :: rest := by
  rcases List.append_eq_append_iff.mp whole with ⟨begun, inUsed, inText⟩ | behind
  · rcases begun with _ | ⟨first, _ | ⟨second, begun⟩⟩
    · exact ⟨[], by simpa using inUsed.symm, inText.symm⟩
    · obtain ⟨rfl, _⟩ := List.cons.inj inText
      obtain ⟨before, last, split, other⟩ := ended
      cases (List.append_inj' (inUsed.symm.trans split) rfl).2
      exact absurd rfl other
    · obtain ⟨rfl, tail⟩ := List.cons.inj inText
      obtain ⟨rfl, _⟩ := List.cons.inj tail
      obtain ⟨c, front, rfl⟩ := List.exists_cons_of_ne_nil later
      exact absurd ⟨front, begun, by simp [inUsed]⟩ quiet
  · exact behind

/-- What stands between braces in a quiet text is one of its fragments. -/
theorem mem_fragments_of_encloses {front : List Char} (quiet : Quiet (front ++ text))
    (encloses : Encloses inner text rest) : .expression inner ∈ fragments (front ++ text) := by
  obtain ⟨middle, form, whatever⟩ := encloses
  have here := whatever rest
  rw [← form] at here
  clear whatever
  generalize whole : front ++ text = all at quiet ⊢
  induction all using scan_induction fragment?_consuming generalizing front with
  | nil => simp [form] at whole
  | char c more missed ih =>
    -- the expression cannot begin here, since nothing is recognised
    cases front with
    | nil =>
      rw [List.nil_append] at whole
      rw [whole, missed] at here
      cases here
    | cons d front =>
      obtain ⟨rfl, later⟩ := List.cons.inj (List.cons_append ▸ whole)
      rw [fragments_of_none missed]
      exact List.mem_cons_of_mem _ (ih later (quiet.tail missed))
  | found used more fragment filled found ih =>
    have listed : .found fragment used ∈ pieces fragment? (used ++ more) := by
      rw [pieces_some filled found]
      exact List.mem_cons_self
    rw [fragments_of_some filled found]
    by_cases first : front = []
    · rw [first, List.nil_append] at whole
      -- the fragment that is found is the expression
      rw [← whole, here] at found
      cases found
      exact List.mem_cons_self
    · obtain ⟨before, last, split, other⟩ := fragment?_split found
      -- in a quiet text the expression begins behind the fragment
      rw [List.append_cons] at split
      obtain ⟨between, _, later⟩ := behind_of_opening (form ▸ whole)
        ⟨before, last, List.append_cancel_right split, other⟩ (quiet fragment used listed) first
      rw [← form] at later
      exact List.mem_cons_of_mem _ (ih later.symm (quiet.drop filled found))

/-! ### Trimmed lines -/

theorem trimLeft_append_solid (front : List Char) (solid : isBlank c = false) (rest : List Char) :
    ∃ front', trimLeft (front ++ c :: rest) = front' ++ c :: rest := by
  induction front with
  | nil => exact ⟨[], List.dropWhile_cons_of_neg (by simp [solid])⟩
  | cons d front ih =>
    by_cases blank : isBlank d = true
    · rw [List.cons_append, trimLeft, List.dropWhile_cons_of_pos blank]
      exact ih
    · exact ⟨d :: front, List.dropWhile_cons_of_neg blank⟩

theorem trimRight_append_solid (front : List Char) (solid : isBlank c = false) (rest : List Char) :
    ∃ rest', trimRight (front ++ c :: rest) = front ++ c :: rest' := by
  obtain ⟨back, kept⟩ := trimLeft_append_solid rest.reverse solid front.reverse
  refine ⟨back.reverse, ?_⟩
  have turned : (front ++ c :: rest).reverse = rest.reverse ++ c :: front.reverse := by simp
  rw [trimRight, dropRightWhile, turned, ← trimLeft, kept]
  simp

/-- What a line encloses between braces is enclosed in the trimmed line. -/
theorem trim_encloses (front : List Char) (encloses : Encloses inner text rest) :
    ∃ front' text' rest', trim (front ++ text) = front' ++ text' ∧ Encloses inner text' rest' := by
  obtain ⟨middle, rfl, whatever⟩ := encloses
  have opens : isBlank '{' = false := by decide
  have closes : isBlank '}' = false := by decide
  obtain ⟨front', left⟩ :=
    trimLeft_append_solid front opens ('{' :: (middle ++ '}' :: '}' :: rest))
  obtain ⟨rest', right⟩ :=
    trimRight_append_solid (front' ++ '{' :: '{' :: (middle ++ ['}'])) closes rest
  refine ⟨front', _, rest', ?_, middle, rfl, whatever⟩
  rw [trim, left]
  simpa using right

theorem placeholder?_consuming : Consuming placeholder? := by
  intro text name rest found
  obtain ⟨middle, rfl, _⟩ := encloses_of_placeholder? found
  exact ⟨'{' :: '{' :: (middle ++ ['}', '}']), by simp, by simp⟩

theorem fieldReference?_consuming (proper : ∀ c ∈ item.toList, isWord c = true) :
    Consuming (fieldReference? item) := by
  intro text name rest found
  obtain ⟨middle, rfl, _⟩ := encloses_of_fieldReference? proper found
  exact ⟨'{' :: '{' :: (middle ++ ['}', '}']), by simp, by simp⟩

/-! ### Blocks -/

/-- The text that the fragments of a block are taken from. -/
def textOf : Block → List Char
  | .param block => block.line
  | .loop block => block.body

/-- A block is made of the placeholders in its text. -/
def OfPlaceholders : Block → Prop
  | .param block => ∃ line, block.line = trim line ∧ block.name ∈ findAll placeholder? line
  | .loop block => (∀ c ∈ block.item.toList, isWord c = true) ∧ (block.scalar = false →
      ∀ field ∈ block.fields.map Prod.fst, field ∈ findAll (fieldReference? block.item) block.body)

theorem fieldNamed?_path_of_word (all : ∀ c ∈ field.toList, isWord c = true)
    (filled : field.toList ≠ []) (item : String) : fieldNamed? item (path item field) = some field := by
  have named : afterPrefix? (item.toList ++ ['.']) (path item field) = some field.toList := by
    rw [afterPrefix?_eq_some, path, List.append_assoc]
    rfl
  have whole := takeWhile_append all (show ∀ c ∈ [].head?, isWord c = false by simp)
  have rest : field.toList.dropWhile isWord = [] := List.dropWhile_eq_nil_iff.mpr all
  rw [List.append_nil] at whole
  have word : word? field.toList = some (field, []) := by
    rw [word?, whole, rest, if_neg (by simpa using filled), String.ofList_toList]
  rw [fieldNamed?, named]
  change (word? field.toList).bind _ = _
  rw [word]
  rfl

/-- The placeholders of a block are fragments of its text, if that is quiet. -/
theorem seen_of_quiet {block : Block} (made : OfPlaceholders block) (quiet : Quiet (textOf block)) :
    Seen block := by
  cases block with
  | param block =>
    obtain ⟨line, trimmed, listed⟩ := made
    obtain ⟨front, used, rest, rfl, found⟩ := mem_findAll placeholder?_consuming listed
    obtain ⟨front', text', rest', split, encloses⟩ :=
      trim_encloses front (encloses_of_placeholder? found)
    rw [textOf, trimmed, split] at quiet
    rw [Seen, trimmed, split]
    exact mem_fragments_of_encloses quiet encloses
  | loop block =>
    obtain ⟨proper, made⟩ := made
    intro structured field listed
    obtain ⟨front, used, rest, split, found⟩ :=
      mem_findAll (fieldReference?_consuming proper) (made structured field listed)
    rw [textOf, split] at quiet
    rw [split]
    refine ⟨_, mem_fragments_of_encloses quiet (encloses_of_fieldReference? proper found), ?_⟩
    simp only [fieldReference?, Option.bind_eq_bind, Option.bind_eq_some_iff, Prod.exists] at found
    obtain ⟨_, _, _, _, word, _, named, _, _, same⟩ := found
    cases same
    obtain ⟨filled, all, _⟩ := word?_eq_some.mp named
    exact fieldNamed?_path_of_word all filled block.item

/-! ### The analysis -/

theorem scan_of_mem_piecesAfter {α : Type} {scan : Scan α} {value : α} {source : List Char} {skip : Nat}
    (listed : .found value source ∈ piecesAfter scan skip text) :
    ∃ start rest, scan start = some (value, rest) := by
  induction text generalizing skip with
  | nil => cases skip <;> cases listed
  | cons c text ih =>
    cases skip with
    | succ skip => exact ih listed
    | zero =>
      rw [piecesAfter] at listed
      split at listed
      · next other after found =>
        rcases List.mem_cons.mp listed with same | later
        · cases same
          exact ⟨_, _, found⟩
        · exact ih later
      · rcases List.mem_cons.mp listed with same | later
        · cases same
        · exact ih later

theorem isWord_of_loopTag? {tag : ForTag} (found : loopTag? text = some (.opens tag, rest)) :
    ∀ c ∈ tag.item.toList, isWord c = true := by
  rw [loopTag?] at found
  split at found
  · next other after opened =>
    cases found
    simp only [forTag?, forHead?, Option.bind_eq_bind, Option.bind_eq_some_iff, Prod.exists] at opened
    obtain ⟨_, _, ⟨_, _, _, _, _, _, item, _, named, _, _, _, _, _, _, _, _, _, made⟩, _, _, same⟩ := opened
    cases same
    cases made
    exact (word?_eq_some.mp named).2.1
  · obtain ⟨_, _, same⟩ := Option.map_eq_some_iff.mp found
    cases same

def Worded : Outline → Prop
  | .done _ => True
  | .loop _ span rest => (∀ c ∈ span.tag.item.toList, isWord c = true) ∧ Worded rest
  | .unclosed .. => True

theorem worded_precede (chars : List Char) (outline : Outline) :
    Worded (outline.precede chars) ↔ Worded outline := by
  cases outline <;> rfl

/-- The outline of pieces, and what follows a loop among them, have words for items when the tags among
the pieces do. -/
theorem worded_outlineOf {items : List (Piece LoopTag)}
    (words : ∀ tag source, .found (.opens tag) source ∈ items →
      ∀ c ∈ tag.item.toList, isWord c = true) :
    Worded (outlineOf items) ∧
      ∀ depth, ∀ after ∈ (remainderOf depth items).closing, Worded after.2 := by
  induction items with
  | nil => exact ⟨trivial, fun depth after member => by simp [remainderOf] at member⟩
  | cons piece rest ih =>
    obtain ⟨outside, inside⟩ := ih fun tag source listed =>
      words tag source (List.mem_cons_of_mem _ listed)
    rcases piece with c | ⟨tag | _, source⟩
    · exact ⟨(worded_precede [c] _).mpr outside, inside⟩
    · have proper := words tag source List.mem_cons_self
      refine ⟨?_, fun depth => inside (depth + 1)⟩
      rw [outlineOf, Outline.ofLoop]
      split
      · next closing others closed => exact ⟨proper, inside 0 _ closed⟩
      · trivial
    · refine ⟨(worded_precede source _).mpr outside, fun depth => ?_⟩
      cases depth with
      | zero =>
        intro after member
        cases member
        exact outside
      | succ depth => exact inside depth

theorem worded_outline (text : List Char) : Worded (outline text) :=
  (worded_outlineOf fun _ _ listed => by
    obtain ⟨_, _, found⟩ := scan_of_mem_piecesAfter listed
    exact isWord_of_loopTag? found).1

theorem mem_of_mem_newParams {seen : List String} {blocks : List ParamBlock} {block : ParamBlock}
    (listed : block ∈ Analysis.newParams seen blocks) : block ∈ blocks := by
  induction blocks generalizing seen with
  | nil => cases listed
  | cons first rest ih =>
    rw [Analysis.newParams] at listed
    split at listed
    · exact List.mem_cons_of_mem _ (ih listed)
    · rcases List.mem_cons.mp listed with rfl | later
      · exact List.mem_cons_self
      · exact List.mem_cons_of_mem _ (ih later)

theorem ofPlaceholders_of_textParams {block : ParamBlock} (listed : block ∈ textParams text) :
    OfPlaceholders (.param block) := by
  obtain ⟨line, _, listed⟩ := List.mem_flatMap.mp listed
  obtain ⟨name, named, rfl⟩ := List.mem_map.mp listed
  exact ⟨line, rfl, named⟩

theorem ofPlaceholders_of_readLoop {preceding : List Char} {span : LoopSpan} {block : LoopBlock}
    (proper : ∀ c ∈ span.tag.item.toList, isWord c = true)
    (read : (readLoop preceding span).block = some block) : OfPlaceholders (.loop block) := by
  simp only [readLoop] at read
  split at read
  · cases read
  · split at read
    · cases read
      refine ⟨proper, fun _ field listed => ?_⟩
      simpa [fieldsUsed] using listed
    · split at read
      · cases read
        exact ⟨proper, fun structured => by cases structured⟩
      · cases read

/-- The blocks of an analysis are made of the placeholders in their texts. -/
theorem ofPlaceholders_of_ofOutline {outline : Outline} (worded : Worded outline)
    (preceding : List Char) (seen : List String) :
    ∀ block ∈ (Analysis.ofOutline preceding seen outline).findings.filterMap Analysis.blockOf?,
      OfPlaceholders block := by
  have params : ∀ text seen, ∀ block ∈ ((Analysis.newParams seen (textParams text)).map
      Finding.param).filterMap Analysis.blockOf?, OfPlaceholders block := by
    intro text seen block listed
    obtain ⟨finding, member, made⟩ := List.mem_filterMap.mp listed
    obtain ⟨param, fresh, rfl⟩ := List.mem_map.mp member
    cases made
    exact ofPlaceholders_of_textParams (mem_of_mem_newParams fresh)
  induction outline generalizing preceding seen with
  | done text => exact params text seen
  | unclosed text tag remainder => exact params text seen
  | loop text span rest ih =>
    intro block listed
    simp only [Analysis.ofOutline, Analysis.precede, List.filterMap_append, List.mem_append] at listed
    rcases listed with (before | here) | later
    · exact params text seen block before
    · obtain ⟨finding, member, made⟩ := List.mem_filterMap.mp here
      rw [List.mem_singleton] at member
      subst member
      obtain ⟨loop, read, rfl⟩ := Option.map_eq_some_iff.mp made
      exact ofPlaceholders_of_readLoop worded.1 read
    · exact ih worded.2 _ _ block later

theorem ofPlaceholders_of_analyze {template : List Char} {strict : Bool} {blocks : List Block}
    (analyzed : (analyze strict template).2 = .ok blocks) : ∀ block ∈ blocks, OfPlaceholders block := by
  have lenient : (Analysis.ofTemplate template).lenient = .ok blocks := by
    cases strict with
    | false => exact analyzed
    | true =>
      change (Analysis.ofTemplate template).strict = .ok blocks at analyzed
      rw [Analysis.strict] at analyzed
      split at analyzed
      · cases analyzed
      · exact analyzed
  rw [Analysis.lenient] at lenient
  split at lenient
  · cases lenient
  · cases lenient
    exact ofPlaceholders_of_ofOutline (worded_outline _) [] []

end Scaffold.Extract
