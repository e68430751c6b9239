import Scaffold.Proofs.Sentinel.Marks
import Scaffold.Proofs.Text.Word

/-!
Attributes of start sentinels. The values that can be written are those that can be read: a value of a
start sentinel that was found has no quote, no end of a line and no closer, and every value like that
is read back.
-/

namespace Scaffold.Sentinel

open Text

variable {text rest : List Char}

/-- The next quote ends a value. -/
theorem exists_closing_quote {inner after : List Char} {c : Char}
    (closed : inner.dropWhile (· != '"') = c :: after) :
    inner = inner.takeWhile (· != '"') ++ '"' :: after ∧ '"' ∉ inner.takeWhile (· != '"') := by
  obtain ⟨held, plain, rfl, ended⟩ := dropWhile_eq_iff.mp closed
  have last : c = '"' := by simpa only [bne_eq_false_iff_eq] using ended c rfl
  subst last
  rw [takeWhile_append plain ended]
  exact ⟨rfl, fun member => by simpa using plain '"' member⟩

/-- An attribute is a nonempty word, and a value between the next two quotes. -/
theorem attribute?_eq_some {name value : String} :
    attribute? text = some ((name, value), rest) ↔
      (name.toList ≠ [] ∧ (∀ c ∈ name.toList, isWord c = true) ∧ '"' ∉ value.toList) ∧
        text = name.toList ++ ('=' :: '"' :: (value.toList ++ '"' :: rest)) := by
  simp only [attribute?, Option.bind_eq_bind, Option.bind_eq_some_iff, afterPrefix?_eq_some]
  constructor
  · rintro ⟨⟨word, behind⟩, named, inner, rfl, found⟩
    obtain ⟨filled, all, rfl, _⟩ := word?_eq_some.mp named
    cases closed : inner.dropWhile (· != '"') with
    | nil =>
      rw [closed] at found
      cases found
    | cons c after =>
      obtain ⟨split, plain⟩ := exists_closing_quote closed
      rw [closed] at found
      cases found
      rw [String.toList_ofList, ← split]
      exact ⟨⟨filled, all, plain⟩, rfl⟩
  · rintro ⟨⟨filled, all, plain⟩, rfl⟩
    have stopped : ∀ c ∈ ('=' :: '"' :: (value.toList ++ '"' :: rest)).head?, isWord c = false := by
      rintro c ⟨⟩
      decide
    have unquoted : ∀ c ∈ value.toList, (c != '"') = true := fun c member =>
      bne_iff_ne.mpr fun same => plain (same ▸ member)
    have quote : ∀ c ∈ ('"' :: rest).head?, (c != '"') = false := by
      rintro c ⟨⟩
      rfl
    refine ⟨_, word?_append filled all stopped, value.toList ++ '"' :: rest, rfl, ?_⟩
    rw [dropWhile_eq_iff.mpr ⟨value.toList, unquoted, rfl, quote⟩, takeWhile_append unquoted quote,
      String.ofList_toList]

theorem attribute?_consuming : Consuming attribute? := by
  rintro text ⟨name, value⟩ rest found
  obtain ⟨⟨filled, _⟩, rfl⟩ := attribute?_eq_some.mp found
  refine ⟨name.toList ++ ('=' :: '"' :: (value.toList ++ ['"'])), ?_, by simp⟩
  exact List.append_ne_nil_of_left_ne_nil filled _

/-- The value of an attribute is a part of the attributes that ends before a quote. -/
theorem attributeValue?_infix {name value : String} {attributes : List Char}
    (found : attributeValue? name attributes = some value) :
    value.toList <:+: attributes ∧ '"' ∉ value.toList := by
  have listed : (name, value) ∈ findAll attribute? attributes := by
    rw [← List.mem_reverse]
    obtain ⟨before, after, split, _⟩ := List.lookup_eq_some_iff.mp found
    rw [split]
    exact List.mem_append_right before List.mem_cons_self
  obtain ⟨front, used, more, rfl, scanned⟩ := mem_findAll attribute?_consuming listed
  obtain ⟨⟨_, _, plain⟩, split⟩ := attribute?_eq_some.mp scanned
  refine ⟨⟨front ++ (name.toList ++ ['=', '"']), '"' :: more, ?_⟩, plain⟩
  rw [split]
  simp

theorem attribute?_gap (rest : List Char) : attribute? (' ' :: rest) = none := by
  cases found : attribute? (' ' :: rest) with
  | none => rfl
  | some result =>
    obtain ⟨⟨name, value⟩, after⟩ := result
    obtain ⟨⟨filled, all, _⟩, split⟩ := attribute?_eq_some.mp found
    obtain ⟨c, word, same⟩ := List.exists_cons_of_ne_nil filled
    rw [same] at all split
    obtain ⟨rfl, _⟩ := List.cons.inj split
    exact absurd (all ' ' List.mem_cons_self) (by decide)

theorem findAll_attributeText {name value : String} (named : name.toList ≠ [])
    (word : ∀ c ∈ name.toList, isWord c = true) (plain : '"' ∉ value.toList) (rest : List Char) :
    findAll attribute? (' ' :: (Dialect.attributeText name value ++ rest)) =
      (name, value) :: findAll attribute? rest := by
  rw [findAll_none (attribute?_gap _)]
  refine findAll_some (by simp [Dialect.attributeText]) (attribute?_eq_some.mpr ⟨⟨named, word, plain⟩, ?_⟩)
  simp [Dialect.attributeText]

namespace Dialect

variable {dialect : Dialect} {generator : String} {unitId : Option String}

/-- The identity of a unit that is written: one that is neither empty nor that of the generator. -/
def ownId (generator : String) (unitId : Option String) : Option String :=
  unitId.filter fun id => !(id = "" || id = generator)

/-- The attributes of a start sentinel as they are written. -/
def attributesOf (generator : String) (unitId : Option String) : List Char :=
  ' ' :: (attributeText "factory" generator ++
    match ownId generator unitId with
    | some id => ' ' :: attributeText "id" id
    | none => [])

/-- What ends a comment. -/
def ending (dialect : Dialect) : List Char :=
  if dialect.closer.isEmpty then [] else ' ' :: dialect.closer

theorem start_eq (dialect : Dialect) (generator : String) (unitId : Option String) :
    dialect.start generator unitId =
      dialect.opener ++ (' ' :: (startTag ++ (attributesOf generator unitId ++ dialect.ending))) := by
  unfold start attributesOf ownId comment ending
  cases unitId with
  | none => simp
  | some id =>
    by_cases own : (id = "" || id = generator) = true
    · simp [Option.filter, own]
    · simp [Option.filter, own]

theorem finish_eq (dialect : Dialect) :
    dialect.finish = dialect.opener ++ (' ' :: (endTag ++ dialect.ending)) := by
  simp [finish, comment, ending]

/-- A value that a start sentinel can hold: it has no quote, no end of a line and no closer. -/
structure Quotable (dialect : Dialect) (value : String) : Prop where
  quote : '"' ∉ value.toList
  line : ∀ c ∈ value.toList, isBreak c = false
  closer : dialect.closer ≠ [] → ¬ dialect.closer <:+: value.toList

/-- The attributes of a start sentinel are a text that it can hold, quotes apart. -/
theorem startMark?_attributes (regular : dialect.Regular) {attributes : List Char}
    (found : startMark? dialect text = some (attributes, rest)) :
    (∀ c ∈ attributes, isBreak c = false) ∧
      (dialect.closer ≠ [] → ¬ dialect.closer <:+: attributes) := by
  rw [startMark?, Option.bind_eq_some_iff] at found
  obtain ⟨after, _, found⟩ := found
  by_cases unclosed : dialect.closer.isEmpty = true
  · rw [if_pos unclosed] at found
    cases found
    refine ⟨fun c member => by simpa using List.mem_takeWhile_imp member, fun closed => ?_⟩
    exact absurd (List.isEmpty_iff.mp unclosed) closed
  · rw [if_neg unclosed] at found
    obtain ⟨back, _, _, _, line, first⟩ := attributesUntil?_eq_some.mp found
    refine ⟨line, ?_⟩
    rintro closed ⟨front, behind, split⟩
    -- A closer among the attributes would have ended them.
    have missed := first front (dialect.closer ++ behind) (by rw [← split, List.append_assoc])
      (List.append_ne_nil_of_left_ne_nil closed _)
    rw [(afterCloser?_eq_some regular.closer_head closed).mpr
      ⟨[], by simp, by rw [List.nil_append, List.append_assoc]⟩] at missed
    cases missed

theorem quotable_of_startMark (regular : dialect.Regular) {attributes : List Char}
    {name value : String} (found : startMark? dialect text = some (attributes, rest))
    (read : attributeValue? name attributes = some value) : dialect.Quotable value := by
  obtain ⟨line, closer⟩ := startMark?_attributes regular found
  obtain ⟨within, quote⟩ := attributeValue?_infix read
  exact ⟨quote, fun c member => line c (within.subset member),
    fun closed inside => closer closed (inside.trans within)⟩

theorem ownId_eq_some {id : String} :
    ownId generator unitId = some id ↔ unitId = some id ∧ id ≠ "" ∧ id ≠ generator := by
  simp [ownId, Option.filter_eq_some_iff]

/-- The attributes that are written are read back. -/
theorem findAll_attributesOf (factory : dialect.Quotable generator)
    (identity : ∀ id ∈ unitId, dialect.Quotable id) :
    findAll attribute? (attributesOf generator unitId) =
      ("factory", generator) ::
        ((ownId generator unitId).map fun id => ("id", id)).toList := by
  have words : (∀ c ∈ "factory".toList, isWord c = true) ∧ ∀ c ∈ "id".toList, isWord c = true :=
    ⟨List.all_iff_forall_prop.mp (by decide), List.all_iff_forall_prop.mp (by decide)⟩
  rw [attributesOf, findAll_attributeText (by decide) words.1 factory.quote]
  cases own : ownId generator unitId with
  | none => rfl
  | some id =>
    have quote := (identity id (ownId_eq_some.mp own).1).quote
    have last := findAll_attributeText (by decide) words.2 quote []
    rw [List.append_nil] at last
    simp only [last]
    rfl

theorem attributeValue?_factory (factory : dialect.Quotable generator)
    (identity : ∀ id ∈ unitId, dialect.Quotable id) :
    attributeValue? "factory" (attributesOf generator unitId) = some generator := by
  rw [attributeValue?, findAll_attributesOf factory identity]
  cases ownId generator unitId <;> rfl

theorem attributeValue?_id (factory : dialect.Quotable generator)
    (identity : ∀ id ∈ unitId, dialect.Quotable id) :
    attributeValue? "id" (attributesOf generator unitId) = ownId generator unitId := by
  rw [attributeValue?, findAll_attributesOf factory identity]
  cases ownId generator unitId <;> rfl

theorem attributesOf_line (factory : dialect.Quotable generator)
    (identity : ∀ id ∈ unitId, dialect.Quotable id) :
    ∀ c ∈ attributesOf generator unitId, isBreak c = false := by
  have plain : ∀ name value : String, (∀ c ∈ name.toList, isBreak c = false) →
      (∀ c ∈ value.toList, isBreak c = false) →
      ∀ c ∈ ' ' :: attributeText name value, isBreak c = false := by
    intro name value named valued c member
    simp only [attributeText, List.mem_cons, List.mem_append, List.not_mem_nil, or_false] at member
    rcases member with rfl | ((member | rfl | rfl) | member) | rfl
    · rfl
    · exact named c member
    · rfl
    · rfl
    · exact valued c member
    · rfl
  intro c member
  rw [attributesOf, ← List.cons_append, List.mem_append] at member
  rcases member with member | member
  · exact plain "factory" generator (List.all_iff_forall_prop.mp (by decide)) factory.line c member
  · cases own : ownId generator unitId with
    | none =>
      rw [own] at member
      cases member
    | some id =>
      rw [own] at member
      have valued := (identity id (ownId_eq_some.mp own).1).line
      exact plain "id" id (List.all_iff_forall_prop.mp (by decide)) valued c member

/-- A text without quotes that stands among the attributes stands in a name or in a value. -/
theorem infix_attributesOf {part : List Char} (quote : '"' ∉ part) (filled : part ≠ [])
    (within : part <:+: attributesOf generator unitId) :
    part <:+: " factory=".toList ∨ part <:+: generator.toList ∨ part <:+: " id=".toList ∨
      ∃ id ∈ unitId, part <:+: id.toList := by
  have split : attributesOf generator unitId =
      " factory=".toList ++ '"' :: (generator.toList ++ '"' ::
        match ownId generator unitId with
        | some id => " id=".toList ++ '"' :: (id.toList ++ '"' :: [])
        | none => []) := by
    unfold attributesOf
    cases ownId generator unitId <;> simp [attributeText]
  rw [split, infix_append_cons quote, infix_append_cons quote] at within
  rcases within with within | within | within
  · exact .inl within
  · exact .inr (.inl within)
  cases own : ownId generator unitId with
  | none =>
    rw [own] at within
    exact absurd (List.infix_nil.mp within) filled
  | some id =>
    rw [own] at within
    rcases (infix_append_cons quote).mp within with within | within
    · exact .inr (.inr (.inl within))
    rcases (infix_append_cons quote).mp within with within | within
    · exact .inr (.inr (.inr ⟨id, (ownId_eq_some.mp own).1, within⟩))
    · exact absurd (List.infix_nil.mp within) filled

/-- Nothing among the attributes that are written ends the comment. -/
theorem closer_not_infix (regular : dialect.Regular) (factory : dialect.Quotable generator)
    (identity : ∀ id ∈ unitId, dialect.Quotable id) (closed : dialect.closer ≠ []) :
    ¬ dialect.closer <:+: attributesOf generator unitId := by
  have quote : '"' ∉ dialect.closer := fun member => (regular.closer _ member).2.2 (by decide)
  have plain : ∀ part : List Char, (∀ c ∈ part, isGap c = true ∨ isWord c = true ∨ c = '=') →
      ¬ dialect.closer <:+: part := by
    intro part around within
    obtain ⟨c, closer, same⟩ := List.exists_cons_of_ne_nil closed
    have first : c ∈ dialect.closer := by rw [same]; exact List.mem_cons_self
    obtain ⟨gap, word, other⟩ := regular.closer c first
    have equals : ¬ c = '=' := by
      rintro rfl
      exact other (by decide)
    have kind := around c (within.subset first)
    simp [gap, word, equals] at kind
  intro within
  rcases infix_attributesOf quote closed within with within | within | within | ⟨id, own, within⟩
  · exact plain _ (List.all_iff_forall_prop.mp (by decide)) within
  · exact factory.closer closed within
  · exact plain _ (List.all_iff_forall_prop.mp (by decide)) within
  · exact (identity id own).closer closed within

theorem attributesOf_concat (generator : String) (unitId : Option String) :
    ∃ front, attributesOf generator unitId = front ++ ['"'] := by
  unfold attributesOf
  cases ownId generator unitId with
  | none => exact ⟨' ' :: ("factory".toList ++ ['=', '"'] ++ generator.toList), by simp [attributeText]⟩
  | some id =>
    refine ⟨' ' :: (attributeText "factory" generator ++
      (' ' :: ("id".toList ++ ['=', '"'] ++ id.toList))), ?_⟩
    simp [attributeText]

theorem afterMark?_start (generator : String) (unitId : Option String) (rest : List Char) :
    afterMark? dialect startTag (dialect.start generator unitId ++ rest) =
      some (attributesOf generator unitId ++ (dialect.ending ++ rest)) := by
  refine (afterMark?_eq_some stem_prefix_startTag).mpr
    ⟨[' '], List.forall_mem_singleton.mpr rfl, ?_, ?_⟩
  · rw [start_eq]
    simp only [List.append_assoc, List.cons_append, List.nil_append]
  · rintro c ⟨⟩
    decide

theorem afterCloser?_ending (regular : dialect.Regular) (closed : dialect.closer ≠ [])
    (rest : List Char) : afterCloser? dialect (' ' :: dialect.closer ++ rest) = some rest :=
  (afterCloser?_eq_some regular.closer_head closed).mpr
    ⟨[' '], List.forall_mem_singleton.mpr rfl, rfl⟩

/-- The closer that is written behind the attributes is the first one: they end with a quote, which
stands in no gap and no closer, so that an earlier one would be a part of them. -/
theorem untilCloser_attributes (regular : dialect.Regular) (factory : dialect.Quotable generator)
    (identity : ∀ id ∈ unitId, dialect.Quotable id) (closed : dialect.closer ≠ []) (rest : List Char) :
    UntilCloser dialect (attributesOf generator unitId ++ (' ' :: dialect.closer ++ rest))
      (attributesOf generator unitId) rest := by
  refine ⟨_, rfl, by simp, afterCloser?_ending regular closed rest, attributesOf_line factory identity,
    ?_⟩
  intro before after split filled
  by_contra found
  obtain ⟨more, found⟩ := Option.ne_none_iff_exists'.mp found
  obtain ⟨gaps, blank, same⟩ := (afterCloser?_eq_some regular.closer_head closed).mp found
  obtain ⟨front, last⟩ := attributesOf_concat generator unitId
  obtain ⟨start, c, rfl⟩ := List.eq_nil_or_concat after |>.resolve_left filled
  rw [List.concat_eq_append] at split same
  rw [last, ← List.append_assoc] at split
  obtain ⟨rfl, quoted⟩ := List.append_inj' split rfl
  obtain rfl := (List.cons.inj quoted).1
  have absent : '"' ∉ gaps ++ dialect.closer := by
    rw [List.mem_append]
    rintro (member | member)
    · exact absurd (blank _ member) (by decide)
    · exact (regular.closer _ member).2.2 (by decide)
  rw [List.append_assoc, ← List.append_assoc gaps] at same
  obtain ⟨more, rfl⟩ := append_cons_split absent same
  refine closer_not_infix regular factory identity closed ⟨before ++ gaps, more ++ ['"'], ?_⟩
  rw [last]
  simp only [List.append_assoc]

/-- A start sentinel that is written is found again, with the attributes that are written. Without a
closer the line has to end behind it. -/
theorem startMark?_start (regular : dialect.Regular) (factory : dialect.Quotable generator)
    (identity : ∀ id ∈ unitId, dialect.Quotable id)
    (ended : dialect.closer = [] → ∀ c ∈ rest.head?, isBreak c = true) :
    startMark? dialect (dialect.start generator unitId ++ rest) =
      some (attributesOf generator unitId, rest) := by
  rw [startMark?, afterMark?_start, Option.bind_some, ending]
  by_cases unclosed : dialect.closer.isEmpty = true
  · have all : ∀ c ∈ attributesOf generator unitId, (!isBreak c) = true := by
      intro c member
      rw [attributesOf_line factory identity c member]
      rfl
    have stopped : ∀ c ∈ rest.head?, (!isBreak c) = false := by
      intro c first
      rw [ended (List.isEmpty_iff.mp unclosed) c first]
      rfl
    rw [if_pos unclosed, if_pos unclosed, List.nil_append, takeWhile_append all stopped,
      dropWhile_eq_iff.mpr ⟨_, all, rfl, stopped⟩]
  · have closed : dialect.closer ≠ [] := by simpa using unclosed
    rw [if_neg unclosed, if_neg unclosed]
    exact attributesUntil?_eq_some.mpr (untilCloser_attributes regular factory identity closed rest)

/-- An end sentinel that is written is found again. Without a closer no word may follow it. -/
theorem endMark?_finish (regular : dialect.Regular)
    (ended : dialect.closer = [] → ∀ c ∈ rest.head?, isWord c = false) :
    endMark? dialect (dialect.finish ++ rest) = some ((), rest) := by
  have marked : afterMark? dialect endTag (dialect.finish ++ rest) = some (dialect.ending ++ rest) := by
    refine (afterMark?_eq_some stem_prefix_endTag).mpr
      ⟨[' '], List.forall_mem_singleton.mpr rfl, ?_, ?_⟩
    · rw [finish_eq]
      simp only [List.append_assoc, List.cons_append, List.nil_append]
    · unfold ending
      by_cases unclosed : dialect.closer.isEmpty = true
      · rw [if_pos unclosed]
        exact ended (List.isEmpty_iff.mp unclosed)
      · rw [if_neg unclosed]
        rintro c ⟨⟩
        decide
  rw [endMark?, marked, Option.bind_some]
  by_cases unclosed : dialect.closer.isEmpty = true
  · rw [if_pos unclosed, ending, if_pos unclosed, List.nil_append]
  · have closed : dialect.closer ≠ [] := by simpa using unclosed
    rw [if_neg unclosed, ending, if_neg unclosed, afterCloser?_ending regular closed]
    rfl

end Dialect

end Scaffold.Sentinel
