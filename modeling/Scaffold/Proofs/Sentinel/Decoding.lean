import Scaffold.Proofs.Sentinel.Written
import Scaffold.Registry

/-!
Reading back what was written. In a text of written units, with texts between them that hold no mark,
exactly those units are found: each at its place, under its names and with its body.
-/

namespace Scaffold

namespace Registry

/-- A text is the name of a generator, and nothing follows it. -/
def isPlainName : List Char → Bool
  | [] => false
  | first :: rest => isNameStart first && rest.all isNamePart

theorem isNamePart_of_isPlainName {name : List Char} (plain : isPlainName name = true) :
    name ≠ [] ∧ ∀ c ∈ name, isNamePart c = true := by
  cases name with
  | nil => cases plain
  | cons first rest =>
    rw [isPlainName, Bool.and_eq_true, List.all_eq_true] at plain
    obtain ⟨begins, goesOn⟩ := plain
    have part : isNamePart first = true := by
      simp only [isNameStart, isNamePart, Char.isAlphanum, Bool.or_eq_true] at begins ⊢
      tauto
    exact ⟨List.cons_ne_nil _ _, List.forall_mem_cons.mpr ⟨part, goesOn⟩⟩

end Registry

namespace Sentinel

open Text

variable {dialect : Dialect} {text first : List Char} {drafts : List Draft}
  {between : List (List Char)} {path : Option String}

theorem Dialect.exists_closer_not_namePart (known : dialect ∈ Dialect.standard)
    (closed : dialect.closer ≠ []) : ∃ c ∈ dialect.closer, Registry.isNamePart c = false := by
  simp only [Dialect.standard, List.mem_cons, List.not_mem_nil, or_false] at known
  rcases known with rfl | rfl | rfl | rfl
  · exact absurd rfl closed
  · exact absurd rfl closed
  · exact ⟨'>', by decide, by decide⟩
  · exact ⟨'#', by decide, by decide⟩

/-- The name of a generator can be written in sentinels of every dialect. -/
theorem Dialect.quotable_of_isPlainName (known : dialect ∈ Dialect.standard) {name : String}
    (plain : Registry.isPlainName name.toList = true) : dialect.Quotable name := by
  obtain ⟨_, parts⟩ := Registry.isNamePart_of_isPlainName plain
  refine ⟨fun member => absurd (parts _ member) (by decide), ?_, ?_⟩
  · intro c member
    by_contra broken
    simp only [isBreak, Bool.not_eq_false, Bool.or_eq_true, beq_iff_eq] at broken
    rcases broken with rfl | rfl
    · exact absurd (parts _ member) (by decide)
    · exact absurd (parts _ member) (by decide)
  · intro closed within
    obtain ⟨c, member, other⟩ := Dialect.exists_closer_not_namePart known closed
    rw [parts c (within.subset member)] at other
    cases other

theorem free_of_isPlainName {name : List Char} (plain : Registry.isPlainName name = true) :
    Free name := by
  intro within
  have mark : '@' ∈ name := within.subset (by decide)
  exact absurd ((Registry.isNamePart_of_isPlainName plain).2 _ mark) (by decide)

/-- A unit that may be written: its generator has a name, its identity is not empty and can stand
between quotes in a sentinel, and no mark stands in its identity or its body. -/
structure Draft.Proper (dialect : Dialect) (draft : Draft) : Prop where
  generator : Registry.isPlainName draft.generator.toList = true
  unitId : ∀ id ∈ draft.unitId, id ≠ "" ∧ dialect.Quotable id ∧ Free id.toList
  body : Free draft.body

theorem Draft.Proper.clean {draft : Draft} (proper : draft.Proper dialect)
    (known : dialect ∈ Dialect.standard) : draft.Clean dialect where
  named := by
    intro vacant
    have filled := (Registry.isNamePart_of_isPlainName proper.generator).1
    rw [vacant] at filled
    exact filled rfl
  generator := Dialect.quotable_of_isPlainName known proper.generator
  unitId := fun id own => (proper.unitId id own).2.1
  freeGenerator := free_of_isPlainName proper.generator
  freeUnitId := fun id own => (proper.unitId id own).2.2
  freeBody := proper.body

/-- A span is that of a unit which was written at an offset of a text. -/
structure Draft.FoundAt (dialect : Dialect) (text : List Char) (offset : Nat) (draft : Draft)
    (span : Span) : Prop where
  start : span.start = offset
  finish : span.finish = offset + (draft.text dialect).length
  source : span.source text = draft.text dialect
  generator : span.generator = draft.generator
  unitId : span.unitId = draft.unitId.filter (· ≠ draft.generator)
  identity : span.identity = draft.unitId.getD draft.generator
  body : span.body text = trimRight draft.body

theorem length_weave (first : List Char) (units between : List (List Char)) :
    (weave first units between).length = first.length + (weave [] units between).length := by
  simp [weave]

/-- The sentinels of the unit at an index stand at the offset where the text woven of the units
before it ends. -/
theorem pairsOf_getElem? {offset i : Nat} {draft : Draft}
    {pair : Located (List Char) × Located Unit} (written : drafts[i]? = some draft)
    (found : (pairsOf dialect offset drafts between)[i]? = some pair) :
    pair.1.start =
        offset + (weave [] ((drafts.take i).map (·.text dialect)) (between.take i)).length ∧
      pair.2.finish = pair.1.start + (draft.text dialect).length := by
  induction i generalizing offset drafts between with
  | zero =>
    cases drafts with
    | nil => cases written
    | cons first drafts =>
      cases between with
      | nil => cases found
      | cons filler between =>
        cases written
        cases found
        exact ⟨rfl, rfl⟩
  | succ i ih =>
    cases drafts with
    | nil => cases written
    | cons first drafts =>
      cases between with
      | nil => cases found
      | cons filler between =>
        obtain ⟨start, finish⟩ := ih written found
        refine ⟨?_, finish⟩
        rw [start, List.take_succ_cons, List.take_succ_cons, List.map_cons, weave_cons, List.nil_append,
          List.length_append, length_weave filler]
        omega

theorem Draft.ReadAs.foundAt {draft : Draft} {span : Span} {offset : Nat}
    (read : draft.ReadAs dialect text span) (proper : draft.Proper dialect)
    (start : span.start = offset) (finish : span.finish = offset + (draft.text dialect).length) :
    draft.FoundAt dialect text offset span := by
  have own : Dialect.ownId draft.generator draft.unitId =
      draft.unitId.filter (· ≠ draft.generator) := by
    cases given : draft.unitId with
    | none => rfl
    | some id =>
      have filled := (proper.unitId id given).1
      simp [Dialect.ownId, Option.filter_some, filled]
  refine ⟨start, finish, read.source, read.generator, read.unitId.trans own, ?_, read.body⟩
  rw [Span.identity, read.unitId, own, read.generator]
  cases given : draft.unitId with
  | none => rfl
  | some id =>
    have filled := (proper.unitId id given).1
    by_cases same : id = draft.generator
    · simp [Option.filter_some, same]
    · simp [Option.filter_some, same, filled]

/-- What is written is read back. In a text of units woven into texts without marks, where a line ends
behind each unit unless the next one or the end follows at once, the units that are found are those that
were written, in their order: each is found where it stands, with its generator, its identity and its
body, blanks at the end of the body apart. -/
theorem findSpans_written (known : dialect ∈ Dialect.standard) (path : Option String)
    (paired : between.length = drafts.length) (proper : ∀ draft ∈ drafts, draft.Proper dialect)
    (free : Free first) (freeBetween : ∀ filler ∈ between, Free filler)
    (ended : ∀ filler ∈ between, ∀ c ∈ filler.head?, isBreak c = true) :
    ∃ spans, findSpans dialect path (weave first (drafts.map (·.text dialect)) between) = .ok spans ∧
      spans.length = drafts.length ∧
      ∀ i (draft : Draft) (span : Span), drafts[i]? = some draft → spans[i]? = some span →
        draft.FoundAt dialect (weave first (drafts.map (·.text dialect)) between)
          (weave first ((drafts.take i).map (·.text dialect)) (between.take i)).length span := by
  have regular := Dialect.regular_of_standard known
  have clean := fun draft member => (proper draft member).clean known
  have bounded : ∀ filler ∈ between, Bounded dialect filler := by
    intro filler member _ c begins
    have broken := ended filler member c begins
    simp only [isBreak, Bool.or_eq_true, beq_iff_eq] at broken
    rcases broken with rfl | rfl <;> decide
  have apart := fun filler member => And.intro (freeBetween filler member) (bounded filler member)
  obtain ⟨spans, spanned, read⟩ := pairsOf_spanned paired clean path [] first
  rw [List.nil_append] at spanned read
  have located := findSpans_eq_ok.mpr ⟨_, marks_weave regular paired clean free apart, spanned⟩
  refine ⟨spans, located, read.length_eq.symm, ?_⟩
  intro i draft span written found
  obtain ⟨inDrafts, rfl⟩ := List.getElem?_eq_some_iff.mp written
  obtain ⟨inSpans, rfl⟩ := List.getElem?_eq_some_iff.mp found
  have inPairs : i < (pairsOf dialect first.length drafts between).length :=
    spanned.length_eq ▸ inSpans
  have here := (List.forall₂_iff_get.mp spanned).2 i inPairs inSpans
  have readHere := (List.forall₂_iff_get.mp read).2 i inDrafts inSpans
  obtain ⟨start, finish⟩ := pairsOf_getElem? written (List.getElem?_eq_getElem inPairs)
  obtain ⟨_, _, _, same⟩ := spanOf_eq_ok.mp here
  rw [← length_weave] at start
  refine Draft.ReadAs.foundAt readHere (proper _ (List.getElem_mem inDrafts)) ?_ ?_
  · rw [← start]
    exact congrArg Span.start same
  · rw [← start, ← finish]
    exact congrArg Span.finish same

/-- Two units in a markup document, the second right behind the first, whose identity holds most of a
closer and whose body ends in blanks. -/
theorem findSpans_written_of_two :
    ∃ spans, findSpans .html none (weave "<!-".toList
        ([⟨"page", some "a--b", "x \n\n".toList⟩, ⟨"page", some "page", []⟩].map
          (Draft.text .html)) [[], "\nend".toList]) = .ok spans ∧
      spans.length = 2 ∧
      (∀ span, spans[0]? = some span → span.start = 3 ∧ span.identity = "a--b") ∧
      ∀ span, spans[1]? = some span → span.start = 84 ∧ span.unitId = none := by
  have proper : ∀ draft ∈ ([⟨"page", some "a--b", "x \n\n".toList⟩, ⟨"page", some "page", []⟩] :
      List Draft), draft.Proper .html := by
    intro draft member
    rcases List.mem_cons.mp member with rfl | member
    · refine ⟨by decide, ?_, by decide⟩
      rintro id ⟨⟩
      exact ⟨by decide, ⟨by decide, by simp [isBreak], by decide⟩, by decide⟩
    · obtain rfl := List.mem_singleton.mp member
      refine ⟨by decide, ?_, by decide⟩
      rintro id ⟨⟩
      exact ⟨by decide, ⟨by decide, by simp [isBreak], by decide⟩, by decide⟩
  have known : Dialect.html ∈ Dialect.standard := by decide
  have free : Free "<!-".toList := by decide
  have freeBetween : ∀ filler ∈ [[], "\nend".toList], Free filler := by decide
  obtain ⟨spans, found, counted, each⟩ :=
    findSpans_written known none (by rfl) proper free freeBetween (by simp [isBreak])
  refine ⟨spans, found, counted, ?_, ?_⟩
  · intro span here
    have at_ := each 0 _ span rfl here
    exact ⟨at_.start.trans (by decide), at_.identity⟩
  · intro span here
    have at_ := each 1 _ span rfl here
    exact ⟨at_.start.trans (by decide), at_.unitId.trans (by decide)⟩

end Sentinel

end Scaffold
