import Scaffold.Proofs.Registry.Loading
import Scaffold.Proofs.Sentinel.Alone
import Scaffold.Proofs.Sentinel.Decoding
import Scaffold.Proofs.Sentinel.LineByLine

/-!
Names in sentinels. A registered name is made of letters, digits and a few signs, but one line feed may follow
them. Main statement: what is written under a registered name is found again under that name when no line feed
follows it, and otherwise its sentinels are broken.
-/

namespace Scaffold.Registry

open Sentinel Text

variable {dialect : Dialect} {registry larger : Registry} {generator : Generator} {path : Option String}
  {name body text : List Char}

/-! ### The form of names -/

/-- A name is plain, or it is plain up to one line feed behind it. -/
theorem isPlainName_of_isName (named : isName text = true) :
    isPlainName text = true ∨ ∃ name, text = name ++ ['\n'] ∧ isPlainName name = true := by
  cases text with
  | nil => cases named
  | cons first rest =>
    simp only [isName, Bool.and_eq_true, Bool.or_eq_true, List.isEmpty_iff, beq_iff_eq] at named
    obtain ⟨start, ended⟩ := named
    obtain ⟨run, parts, split, _⟩ := dropWhile_eq_iff.mp (rfl : rest.dropWhile isNamePart = _)
    have plain : isPlainName (first :: run) = true := by
      rw [isPlainName, start, List.all_eq_true.mpr parts]
      rfl
    rcases ended with none | feed
    · rw [none, List.append_nil] at split
      exact .inl (split ▸ plain)
    · rw [feed] at split
      exact .inr ⟨first :: run, by rw [split, List.cons_append], plain⟩

theorem isName_of_register (accepted : (registry.register generator).2 = .ok larger) :
    isName generator.name.toList = true := by
  unfold register at accepted
  split at accepted
  · cases accepted
  · next known => simpa using known

/-- What is no character of names stands in no name. -/
theorem not_mem_of_isPlainName (plain : isPlainName name = true) {c : Char} (other : isNamePart c = false) :
    c ∉ name := by
  intro member
  rw [(isNamePart_of_isPlainName plain).2 c member] at other
  cases other

theorem line_of_isPlainName (plain : isPlainName name = true) : ∀ c ∈ name, isBreak c = false := by
  intro c member
  by_contra broken
  simp only [Bool.not_eq_false, isBreak, Bool.or_eq_true, beq_iff_eq] at broken
  rcases broken with rfl | rfl
  · exact not_mem_of_isPlainName plain rfl member
  · exact not_mem_of_isPlainName plain rfl member

/-- What is written under a plain name is found again. -/
theorem findSpans_wrap_plain (known : dialect ∈ Dialect.standard) {generator : String}
    (plain : isPlainName generator.toList = true) (free : Free body) (path : Option String) :
    ∃ span, findSpans dialect path (dialect.wrap body generator none) = .ok [span] ∧ span.start = 0 ∧
      span.finish = (dialect.wrap body generator none).length ∧ span.generator = generator := by
  have regular := Dialect.regular_of_standard known
  have proper : Draft.Proper dialect ⟨generator, none, body⟩ := ⟨plain, nofun, free⟩
  have clean := proper.clean known
  have bounded : Bounded dialect [] := nofun
  have apart : ∀ filler ∈ [[]], Free filler ∧ Bounded dialect filler :=
    List.forall_mem_singleton.mpr ⟨free_nil, bounded⟩
  have one : ([[]] : List (List Char)).length = [(⟨generator, none, body⟩ : Draft)].length := rfl
  obtain ⟨spans, found, read⟩ := findSpans_weave regular none one (List.forall_mem_singleton.mpr clean)
    free_nil apart
  obtain ⟨span, _, _, nothing, rfl⟩ := List.forall₂_cons_left_iff.mp read
  obtain rfl := List.forall₂_nil_left_iff.mp nothing
  have single : findSpans dialect none (Draft.text dialect ⟨generator, none, body⟩ ++ []) = .ok [span] := by
    simpa [weave] using found
  obtain ⟨starts, finishes⟩ := length_marks_of_singleton single
  obtain ⟨span, alone, readAs, start, finish⟩ := findSpans_alone regular clean.legible bounded starts finishes path
  rw [List.append_nil] at alone
  exact ⟨span, alone, start, finish, readAs.generator⟩

/-! ### Names with a line feed -/

theorem marks_eq_nil (starts : startMarks dialect text = []) (ends : endMarks dialect text = []) :
    marks dialect text = [] := by
  rw [marks, starts, ends, List.map_nil, List.map_nil, List.nil_merge]

theorem marks_of_free (regular : dialect.Regular) (free : Free text) : marks dialect text = [] :=
  marks_eq_nil (locatedFrom_eq_nil regular stem_prefix_startTag startMark?_tagged free)
    (locatedFrom_eq_nil regular stem_prefix_endTag endMark?_tagged free)

/-- Nothing is found in a comment without more marks that is none of the kind looked for. -/
theorem locate_comment_eq_nil {α : Type} {scan : Scan α} {tag core rest : List Char}
    (regular : dialect.Regular) (marked : stem <+: tag) (tagged : Tagged dialect tag scan)
    (plain : dialect.lead ∉ core) (filled : core ≠ [])
    (missed : scan (dialect.opener ++ core ++ rest) = none) (free : Free rest) :
    locate scan (dialect.opener ++ core ++ rest) = [] := by
  rw [locate, locatedFrom_comment regular marked tagged plain filled missed,
    locatedFrom_eq_nil regular marked tagged free]

theorem locate_whole {α : Type} {scan : Scan α} {value : α} (filled : text ≠ [])
    (found : scan text = some (value, [])) : locate scan text = [⟨value, 0, text.length⟩] := by
  have here : scan (text ++ []) = some (value, []) := by rwa [List.append_nil]
  have whole : locatedFrom 0 (pieces scan (text ++ [])) = _ := locatedFrom_found filled here
  rw [List.append_nil] at whole
  rw [locate, whole, Nat.zero_add]
  rfl

theorem free_of_at_not_mem (absent : '@' ∉ text) : Free text :=
  fun within => absent (within.subset (by decide))

/-- An end sentinel that is written has no other sentinel in it. -/
theorem marks_finish (regular : dialect.Regular) :
    marks dialect dialect.finish = [.finish ⟨(), 0, dialect.finish.length⟩] := by
  have bounded : Bounded dialect [] := nofun
  have missed := startMark?_finish regular bounded
  have ended : endMark? dialect (dialect.finish ++ []) = some ((), []) :=
    Dialect.endMark?_finish regular nofun
  rw [List.append_nil] at missed ended
  have form : dialect.finish = dialect.opener ++ (' ' :: endTag) ++ dialect.ending := by
    simp [Dialect.finish_eq]
  have starts : startMarks dialect dialect.finish = [] := by
    rw [startMarks]
    rw [form] at missed ⊢
    exact locate_comment_eq_nil regular stem_prefix_startTag startMark?_tagged
      (regular.lead_not_mem regular.leadEnd) (List.cons_ne_nil _ _) missed
      (free_of_at_not_mem regular.at_not_mem_ending)
  rw [marks, starts, endMarks, locate_whole regular.finish_ne_nil ended]
  simp

/-- The attributes of a start sentinel that is cut off behind a name. -/
def cutAttributes (name : List Char) : List Char :=
  " factory=\"".toList ++ name

def cutStart (dialect : Dialect) (name : List Char) : List Char :=
  dialect.opener ++ (' ' :: startTag) ++ cutAttributes name

section CutStart

variable (known : dialect ∈ Dialect.standard) (plain : isPlainName name = true)

include plain in
theorem free_cutAttributes : Free (cutAttributes name) :=
  free_append (by decide) (free_of_isPlainName plain)

include plain in
theorem cutAttributes_line : ∀ c ∈ cutAttributes name, isBreak c = false :=
  List.forall_mem_append.mpr ⟨List.all_iff_forall_prop.mp (by decide), line_of_isPlainName plain⟩

theorem exists_closer_apart (known : dialect ∈ Dialect.standard) (closed : dialect.closer ≠ []) :
    ∃ c ∈ dialect.closer, isNamePart c = false ∧ c ∉ " factory=\"".toList := by
  simp only [Dialect.standard, List.mem_cons, List.not_mem_nil, or_false] at known
  rcases known with rfl | rfl | rfl | rfl
  · exact absurd rfl closed
  · exact absurd rfl closed
  · exact ⟨'>', by decide, rfl, by decide⟩
  · exact ⟨'#', by decide, rfl, by decide⟩

include known plain in
theorem closer_not_infix_cutAttributes (closed : dialect.closer ≠ []) :
    ¬ dialect.closer <:+: cutAttributes name := by
  intro within
  obtain ⟨c, member, other, apart⟩ := exists_closer_apart known closed
  rcases List.mem_append.mp (within.subset member) with before | named
  · exact apart before
  · rw [(isNamePart_of_isPlainName plain).2 c named] at other
    cases other

theorem afterMark?_cutStart :
    afterMark? dialect startTag (cutStart dialect name) = some (cutAttributes name) := by
  refine (afterMark?_eq_some stem_prefix_startTag).mpr ⟨[' '], List.forall_mem_singleton.mpr rfl, ?_, ?_⟩
  · simp [cutStart]
  · rintro c ⟨⟩
    decide

include known plain in
theorem startMark?_cutStart :
    startMark? dialect (cutStart dialect name) =
      if dialect.closer.isEmpty then some (cutAttributes name, []) else none := by
  rw [startMark?, afterMark?_cutStart, Option.bind_some]
  split
  · have all : ∀ c ∈ cutAttributes name, (!isBreak c) = true := by
      intro c member
      rw [cutAttributes_line plain c member]
      rfl
    have taken : (cutAttributes name ++ []).takeWhile (fun c => !isBreak c) = _ :=
      takeWhile_append all (by simp)
    have dropped := dropWhile_eq_iff.mpr ⟨_, all, (List.append_nil _).symm, by simp⟩
    rw [List.append_nil] at taken
    rw [taken, dropped]
  · next unclosed =>
    have closed : dialect.closer ≠ [] := by simpa using unclosed
    by_contra found
    obtain ⟨⟨attributes, rest⟩, found⟩ := Option.ne_none_iff_exists'.mp found
    obtain ⟨back, split, _, ended, _⟩ := attributesUntil?_eq_some.mp found
    obtain ⟨gaps, _, rfl⟩ :=
      (afterCloser?_eq_some (Dialect.regular_of_standard known).closer_head closed).mp ended
    refine closer_not_infix_cutAttributes known plain closed ⟨attributes ++ gaps, rest, ?_⟩
    rw [split]
    simp only [List.append_assoc]

include known plain in
/-- The cut off start sentinel is found only where comments end with their line. -/
theorem marks_cutStart :
    marks dialect (cutStart dialect name) =
      if dialect.closer.isEmpty then [.start ⟨cutAttributes name, 0, (cutStart dialect name).length⟩]
      else [] := by
  have regular := Dialect.regular_of_standard known
  have plainLead := regular.lead_not_mem regular.leadStart
  have missed : endMark? dialect (cutStart dialect name) = none := by
    by_contra found
    obtain ⟨⟨_, _⟩, found⟩ := Option.ne_none_iff_exists'.mp found
    obtain ⟨⟨_, ended⟩, _⟩ := endMark?_split regular found
    exact afterMark?_exclusive afterMark?_cutStart ended
  have ends : endMarks dialect (cutStart dialect name) = [] :=
    locate_comment_eq_nil regular stem_prefix_endTag endMark?_tagged plainLead
      (List.cons_ne_nil _ _) missed (free_cutAttributes plain)
  have found := startMark?_cutStart known plain
  split at found
  · next unclosed =>
    have filled : cutStart dialect name ≠ [] := by
      rw [cutStart, List.append_assoc]
      exact List.append_ne_nil_of_left_ne_nil regular.opener_ne_nil _
    rw [if_pos unclosed, marks, ends, startMarks, locate_whole filled found]
    simp
  · next closed =>
    rw [if_neg closed]
    exact marks_eq_nil (locate_comment_eq_nil regular stem_prefix_startTag startMark?_tagged plainLead
      (List.cons_ne_nil _ _) found (free_cutAttributes plain)) ends

include plain in
/-- Attributes that are cut off behind a name are none: the quote before it is the only one. -/
theorem findAll_cutAttributes : findAll attribute? (cutAttributes name) = [] := by
  have none : name.count '"' = 0 := List.count_eq_zero.mpr (not_mem_of_isPlainName plain rfl)
  have one : (" factory=\"".toList).count '"' = 1 := by decide
  have quotes : (cutAttributes name).count '"' = 1 := (List.count_append ..).trans (by rw [one, none])
  by_contra some
  obtain ⟨⟨title, value⟩, listed⟩ := List.exists_mem_of_ne_nil _ some
  obtain ⟨front, used, rest, split, found⟩ := mem_findAll attribute?_consuming listed
  obtain ⟨_, form⟩ := attribute?_eq_some.mp found
  rw [split, form] at quotes
  simp only [List.count_append, List.count_cons_self, List.count_cons] at quotes
  omega

end CutStart

/-- What stands behind the line feed of a name, up to the line feed before the body. -/
def cutEnd (dialect : Dialect) : List Char :=
  '"' :: dialect.ending

/-- The text of a unit whose name has a line feed behind it. -/
theorem wrap_cut {generator : String} (cut : generator.toList = name ++ ['\n']) :
    dialect.wrap body generator none =
      cutStart dialect name ++ '\n' :: (cutEnd dialect ++ '\n' ::
        (dropRightWhile (· == '\n') body ++ '\n' :: dialect.finish)) := by
  have attributes : Dialect.attributesOf generator none = cutAttributes name ++ ['\n', '"'] := by
    have opened : " factory=\"".toList = ' ' :: ("factory".toList ++ ['=', '"']) := by decide
    change ' ' :: ("factory".toList ++ ['=', '"'] ++ generator.toList ++ ['"'] ++ []) =
      " factory=\"".toList ++ name ++ ['\n', '"']
    -- The words are made variables first, for the rewriting evaluates them letter by letter otherwise.
    generalize "factory".toList = word at opened ⊢
    generalize " factory=\"".toList = spaced at opened ⊢
    rw [opened, cut]
    simp only [List.append_assoc, List.cons_append, List.nil_append, List.append_nil]
  rw [Dialect.wrap, Dialect.start_eq, attributes, cutStart, cutEnd]
  simp only [List.append_assoc, List.cons_append, List.nil_append]

/-- The failure of reading a unit whose name has a line feed behind it. -/
theorem findSpans_wrap_cut (known : dialect ∈ Dialect.standard) {generator : String}
    (cut : generator.toList = name ++ ['\n']) (plain : isPlainName name = true) (free : Free body)
    (path : Option String) :
    ∃ breach, findSpans dialect path (dialect.wrap body generator none) =
      .error (.structural breach path) := by
  have regular := Dialect.regular_of_standard known
  have behind : Free (cutEnd dialect) := by
    refine free_of_at_not_mem fun member => ?_
    rcases List.mem_cons.mp member with impossible | member
    · cases impossible
    · exact regular.at_not_mem_ending member
  have inner := free_of_infix (dropRightWhile_prefix_self (· == '\n') body).isInfix free
  have marked := marks_append_line known (cutStart dialect name) (cutEnd dialect ++ '\n' ::
    (dropRightWhile (· == '\n') body ++ '\n' :: dialect.finish))
  rw [← wrap_cut cut, marks_append_line known, marks_append_line known, marks_of_free regular behind,
    marks_of_free regular inner, marks_finish regular, marks_cutStart known plain] at marked
  simp only [List.nil_append, List.map_cons, List.map_nil] at marked
  rw [findSpans, marked]
  split
  · refine ⟨.anonymousStart 0, ?_⟩
    have vacant (title : String) : attributeValue? title (cutAttributes name) = none := by
      rw [attributeValue?, findAll_cutAttributes plain]
      rfl
    simp only [List.cons_append, List.nil_append, Mark.moved, spansFrom, spanOf, vacant]
    rfl
  · exact ⟨_, rfl⟩

/-- What is written under a registered name makes one unit of that name, which is the whole text, exactly when
no line feed follows the name. When one does, its sentinels are broken. -/
theorem registered_name_found_iff (known : dialect ∈ Dialect.standard)
    (accepted : (registry.register generator).2 = .ok larger) (free : Free body) (path : Option String) :
    ((∃ span, findSpans dialect path (dialect.wrap body generator.name none) = .ok [span] ∧
        span.start = 0 ∧ span.finish = (dialect.wrap body generator.name none).length ∧
        span.generator = generator.name) ↔ '\n' ∉ generator.name.toList) ∧
      ('\n' ∈ generator.name.toList →
        (∃ name, generator.name.toList = name ++ ['\n'] ∧ isPlainName name = true) ∧
        ∃ breach, findSpans dialect path (dialect.wrap body generator.name none) =
          .error (.structural breach path)) := by
  rcases isPlainName_of_isName (isName_of_register accepted) with plain | ⟨name, cut, plain⟩
  · have absent := not_mem_of_isPlainName plain (c := '\n') rfl
    exact ⟨iff_of_true (findSpans_wrap_plain known plain free path) absent, fun member => absurd member absent⟩
  · have present : '\n' ∈ generator.name.toList := by simp [cut]
    obtain ⟨breach, failed⟩ := findSpans_wrap_cut known cut plain free path
    refine ⟨iff_of_false ?_ (not_not.mpr present), fun _ => ⟨⟨name, cut, plain⟩, breach, failed⟩⟩
    rintro ⟨span, found, _⟩
    rw [failed] at found
    cases found

/-- A generator that is registered under a name with a line feed behind it. -/
def noteLine : Generator where
  name := "note\n"
  description := "Note"
  recipe := .template "text".toList .null

/-- What is written under the name is not found again in a markup document. -/
theorem registered_name_lost_of_lineFeed :
    Registry.register {} noteLine = ([], .ok ⟨[noteLine]⟩) ∧ Free "text".toList ∧
      ∃ breach, findSpans .html none (Dialect.html.wrap "text".toList "note\n" none) =
        .error (.structural breach none) := by
  have accepted : Registry.register {} noteLine = ([], .ok ⟨[noteLine]⟩) := by
    have sound : Registry.check noteLine = ([], .ok ()) := by decide +kernel
    have named : Registry.isName noteLine.name.toList = true := by decide +kernel
    rw [Registry.register, named, sound]
    rfl
  have free : Free "text".toList := by decide
  have known : Dialect.html ∈ Dialect.standard := by decide
  have result : (Registry.register {} noteLine).2 = .ok ⟨[noteLine]⟩ := by rw [accepted]
  exact ⟨accepted, free, ((registered_name_found_iff known result free none).2 (by decide)).2⟩

end Scaffold.Registry
