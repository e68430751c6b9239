import Scaffold.Proofs.Pattern.Language
import Scaffold.Proofs.Pattern.Notation

/-!
The written forms of patterns. What is written for a pattern is read as a regular expression for the
texts that the pattern fits: characters that stand for themselves are read as such, classes as the sets
that they are, and the parts of a pattern as the parts of the expression.
-/

namespace Scaffold

open Text Notation

/-- The members of a class. -/
def CharClass.set : CharClass → CharSet
  | .nameStart => ⟨false, [.range 'A' 'Z', .range 'a' 'z', .char '_', .char '$']⟩
  | .namePart => ⟨false, [.range 'A' 'Z', .range 'a' 'z', .range '0' '9', .char '_', .char '$']⟩
  | .unquoted => ⟨true, [.char '\'', .char '"', .char '\n']⟩
  | .digit => ⟨false, [.digit]⟩
  | .minus => ⟨false, [.char '-']⟩
  | .blank => ⟨false, [.blank]⟩
  | .solid => ⟨false, [.solid]⟩
  | .bare => ⟨true, [.char ';', .char ',', .char ')', .blank]⟩
  | .word => ⟨false, [.word]⟩
  | .braceless => ⟨true, [.char '{', .char '}']⟩
  | .inLine => ⟨true, [.char '\n']⟩

theorem isAlpha_eq (c : Char) : c.isAlpha =
    (('A' ≤ c && c ≤ 'Z') || ('a' ≤ c && c ≤ 'z')) := by
  change (decide (c.val ≥ 'A'.val ∧ c.val ≤ 'Z'.val) || (c.val ≥ 'a'.val && c.val ≤ 'z'.val)) = _
  rw [Bool.decide_and]
  rfl

theorem CharClass.holds_set (kind : CharClass) (c : Char) : kind.set.holds c = kind.holds c := by
  cases kind with
  | nameStart | namePart =>
    simp [set, CharSet.holds, Member.holds, holds, isAlpha_eq, Char.isAlphanum, Char.isDigit, Char.le_def,
      Bool.or_assoc]
  | bare =>
    simp only [set, CharSet.holds, Member.holds, holds, List.any_cons, List.any_nil, bne]
    grind
  | unquoted | digit | minus | blank | solid | word | braceless | inLine =>
    simp [set, CharSet.holds, Member.holds, holds, bne, Bool.and_assoc]

theorem CharClass.forall_holds_set (kind : CharClass) (text : List Char) :
    (∀ c ∈ text, kind.set.holds c = true) ↔ ∀ c ∈ text, kind.holds c = true := by
  simp only [holds_set]

namespace Pattern

variable {pattern first second body : Pattern} {text : List Char} {names : List String}
  {outside : List (Option String × Rows)} {rows : Rows}

/-- The alternatives of a pattern, as they are read off its written form. -/
def written : Pattern → Rows
  | empty => .none
  | char c => ⟨[], [.char c]⟩
  | one kind => ⟨[], [.one kind.set]⟩
  | many kind => ⟨[], [.repeated .many false (.one kind.set)]⟩
  | any kind => ⟨[], [.repeated .any false (.one kind.set)]⟩
  | few kind => ⟨[], [.repeated .any true (.one kind.set)]⟩
  | optional body => ⟨[], body.written.row.map (.repeated .optional false)⟩
  | append first second => ⟨[], first.written.row ++ second.written.row⟩
  | either first second =>
    ⟨first.written.complete ++ first.written.row :: second.written.complete, second.written.row⟩
  | group body => ⟨[], [.group none body.written.regex]⟩
  | capture name body => ⟨[], [.group (some name) body.written.regex]⟩
  | again _ => .none

/-- A pattern is a choice that no group encloses. -/
def isChoice : Pattern → Bool
  | either _ _ => true
  | _ => false

/-- A pattern can have a sign for a quantity behind it. -/
def isUnit : Pattern → Bool
  | char _ | one _ | group _ | capture _ _ => true
  | _ => false

/-- The written form of a pattern shows its parts: a choice among other parts is enclosed by a group, what
is optional can have a sign behind it, and nothing is a reference. -/
def isLegible : Pattern → Bool
  | optional body => body.isUnit && body.isLegible
  | append first second =>
    (!first.isChoice && !second.isChoice) && (first.isLegible && second.isLegible)
  | either first second => first.isLegible && second.isLegible
  | group body | capture _ body => body.isLegible
  | again _ => false
  | empty | char _ | one _ | many _ | any _ | few _ => true

theorem isFree_of_isLegible (legible : pattern.isLegible = true) : pattern.isFree = true := by
  induction pattern with
  | optional body ih => exact ih (Bool.and_eq_true_iff.mp legible).2
  | append first second ih ih' =>
    obtain ⟨legible, legible'⟩ := Bool.and_eq_true_iff.mp (Bool.and_eq_true_iff.mp legible).2
    exact Bool.and_eq_true_iff.mpr ⟨ih legible, ih' legible'⟩
  | either first second ih ih' =>
    obtain ⟨legible, legible'⟩ := Bool.and_eq_true_iff.mp legible
    exact Bool.and_eq_true_iff.mpr ⟨ih legible, ih' legible'⟩
  | group body ih => exact ih legible
  | capture name body ih => exact ih legible
  | again => cases legible
  | empty | char | one | many | any | few => rfl

theorem written_of_not_isChoice (single : pattern.isChoice = false) :
    ∃ row, pattern.written = ⟨[], row⟩ := by
  cases pattern with
  | either => cases single
  | _ => exact ⟨_, rfl⟩

theorem written_of_isUnit (unit : pattern.isUnit = true) :
    ∃ part, pattern.written = ⟨[], [part]⟩ ∧
      part.questioned? = some (.repeated .optional false part) := by
  cases pattern with
  | char | one | group | capture => exact ⟨_, rfl, rfl⟩
  | _ => cases unit

/-- What is optional is one part that a question mark can stand behind. -/
theorem legible_optional (legible : (optional body).isLegible = true) :
    body.isLegible = true ∧ ∃ part, body.written = ⟨[], [part]⟩ ∧
      part.questioned? = some (.repeated .optional false part) := by
  obtain ⟨unit, legible⟩ := Bool.and_eq_true_iff.mp legible
  exact ⟨legible, written_of_isUnit unit⟩

/-- Of two patterns one after the other each is written in one row. -/
theorem legible_append (legible : (append first second).isLegible = true) :
    (first.isLegible = true ∧ second.isLegible = true) ∧
      ∃ row row', first.written = ⟨[], row⟩ ∧ second.written = ⟨[], row'⟩ := by
  obtain ⟨single, legible⟩ := Bool.and_eq_true_iff.mp legible
  obtain ⟨single, single'⟩ := Bool.and_eq_true_iff.mp single
  obtain ⟨row, form⟩ := written_of_not_isChoice (Bool.not_eq_true' _ ▸ single)
  obtain ⟨row', form'⟩ := written_of_not_isChoice (Bool.not_eq_true' _ ▸ single')
  exact ⟨Bool.and_eq_true_iff.mp legible, row, row', form, form'⟩

/-! ### Reading what is written -/

theorem foldlM_class (kind : CharClass) :
    kind.source.foldlM Reading.step ⟨names, outside, rows, .plain⟩ =
      some ⟨names, outside, rows.push (.one kind.set), .plain⟩ := by
  cases kind <;> rfl

theorem escapedMember?_special : ∀ c ∈ specials, escapedMember? c = some (.char c) := by
  have meant : specials.all (fun c => escapedMember? c == some (.char c)) = true := by decide
  exact fun c special => eq_of_beq (List.all_eq_true.mp meant c special)

/-- Every character that stands for itself is read as such. -/
theorem foldlM_escapedChar (c : Char) :
    (escapedChar c).foldlM Reading.step ⟨names, outside, rows, .plain⟩ =
      some ⟨names, outside, rows.push (.char c), .plain⟩ := by
  rw [escapedChar]
  split
  · next special =>
    have meant := escapedMember?_special c (List.contains_iff_mem.mp special)
    change (escapedMember? c).map _ >>= _ = _
    rw [meant]
    rfl
  · next plain =>
    have other : ∀ sign, specials.contains sign = true → c ≠ sign := by
      rintro sign special rfl
      exact plain special
    have alone : Reading.sign? ⟨names, outside, rows, .plain⟩ c =
        some ⟨names, outside, rows.push (.char c), .plain⟩ := by
      simp only [Reading.sign?, other '\\' rfl, other '[' rfl, other '(' rfl, other ')' rfl, other '|' rfl,
        other '*' rfl, other '+' rfl, other '?' rfl, other '.' rfl, other '^' rfl, other '$' rfl,
        other '{' rfl, other '}' rfl, other ']' rfl, if_false, or_self, Reading.push]
    exact (congrArg (· >>= pure) alone :)

/-- A sign that is read on its own. -/
theorem foldlM_concat {source : List Char} {reading reading' : Reading}
    (read : source.foldlM Reading.step reading = some reading') (c : Char) :
    (source ++ [c]).foldlM Reading.step reading = reading'.step c := by
  rw [List.foldlM_append, read]
  exact bind_pure (reading'.step c)

theorem absent_of_isIdentifier {letters : List Char} (proper : isIdentifier letters = true) :
    '>' ∉ letters := by
  cases letters with
  | nil => cases proper
  | cons c letters =>
    obtain ⟨begins, goesOn⟩ := Bool.and_eq_true_iff.mp proper
    rw [List.mem_cons, not_or]
    constructor
    · rintro rfl
      cases begins
    · intro member
      cases List.all_eq_true.mp goesOn '>' member

/-- The beginning of a named group opens it. -/
theorem foldlM_name {name : String} (proper : isIdentifier name.toList = true) (new : name ∉ names) :
    ("(?P<".toList ++ name.toList ++ ['>']).foldlM Reading.step ⟨names, outside, rows, .plain⟩ =
      some ⟨names ++ [name], (some name, rows) :: outside, .none, .plain⟩ := by
  have letters : ("(?P<".toList ++ name.toList).foldlM Reading.step ⟨names, outside, rows, .plain⟩ =
      some ⟨names, outside, rows, .name name.toList⟩ := by
    rw [List.foldlM_append]
    exact foldlM_letters (absent_of_isIdentifier proper) []
  rw [foldlM_concat letters]
  change Reading.nameGroup? _ _ = _
  simp [Reading.nameGroup?, proper, new, Reading.openGroup]

/-- A text is read as alternatives and as groups of some names, whatever has been read before it. -/
def ReadsAs (source : List Char) (groups : List String) (form : Rows) : Prop :=
  ∀ names outside rows, (names ++ groups).Nodup →
    source.foldlM Reading.step ⟨names, outside, rows, .plain⟩ =
      some ⟨names ++ groups, outside, rows.add form, .plain⟩

namespace ReadsAs

variable {source source' : List Char} {groups groups' : List String} {form form' : Rows}
  {part part' : Regex} {row row' : List Regex} {name : String}

theorem nil : ReadsAs [] [] .none := by
  intro names outside rows _
  rw [List.append_nil, Rows.add_none]
  rfl

theorem single (read : ∀ names outside rows, source.foldlM Reading.step ⟨names, outside, rows, .plain⟩ =
    some ⟨names, outside, rows.push part, .plain⟩) : ReadsAs source [] ⟨[], [part]⟩ := by
  intro names outside rows _
  rw [List.append_nil]
  exact read names outside rows

theorem one (kind : CharClass) : ReadsAs kind.source [] ⟨[], [.one kind.set]⟩ :=
  single fun _ _ _ => foldlM_class kind

theorem change (read : ReadsAs source groups ⟨[], [part]⟩) {c : Char} {change : Regex → Option Regex}
    (sign : ∀ names outside rows, Reading.step ⟨names, outside, rows, .plain⟩ c =
      Reading.change? ⟨names, outside, rows, .plain⟩ change)
    (changed : change part = some part') : ReadsAs (source ++ [c]) groups ⟨[], [part']⟩ := by
  intro names outside rows new
  rw [foldlM_concat (read names outside rows new), sign]
  change Reading.change? ⟨_, _, rows.push part, .plain⟩ change = _
  rw [change?_push, changed]
  rfl

theorem append (read : ReadsAs source groups ⟨[], row⟩) (read' : ReadsAs source' groups' ⟨[], row'⟩) :
    ReadsAs (source ++ source') (groups ++ groups') ⟨[], row ++ row'⟩ := by
  intro names outside rows new
  rw [← List.append_assoc] at new
  rw [List.foldlM_append, read names outside rows (List.nodup_append.mp new).1, Option.bind_eq_bind,
    Option.bind_some, read' _ outside _ new, List.append_assoc, Rows.add_row]

theorem either (read : ReadsAs source groups form) (read' : ReadsAs source' groups' form') :
    ReadsAs (source ++ ['|'] ++ source') (groups ++ groups')
      ⟨form.complete ++ form.row :: form'.complete, form'.row⟩ := by
  intro names outside rows new
  rw [← List.append_assoc] at new
  rw [List.foldlM_append, foldlM_concat (read names outside rows (List.nodup_append.mp new).1)]
  change List.foldlM _ (Reading.mk _ _ ⟨_, _⟩ _) _ = _
  rw [read' _ outside _ new, Rows.add_bar, List.append_assoc]

/-- A group starts with no alternatives of its own, and is one part of what stands around it. -/
theorem group (read : ReadsAs source groups form) :
    ReadsAs ("(?:".toList ++ source ++ [')']) groups ⟨[], [.group none form.regex]⟩ := by
  intro names outside rows new
  have inside : ("(?:".toList ++ source).foldlM Reading.step ⟨names, outside, rows, .plain⟩ =
      some ⟨names ++ groups, (none, rows) :: outside, form, .plain⟩ := by
    rw [List.foldlM_append, ← Rows.none_add form]
    exact read names _ .none new
  exact foldlM_concat inside ')'

theorem capture (read : ReadsAs source groups form) (proper : isIdentifier name.toList = true) :
    ReadsAs ("(?P<".toList ++ name.toList ++ ['>'] ++ source ++ [')']) (name :: groups)
      ⟨[], [.group (some name) form.regex]⟩ := by
  intro names outside rows new
  rw [List.append_cons] at new
  have fresh : name ∉ names := by
    have apart := (List.nodup_append.mp (List.nodup_append.mp new).1).2.2
    exact fun member => apart name member name List.mem_cons_self rfl
  have inside : ("(?P<".toList ++ name.toList ++ ['>'] ++ source).foldlM Reading.step
      ⟨names, outside, rows, .plain⟩ =
      some ⟨names ++ [name] ++ groups, (some name, rows) :: outside, form, .plain⟩ := by
    rw [List.foldlM_append, foldlM_name proper fresh, ← Rows.none_add form]
    exact read _ _ .none new
  rw [List.append_cons names name groups]
  exact foldlM_concat inside ')'

end ReadsAs

/-- What is written for a pattern is read as its alternatives, wherever it stands. -/
theorem readsAs_source (legible : pattern.isLegible = true) (proper : pattern.isWellFormed = true) :
    ReadsAs pattern.source pattern.names pattern.written := by
  induction pattern with
  | empty => exact .nil
  | char c => exact .single fun _ _ _ => foldlM_escapedChar c
  | one kind => exact .one kind
  | many kind => exact (ReadsAs.one kind).change (fun _ _ _ => rfl) rfl
  | any kind => exact (ReadsAs.one kind).change (fun _ _ _ => rfl) rfl
  | few kind =>
    -- The question mark is a sign behind a sign: it makes the star lazy.
    have starred : ReadsAs (kind.source ++ ['*']) [] ⟨[], [.repeated .any false (.one kind.set)]⟩ :=
      (ReadsAs.one kind).change (fun _ _ _ => rfl) rfl
    rw [source, List.append_cons]
    exact starred.change (fun _ _ _ => rfl) rfl
  | optional body ih =>
    obtain ⟨legible, part, form, questioned⟩ := legible_optional legible
    have inside := ih legible proper
    rw [form] at inside
    rw [written, form]
    exact inside.change (fun _ _ _ => rfl) questioned
  | append first second ih ih' =>
    obtain ⟨⟨legible, legible'⟩, row, row', form, form'⟩ := legible_append legible
    rw [isWellFormed, Pattern.names, List.all_append, Bool.and_eq_true] at proper
    rw [written, form, form']
    exact (form ▸ ih legible proper.1).append (form' ▸ ih' legible' proper.2)
  | either first second ih ih' =>
    obtain ⟨legible, legible'⟩ := Bool.and_eq_true_iff.mp legible
    rw [isWellFormed, Pattern.names, List.all_append, Bool.and_eq_true] at proper
    exact (ih legible proper.1).either (ih' legible' proper.2)
  | group body ih => exact (ih legible proper).group
  | capture name body ih =>
    rw [isWellFormed, Pattern.names, List.all_cons, Bool.and_eq_true] at proper
    exact (ih legible proper.2).capture proper.1
  | again name => cases legible

theorem read?_source (legible : pattern.isLegible = true) (proper : pattern.isWellFormed = true)
    (distinct : pattern.names.Nodup) : read? pattern.source = some pattern.written.regex := by
  have read : pattern.source.foldlM Reading.step .start =
      some ⟨pattern.names, [], Rows.none.add pattern.written, .plain⟩ :=
    readsAs_source legible proper [] [] .none distinct
  rw [read?, read, Rows.none_add]
  rfl

/-! ### Languages -/

theorem regex_of_row (row : List Regex) : Rows.regex ⟨[], row⟩ = .sequence row :=
  rfl

/-- The expression that is read for a pattern matches the texts that the pattern fits. -/
theorem matches_written (legible : pattern.isLegible = true) :
    pattern.written.regex.Matches text ↔ pattern.fits text = true := by
  induction pattern generalizing text with
  | empty => exact fits_empty.symm
  | char c =>
    rw [written, regex_of_row, Regex.matches_sequence_singleton, Regex.matches_char, fits_char]
  | one kind =>
    rw [written, regex_of_row, Regex.matches_sequence_singleton, fits_one]
    simp only [Regex.Matches, CharClass.holds_set]
  | many kind =>
    rw [written, regex_of_row, Regex.matches_sequence_singleton, Regex.matches_repeated_one, fits_many,
      CharClass.forall_holds_set, and_comm]
    exact and_congr_left' List.length_pos_iff
  | any kind =>
    rw [written, regex_of_row, Regex.matches_sequence_singleton, Regex.matches_repeated_one, fits_any,
      CharClass.forall_holds_set]
    exact and_iff_left trivial
  | few kind =>
    rw [written, regex_of_row, Regex.matches_sequence_singleton, Regex.matches_repeated_one, fits_few,
      CharClass.forall_holds_set]
    exact and_iff_left trivial
  | optional body ih =>
    obtain ⟨legible, part, form, _⟩ := legible_optional legible
    have inside : body.written.regex.Matches text ↔ body.fits text = true := ih legible
    rw [form, regex_of_row, Regex.matches_sequence_singleton] at inside
    rw [written, form, regex_of_row, List.map_singleton, Regex.matches_sequence_singleton,
      Regex.matches_optional, fits_optional]
    exact or_congr_left inside
  | append first second ih ih' =>
    have free := isFree_of_isLegible legible
    obtain ⟨⟨legible, legible'⟩, row, row', form, form'⟩ := legible_append legible
    rw [form] at ih
    rw [form'] at ih'
    rw [written, form, form', regex_of_row, Regex.matches_sequence_append,
      fits_append (Bool.and_eq_true_iff.mp free).2]
    simp only [← ih legible, ← ih' legible', regex_of_row]
  | either first second ih ih' =>
    obtain ⟨legible, legible'⟩ := Bool.and_eq_true_iff.mp legible
    have one : first.written.regex.Matches text ↔ first.fits text = true := ih legible
    have other : second.written.regex.Matches text ↔ second.fits text = true := ih' legible'
    rw [fits_either, ← one, ← other, Rows.matches_regex, Rows.matches_regex, Rows.matches_regex, written]
    simp only [List.mem_append, List.mem_cons, or_and_right, exists_or, exists_eq_left, or_assoc]
  | group body ih =>
    rw [written, regex_of_row, Regex.matches_sequence_singleton, fits_group]
    exact ih legible
  | capture name body ih =>
    rw [written, regex_of_row, Regex.matches_sequence_singleton, fits_capture]
    exact ih legible
  | again name => cases legible

/-- What is written for a pattern is a regular expression for the texts that the pattern fits. -/
theorem exists_read?_source (legible : pattern.isLegible = true) (proper : pattern.isWellFormed = true)
    (distinct : pattern.names.Nodup) :
    ∃ regex, read? pattern.source = some regex ∧
      ∀ text, regex.Matches text ↔ pattern.fits text = true :=
  ⟨_, read?_source legible proper distinct, fun _ => matches_written legible⟩

end Pattern

end Scaffold
