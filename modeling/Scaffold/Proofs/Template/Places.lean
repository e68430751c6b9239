import Scaffold.Proofs.Sentinel.Locate
import Scaffold.Proofs.Template.PathTag
import Scaffold.Proofs.Template.ParamLine
import Scaffold.Proofs.Text.Lines

/-!
The places of placeholders. The analysis looks for them line by line. What it finds in a text, with the offsets
of it, are the placeholders that are recognised anywhere in a line of the text, in their order.
-/

namespace Scaffold.Template

open Text Sentinel

variable {text rest line : List Char} {name : String} {start offset : Nat}
  {block : ParamBlock}

/-! ### Scanners for placeholders -/

theorem Passed.length_le {more : List Char} (passed : Passed text more) : more.length ≤ text.length := by
  obtain ⟨used, _, rfl⟩ := passed
  simp

/-- A placeholder is two braces and something without another one. -/
theorem placeholder?_passed (found : placeholder? text = some (name, rest)) :
    ∃ middle, text = '{' :: '{' :: (middle ++ rest) ∧ '{' ∉ middle ∧ middle ≠ [] := by
  simp only [placeholder?, Option.bind_eq_bind, Option.bind_eq_some_iff, Prod.exists] at found
  obtain ⟨begun, opened, word, back, named, last, closed, same⟩ := found
  cases same
  obtain ⟨after, cut, rfl⟩ := Option.map_eq_some_iff.mp opened
  obtain rfl := afterPrefix?_eq_some.mp cut
  have opens : Passed after (trimLeft (dropOptional '-' after)) :=
    (passed_dropOptional (by decide) after).trans (passed_dropWhile rfl _)
  have closes : Passed back rest :=
    ((passed_dropWhile rfl back).trans (passed_dropOptional (by decide) _)).trans
      (passed_afterPrefix? (by decide) closed)
  obtain ⟨filled, _, split, _⟩ := word?_eq_some.mp named
  have shorter : rest.length < after.length := by
    have begins := opens.length_le
    have ends := closes.length_le
    have positive := List.length_pos_iff.mpr filled
    rw [split, List.length_append] at begins
    omega
  obtain ⟨middle, absent, rfl⟩ := (opens.trans (passed_word? named)).trans closes
  refine ⟨middle, rfl, absent, ?_⟩
  rintro rfl
  simp at shorter

theorem placeholder?_solid : Solid placeholder? := by
  intro before after rest name early beyond found
  obtain ⟨c, before, rfl⟩ := List.exists_cons_of_ne_nil early
  obtain ⟨d, after, rfl⟩ := List.exists_cons_of_ne_nil beyond
  obtain ⟨middle, split, absent, filled⟩ := placeholder?_passed found
  rw [List.cons_append, List.cons.injEq, ← List.append_assoc, ← List.cons_append] at split
  obtain ⟨_, split⟩ := split
  have split := List.append_cancel_right split
  by_contra other
  obtain ⟨⟨_, _⟩, inner⟩ := Option.ne_none_iff_exists'.mp other
  obtain ⟨_, begins, _⟩ := placeholder?_passed inner
  rw [List.cons_append, List.cons.injEq] at begins
  obtain ⟨rfl, begins⟩ := begins
  cases before with
  | nil =>
    obtain ⟨e, middle, rfl⟩ := List.exists_cons_of_ne_nil filled
    rw [List.nil_append, List.cons.injEq] at split
    rw [split.2, List.cons_append, List.cons.injEq] at begins
    exact absent (by simp [begins.1])
  | cons e before =>
    rw [List.cons_append, List.cons.injEq] at split
    exact absent (by simp [← split.2])

theorem suffix_dropOptional (c : Char) (text : List Char) : dropOptional c text <:+ text := by
  cases text with
  | nil => exact List.suffix_refl []
  | cons d text =>
    rw [dropOptional]
    split
    · exact List.suffix_cons d text
    · exact List.suffix_refl _

theorem suffix_afterPrefix? {front : List Char} (found : afterPrefix? front text = some rest) : rest <:+ text :=
  ⟨front, (afterPrefix?_eq_some.mp found).symm⟩

theorem suffix_afterClosing? {closing : List Char} (found : afterClosing? closing text = some rest) :
    rest <:+ text :=
  ((suffix_afterPrefix? found).trans (suffix_dropOptional '-' _)).trans (List.dropWhile_suffix isBlank)

/-- What is recognised behind opening braces is not empty. -/
theorem exists_used_of_afterOpening? {more : List Char} (opened : afterOpening? ['{', '{'] text = some more)
    (behind : rest <:+ more) : ∃ used, used ≠ [] ∧ text = used ++ rest := by
  obtain ⟨after, cut, rfl⟩ := Option.map_eq_some_iff.mp opened
  obtain rfl := afterPrefix?_eq_some.mp cut
  obtain ⟨used, split⟩ := (behind.trans (List.dropWhile_suffix isBlank)).trans (suffix_dropOptional '-' after)
  exact ⟨'{' :: '{' :: used, List.cons_ne_nil _ _, by rw [← split]; rfl⟩

theorem consuming_fieldReference? (item : String) : Consuming (fieldReference? item) := by
  intro text field rest found
  simp only [fieldReference?, Option.bind_eq_bind, Option.bind_eq_some_iff, Prod.exists] at found
  obtain ⟨begun, opened, after, dotted, word, back, named, last, closed, same⟩ := found
  cases same
  have behind : back <:+ after := by
    obtain ⟨_, _, split, _⟩ := word?_eq_some.mp named
    exact ⟨_, split.symm⟩
  exact exists_used_of_afterOpening? opened
    ((suffix_afterClosing? closed).trans (behind.trans (suffix_afterPrefix? dotted)))

theorem consuming_itemReference? (item : String) : Consuming (itemReference? item) := by
  intro text value rest found
  simp only [itemReference?, Option.bind_eq_bind, Option.bind_eq_some_iff] at found
  obtain ⟨begun, opened, after, named, last, closed, same⟩ := found
  cases same
  exact exists_used_of_afterOpening? opened ((suffix_afterClosing? closed).trans (suffix_afterPrefix? named))

/-! ### Placeholders line by line -/

/-- The placeholders of a line that begins at an offset, as blocks with their offsets. -/
def placedInLine (start : Nat) (line : List Char) : List (Nat × ParamBlock) :=
  (locate placeholder? line).map fun place =>
    (start + place.start, ⟨place.value, trim line, ParamLine.lineKind (trim line)⟩)

/-- The placeholders of lines behind an offset. -/
def placedInLines (start : Nat) : List (List Char) → List (Nat × ParamBlock)
  | [] => []
  | line :: rest => placedInLine start line ++ placedInLines (start + line.length + 1) rest

/-- The placeholders in the lines of a text that begins at an offset. -/
def placedParams (start : Nat) (text : List Char) : List (Nat × ParamBlock) :=
  placedInLines start (lines text)

/-- A line of a text that begins at an offset holds a placeholder at an offset; its block has the trimmed
line. -/
def ShownAt (text : List Char) (start offset : Nat) (block : ParamBlock) : Prop :=
  ∃ place line found, LineAt text place line ∧ Located.At found placeholder? line ∧
    offset = start + place + found.start ∧
    block = ⟨found.value, trim line, ParamLine.lineKind (trim line)⟩

theorem placedParams_of_absent (absent : '\n' ∉ line) (start : Nat) :
    placedParams start line = placedInLine start line := by
  rw [placedParams, lines, splitOn_of_absent absent, placedInLines, placedInLines, List.append_nil]

theorem placedParams_append_cons (absent : '\n' ∉ line) (start : Nat) (rest : List Char) :
    placedParams start (line ++ '\n' :: rest) =
      placedInLine start line ++ placedParams (start + line.length + 1) rest := by
  rw [placedParams, lines, splitOn_append_cons absent, placedInLines]
  rfl

theorem placedInLine_blocks (start : Nat) (line : List Char) :
    (placedInLine start line).map Prod.snd = lineParams line := by
  rw [placedInLine, List.map_map, lineParams, ← locate_values, List.map_map]
  rfl

theorem placedParams_blocks (start : Nat) (text : List Char) :
    (placedParams start text).map Prod.snd = textParams text := by
  induction text using line_induction generalizing start with
  | last row absent =>
    rw [placedParams_of_absent absent, placedInLine_blocks, textParams, lines, splitOn_of_absent absent,
      List.flatMap_singleton]
  | line row rest absent ih =>
    rw [placedParams_append_cons absent, List.map_append, placedInLine_blocks, ih]
    simp only [textParams, lines, splitOn_append_cons absent, List.flatMap_cons]

theorem mem_placedInLine : (offset, block) ∈ placedInLine start line ↔
    ∃ found, Located.At found placeholder? line ∧ offset = start + found.start ∧
      block = ⟨found.value, trim line, ParamLine.lineKind (trim line)⟩ := by
  rw [placedInLine, List.mem_map]
  refine exists_congr fun found => ?_
  rw [mem_locate_iff Extract.placeholder?_consuming placeholder?_solid, Prod.mk.injEq, eq_comm (a := offset),
    eq_comm (a := block)]

theorem mem_placedParams : (offset, block) ∈ placedParams start text ↔ ShownAt text start offset block := by
  induction text using line_induction generalizing start with
  | last row absent =>
    rw [placedParams_of_absent absent, mem_placedInLine]
    constructor
    · rintro ⟨found, at_, rfl, rfl⟩
      exact ⟨0, row, found, (lineAt_iff_of_absent absent).mpr ⟨rfl, rfl⟩, at_, rfl, rfl⟩
    · rintro ⟨place, line, found, within, at_, rfl, rfl⟩
      obtain ⟨rfl, rfl⟩ := (lineAt_iff_of_absent absent).mp within
      exact ⟨found, at_, rfl, rfl⟩
  | line row rest absent ih =>
    rw [placedParams_append_cons absent, List.mem_append, mem_placedInLine, ih]
    constructor
    · rintro (⟨found, at_, rfl, rfl⟩ | ⟨place, line, found, within, at_, rfl, rfl⟩)
      · exact ⟨0, row, found, (lineAt_append_cons absent).mpr (.inl ⟨rfl, rfl⟩), at_, rfl, rfl⟩
      · exact ⟨row.length + 1 + place, line, found, (lineAt_append_cons absent).mpr (.inr ⟨place, rfl, within⟩),
          at_, by omega, rfl⟩
    · rintro ⟨place, line, found, within, at_, rfl, rfl⟩
      rcases (lineAt_append_cons absent).mp within with ⟨rfl, rfl⟩ | ⟨later, rfl, behind⟩
      · exact .inl ⟨found, at_, rfl, rfl⟩
      · exact .inr ⟨later, line, found, behind, at_, by omega, rfl⟩

/-- What is listed with offsets begins at an offset and is over before another one, in its order. -/
structure Ordered {α : Type} (start finish : Nat) (placed : List (Nat × α)) : Prop where
  bounds : ∀ entry ∈ placed, start ≤ entry.1 ∧ entry.1 < finish
  ascending : placed.Pairwise fun first second => first.1 < second.1

theorem Ordered.single {α : Type} {start finish : Nat} (inside : start < finish) (value : α) :
    Ordered start finish [(start, value)] where
  bounds := by
    rw [List.forall_mem_singleton]
    exact ⟨Nat.le_refl _, inside⟩
  ascending := List.pairwise_singleton _ _

theorem Ordered.append {α : Type} {start middle finish : Nat} {first second : List (Nat × α)}
    (one : Ordered start middle first) (other : Ordered middle finish second) (start_le : start ≤ middle)
    (le_finish : middle ≤ finish) : Ordered start finish (first ++ second) where
  bounds := by
    refine List.forall_mem_append.mpr ⟨fun entry member => ?_, fun entry member => ?_⟩
    · have bounds := one.bounds entry member
      omega
    · have bounds := other.bounds entry member
      omega
  ascending := by
    refine List.pairwise_append.mpr ⟨one.ascending, other.ascending, fun entry member later member' => ?_⟩
    have before := one.bounds entry member
    have behind := other.bounds later member'
    omega

theorem Ordered.mono {α : Type} {start middle finish : Nat} {placed : List (Nat × α)}
    (ordered : Ordered start middle placed) (le_finish : middle ≤ finish) : Ordered start finish placed where
  bounds entry member := by
    have bounds := ordered.bounds entry member
    omega
  ascending := ordered.ascending

theorem Ordered.map {α β : Type} {start finish : Nat} {placed : List (Nat × α)} (f : α → β)
    (ordered : Ordered start finish placed) : Ordered start finish (placed.map (Prod.map id f)) where
  bounds := List.forall_mem_map.mpr ordered.bounds
  ascending := List.pairwise_map.mpr ordered.ascending

theorem placedInLine_ordered (start : Nat) (line : List Char) :
    Ordered start (start + line.length) (placedInLine start line) where
  bounds := by
    refine List.forall_mem_map.mpr fun place member => ?_
    have inside := (locate_at Extract.placeholder?_consuming line place member).start_lt_length
    exact ⟨Nat.le_add_right _ _, Nat.add_lt_add_left inside _⟩
  ascending := by
    refine List.pairwise_map.mpr ((locate_pairwise Extract.placeholder?_consuming line).imp_of_mem ?_)
    intro first second member _ apart
    have filled := (locate_at Extract.placeholder?_consuming line first member).start_lt
    exact Nat.add_lt_add_left (Nat.lt_of_lt_of_le filled apart) _

theorem placedParams_ordered (start : Nat) (text : List Char) :
    Ordered start (start + text.length) (placedParams start text) := by
  induction text using line_induction generalizing start with
  | last row absent =>
    rw [placedParams_of_absent absent]
    exact placedInLine_ordered start row
  | line row rest absent ih =>
    rw [placedParams_append_cons absent, List.length_append, List.length_cons]
    have here := (placedInLine_ordered start row).mono (Nat.le_succ _)
    have later := ih (start + row.length + 1)
    have ends : start + row.length + 1 + rest.length = start + (row.length + (rest.length + 1)) := by omega
    rw [ends] at later
    exact here.append later (by omega) (by omega)

end Scaffold.Template
