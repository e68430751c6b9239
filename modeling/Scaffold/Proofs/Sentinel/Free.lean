import Scaffold.Proofs.Sentinel.Marks

/-!
Texts without marks. No sentinel begins in them, so that they are skipped when sentinels are looked
for, and neither does one begin inside a sentinel of the other kind.
-/

namespace Scaffold.Sentinel

open Text

variable {dialect : Dialect} {tag front back : List Char}

/-- A text holds nothing that a mark begins with. -/
def Free (text : List Char) : Prop :=
  ¬ stem <:+: text

instance (text : List Char) : Decidable (Free text) :=
  inferInstanceAs (Decidable ¬ stem <:+: text)

theorem free_nil : Free [] := by
  decide

theorem free_append_cons {c : Char} (apart : c ∉ stem) :
    Free (front ++ c :: back) ↔ Free front ∧ Free back := by
  rw [Free, infix_append_cons apart, not_or]
  rfl

/-- No mark begins in a text without the first character of marks. -/
theorem free_append {part : List Char} (absent : '@' ∉ part) (free : Free front) :
    Free (part ++ front) := by
  rintro ⟨before, after, split⟩
  rw [List.append_assoc] at split
  obtain ⟨more, rfl⟩ := append_cons_split absent
    (show before ++ '@' :: ("codefactory:".toList ++ after) = part ++ front from split)
  rw [List.append_assoc] at split
  exact free ⟨more, after, by rw [List.append_assoc]; exact List.append_cancel_left split⟩

theorem free_of_infix {part : List Char} (within : part <:+: front) (free : Free front) : Free part :=
  fun inside => free (inside.trans within)

/-- No sentinel begins in a text without marks that is the last one or is followed by a comment. -/
theorem afterMark?_free (regular : dialect.Regular) (marked : stem <+: tag) (free : Free front)
    (follows : back = [] ∨ dialect.opener <+: back) (before after : List Char)
    (split : front = before ++ after) (filled : after ≠ []) :
    afterMark? dialect tag (after ++ back) = none := by
  by_contra found
  obtain ⟨rest, found⟩ := Option.ne_none_iff_exists'.mp found
  obtain ⟨gaps, all, form, _⟩ := (afterMark?_eq_some marked).mp found
  obtain ⟨more, rfl⟩ := marked
  apply free
  rw [split]
  rcases follows with rfl | ⟨behind, rfl⟩
  · rw [List.append_nil] at form
    refine ⟨before ++ (dialect.opener ++ gaps), more ++ rest, ?_⟩
    rw [form]
    simp only [List.append_assoc]
  · have plain : dialect.lead ∉ gaps ++ stem := by
      rw [List.mem_append]
      rintro (member | member)
      · have gap := all _ member
        rw [regular.leadGap] at gap
        cases gap
      · exact regular.leadStart (stem_prefix_startTag.subset member)
    have same : dialect.opener ++ (gaps ++ stem) ++ (more ++ rest) =
        after ++ (dialect.opener ++ behind) := by
      rw [form]
      simp only [List.append_assoc]
    obtain ⟨middle, reach, _⟩ := regular.opener_apart plain
      (List.append_ne_nil_of_right_ne_nil _ (by decide)) filled same
    refine ⟨before ++ (dialect.opener ++ gaps), middle, ?_⟩
    rw [reach]
    simp only [List.append_assoc]

section Scanning

variable {α : Type} {scan : Scan α} {offset : Nat}

/-- A scanner recognises nothing where no comment with a mark begins. -/
def Tagged (dialect : Dialect) (tag : List Char) (scan : Scan α) : Prop :=
  ∀ text, afterMark? dialect tag text = none → scan text = none

theorem startMark?_tagged : Tagged dialect startTag (startMark? dialect) := by
  intro text missed
  rw [startMark?, missed]
  rfl

theorem endMark?_tagged : Tagged dialect endTag (endMark? dialect) := by
  intro text missed
  rw [endMark?, missed]
  rfl

/-- A text without marks is passed over. -/
theorem locatedFrom_free (regular : dialect.Regular) (marked : stem <+: tag)
    (tagged : Tagged dialect tag scan) (free : Free front)
    (follows : back = [] ∨ dialect.opener <+: back) :
    locatedFrom offset (pieces scan (front ++ back)) =
      locatedFrom (offset + front.length) (pieces scan back) := by
  rw [pieces_append_of_none, locatedFrom_map_char]
  intro before after split filled
  exact tagged _ (afterMark?_free regular marked free follows before after split filled)

theorem locatedFrom_eq_nil (regular : dialect.Regular) (marked : stem <+: tag)
    (tagged : Tagged dialect tag scan) (free : Free front) :
    locatedFrom offset (pieces scan front) = [] := by
  rw [← List.append_nil front, locatedFrom_free regular marked tagged free (.inl rfl)]
  rfl

/-- Nothing is found at the beginning of a sentinel of the other kind. -/
theorem locatedFrom_comment (regular : dialect.Regular) (marked : stem <+: tag)
    (tagged : Tagged dialect tag scan) {core rest : List Char} (plain : dialect.lead ∉ core)
    (filled : core ≠ []) (missed : scan (dialect.opener ++ core ++ rest) = none) :
    locatedFrom offset (pieces scan (dialect.opener ++ core ++ rest)) =
      locatedFrom (offset + (dialect.opener ++ core).length) (pieces scan rest) := by
  rw [pieces_append_of_none, locatedFrom_map_char]
  intro before after split nonempty
  cases before with
  | nil =>
    rw [List.nil_append] at split
    rw [← split]
    exact missed
  | cons c before =>
    apply tagged
    by_contra found
    obtain ⟨more, found⟩ := Option.ne_none_iff_exists'.mp found
    obtain ⟨gaps, _, form, _⟩ := (afterMark?_eq_some marked).mp found
    have same : dialect.opener ++ core ++ rest =
        c :: before ++ (dialect.opener ++ (gaps ++ (tag ++ more))) := by
      rw [split, List.append_assoc, form]
    obtain ⟨middle, reach, _⟩ :=
      regular.opener_apart plain filled (List.cons_ne_nil c before) same
    have lengths := congrArg List.length reach
    have total := congrArg List.length split
    have positive := List.length_pos_iff.mpr nonempty
    simp only [List.length_append] at lengths total
    omega

theorem locatedFrom_found {used rest : List Char} {value : α} (nonempty : used ≠ [])
    (found : scan (used ++ rest) = some (value, rest)) :
    locatedFrom offset (pieces scan (used ++ rest)) =
      ⟨value, offset, offset + used.length⟩ ::
        locatedFrom (offset + used.length) (pieces scan rest) := by
  rw [pieces_some nonempty found, locatedFrom]

end Scanning

end Scaffold.Sentinel
