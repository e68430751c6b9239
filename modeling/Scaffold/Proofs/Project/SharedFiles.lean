import Scaffold.Proofs.Project.Placement

/-!
Files with the units of several calls. In a file that consists of units as they are written, placing one
unit leaves all others as they are, so that what becomes of the others does not depend on it.
-/

namespace Scaffold

open Sentinel

namespace Sentinel

variable {dialect : Dialect} {first : List Char} {drafts : List Draft} {between : List (List Char)}

/-- The identity under which a unit is looked up. -/
def Draft.identity (draft : Draft) : String :=
  Project.identityOf draft.generator draft.unitId

/-- Units that can be found again, and texts before and between them without marks. -/
structure Woven (dialect : Dialect) (first : List Char) (drafts : List Draft)
    (between : List (List Char)) : Prop where
  paired : between.length = drafts.length
  clean : ∀ draft ∈ drafts, draft.Clean dialect
  free : Free first
  apart : ∀ filler ∈ between, Free filler ∧ Bounded dialect filler

def wovenText (dialect : Dialect) (first : List Char) (drafts : List Draft)
    (between : List (List Char)) : List Char :=
  weave first (drafts.map (·.text dialect)) between

theorem at_mem_text (dialect : Dialect) (draft : Draft) : '@' ∈ draft.text dialect := by
  have tagged : '@' ∈ startTag := by decide
  rw [Draft.text_eq, Draft.opening, Dialect.start_eq]
  simp [tagged]

theorem weave_split {units : List (List Char)} {unit filler : List Char} {i : Nat}
    (here : units[i]? = some unit) (behind : between[i]? = some filler) :
    weave first units between =
      weave first (units.take i) (between.take i) ++
        (unit ++ weave filler (units.drop (i + 1)) (between.drop (i + 1))) := by
  induction i generalizing first units between with
  | zero =>
    cases units with
    | nil => cases here
    | cons _ units =>
      cases between with
      | nil => cases behind
      | cons _ between =>
        cases here
        cases behind
        simp [weave]
  | succ i ih =>
    cases units with
    | nil => cases here
    | cons other units =>
      cases between with
      | nil => cases behind
      | cons gap between =>
        rw [weave_cons, ih here behind, List.take_succ_cons, List.take_succ_cons, weave_cons]
        simp only [List.append_assoc, List.drop_succ_cons]

/-- The units of a woven text are found where they stand, under their identities. -/
theorem Woven.findSpans (woven : Woven dialect first drafts between)
    (known : dialect ∈ Dialect.standard) (path : Option String) :
    ∃ spans, Sentinel.findSpans dialect path (wovenText dialect first drafts between) = .ok spans ∧
      spans.map Span.identity = drafts.map Draft.identity ∧
      ∀ i (draft : Draft) (span : Span), drafts[i]? = some draft → spans[i]? = some span →
        span.start = (wovenText dialect first (drafts.take i) (between.take i)).length ∧
          span.finish = span.start + (draft.text dialect).length := by
  obtain ⟨paired, clean, free, apart⟩ := woven
  obtain ⟨spans, spanned, read⟩ := pairsOf_spanned paired clean path [] first
  rw [List.nil_append] at spanned read
  have regular := Dialect.regular_of_standard known
  refine ⟨spans, findSpans_eq_ok.mpr ⟨_, marks_weave regular paired clean free apart, spanned⟩, ?_, ?_⟩
  · refine (List.forall₂_eq_eq_eq ▸ List.forall₂_map_left_iff.mpr
      (List.forall₂_map_right_iff.mpr (read.flip.imp fun span draft read => ?_)) : _ = _)
    exact Project.identity_eq read
  · intro i draft span written found
    obtain ⟨inSpans, rfl⟩ := List.getElem?_eq_some_iff.mp found
    have inPairs : i < (pairsOf dialect first.length drafts between).length :=
      spanned.length_eq ▸ inSpans
    have here := (List.forall₂_iff_get.mp spanned).2 i inPairs inSpans
    obtain ⟨start, finish⟩ := pairsOf_getElem? written (List.getElem?_eq_getElem inPairs)
    obtain ⟨_, _, _, same⟩ := spanOf_eq_ok.mp here
    rw [← length_weave] at start
    have starts : spans[i].start = (pairsOf dialect first.length drafts between)[i].1.start :=
      congrArg Span.start same
    refine ⟨starts.trans start, ?_⟩
    rw [starts]
    exact (congrArg Span.finish same).trans finish

/-- A text of units before and behind one of them. -/
theorem wovenText_split {draft : Draft} {i : Nat} {filler : List Char}
    (here : drafts[i]? = some draft) (behind : between[i]? = some filler) :
    wovenText dialect first drafts between =
      wovenText dialect first (drafts.take i) (between.take i) ++
        (draft.text dialect ++
          wovenText dialect filler (drafts.drop (i + 1)) (between.drop (i + 1))) := by
  have placed : (drafts.map (·.text dialect))[i]? = some (draft.text dialect) := by simp [here]
  unfold wovenText
  rw [weave_split placed behind, ← List.map_take, ← List.map_drop]

/-- A text of units with one of them replaced. -/
theorem wovenText_set {draft : Draft} {i : Nat} {filler : List Char} (inside : i < drafts.length)
    (behind : between[i]? = some filler) :
    wovenText dialect first (drafts.set i draft) between =
      wovenText dialect first (drafts.take i) (between.take i) ++
        (draft.text dialect ++
          wovenText dialect filler (drafts.drop (i + 1)) (between.drop (i + 1))) := by
  have placed : (drafts.set i draft)[i]? = some draft := by simp [inside]
  rw [wovenText_split placed behind, List.take_set_of_le le_rfl,
    List.drop_set_of_lt (Nat.lt_succ_self i)]

/-- A text changes with a unit in it. -/
theorem wovenText_set_eq_iff {draft other : Draft} {i : Nat} (paired : between.length = drafts.length)
    (here : drafts[i]? = some draft) :
    wovenText dialect first (drafts.set i other) between = wovenText dialect first drafts between ↔
      other.text dialect = draft.text dialect := by
  obtain ⟨inside, _⟩ := List.getElem?_eq_some_iff.mp here
  have inBetween : i < between.length := by omega
  have behind : between[i]? = some between[i] := List.getElem?_eq_getElem inBetween
  rw [wovenText_set inside behind, wovenText_split here behind, List.append_cancel_left_eq,
    List.append_cancel_right_eq]

theorem find?_identity {α : Type} (items : List α) (name : α → String) (wanted : String) :
    (items.find? fun item => name item == wanted) = items[(items.map name).idxOf wanted]? := by
  induction items with
  | nil => rfl
  | cons item rest ih =>
    rw [List.map_cons, List.idxOf_cons, List.find?_cons]
    cases name item == wanted with
    | true => rfl
    | false => exact ih

theorem identity_of_idxOf {draft : Draft} {wanted : String}
    (here : drafts[(drafts.map Draft.identity).idxOf wanted]? = some draft) :
    draft.identity = wanted := by
  obtain ⟨inside, rfl⟩ := List.getElem?_eq_some_iff.mp here
  have listed : (drafts.map Draft.identity).idxOf wanted < (drafts.map Draft.identity).length := by
    rwa [List.length_map]
  exact (List.getElem_map Draft.identity).symm.trans (List.getElem_idxOf listed)

end Sentinel

namespace Project

variable {placement : Placement} {first : List Char} {drafts others : List Draft}
  {between : List (List Char)} {dialect : Dialect}

/-- The refusal to place a unit in a file with units of other identities. -/
def absence (target : Path) (identities : List String) : Error :=
  .alreadyExists target.toString
    (if identities.isEmpty then "File holds unmarked content. Use sync to update marked files."
      else "File holds generation units for: " ++ Error.listed identities)

theorem unitToReplace_eq (target : Path) (identity : String) (spans : List Span) :
    unitToReplace target identity spans =
      match spans[(spans.map Span.identity).idxOf identity]? with
      | some span => .ok span
      | none => .error (absence target (spans.map Span.identity)) := by
  unfold unitToReplace absence
  rw [find?_identity]
  cases spans with
  | nil => rfl
  | cons span rest =>
    cases chosen : (span :: rest)[((span :: rest).map Span.identity).idxOf identity]? with
    | none => simp only [List.isEmpty_map, List.isEmpty_cons, Bool.false_eq_true, if_false]
    | some found => rfl

namespace Placement

/-- A unit takes the place of the first one with its identity; without one it is refused. -/
theorem renewed_woven (woven : Woven dialect first drafts between)
    (spoken : Dialect.ofPath placement.target = dialect) :
    placement.renewed (wovenText dialect first drafts between) =
      match drafts[(drafts.map Draft.identity).idxOf placement.identity]? with
      | some _ => .ok (wovenText dialect first
          (drafts.set ((drafts.map Draft.identity).idxOf placement.identity) placement.draft) between)
      | none => .error (absence placement.target (drafts.map Draft.identity)) := by
  subst spoken
  obtain ⟨spans, found, identities, located⟩ :=
    woven.findSpans (Dialect.ofPath_standard placement.target) (some placement.target.toString)
  have lengths : spans.length = drafts.length := by simpa using congrArg List.length identities
  rw [renewed_of_found found, unitToReplace_eq, identities]
  generalize (drafts.map Draft.identity).idxOf placement.identity = i
  cases here : drafts[i]? with
  | none =>
    have beyond : spans[i]? = none := by
      rw [List.getElem?_eq_none_iff] at here ⊢
      omega
    rw [beyond]
    rfl
  | some draft =>
    obtain ⟨inside, _⟩ := List.getElem?_eq_some_iff.mp here
    have inSpans : i < spans.length := by omega
    have inBetween : i < between.length := by rw [woven.paired]; exact inside
    have spanHere : spans[i]? = some spans[i] := List.getElem?_eq_getElem inSpans
    have behind : between[i]? = some between[i] := List.getElem?_eq_getElem inBetween
    obtain ⟨start, finish⟩ := located i draft _ here spanHere
    rw [spanHere, wovenText_set inside behind, wovenText_split here behind]
    simp only [Except.map, replaceSpan]
    rw [finish, start, List.take_left, ← List.length_append, ← List.append_assoc, List.drop_left,
      List.append_assoc]
    rfl

/-- A text with a unit in it is not blank. -/
theorem trim_wovenText (dialect : Dialect) (first : List Char) (paired : between.length = drafts.length)
    (filled : drafts ≠ []) : (Text.trim (wovenText dialect first drafts between)).isEmpty = false := by
  obtain ⟨draft, drafts, rfl⟩ := List.exists_cons_of_ne_nil filled
  cases between with
  | nil => cases paired
  | cons filler between =>
    have inside : '@' ∈ wovenText dialect first (draft :: drafts) (filler :: between) := by
      rw [wovenText, List.map_cons, weave_cons]
      exact List.mem_append_right _ (List.mem_append_left _ (at_mem_text dialect draft))
    rw [List.isEmpty_eq_false_iff]
    intro blank
    exact absurd (Text.trim_eq_nil.mp blank _ inside) (by decide)

/-- A file is changed for a unit when the first unit of its identity is another one. -/
theorem verdict_present (woven : Woven dialect first drafts between)
    (spoken : Dialect.ofPath placement.target = dialect) {draft : Draft}
    (here : drafts[(drafts.map Draft.identity).idxOf placement.identity]? = some draft) :
    placement.verdict (wovenText dialect first drafts between) =
      .ok (if placement.draft.text dialect = draft.text dialect then .unchanged else .updated) := by
  have filled : drafts ≠ [] := by
    rintro rfl
    cases here
  rw [verdict, trim_wovenText dialect first woven.paired filled, renewed_woven woven spoken, here]
  change Except.ok (if _ then _ else _) = _
  simp only [wovenText_set_eq_iff woven.paired here]

/-- A file without a unit of its identity refuses a unit. -/
theorem verdict_absent (woven : Woven dialect first drafts between)
    (spoken : Dialect.ofPath placement.target = dialect) (filled : drafts ≠ [])
    (nowhere : drafts[(drafts.map Draft.identity).idxOf placement.identity]? = none) :
    placement.verdict (wovenText dialect first drafts between) =
      .error (absence placement.target (drafts.map Draft.identity)) := by
  rw [verdict, trim_wovenText dialect first woven.paired filled, renewed_woven woven spoken, nowhere]
  rfl

/-- What becomes of a unit does not depend on the units of other identities in its file. -/
theorem verdict_woven (woven : Woven dialect first drafts between)
    (other : Woven dialect first others between)
    (spoken : Dialect.ofPath placement.target = dialect)
    (identities : others.map Draft.identity = drafts.map Draft.identity)
    (alike : ∀ (i : Nat) (draft : Draft), drafts[i]? = some draft →
      draft.identity = placement.identity → others[i]? = some draft) :
    placement.verdict (wovenText dialect first others between) =
      placement.verdict (wovenText dialect first drafts between) := by
  have lengths : others.length = drafts.length := by simpa using congrArg List.length identities
  by_cases vacant : drafts = []
  · rw [vacant, List.length_nil, List.length_eq_zero_iff] at lengths
    rw [lengths, vacant]
  have filled : others ≠ [] := fun none => vacant (List.length_eq_zero_iff.mp (by simp [← lengths, none]))
  cases here : drafts[(drafts.map Draft.identity).idxOf placement.identity]? with
  | none =>
    have beyond : others[(others.map Draft.identity).idxOf placement.identity]? = none := by
      rw [identities, List.getElem?_eq_none_iff, lengths]
      exact List.getElem?_eq_none_iff.mp here
    rw [verdict_absent woven spoken vacant here, verdict_absent other spoken filled beyond, identities]
  | some draft =>
    have there := alike _ draft here (identity_of_idxOf here)
    rw [verdict_present woven spoken here, verdict_present other spoken (identities ▸ there)]

end Placement

/-- A text consists of units that can be found again and texts without marks. -/
def IsWoven (dialect : Dialect) (text : List Char) : Prop :=
  ∃ first drafts between, Woven dialect first drafts between ∧
    text = wovenText dialect first drafts between

/-- A text has come about from another one by placing units of some identities: the units of other
identities are still the same. -/
def Revised (dialect : Dialect) (placed : String → Prop) (old new : List Char) : Prop :=
  ∃ first drafts others between, Woven dialect first drafts between ∧
    Woven dialect first others between ∧ old = wovenText dialect first drafts between ∧
    new = wovenText dialect first others between ∧
    others.map Draft.identity = drafts.map Draft.identity ∧
    ∀ (i : Nat) (draft : Draft), drafts[i]? = some draft → ¬ placed draft.identity →
      others[i]? = some draft

namespace Revised

variable {placed : String → Prop} {old new newer : List Char}

theorem refl (woven : IsWoven dialect old) : Revised dialect placed old old := by
  obtain ⟨first, drafts, between, woven, rfl⟩ := woven
  exact ⟨first, drafts, drafts, between, woven, woven, rfl, rfl, rfl, fun _ _ here _ => here⟩

theorem mono {more : String → Prop} (revised : Revised dialect placed old new)
    (wider : ∀ identity, placed identity → more identity) : Revised dialect more old new := by
  obtain ⟨first, drafts, others, between, woven, other, before, after, identities, alike⟩ := revised
  exact ⟨first, drafts, others, between, woven, other, before, after, identities, fun i draft here fresh =>
    alike i draft here fun inside => fresh (wider _ inside)⟩

/-- What becomes of a unit that has not been placed yet is what would have become of it before. -/
theorem verdict_eq (revised : Revised dialect placed old new)
    (spoken : Dialect.ofPath placement.target = dialect) (fresh : ¬ placed placement.identity) :
    placement.verdict new = placement.verdict old := by
  obtain ⟨first, drafts, others, between, woven, other, rfl, rfl, identities, alike⟩ := revised
  exact Placement.verdict_woven woven other spoken identities fun i draft here same =>
    alike i draft here (same ▸ fresh)

theorem place (revised : Revised dialect placed old new)
    (spoken : Dialect.ofPath placement.target = dialect) (clean : placement.draft.Clean dialect)
    (run : placement.renewed new = .ok newer) :
    Revised dialect (fun identity => placed identity ∨ identity = placement.identity) old newer := by
  obtain ⟨first, drafts, others, between, woven, other, rfl, rfl, identities, alike⟩ := revised
  rw [Placement.renewed_woven other spoken] at run
  cases here : others[(others.map Draft.identity).idxOf placement.identity]? with
  | none =>
    rw [here] at run
    cases run
  | some draft =>
    rw [here] at run
    cases run
    have known := identity_of_idxOf here
    generalize (others.map Draft.identity).idxOf placement.identity = k at here
    refine ⟨first, drafts, others.set k placement.draft, between, woven, ?_, rfl, rfl, ?_, ?_⟩
    · refine ⟨by rw [List.length_set]; exact other.paired, fun unit member => ?_, other.free, other.apart⟩
      rcases List.mem_or_eq_of_mem_set member with old | rfl
      · exact other.clean unit old
      · exact clean
    · have same : (others.map Draft.identity)[k]? = some placement.draft.identity := by
        rw [List.getElem?_map, here]
        exact congrArg some known
      obtain ⟨inside, value⟩ := List.getElem?_eq_some_iff.mp same
      rw [List.map_set, ← value, List.set_getElem_self, identities]
    · intro i unit there fresh
      rw [not_or] at fresh
      have kept := alike i unit there fresh.1
      rw [List.getElem?_set_ne, kept]
      rintro rfl
      rw [here] at kept
      exact fresh.2 (Option.some.inj kept ▸ known)

end Revised

end Project

end Scaffold
