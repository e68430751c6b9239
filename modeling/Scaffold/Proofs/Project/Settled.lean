import Mathlib.Data.List.Sort
import Scaffold.Proofs.Project.Sync
import Scaffold.Proofs.Sentinel.Written

/-!
Files that a sync leaves alone. Every unit that is written ends with an end sentinel, and a text whose
sentinels pair up has no others than those of its units, so that changes of units cannot cancel out: a
sync leaves a file alone only when each of its units is generated again as it stands.
-/

namespace Scaffold

namespace Sentinel

variable {dialect : Dialect} {path : Option String} {text front back first : List Char}
  {units others between : List (List Char)} {drafts : List Draft} {spans : List Span} {offset : Nat}

/-- The offsets where woven units end, the first of them beginning at a given one. -/
def endsOf : Nat → List (List Char) → List (List Char) → List Nat
  | offset, unit :: units, filler :: between =>
    (offset + unit.length) :: endsOf (offset + unit.length + filler.length) units between
  | _, _, _ => []

theorem endsOf_nil (offset : Nat) (between : List (List Char)) : endsOf offset [] between = [] := by
  cases between <;> rfl

theorem lt_of_mem_endsOf {last : Nat} (filled : ∀ unit ∈ units, unit ≠ [])
    (member : last ∈ endsOf offset units between) : offset < last := by
  fun_induction endsOf offset units between with
  | case1 offset unit units filler between ih =>
    have positive := List.length_pos_iff.mpr (filled unit List.mem_cons_self)
    rcases List.mem_cons.mp member with rfl | member
    · omega
    · have later := ih (fun other later => filled other (List.mem_cons_of_mem _ later)) member
      omega
  | case2 => cases member

theorem endsOf_pairwise (filled : ∀ unit ∈ units, unit ≠ []) :
    (endsOf offset units between).Pairwise (· < ·) := by
  fun_induction endsOf offset units between with
  | case1 offset unit units filler between ih =>
    have filled' := fun other later => filled other (List.mem_cons_of_mem _ later)
    refine .cons ?_ (ih filled')
    intro last member
    have later := lt_of_mem_endsOf filled' member
    omega
  | case2 => exact .nil

theorem endsOf_length (offset : Nat) (paired : between.length = units.length) :
    (endsOf offset units between).length = units.length := by
  induction units generalizing between offset with
  | nil => simp [endsOf_nil]
  | cons unit units ih =>
    cases between with
    | nil => cases paired
    | cons filler between =>
      rw [endsOf, List.length_cons, List.length_cons, ih _ (Nat.succ.inj paired)]

theorem eq_of_endsOf_eq (paired : between.length = units.length)
    (paired' : between.length = others.length)
    (same : weave first units between = weave first others between)
    (ends : endsOf offset units between = endsOf offset others between) : units = others := by
  induction units generalizing others between first offset with
  | nil => exact (List.length_eq_zero_iff.mp (by rw [← paired', paired]; rfl)).symm
  | cons unit units ih =>
    cases between with
    | nil => cases paired
    | cons filler between =>
      cases others with
      | nil => cases paired'
      | cons other others =>
        rw [endsOf, endsOf] at ends
        obtain ⟨here, later⟩ := List.cons.inj ends
        have lengths : unit.length = other.length := by omega
        rw [weave_cons, weave_cons] at same
        obtain ⟨rfl, rest⟩ := List.append_inj (List.append_cancel_left same) lengths
        rw [ih (Nat.succ.inj paired) (Nat.succ.inj paired') rest later]

/-- The end sentinel of a unit that is written is found where the unit ends, whatever stands around
it. -/
theorem exists_endMark_of_text (regular : dialect.Regular) (draft : Draft) (front : List Char)
    (bounded : Bounded dialect back) :
    ∃ closing ∈ endMarks dialect (front ++ (draft.text dialect ++ back)),
      closing.finish = front.length + (draft.text dialect).length := by
  have regroup : front ++ (draft.text dialect ++ back) =
      front ++ draft.opening dialect ++ draft.inner ++ (dialect.finish ++ back) := by
    rw [Draft.text_eq]
    simp only [List.append_assoc]
  have recognised := Dialect.endMark?_finish regular bounded
  rw [regroup]
  obtain ⟨closing, member, lower, upper⟩ := locate_covers (endMark?_consuming regular)
    (List.append_ne_nil_of_left_ne_nil regular.finish_ne_nil back) recognised
  refine ⟨closing, member, ?_⟩
  have ended := endMarks_at regular closing member
  rcases Nat.lt_or_eq_of_le lower with before | same
  · obtain ⟨more, opens⟩ := opener_prefix_finish dialect back
    have inside := finish_le_of_opener regular ended (by rw [opens]) before
    omega
  · have here : (Located.mk () (front ++ draft.opening dialect ++ draft.inner).length
        ((front ++ draft.opening dialect ++ draft.inner).length + dialect.finish.length)).At
          (endMark? dialect)
          (front ++ draft.opening dialect ++ draft.inner ++ (dialect.finish ++ back)) :=
      ⟨_, _, _, rfl, regular.finish_ne_nil, recognised, rfl, rfl⟩
    rw [ended.eq here same, Draft.text_eq]
    simp only [List.length_append]
    omega

/-- Where written units end, end sentinels end. -/
theorem exists_endMark_of_mem_endsOf (regular : dialect.Regular)
    (apart : ∀ filler ∈ between, Bounded dialect filler) {last : Nat}
    (member : last ∈ endsOf (front ++ first).length (drafts.map (·.text dialect)) between) :
    ∃ closing ∈ endMarks dialect (weave (front ++ first) (drafts.map (·.text dialect)) between),
      closing.finish = last := by
  induction drafts generalizing front first between with
  | nil =>
    rw [List.map_nil, endsOf_nil] at member
    cases member
  | cons draft drafts ih =>
    cases between with
    | nil => cases member
    | cons filler between =>
      rw [List.map_cons, weave_cons]
      rw [List.map_cons, endsOf] at member
      rcases List.mem_cons.mp member with rfl | member
      · exact exists_endMark_of_text regular draft (front ++ first)
          (weave_bounded regular (apart filler List.mem_cons_self) drafts between)
      · have reached : (front ++ first).length + (draft.text dialect).length + filler.length =
            (front ++ first ++ draft.text dialect ++ filler).length := by
          simp only [List.length_append]
        rw [reached] at member
        obtain ⟨closing, found, ends⟩ :=
          ih (fun other later => apart other (List.mem_cons_of_mem _ later)) member
        refine ⟨closing, ?_, ends⟩
        have regroup : front ++ first ++
            (draft.text dialect ++ weave filler (drafts.map (·.text dialect)) between) =
              weave (front ++ first ++ draft.text dialect ++ filler)
                (drafts.map (·.text dialect)) between := by
          simp only [weave, List.append_assoc]
        rw [regroup]
        exact found

theorem Bounded.of_longer (bounded : Bounded dialect back) (shorter : front <+: back) :
    Bounded dialect front := by
  intro closed c first
  obtain ⟨more, rfl⟩ := shorter
  exact bounded closed c (List.mem_head?_append_of_mem_head? first)

/-- No word comes right behind an end sentinel without a closer. -/
theorem bounded_of_endMark {closing : Located Unit}
    (ended : closing.At (endMark? dialect) text) : Bounded dialect (text.drop closing.finish) := by
  obtain ⟨front, used, rest, rfl, _, found, _, finish⟩ := ended
  have dropped : (front ++ (used ++ rest)).drop closing.finish = rest := by
    rw [finish, ← List.append_assoc, ← List.length_append, List.drop_left]
  rw [dropped]
  intro unclosed c first
  rw [endMark?, Option.bind_eq_some_iff] at found
  obtain ⟨after, marked, found⟩ := found
  rw [if_pos (List.isEmpty_iff.mpr unclosed)] at found
  cases found
  obtain ⟨_, _, _, apart⟩ := (afterMark?_eq_some stem_prefix_endTag).mp marked
  exact apart c first

end Sentinel

namespace Project

open Sentinel

variable {dialect : Dialect} {path : Option String} {text : List Char} {spans : List Span}

theorem before_prefix_drop (text : List Char) (offset : Nat) (spans : List Span) :
    before text offset spans <+: text.drop offset := by
  cases spans with
  | nil => exact List.prefix_refl _
  | cons span rest => exact (List.take_prefix span.start text).drop offset

theorem between_bounded (regular : dialect.Regular)
    (found : findSpans dialect path text = .ok spans) :
    ∀ filler ∈ between text spans, Bounded dialect filler := by
  have each : ∀ span ∈ spans, Bounded dialect (text.drop span.finish) := by
    intro span member
    obtain ⟨opening, _, closing, listed, here⟩ := findSpans_mem found span member
    obtain ⟨_, _, _, rfl⟩ := spanOf_eq_ok.mp here
    exact bounded_of_endMark (endMarks_at regular closing listed)
  clear found
  induction spans with
  | nil => exact fun filler member => nomatch member
  | cons span rest ih =>
    intro filler member
    rcases List.mem_cons.mp member with rfl | member
    · exact (each span List.mem_cons_self).of_longer (before_prefix_drop text span.finish rest)
    · exact ih (fun other later => each other (List.mem_cons_of_mem _ later)) filler member

theorem endsOf_sources {offset : Nat} (ordered : InOrder text.length offset spans) :
    endsOf (offset + (before text offset spans).length) (spans.map (·.source text))
      (between text spans) = spans.map Span.finish := by
  induction spans generalizing offset with
  | nil => rfl
  | cons span rest ih =>
    obtain ⟨behind, wide, _, ordered⟩ := ordered
    have inside := ordered.le
    have reached : offset + (before text offset (span :: rest)).length = span.start := by
      rw [before, List.length_drop, List.length_take]
      omega
    have ended : span.start + (span.source text).length = span.finish := by
      rw [Span.source, List.length_drop, List.length_take]
      omega
    rw [List.map_cons, between, endsOf, reached, ended, ih ordered, List.map_cons]

theorem source_ne_nil {offset : Nat} (ordered : InOrder text.length offset spans) :
    ∀ unit ∈ spans.map (·.source text), unit ≠ [] := by
  induction spans generalizing offset with
  | nil => exact fun unit member => nomatch member
  | cons span rest ih =>
    obtain ⟨_, wide, _, ordered⟩ := ordered
    have inside := ordered.le
    intro unit member
    rcases List.mem_cons.mp member with rfl | member
    · have wide' : 0 < ((text.take span.finish).drop span.start).length := by
        rw [List.length_drop, List.length_take]
        omega
      exact List.length_pos_iff.mp wide'
    · exact ih ordered unit member

/-- Written units in the places of the units of a text, when they give this text, end where those
end: each of them ends with an end sentinel, and there is no other one. -/
theorem endsOf_subset_finish (regular : dialect.Regular)
    (found : findSpans dialect path text = .ok spans) {drafts : List Draft}
    (same : weave (before text 0 spans) (drafts.map (·.text dialect)) (between text spans) = text) :
    endsOf (before text 0 spans).length (drafts.map (·.text dialect)) (between text spans) ⊆
      spans.map Span.finish := by
  intro last member
  have ended : ∃ closing ∈ endMarks dialect (weave ([] ++ before text 0 spans)
      (drafts.map (·.text dialect)) (between text spans)), closing.finish = last :=
    exists_endMark_of_mem_endsOf regular (between_bounded regular found) member
  obtain ⟨closing, listed, rfl⟩ := ended
  rw [List.nil_append, same] at listed
  exact finish_mem_of_findSpans found closing listed

/-- Units put into a text in the places of its own units give this text only if they are these. -/
theorem eq_sources_of_weave (regular : dialect.Regular) (found : findSpans dialect path text = .ok spans)
    {drafts : List Draft} (paired : drafts.length = spans.length)
    (same : weave (before text 0 spans) (drafts.map (·.text dialect)) (between text spans) = text) :
    drafts.map (·.text dialect) = spans.map (·.source text) := by
  have ordered := findSpans_inOrder regular found
  have fillers := between_length text spans
  have whole := weave_source ordered
  rw [List.drop_zero] at whole
  have sources := endsOf_sources ordered
  rw [Nat.zero_add] at sources
  have filled : ∀ unit ∈ drafts.map (·.text dialect), unit ≠ [] := by
    intro unit member
    obtain ⟨draft, _, rfl⟩ := List.mem_map.mp member
    rw [Draft.text_eq, Draft.opening]
    exact List.append_ne_nil_of_left_ne_nil (regular.start_ne_nil _ _) _
  have increasing : (endsOf (before text 0 spans).length (drafts.map (·.text dialect))
      (between text spans)).Pairwise (· < ·) := endsOf_pairwise filled
  have increasing' : (endsOf (before text 0 spans).length (spans.map (·.source text))
      (between text spans)).Pairwise (· < ·) := endsOf_pairwise (source_ne_nil ordered)
  -- As many units end as there are ends, so that they end at all of these.
  have ends : endsOf (before text 0 spans).length (drafts.map (·.text dialect)) (between text spans) =
      endsOf (before text 0 spans).length (spans.map (·.source text)) (between text spans) := by
    rw [sources] at increasing' ⊢
    have lengths := endsOf_length (before text 0 spans).length
      (show (between text spans).length = (drafts.map (·.text dialect)).length by simp [fillers, paired])
    have perm := (List.subperm_of_subset increasing.nodup
      (endsOf_subset_finish regular found same)).perm_of_length_le (by rw [lengths]; simp [paired])
    exact perm.eq_of_pairwise' increasing increasing'
  exact eq_of_endsOf_eq (by simp [fillers, paired]) (by simp [fillers]) (same.trans whole.symm) ends

/-- Units to be written in the places of spans, with given bodies. -/
def draftsOf (spans : List Span) (renderings : List (List Char)) : List Draft :=
  List.zipWith (fun span rendering => ⟨span.generator, span.unitId, rendering⟩) spans renderings

/-- Each rendering is what the generator of a span makes of its body. -/
def Rerendered (registry : Registry) (text : List Char) (spans : List Span)
    (renderings : List (List Char)) : Prop :=
  List.Forall₂ (fun span rendering =>
    registry.rerender span.generator (span.body text) = .ok rendering) spans renderings

variable {registry : Registry} {target : Path} {units renderings : List (List Char)}

theorem Rerendered.draftsOf_length (rerendered : Rerendered registry text spans renderings) :
    (draftsOf spans renderings).length = spans.length := by
  rw [draftsOf, List.length_zipWith, rerendered.length_eq, Nat.min_self]

/-- Units that are generated again are renderings that are written. -/
theorem renewed_iff :
    Renewed registry dialect text spans units ↔
      ∃ renderings, Rerendered registry text spans renderings ∧
        units = (draftsOf spans renderings).map (·.text dialect) := by
  constructor
  · intro renewed
    induction renewed with
    | nil => exact ⟨[], .nil, rfl⟩
    | @cons span unit spans units here _ ih =>
      obtain ⟨rendered, made, rfl⟩ := Registry.renew_eq_ok.mp here
      obtain ⟨renderings, others, rfl⟩ := ih
      exact ⟨rendered :: renderings, .cons made others, rfl⟩
  · rintro ⟨renderings, rerendered, rfl⟩
    induction rerendered with
    | nil => exact .nil
    | cons made _ ih => exact .cons (Registry.renew_eq_ok.mpr ⟨_, made, rfl⟩) ih

/-- A text whose sentinels pair up, with one unit at least, and in which every unit stands as it is
generated again. -/
def UpToDate (registry : Registry) (target : Path) (text : List Char) : Prop :=
  ∃ spans, unitsOf target text = .ok spans ∧
    Renewed registry (Dialect.ofPath target) text spans (spans.map (·.source text))

/-- A text that is up to date, and no other one, is rewritten to itself. -/
theorem rewrite_eq_self_iff : registry.rewrite target text = .ok text ↔ UpToDate registry target text := by
  have regular := Dialect.regular_of_standard (Dialect.ofPath_standard target)
  constructor
  · intro run
    obtain ⟨spans, units, found, renewed, same⟩ := rewrite_eq_ok.mp run
    obtain ⟨located, _⟩ := unitsOf_eq_ok.mp found
    refine ⟨spans, found, ?_⟩
    rw [assemble_eq_weave text renewed.length_eq.symm] at same
    obtain ⟨renderings, rerendered, rfl⟩ := renewed_iff.mp renewed
    rw [← eq_sources_of_weave regular located rerendered.draftsOf_length same.symm]
    exact renewed
  · rintro ⟨spans, found, renewed⟩
    obtain ⟨located, _⟩ := unitsOf_eq_ok.mp found
    refine rewrite_eq_ok.mpr ⟨spans, _, found, renewed, ?_⟩
    rw [assemble_eq_weave text (by simp), weave_source (findSpans_inOrder regular located),
      List.drop_zero]

end Project

end Scaffold
