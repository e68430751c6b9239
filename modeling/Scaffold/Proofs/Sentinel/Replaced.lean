import Scaffold.Proofs.Sentinel.Alone

/-!
A unit in the place of another one. The units do not overlap, so all others are kept: those before it
stand where they stood, and those behind it are moved as a whole.
-/

namespace Scaffold.Sentinel

variable {dialect : Dialect} {text front old unit back : List Char} {path : Option String}
  {identity : String} {spans before later : List Span} {span : Span}

/-- A span behind an offset, when what stands there is moved to another offset. -/
def Span.moved (span : Span) (behind goal : Nat) : Span :=
  { span with
    start := span.start - behind + goal
    finish := span.finish - behind + goal
    bodyStart := span.bodyStart - behind + goal
    bodyFinish := span.bodyFinish - behind + goal }

theorem Span.source_append_left (within : span.finish ≤ front.length) (back : List Char) :
    span.source (front ++ back) = span.source front := by
  rw [Span.source, List.take_append_of_le_length within, Span.source]

theorem Span.source_append_right (behind : front.length ≤ span.start)
    (wide : span.start ≤ span.finish) (back : List Char) :
    span.source (front ++ back) =
      (back.take (span.finish - front.length)).drop (span.start - front.length) := by
  rw [Span.source, List.take_append, List.drop_append, List.take_of_length_le (behind.trans wide),
    List.drop_of_length_le behind, List.nil_append]

/-- What stands behind a text has the same units behind another text. -/
theorem Span.source_moved (behind : front.length ≤ span.start) (wide : span.start ≤ span.finish)
    (other back : List Char) :
    (span.moved front.length other.length).source (other ++ back) = span.source (front ++ back) := by
  have onward : (span.moved front.length other.length).start ≤
      (span.moved front.length other.length).finish :=
    Nat.add_le_add_right (Nat.sub_le_sub_right wide _) _
  rw [Span.source_append_right behind wide, Span.source_append_right (Nat.le_add_left _ _) onward]
  simp only [Span.moved, Nat.add_sub_cancel]

/-- Each of the units of a text lies behind those before it. -/
theorem InOrder.bounds {limit offset : Nat} (ordered : InOrder limit offset spans) :
    ∀ span ∈ spans, offset ≤ span.start ∧ span.start < span.finish ∧ span.finish ≤ limit := by
  intro span listed
  induction spans generalizing offset with
  | nil => cases listed
  | cons first rest ih =>
    obtain ⟨behind, wide, _, ordered⟩ := ordered
    rcases List.mem_cons.mp listed with rfl | listed
    · exact ⟨behind, wide, ordered.le⟩
    · obtain ⟨beyond, bounds⟩ := ih ordered listed
      exact ⟨by omega, bounds⟩

/-- A text becomes another one as its first unit of an identity gives way to a new unit. All that stands
before and behind that unit is kept, the other units with it. -/
def Renews (dialect : Dialect) (path : Option String) (identity : String) (unit text new : List Char) :
    Prop :=
  ∃ before span later front back,
    findSpans dialect path text = .ok (before ++ span :: later) ∧
    span.identity = identity ∧ (∀ other ∈ before, other.identity ≠ identity) ∧
    text = front ++ span.source text ++ back ∧ front.length = span.start ∧
    new = front ++ unit ++ back ∧
    (∀ other ∈ before, other.source new = other.source text) ∧
    ∀ other ∈ later,
      (other.moved span.finish (span.start + unit.length)).source new = other.source text

/-- A unit put over the first one of its identity changes nothing else. -/
theorem renews_of_first (regular : dialect.Regular)
    (found : findSpans dialect path text = .ok (before ++ span :: later))
    (own : span.identity = identity) (others : ∀ other ∈ before, other.identity ≠ identity) :
    Renews dialect path identity unit text (text.take span.start ++ unit ++ text.drop span.finish) := by
  obtain ⟨earlier, wide, behind⟩ := (findSpans_inOrder regular found).split
  have inside := behind.le
  have whole : text = text.take span.start ++ span.source text ++ text.drop span.finish := by
    have first : text.take span.start = (text.take span.finish).take span.start := by
      rw [List.take_take, Nat.min_eq_left (Nat.le_of_lt wide)]
    rw [first, Span.source, List.take_append_drop, List.take_append_drop]
  have reach : (text.take span.start).length = span.start := List.length_take_of_le (by omega)
  have cut : (text.take span.finish).length = span.finish := List.length_take_of_le inside
  refine ⟨before, span, later, _, _, found, own, others, whole, reach, rfl, ?_, ?_⟩
  · intro other listed
    have within := (earlier.bounds other listed).2.2
    conv_rhs => rw [← List.take_append_drop span.start text]
    rw [List.append_assoc, Span.source_append_left (reach.symm ▸ within),
      Span.source_append_left (reach.symm ▸ within)]
  · intro other listed
    obtain ⟨beyond, long, _⟩ := behind.bounds other listed
    have same := Span.source_moved (cut.symm ▸ beyond) (Nat.le_of_lt long)
      (text.take span.start ++ unit) (text.drop span.finish)
    rwa [cut, List.length_append, reach, List.take_append_drop] at same

/-- The sentinels of a text are not well formed when its units cannot be told. -/
theorem spansFrom_malformed (text : List Char) (path : Option String) (opening : Option (Located (List Char)))
    (marks : List Mark) :
    FailsOnly (fun error : Error => error.errorClass = .malformed) (spansFrom text path opening marks) := by
  have unit (opening closing) : FailsOnly (fun error : Error => error.errorClass = .malformed)
      (spanOf text path opening closing) := by
    have missing (id : Option String) : FailsOnly (fun error : Error => error.errorClass = .malformed)
        (spanOf.missing path opening id) := by
      cases id <;> exact .error rfl
    unfold spanOf
    split
    · split
      · exact missing _
      · exact .ok _
    · exact missing _
  fun_induction spansFrom text path opening marks with
  | case1 => exact .ok _
  | case2 => exact .error rfl
  | case3 mark rest ih => exact ih
  | case4 => exact .error rfl
  | case5 => exact .error rfl
  | case6 opening mark rest ih => exact .bind (unit _ _) fun _ _ => .bind ih fun _ _ => .ok _

theorem findSpans_malformed (dialect : Dialect) (path : Option String) (text : List Char) :
    FailsOnly (fun error : Error => error.errorClass = .malformed) (findSpans dialect path text) :=
  spansFrom_malformed _ _ _ _

end Scaffold.Sentinel
