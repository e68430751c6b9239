import Mathlib.Data.List.Basic
import Scaffold.Proofs.Text.Scan
import Scaffold.Sentinel.Mark

/-!
Finding things in a text. What is found lies where the scanner recognises it; two things that are
found do not overlap; and wherever the scanner recognises something, a thing that is found covers
that place.
-/

namespace Scaffold.Sentinel

open Text

variable {α : Type} {scan : Scan α}

/-- A scanner recognises something at its offsets in a text. -/
def Located.At (mark : Located α) (scan : Scan α) (text : List Char) : Prop :=
  ∃ front used rest, text = front ++ (used ++ rest) ∧ used ≠ [] ∧
    scan (used ++ rest) = some (mark.value, rest) ∧ mark.start = front.length ∧
      mark.finish = front.length + used.length

theorem Located.At.start_lt {mark : Located α} {text : List Char} (at_ : mark.At scan text) :
    mark.start < mark.finish := by
  obtain ⟨front, used, rest, _, nonempty, _, start, finish⟩ := at_
  have positive := List.length_pos_iff.mpr nonempty
  omega

theorem Located.At.finish_le {mark : Located α} {text : List Char} (at_ : mark.At scan text) :
    mark.finish ≤ text.length := by
  obtain ⟨front, used, rest, split, _, _, _, finish⟩ := at_
  rw [finish, split, List.length_append, List.length_append]
  omega

theorem Located.At.start_lt_length {mark : Located α} {text : List Char} (at_ : mark.At scan text) :
    mark.start < text.length :=
  at_.start_lt.trans_le at_.finish_le

/-- Two things of one kind at one place are the same. -/
theorem Located.At.eq {first second : Located α} {text : List Char} (one : first.At scan text)
    (other : second.At scan text) (same : first.start = second.start) : first = second := by
  obtain ⟨front, used, rest, split, _, found, start, finish⟩ := one
  obtain ⟨front', used', rest', split', _, found', start', finish'⟩ := other
  obtain ⟨rfl, after⟩ := List.append_inj (split.symm.trans split') (by omega)
  rw [after, found'] at found
  obtain ⟨value, rfl⟩ := Prod.mk.inj (Option.some.inj found)
  obtain rfl := List.append_cancel_right after
  obtain ⟨_, _, _⟩ := first
  obtain ⟨_, _, _⟩ := second
  simp_all

theorem locatedFrom_map_char (offset : Nat) (chars : List Char) (rest : List (Piece α)) :
    locatedFrom offset (chars.map .char ++ rest) = locatedFrom (offset + chars.length) rest := by
  induction chars generalizing offset with
  | nil => rfl
  | cons c chars ih =>
    rw [List.map_cons, List.cons_append, locatedFrom, ih, List.length_cons]
    congr 1
    omega

theorem locatedFrom_at (consuming : Consuming scan) (front text : List Char) :
    ∀ mark ∈ locatedFrom front.length (pieces scan text), mark.At scan (front ++ text) := by
  induction text using scan_induction consuming generalizing front with
  | nil => exact fun mark member => nomatch member
  | char c rest missed ih =>
    rw [pieces_none missed, locatedFrom]
    have shifted := ih (front ++ [c])
    rw [List.length_append, List.append_assoc] at shifted
    exact shifted
  | found used rest value nonempty scanned ih =>
    rw [pieces_some nonempty scanned, locatedFrom]
    intro mark member
    rcases List.mem_cons.mp member with rfl | later
    · exact ⟨front, used, rest, rfl, nonempty, scanned, rfl, rfl⟩
    · have shifted := ih (front ++ used)
      rw [List.length_append, List.append_assoc] at shifted
      exact shifted mark later

theorem locatedFrom_start_le (consuming : Consuming scan) (offset : Nat) (text : List Char) :
    ∀ mark ∈ locatedFrom offset (pieces scan text), offset ≤ mark.start := by
  induction text using scan_induction consuming generalizing offset with
  | nil => exact fun mark member => nomatch member
  | char c rest missed ih =>
    rw [pieces_none missed, locatedFrom]
    intro mark member
    exact Nat.le_trans (Nat.le_succ offset) (ih (offset + 1) mark member)
  | found used rest value nonempty scanned ih =>
    rw [pieces_some nonempty scanned, locatedFrom]
    intro mark member
    rcases List.mem_cons.mp member with rfl | later
    · exact Nat.le_refl _
    · exact Nat.le_trans (Nat.le_add_right offset _) (ih _ mark later)

theorem locatedFrom_pairwise (consuming : Consuming scan) (offset : Nat) (text : List Char) :
    (locatedFrom offset (pieces scan text)).Pairwise fun first second =>
      first.finish ≤ second.start := by
  induction text using scan_induction consuming generalizing offset with
  | nil => exact .nil
  | char c rest missed ih =>
    rw [pieces_none missed, locatedFrom]
    exact ih (offset + 1)
  | found used rest value nonempty scanned ih =>
    rw [pieces_some nonempty scanned, locatedFrom]
    exact .cons (locatedFrom_start_le consuming _ rest) (ih _)

theorem locatedFrom_covers (consuming : Consuming scan) (offset : Nat)
    {text front back rest : List Char} {value : α} (split : text = front ++ back) (nonempty : back ≠ [])
    (scanned : scan back = some (value, rest)) :
    ∃ mark ∈ locatedFrom offset (pieces scan text),
      mark.start ≤ offset + front.length ∧ offset + front.length < mark.finish := by
  induction text using scan_induction consuming generalizing offset front with
  | nil =>
    obtain ⟨_, vacant⟩ := List.append_eq_nil_iff.mp split.symm
    exact absurd vacant nonempty
  | char c tail missed ih =>
    rw [pieces_none missed, locatedFrom]
    cases front with
    | nil =>
      rw [List.nil_append] at split
      rw [split, scanned] at missed
      cases missed
    | cons d front =>
      obtain ⟨mark, member, lower, upper⟩ := ih (offset + 1) (List.cons.inj split).2
      refine ⟨mark, member, ?_, ?_⟩ <;> rw [List.length_cons] <;> omega
  | found used tail other filled found ih =>
    rw [pieces_some filled found, locatedFrom]
    by_cases inside : front.length < used.length
    · exact ⟨_, List.mem_cons_self, Nat.le_add_right _ _, Nat.add_lt_add_left inside _⟩
    · obtain ⟨front, rfl⟩ : ∃ more, front = used ++ more := by
        obtain ⟨more, same, _⟩ | ⟨more, same, _⟩ := List.append_eq_append_iff.mp split
        · exact ⟨more, same⟩
        · have vacant : more = [] := by
            have lengths := congrArg List.length same
            rw [List.length_append] at lengths
            exact List.length_eq_zero_iff.mp (by omega)
          exact ⟨[], by rw [same, vacant]; simp⟩
      rw [List.append_assoc] at split
      obtain ⟨mark, member, lower, upper⟩ := ih (offset + used.length) (List.append_cancel_left split)
      refine ⟨mark, List.mem_cons_of_mem _ member, ?_, ?_⟩ <;> rw [List.length_append] <;> omega

theorem locate_at (consuming : Consuming scan) (text : List Char) :
    ∀ mark ∈ locate scan text, mark.At scan text :=
  locatedFrom_at consuming [] text

theorem locate_pairwise (consuming : Consuming scan) (text : List Char) :
    (locate scan text).Pairwise fun first second => first.finish ≤ second.start :=
  locatedFrom_pairwise consuming 0 text

theorem locate_covers (consuming : Consuming scan) {front back rest : List Char} {value : α}
    (nonempty : back ≠ []) (scanned : scan back = some (value, rest)) :
    ∃ mark ∈ locate scan (front ++ back), mark.start ≤ front.length ∧ front.length < mark.finish := by
  obtain ⟨mark, member, lower, upper⟩ :=
    locatedFrom_covers consuming 0 rfl nonempty scanned
  exact ⟨mark, member, by omega, by omega⟩

theorem locatedFrom_values (offset : Nat) (items : List (Piece α)) :
    (locatedFrom offset items).map Located.value = items.filterMap Piece.value? := by
  induction items generalizing offset with
  | nil => rfl
  | cons piece rest ih =>
    cases piece with
    | char c => exact ih (offset + 1)
    | found value source => exact congrArg (value :: ·) (ih (offset + source.length))

theorem locate_values (scan : Scan α) (text : List Char) :
    (locate scan text).map Located.value = findAll scan text :=
  locatedFrom_values 0 _

/-- Something is found in a text if it is recognised anywhere. -/
theorem findAll_ne_nil_iff (consuming : Consuming scan) {text : List Char} :
    findAll scan text ≠ [] ↔ ∃ mark : Located α, mark.At scan text := by
  rw [← locate_values, ne_eq, List.map_eq_nil_iff]
  constructor
  · intro some
    obtain ⟨mark, member⟩ := List.exists_mem_of_ne_nil _ some
    exact ⟨mark, locate_at consuming text mark member⟩
  · rintro ⟨mark, front, used, rest, rfl, filled, found, _⟩
    have filled : used ++ rest ≠ [] := List.append_ne_nil_of_left_ne_nil filled rest
    obtain ⟨other, member, _⟩ := @locate_covers _ _ consuming front _ _ _ filled found
    exact List.ne_nil_of_mem member

/-- A scanner recognises nothing inside what it recognises. -/
def Solid (scan : Scan α) : Prop :=
  ∀ before after rest value, before ≠ [] → after ≠ [] →
    scan (before ++ (after ++ rest)) = some (value, rest) → scan (after ++ rest) = none

/-- All that is recognised anywhere in a text is found, if nothing is recognised inside of it. -/
theorem mem_locate_iff (consuming : Consuming scan) (solid : Solid scan) {text : List Char}
    {mark : Located α} : mark ∈ locate scan text ↔ mark.At scan text := by
  refine ⟨locate_at consuming text mark, fun at_ => ?_⟩
  obtain ⟨front, used, rest, rfl, filled, found, start, finish⟩ := id at_
  have filled : used ++ rest ≠ [] := List.append_ne_nil_of_left_ne_nil filled rest
  obtain ⟨other, member, lower, upper⟩ := @locate_covers _ _ consuming front _ _ _ filled found
  have placed := locate_at consuming _ other member
  by_cases same : other.start = mark.start
  · exact placed.eq at_ same ▸ member
  obtain ⟨front', used', rest', split, _, found', start', finish'⟩ := placed
  -- The other thing begins earlier and goes on beyond the start of this one.
  obtain ⟨more, rfl, inside⟩ : ∃ more, front = front' ++ more ∧ used' ++ rest' = more ++ (used ++ rest) := by
    rcases List.append_eq_append_iff.mp split with ⟨more, behind, _⟩ | ⟨more, before, inside⟩
    · have lengths := congrArg List.length behind
      rw [List.length_append] at lengths
      omega
    · exact ⟨more, before, inside⟩
  rw [List.length_append] at start lower upper
  obtain ⟨after, rfl, ahead⟩ : ∃ after, used' = more ++ after ∧ after ++ rest' = used ++ rest := by
    rcases List.append_eq_append_iff.mp inside with ⟨after, longer, _⟩ | ⟨after, within, ahead⟩
    · have lengths := congrArg List.length longer
      rw [List.length_append] at lengths
      omega
    · exact ⟨after, within, ahead.symm⟩
  have early : more ≠ [] := by
    rintro rfl
    rw [List.length_nil] at start
    omega
  have beyond : after ≠ [] := by
    rintro rfl
    rw [List.append_nil] at finish'
    omega
  rw [List.append_assoc] at found'
  have missed := solid more after rest' _ early beyond found'
  rw [ahead, found] at missed
  cases missed

/-- The values that are found are those of all places where something is recognised. -/
theorem mem_findAll_iff (consuming : Consuming scan) (solid : Solid scan) {text : List Char} {value : α} :
    value ∈ findAll scan text ↔ ∃ mark : Located α, mark.At scan text ∧ mark.value = value := by
  rw [← locate_values, List.mem_map]
  exact exists_congr fun mark => and_congr_left fun _ => mem_locate_iff consuming solid

end Scaffold.Sentinel
