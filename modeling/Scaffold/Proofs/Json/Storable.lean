import Mathlib.Data.List.TakeWhile
import Scaffold.Json.Printer
import Scaffold.Proofs.Outcome
import Scaffold.Proofs.Text.Digit
import Scaffold.Proofs.Value.Fields

/-!
Values that have a JSON form. A value is written to its end exactly when all of its scalars have one;
dates have none, and neither have integers with too many digits. All that is read off a JSON text can be
written again.
-/

namespace Scaffold

/-- A scalar that has a JSON form: no date, and no integer with more digits than are converted. -/
def Scalar.Storable : Scalar → Prop
  | .date .. => False
  | .int value => value.natAbs < 10 ^ Json.digitLimit
  | _ => True

/-- A value whose scalars have JSON forms, keys included. -/
inductive Value.Storable : Value → Prop
  | scalar {value : Scalar} (form : value.Storable) : Storable (.scalar value)
  | list {items : List Value} (each : ∀ item ∈ items, Storable item) : Storable (.list items)
  | map {entries : List (Scalar × Value)} (keys : ∀ entry ∈ entries, entry.1.Storable)
      (each : ∀ entry ∈ entries, Storable entry.2) : Storable (.map entries)

namespace Value

theorem storable_scalar {value : Scalar} : Storable (.scalar value) ↔ value.Storable :=
  ⟨fun | .scalar form => form, .scalar⟩

theorem storable_list {items : List Value} : Storable (.list items) ↔ ∀ item ∈ items, item.Storable :=
  ⟨fun | .list each => each, .list⟩

theorem storable_map {entries : List (Scalar × Value)} :
    Storable (.map entries) ↔ ∀ entry ∈ entries, entry.1.Storable ∧ entry.2.Storable :=
  ⟨fun | .map keys each => fun entry listed => ⟨keys entry listed, each entry listed⟩,
    fun both => .map (fun entry listed => (both entry listed).1) fun entry listed => (both entry listed).2⟩

theorem storable_text (text : String) : Storable (.text text) :=
  .scalar trivial

theorem storable_null : Storable .null :=
  .scalar trivial

theorem storable_object {fields : List (String × Value)}
    (each : ∀ field ∈ fields, field.2.Storable) : Storable (.object fields) :=
  storable_map.mpr (List.forall_mem_map.mpr fun field listed => ⟨trivial, each field listed⟩)

end Value

namespace Json

@[simp] theorem Written.followedBy_refusal (first next : Written) :
    (first.followedBy next).refusal = none ↔ first.refusal = none ∧ next.refusal = none := by
  unfold followedBy
  cases stopped : first.refusal <;> simp [stopped]

theorem isLong_eq_false {value : Int} : isLong value = false ↔ value.natAbs < 10 ^ digitLimit := by
  rw [isLong, decide_eq_false_iff_not, Nat.not_lt]
  exact Nat.length_toDigits_le_iff (by decide) (by decide)

/-! ### What is written to its end -/

section Writing

variable {layout : Layout} {level : Nat} {before : List Char}

theorem scalarText_refusal {value : Scalar} : (∃ text, scalarText value = .ok text) ↔ value.Storable := by
  cases value with
  | int value =>
    rw [scalarText, Scalar.Storable, ← isLong_eq_false]
    cases isLong value <;> simp
  | date year month day => simp [scalarText, Scalar.Storable]
  | _ => simp [scalarText, Scalar.Storable]

theorem keyName_refusal {key : Scalar} : (∃ name, keyName key = .ok name) ↔ key.Storable := by
  cases key with
  | text value => simp [keyName, Scalar.Storable]
  | date year month day => simp [keyName, Scalar.Storable]
  | _ =>
    rw [keyName]
    · exact scalarText_refusal
    all_goals simp

theorem beforeItem_refusal {item : Value} (storable : item.Storable) :
    (beforeItem before item).refusal = none := by
  unfold beforeItem
  split
  · rw [if_neg]
    rw [Bool.not_eq_true]
    exact isLong_eq_false.mpr (Value.storable_scalar.mp storable)
  · rfl

mutual

/-- A value is written to its end exactly when it has a JSON form. -/
theorem write_refusal (layout : Layout) (level : Nat) :
    (value : Value) → ((write layout level value).refusal = none ↔ value.Storable)
  | .scalar value => by
    rw [Value.storable_scalar, ← scalarText_refusal, write]
    cases scalarText value <;> simp
  | .list [] => by simp [write, Value.storable_list]
  | .list (item :: rest) => by
    have here := write_refusal layout (level + 1) item
    have later := writeItems_refusal layout (level + 1) rest
    simp only [write, Written.followedBy_refusal, here, later, Value.storable_list, List.forall_mem_cons,
      and_true]
    exact and_congr_left fun _ => and_iff_right_of_imp beforeItem_refusal
  | .map [] => by simp [write, Value.storable_map]
  | .map (entry :: rest) => by
    have here := writeEntry_refusal layout (level + 1) [] entry
    have later := writeEntries_refusal layout (level + 1) rest
    simp only [write, Written.followedBy_refusal, here, later, Value.storable_map, List.forall_mem_cons,
      true_and, and_true]

theorem writeItems_refusal (layout : Layout) (level : Nat) :
    (items : List Value) →
      ((writeItems layout level items).refusal = none ↔ ∀ item ∈ items, item.Storable)
  | [] => by simp [writeItems]
  | item :: rest => by
    have here := write_refusal layout level item
    have later := writeItems_refusal layout level rest
    simp only [writeItems, Written.followedBy_refusal, here, later, List.forall_mem_cons]
    exact and_congr_left fun _ => and_iff_right_of_imp beforeItem_refusal

theorem writeEntry_refusal (layout : Layout) (level : Nat) (before : List Char) :
    (entry : Scalar × Value) →
      ((writeEntry layout level before entry).refusal = none ↔ entry.1.Storable ∧ entry.2.Storable)
  | (key, value) => by
    have here := write_refusal layout level value
    rw [← keyName_refusal, writeEntry]
    cases keyName key <;> simp [here]

theorem writeEntries_refusal (layout : Layout) (level : Nat) :
    (entries : List (Scalar × Value)) →
      ((writeEntries layout level entries).refusal = none ↔
        ∀ entry ∈ entries, entry.1.Storable ∧ entry.2.Storable)
  | [] => by simp [writeEntries]
  | entry :: rest => by
    have here := writeEntry_refusal layout level (layout.separator level) entry
    have later := writeEntries_refusal layout level rest
    simp only [writeEntries, Written.followedBy_refusal, here, later, List.forall_mem_cons]

end

end Writing

/-! ### What is read -/

section Reading

variable {text rest : List Char} {found : Value}

theorem digitsValue_lt {digits : List Char} (decimal : ∀ c ∈ digits, c.isDigit = true) :
    digitsValue digits < 10 ^ digits.length := by
  refine Text.foldl_digits_lt fun digit member => ?_
  have small := Text.isDigit_iff.mp (decimal digit member)
  omega

theorem number_storable {negative : Bool} (run : number negative text = .ok (found, rest)) :
    found.Storable := by
  unfold number at run
  extract_lets whole at run
  have decimal : ∀ c ∈ whole, c.isDigit = true := by
    unfold whole
    split
    · exact List.forall_mem_singleton.mpr rfl
    · exact fun c => List.mem_takeWhile_imp
  clear_value whole
  split at run
  · cases run
  · dsimp only at run
    split at run
    · cases run
      exact .scalar trivial
    · split at run
      · split at run
        · cases run
        · next short =>
          obtain ⟨rfl, _⟩ := Prod.mk.inj (Except.ok.inj run)
          have small : (digitsValue whole : Int).natAbs < 10 ^ digitLimit :=
            (digitsValue_lt decimal).trans_le
              (Nat.pow_le_pow_right (by decide : 0 < 10) (Nat.not_lt.mp short))
          refine Value.storable_scalar.mpr ?_
          split
          · exact (Int.natAbs_neg _).trans_lt small
          · exact small
      · cases run
        exact .scalar trivial

theorem mem_words (run : word? text = some (found, rest)) : ∃ word, (word, found) ∈ words := by
  obtain ⟨⟨word, value⟩, listed, matched⟩ := List.exists_of_findSome?_eq_some run
  obtain ⟨_, _, same⟩ := Option.map_eq_some_iff.mp matched
  obtain ⟨rfl, _⟩ := Prod.mk.inj same
  exact ⟨word, listed⟩

theorem word?_storable (run : word? text = some (found, rest)) : found.Storable := by
  obtain ⟨word, listed⟩ := mem_words run
  simp only [words, List.mem_cons, List.not_mem_nil, or_false, Prod.mk.injEq] at listed
  rcases listed with ⟨_, rfl⟩ | ⟨_, rfl⟩ | ⟨_, rfl⟩ | ⟨_, rfl⟩ | ⟨_, rfl⟩ | ⟨_, rfl⟩ <;>
    exact .scalar trivial

/-- A record made of storable entries is storable. -/
theorem ofEntries_storable {entries : List (Scalar × Value)}
    (each : ∀ entry ∈ entries, entry.1.Storable ∧ entry.2.Storable) :
    (Value.map (Keyed.ofEntries entries)).Storable := by
  refine Value.storable_map.mpr fun entry listed => ?_
  obtain ⟨key, value⟩ := Keyed.mem_ofEntries listed
  obtain ⟨one, inside, same⟩ := List.mem_map.mp key
  obtain ⟨other, among, equal⟩ := List.mem_map.mp value
  exact ⟨same ▸ (each one inside).1, equal ▸ (each other among).2⟩

/-- What JSON texts say: texts, words and numbers, and lists and objects of what they say. -/
structure Sayable (proper : Value → Prop) : Prop where
  text : ∀ name, proper (.text name)
  word : ∀ {text found rest}, word? text = some (found, rest) → proper found
  number : ∀ {negative text found rest}, number negative text = .ok (found, rest) → proper found
  list : ∀ {items}, (∀ item ∈ items, proper item) → proper (.list items)
  object : ∀ {entries : List (Scalar × Value)},
    (∀ entry ∈ entries, (∃ name, entry.1 = .text name) ∧ proper entry.2) →
      proper (.map (Keyed.ofEntries entries))

/-- What is read with some fuel is proper: a value, the items of a list, the members of an object. -/
structure ReadsProper (proper : Value → Prop) (fuel : Nat) : Prop where
  value : ∀ text found rest, value fuel text = .ok (found, rest) → proper found
  items : ∀ text found rest, items fuel text = .ok (found, rest) → ∀ item ∈ found, proper item
  members : ∀ text found rest, members fuel text = .ok (found, rest) →
    ∀ entry ∈ found, (∃ name, entry.1 = .text name) ∧ proper entry.2

namespace ReadsProper

variable {proper : Value → Prop}

theorem zero : ReadsProper proper 0 where
  value := fun _ _ _ run => by simp [Json.value] at run
  items := fun _ _ _ run => by simp [Json.items] at run
  members := fun _ _ _ run => by simp [Json.members] at run

variable {fuel : Nat} (inner : ReadsProper proper fuel)

include inner

theorem value_succ (sayable : Sayable proper) (run : Json.value (fuel + 1) text = .ok (found, rest)) :
    proper found := by
  unfold Json.value at run
  split at run
  · split at run
    · cases run
      exact sayable.text _
    · cases run
  · split at run
    · cases run
      exact @Sayable.object proper sayable [] (by simp)
    · obtain ⟨⟨entries, after⟩, listed, same⟩ := map_eq_ok.mp run
      cases same
      exact sayable.object (inner.members _ _ _ listed)
  · split at run
    · cases run
      exact sayable.list (by simp)
    · obtain ⟨⟨values, after⟩, listed, same⟩ := map_eq_ok.mp run
      cases same
      exact sayable.list (inner.items _ _ _ listed)
  · split at run
    · next known =>
      cases run
      exact sayable.word known
    · split at run
      · exact sayable.number run
      · exact sayable.number run

theorem items_succ {found : List Value} (run : Json.items (fuel + 1) text = .ok (found, rest)) :
    ∀ item ∈ found, proper item := by
  unfold Json.items at run
  split at run
  · cases run
  · next first =>
    have here := inner.value _ _ _ first
    split at run
    · cases run
      simpa using here
    · obtain ⟨⟨values, after⟩, listed, same⟩ := map_eq_ok.mp run
      cases same
      exact List.forall_mem_cons.mpr ⟨here, inner.items _ _ _ listed⟩
    · cases run

theorem members_succ {found : List (Scalar × Value)}
    (run : Json.members (fuel + 1) text = .ok (found, rest)) :
    ∀ entry ∈ found, (∃ name, entry.1 = .text name) ∧ proper entry.2 := by
  unfold Json.members at run
  split at run
  · split at run
    · cases run
    · split at run
      · split at run
        · cases run
        · next first =>
          have here := inner.value _ _ _ first
          split at run
          · cases run
            simpa using here
          · obtain ⟨⟨entries, after⟩, listed, same⟩ := map_eq_ok.mp run
            cases same
            exact List.forall_mem_cons.mpr ⟨⟨⟨_, rfl⟩, here⟩, inner.members _ _ _ listed⟩
          · cases run
      · cases run
  · cases run

end ReadsProper

theorem readsProper {proper : Value → Prop} (sayable : Sayable proper) (fuel : Nat) :
    ReadsProper proper fuel := by
  induction fuel with
  | zero => exact .zero
  | succ fuel inner =>
    exact ⟨fun _ _ _ => inner.value_succ sayable, fun _ _ _ => inner.items_succ, fun _ _ _ => inner.members_succ⟩

/-- Whatever a JSON text says is proper. -/
theorem Sayable.read {proper : Value → Prop} (sayable : Sayable proper) (run : read text = .ok found) :
    proper found := by
  unfold Json.read at run
  split at run
  · cases run
  · next first =>
    split at run
    · cases run
      exact (readsProper sayable _).value _ _ _ first
    · cases run

theorem sayable_storable : Sayable Value.Storable where
  text := Value.storable_text
  word := word?_storable
  number := number_storable
  list := .list
  object := fun each => ofEntries_storable fun entry listed => by
    obtain ⟨⟨name, named⟩, storable⟩ := each entry listed
    exact ⟨named ▸ trivial, storable⟩

/-- What a JSON text says can be written again. -/
theorem read_storable (run : read text = .ok found) : found.Storable :=
  sayable_storable.read run

end Reading

end Json

end Scaffold
