import Scaffold.Proofs.Json.Numbers
import Scaffold.Proofs.Json.Strings
import Scaffold.Proofs.Value.Fields

/-!
Reading back what is written. A value of texts, numbers, lists and objects is read off the front of any
text that goes on as JSON does after a value, in whichever layout it was written.
-/

namespace Scaffold

/-- A scalar of JSON: no date, and a number in the form that rounding gives. -/
def Scalar.Plain : Scalar → Prop
  | .date .. => False
  | .float value => value.Canonical
  | _ => True

/-- A value of JSON: its keys are texts, and no two keys of an object are the same. -/
inductive Value.Plain : Value → Prop
  | scalar {value : Scalar} (form : value.Plain) : Plain (.scalar value)
  | list {items : List Value} (each : ∀ item ∈ items, Plain item) : Plain (.list items)
  | map {entries : List (Scalar × Value)} (keys : ∀ entry ∈ entries, ∃ name, entry.1 = .text name)
      (distinct : (entries.map Prod.fst).Nodup) (each : ∀ entry ∈ entries, Plain entry.2) :
      Plain (.map entries)

namespace Value

theorem plain_text (text : String) : Plain (.text text) :=
  .scalar trivial

theorem plain_object {fields : List (String × Value)} (distinct : (fields.map Prod.fst).Nodup)
    (each : ∀ field ∈ fields, field.2.Plain) : (Value.object fields).Plain := by
  refine .map (List.forall_mem_map.mpr fun field _ => ⟨field.1, rfl⟩) ?_ (List.forall_mem_map.mpr each)
  have keys := distinct.map fun _ _ => Scalar.text.inj
  rwa [List.map_map] at keys ⊢

end Value

namespace Json

/-- A text is read as a value, whatever follows it, as long as it cannot belong to a number. -/
def ReadsBack (text : List Char) (found : Value) : Prop :=
  ∀ fuel rest, Ended rest → text.length ≤ fuel + 1 → value (fuel + 1) (text ++ rest) = .ok (found, rest)

/-! ### Scalars -/

section Scalars

variable {text rest : List Char} {fuel : Nat}

theorem word?_eq_none (other : ∀ entry ∈ words, ¬ entry.1 <+: text) : word? text = none := by
  refine List.findSome?_eq_none_iff.mpr fun ⟨word, found⟩ listed => ?_
  cases matched : Text.afterPrefix? word text with
  | none => simp only [matched, Option.map_none]
  | some rest => exact absurd ⟨rest, (Text.afterPrefix?_eq_some.mp matched).symm⟩ (other _ listed)

theorem word?_of_digit {c : Char} (digit : c.isDigit = true) (rest : List Char) :
    word? (c :: rest) = none ∧ word? ('-' :: c :: rest) = none := by
  constructor <;>
  · refine word?_eq_none fun entry listed front => ?_
    simp only [words, List.mem_cons, List.not_mem_nil, or_false] at listed
    rcases listed with rfl | rfl | rfl | rfl | rfl | rfl <;>
      simp [List.cons_prefix_cons] at front <;> simp [← front.1] at digit

theorem value_unworded {c : Char} (other : c ≠ '"' ∧ c ≠ '{' ∧ c ≠ '[') (unworded : word? (c :: rest) = none) :
    value (fuel + 1) (c :: rest) = if c = '-' then number true rest else number false (c :: rest) := by
  unfold value
  split
  · next same => exact absurd (List.cons.inj same).1 other.1
  · next same => exact absurd (List.cons.inj same).1 other.2.1
  · next same => exact absurd (List.cons.inj same).1 other.2.2
  · rw [unworded]
    dsimp only
    split
    · next same =>
      obtain ⟨rfl, rfl⟩ := List.cons.inj same
      rw [if_pos rfl]
    · next unsigned =>
      rw [if_neg]
      rintro rfl
      exact unsigned rest rfl

/-- A number is read as a value, with the sign that stands before it. -/
theorem value_of_number {negative : Bool} {read : Value × List Char} (run : number negative text = .ok read) :
    value (fuel + 1) ((if negative then ['-'] else []) ++ text) = .ok read := by
  obtain ⟨c, more, rfl, digit⟩ := number_first run
  have unworded := word?_of_digit digit more
  have apart {d : Char} (other : d.isDigit = false) : c ≠ d := by
    rintro rfl
    exact Bool.false_ne_true (other.symm.trans digit)
  cases negative with
  | true => exact (value_unworded (by decide) unworded.2).trans run
  | false =>
    refine (value_unworded ⟨apart rfl, apart rfl, apart rfl⟩ unworded.1).trans ?_
    rw [if_neg (apart rfl)]
    exact run

theorem intText_eq (value : Int) :
    intText value = (if decide (value < 0) then ['-'] else []) ++ Nat.toDigits 10 value.natAbs := by
  cases value with
  | ofNat n => simp [intText]
  | negSucc n => simp [intText, Int.negSucc_lt_zero]

theorem int_reads {found : Int} (short : found.natAbs < 10 ^ digitLimit) :
    ReadsBack (intText found) (.int found) := by
  intro fuel rest ended _
  have fits : (Nat.toDigits 10 found.natAbs).length ≤ digitLimit :=
    (Nat.length_toDigits_le_iff (by decide) (by decide)).mpr short
  have read := number_integer (decide (found < 0)) (whole_toDigits found.natAbs) fits ended
  have size : (if decide (found < 0) then -(found.natAbs : Int) else found.natAbs) = found := by
    by_cases below : found < 0
    · rw [decide_eq_true below, if_pos rfl]
      omega
    · rw [decide_eq_false below, if_neg Bool.false_ne_true]
      omega
  rw [digitsValue_toDigits, size] at read
  rw [intText_eq, List.append_assoc]
  exact value_of_number read

theorem float_reads {found : Binary64} (canonical : found.Canonical) :
    ReadsBack (floatText found) (.scalar (.float found)) := by
  intro fuel rest ended _
  cases found with
  | notANumber => rfl
  | infinite negative => cases negative <;> rfl
  | finite negative mantissa exponent =>
    rw [floatText, Binary64.text]
    · by_cases zero : mantissa = 0
      · subst zero
        obtain rfl : exponent = -1074 := canonical.full.resolve_left (by decide)
        have read := number_fraction negative whole_zero (decimal_zeros 1) (by simp) ended
        rw [if_pos rfl, List.append_assoc]
        exact value_of_number read
      · have read := number_shortest negative canonical zero ended
        rw [if_neg zero]
        simp only [List.append_assoc]
        exact value_of_number read
    all_goals simp

theorem text_reads (chars : List Char) : ReadsBack (stringText chars) (.text (String.ofList chars)) := by
  intro fuel rest _ _
  have text : stringText chars ++ rest = '"' :: (chars.flatMap escapedChar ++ '"' :: rest) := by
    simp [stringText]
  rw [text, value.eq_def]
  simp only [string?_written]

theorem scalar_reads {found : Scalar} (plain : found.Plain) (storable : found.Storable)
    (run : scalarText found = .ok text) : ReadsBack text (.scalar found) := by
  cases found with
  | null =>
    cases run
    exact fun _ _ _ _ => rfl
  | bool value =>
    cases run
    cases value <;> exact fun _ _ _ _ => rfl
  | int value =>
    rw [scalarText, isLong_eq_false.mpr storable] at run
    cases run
    exact int_reads storable
  | float value =>
    cases run
    exact float_reads plain
  | text value =>
    cases run
    have read := text_reads value.toList
    rwa [String.ofList_toList] at read
  | date => cases run

end Scalars

/-! ### Lists and objects -/

/-- The first character of a value is neither a blank nor the end of a list. -/
def Opens (text : List Char) : Prop :=
  ∃ c more, text = c :: more ∧ isSpace c = false ∧ c ≠ ']'

theorem ReadsBack.opens {text : List Char} {found : Value} (reads : ReadsBack text found) : Opens text := by
  have read := reads text.length [] (by simp [Ended]) (Nat.le_succ _)
  rw [List.append_nil] at read
  cases text with
  | nil => cases read
  | cons c more =>
    have apart : c ≠ ' ' ∧ c ≠ '\t' ∧ c ≠ '\n' ∧ c ≠ '\r' ∧ c ≠ ']' := by
      refine ⟨?_, ?_, ?_, ?_, ?_⟩ <;> rintro rfl <;> cases read
    exact ⟨c, more, rfl, by simp [isSpace, apart], apart.2.2.2.2⟩

theorem skipSpace_append {spaces rest : List Char} (blank : ∀ c ∈ spaces, isSpace c = true)
    (stopped : ∀ c ∈ rest.head?, isSpace c = false) : skipSpace (spaces ++ rest) = rest :=
  Text.dropWhile_eq_iff.mpr ⟨spaces, blank, rfl, stopped⟩

theorem Opens.skipSpace {spaces text rest : List Char} (opens : Opens text)
    (blank : ∀ c ∈ spaces, isSpace c = true) : skipSpace (spaces ++ (text ++ rest)) = text ++ rest := by
  obtain ⟨c, more, rfl, visible, _⟩ := opens
  exact skipSpace_append blank (by simp [visible])

theorem ended_of_blank {spaces rest : List Char} (blank : ∀ c ∈ spaces, isSpace c = true) (ended : Ended rest) :
    Ended (spaces ++ rest) := by
  cases spaces with
  | nil => exact ended
  | cons space spaces =>
    intro first here
    obtain rfl := Option.some.inj here
    have blank := blank space List.mem_cons_self
    simp only [isSpace, Bool.or_eq_true, beq_iff_eq] at blank
    rcases blank with ((rfl | rfl) | rfl) | rfl <;> decide

section Lists

variable {fuel : Nat} {text more spaces gap after left : List Char} {item : Value} {rest : List Value}

/-- The items after one item of a list, and what follows the closing bracket. -/
def moreItems (fuel : Nat) (text : List Char) : Except Fault (List Value × List Char) :=
  match skipSpace text with
  | ']' :: after => .ok ([], after)
  | ',' :: more => items fuel (skipSpace more)
  | _ => .error .malformed

theorem moreItems_eq_ok (run : moreItems fuel left = .ok (rest, after)) :
    (skipSpace left = ']' :: after ∧ rest = []) ∨
      ∃ tail, skipSpace left = ',' :: tail ∧ items fuel (skipSpace tail) = .ok (rest, after) := by
  unfold moreItems at run
  split at run
  · next closed =>
    cases run
    exact .inl ⟨closed, rfl⟩
  · next tail separated => exact .inr ⟨tail, separated, run⟩
  · cases run

theorem items_eq_ok (read : value fuel text = .ok (item, left))
    (others : moreItems fuel left = .ok (rest, after)) : items (fuel + 1) text = .ok (item :: rest, after) := by
  rw [items, read]
  dsimp only
  rcases moreItems_eq_ok others with ⟨closed, rfl⟩ | ⟨tail, separated, run⟩
  · simp only [closed]
  · rw [separated]
    change (Json.items fuel (skipSpace tail)).map _ = _
    rw [run]
    rfl

/-- A text is read as the items after one item of a list, up to the bracket that closes the list. -/
structure ItemsBack (text : List Char) (found : List Value) : Prop where
  start : text = [] ∨ ∃ more, text = ',' :: more
  reads : ∀ fuel spaces after, (∀ c ∈ spaces, isSpace c = true) → text.length ≤ fuel →
    moreItems fuel (text ++ (spaces ++ ']' :: after)) = .ok (found, after)

theorem ItemsBack.items (here : ReadsBack text item) (others : ItemsBack more rest)
    (blank : ∀ c ∈ spaces, isSpace c = true) (enough : text.length + more.length < fuel) :
    items fuel (text ++ (more ++ (spaces ++ ']' :: after))) = .ok (item :: rest, after) := by
  obtain ⟨c, tail, filled, _⟩ := here.opens
  obtain ⟨fuel, rfl⟩ : ∃ less, fuel = less + 1 + 1 := ⟨fuel - 2, by
    rw [filled, List.length_cons] at enough
    omega⟩
  have ended : Ended (more ++ (spaces ++ ']' :: after)) := by
    rcases others.start with rfl | ⟨_, rfl⟩
    · rw [List.nil_append]
      exact ended_of_blank blank (by simp [Ended])
    · simp [Ended]
  exact items_eq_ok (here fuel _ ended (by omega)) (others.reads _ spaces after blank (by omega))

theorem ItemsBack.nil : ItemsBack [] [] where
  start := .inl rfl
  reads := fun fuel spaces after blank _ => by
    rw [List.nil_append, moreItems, skipSpace_append blank (by simp [isSpace])]
    rfl

theorem ItemsBack.cons (here : ReadsBack text item) (others : ItemsBack more rest)
    (blank : ∀ c ∈ gap, isSpace c = true) : ItemsBack (',' :: gap ++ text ++ more) (item :: rest) where
  start := .inr ⟨_, by rw [List.append_assoc, List.cons_append]⟩
  reads := fun fuel spaces after closing enough => by
    have split : ',' :: gap ++ text ++ more ++ (spaces ++ ']' :: after) =
        [] ++ ',' :: (gap ++ (text ++ (more ++ (spaces ++ ']' :: after)))) := by simp
    rw [split, moreItems, skipSpace_append (by simp) (by simp [isSpace])]
    change Json.items fuel (Json.skipSpace (gap ++ _)) = _
    rw [here.opens.skipSpace blank]
    refine others.items here closing ?_
    simp only [List.length_append, List.length_cons] at enough
    omega

theorem value_bracket (opens : Opens (skipSpace text)) (listed : items fuel (skipSpace text) = .ok (rest, after)) :
    value (fuel + 1) ('[' :: text) = .ok (.list rest, after) := by
  obtain ⟨c, tail, same, _, unclosed⟩ := opens
  rw [same] at listed
  rw [value.eq_def]
  simp only [same]
  split
  · next closed => exact absurd (List.cons.inj closed).1 unclosed
  · next more other =>
    rw [listed]
    rfl

theorem reads_list (here : ReadsBack text item) (others : ItemsBack more rest)
    (blank : ∀ c ∈ gap, isSpace c = true) (closing : ∀ c ∈ spaces, isSpace c = true) :
    ReadsBack ('[' :: gap ++ text ++ more ++ (spaces ++ [']'])) (.list (item :: rest)) := by
  intro fuel after _ enough
  have split : '[' :: gap ++ text ++ more ++ (spaces ++ [']']) ++ after =
      '[' :: (gap ++ (text ++ (more ++ (spaces ++ ']' :: after)))) := by simp
  have listed : items fuel (text ++ (more ++ (spaces ++ ']' :: after))) = .ok (item :: rest, after) := by
    refine others.items here closing ?_
    simp only [List.length_append, List.length_cons] at enough
    omega
  have first : skipSpace (gap ++ (text ++ (more ++ (spaces ++ ']' :: after)))) =
      text ++ (more ++ (spaces ++ ']' :: after)) := here.opens.skipSpace blank
  obtain ⟨c, tail, rfl, visible, unclosed⟩ := here.opens
  rw [split]
  exact value_bracket ⟨c, _, first, visible, unclosed⟩ (by rw [first]; exact listed)

end Lists

section Objects

variable {fuel : Nat} {text more spaces gap after left : List Char} {name : String} {member : Value}
  {rest : List (Scalar × Value)}

/-- The members after one member of an object, and what follows the closing brace. -/
def moreMembers (fuel : Nat) (text : List Char) : Except Fault (List (Scalar × Value) × List Char) :=
  match skipSpace text with
  | '}' :: after => .ok ([], after)
  | ',' :: more => members fuel (skipSpace more)
  | _ => .error .malformed

/-- A member of an object. -/
def memberText (name : String) (text : List Char) : List Char :=
  stringText name.toList ++ [':', ' '] ++ text

theorem memberText_eq (name : String) (text after : List Char) :
    memberText name text ++ after =
      '"' :: (name.toList.flatMap escapedChar ++ '"' :: ':' :: ' ' :: (text ++ after)) := by
  simp [memberText, stringText]

theorem moreMembers_eq_ok (run : moreMembers fuel left = .ok (rest, after)) :
    (skipSpace left = '}' :: after ∧ rest = []) ∨
      ∃ tail, skipSpace left = ',' :: tail ∧ members fuel (skipSpace tail) = .ok (rest, after) := by
  unfold moreMembers at run
  split at run
  · next closed =>
    cases run
    exact .inl ⟨closed, rfl⟩
  · next tail separated => exact .inr ⟨tail, separated, run⟩
  · cases run

theorem members_eq_ok (opens : Opens text) (read : value fuel (text ++ left) = .ok (member, more))
    (others : moreMembers fuel more = .ok (rest, after)) :
    members (fuel + 1) (memberText name text ++ left) = .ok ((.text name, member) :: rest, after) := by
  have colon : skipSpace (':' :: ' ' :: (text ++ left)) = ':' :: ' ' :: (text ++ left) := rfl
  have next : skipSpace (' ' :: (text ++ left)) = text ++ left :=
    opens.skipSpace (List.forall_mem_singleton.mpr rfl)
  rw [memberText_eq, members.eq_def]
  simp only [string?_written, String.ofList_toList, colon, next, read]
  rcases moreMembers_eq_ok others with ⟨closed, rfl⟩ | ⟨tail, separated, run⟩
  · simp only [closed]
  · rw [separated]
    change (Json.members fuel (skipSpace tail)).map _ = _
    rw [run]
    rfl

/-- A text is read as the members after one member of an object, up to the brace that closes it. -/
structure MembersBack (text : List Char) (found : List (Scalar × Value)) : Prop where
  start : text = [] ∨ ∃ more, text = ',' :: more
  reads : ∀ fuel spaces after, (∀ c ∈ spaces, isSpace c = true) → text.length ≤ fuel →
    moreMembers fuel (text ++ (spaces ++ '}' :: after)) = .ok (found, after)

theorem MembersBack.members (here : ReadsBack text member) (others : MembersBack more rest)
    (blank : ∀ c ∈ spaces, isSpace c = true) (enough : (memberText name text).length + more.length ≤ fuel) :
    members fuel (memberText name text ++ (more ++ (spaces ++ '}' :: after))) =
      .ok ((.text name, member) :: rest, after) := by
  have longer : text.length + 2 ≤ (memberText name text).length := by
    simp only [memberText, List.length_append, List.length_cons]
    omega
  obtain ⟨fuel, rfl⟩ : ∃ less, fuel = less + 1 + 1 := ⟨fuel - 2, by omega⟩
  have ended : Ended (more ++ (spaces ++ '}' :: after)) := by
    rcases others.start with rfl | ⟨_, rfl⟩
    · rw [List.nil_append]
      exact ended_of_blank blank (by simp [Ended])
    · simp [Ended]
  exact members_eq_ok here.opens (here fuel _ ended (by omega)) (others.reads _ spaces after blank (by omega))

theorem MembersBack.nil : MembersBack [] [] where
  start := .inl rfl
  reads := fun fuel spaces after blank _ => by
    rw [List.nil_append, moreMembers, skipSpace_append blank (by simp [isSpace])]
    rfl

theorem opens_memberText (name : String) (text : List Char) : Opens (memberText name text) :=
  ⟨'"', _, rfl, rfl, by decide⟩

theorem MembersBack.cons (here : ReadsBack text member) (others : MembersBack more rest)
    (blank : ∀ c ∈ gap, isSpace c = true) :
    MembersBack (',' :: gap ++ memberText name text ++ more) ((.text name, member) :: rest) where
  start := .inr ⟨_, by rw [List.append_assoc, List.cons_append]⟩
  reads := fun fuel spaces after closing enough => by
    have split : ',' :: gap ++ memberText name text ++ more ++ (spaces ++ '}' :: after) =
        [] ++ ',' :: (gap ++ (memberText name text ++ (more ++ (spaces ++ '}' :: after)))) := by simp
    rw [split, moreMembers, skipSpace_append (by simp) (by simp [isSpace])]
    change Json.members fuel (Json.skipSpace (gap ++ _)) = _
    rw [(opens_memberText name text).skipSpace blank]
    refine others.members here closing ?_
    simp only [List.length_append, List.length_cons] at enough ⊢
    omega

theorem value_brace {tail : List Char} (first : skipSpace text = '"' :: tail)
    (listed : members fuel (skipSpace text) = .ok (rest, after)) :
    value (fuel + 1) ('{' :: text) = .ok (.map (Keyed.ofEntries rest), after) := by
  rw [first] at listed
  rw [value.eq_def]
  simp only [first]
  change (members fuel ('"' :: tail)).map _ = _
  rw [listed]
  rfl

theorem reads_object (name : String) (here : ReadsBack text member) (others : MembersBack more rest)
    (blank : ∀ c ∈ gap, isSpace c = true) (closing : ∀ c ∈ spaces, isSpace c = true) :
    ReadsBack ('{' :: gap ++ memberText name text ++ more ++ (spaces ++ ['}']))
      (.map (Keyed.ofEntries ((.text name, member) :: rest))) := by
  intro fuel after _ enough
  have split : '{' :: gap ++ memberText name text ++ more ++ (spaces ++ ['}']) ++ after =
      '{' :: (gap ++ (memberText name text ++ (more ++ (spaces ++ '}' :: after)))) := by simp
  have first : skipSpace (gap ++ (memberText name text ++ (more ++ (spaces ++ '}' :: after)))) =
      memberText name text ++ (more ++ (spaces ++ '}' :: after)) :=
    (opens_memberText name text).skipSpace blank
  have listed : members fuel (memberText name text ++ (more ++ (spaces ++ '}' :: after))) =
      .ok ((.text name, member) :: rest, after) := by
    refine others.members here closing ?_
    simp only [List.length_append, List.length_cons] at enough ⊢
    omega
  rw [split]
  exact value_brace (first.trans (memberText_eq name text _)) (by rw [first]; exact listed)

end Objects

/-! ### Values -/

section Values

variable {layout : Layout} {level : Nat}

theorem followedBy_text {first : Written} (finished : first.refusal = none) (next : Written) :
    (first.followedBy next).text = first.text ++ next.text := by
  rw [Written.followedBy, finished]

theorem blank_lineBreak (layout : Layout) (level : Nat) : ∀ c ∈ layout.lineBreak level, isSpace c = true := by
  cases layout with
  | compact => simp [Layout.lineBreak]
  | indented =>
    refine List.forall_mem_cons.mpr ⟨rfl, fun c listed => ?_⟩
    rw [List.eq_of_mem_replicate listed]
    rfl

theorem exists_separator (layout : Layout) (level : Nat) :
    ∃ gap, layout.separator level = ',' :: gap ∧ ∀ c ∈ gap, isSpace c = true := by
  cases layout with
  | compact => exact ⟨[' '], rfl, List.forall_mem_singleton.mpr rfl⟩
  | indented => exact ⟨_, rfl, blank_lineBreak .indented level⟩

theorem beforeItem_eq {item : Value} (storable : item.Storable) (before : List Char) :
    beforeItem before item = ⟨before, none⟩ := by
  unfold beforeItem
  split
  · rw [isLong_eq_false.mpr (Value.storable_scalar.mp storable), if_neg Bool.false_ne_true]
  · rfl

theorem write_list_text {item : Value} {rest : List Value} (storable : item.Storable)
    (others : ∀ other ∈ rest, other.Storable) :
    (write layout level (.list (item :: rest))).text =
      '[' :: layout.lineBreak (level + 1) ++ (write layout (level + 1) item).text ++
        (writeItems layout (level + 1) rest).text ++ (layout.lineBreak level ++ [']']) := by
  have here := (write_refusal layout (level + 1) item).mpr storable
  have later := (writeItems_refusal layout (level + 1) rest).mpr others
  rw [write, beforeItem_eq storable, followedBy_text, followedBy_text, followedBy_text] <;>
    simp [here, later]

theorem writeItems_text {item : Value} {rest : List Value} (storable : item.Storable) :
    (writeItems layout level (item :: rest)).text =
      layout.separator level ++ (write layout level item).text ++ (writeItems layout level rest).text := by
  have here := (write_refusal layout level item).mpr storable
  rw [writeItems, beforeItem_eq storable, followedBy_text, followedBy_text] <;> simp [here]

theorem writeEntry_text (layout : Layout) (level : Nat) (before : List Char) (name : String) (member : Value) :
    (writeEntry layout level before (.text name, member)).text =
      before ++ memberText name (write layout level member).text := by
  simp only [writeEntry, keyName]
  rw [followedBy_text rfl]
  simp [memberText]

theorem write_map_text {name : String} {member : Value} {rest : List (Scalar × Value)}
    (storable : member.Storable) (others : ∀ other ∈ rest, other.1.Storable ∧ other.2.Storable) :
    (write layout level (.map ((.text name, member) :: rest))).text =
      '{' :: layout.lineBreak (level + 1) ++ memberText name (write layout (level + 1) member).text ++
        (writeEntries layout (level + 1) rest).text ++ (layout.lineBreak level ++ ['}']) := by
  have here := (writeEntry_refusal layout (level + 1) [] (.text name, member)).mpr ⟨trivial, storable⟩
  have later := (writeEntries_refusal layout (level + 1) rest).mpr others
  rw [write, followedBy_text, followedBy_text, followedBy_text, writeEntry_text] <;> simp [here, later]

theorem writeEntries_text {name : String} {member : Value} {rest : List (Scalar × Value)}
    (storable : member.Storable) :
    (writeEntries layout level ((.text name, member) :: rest)).text =
      layout.separator level ++ memberText name (write layout level member).text ++
        (writeEntries layout level rest).text := by
  have here := (writeEntry_refusal layout level (layout.separator level) (.text name, member)).mpr
    ⟨trivial, storable⟩
  rw [writeEntries, followedBy_text here, writeEntry_text]

mutual

theorem write_reads (layout : Layout) (level : Nat) :
    (found : Value) → found.Plain → found.Storable → ReadsBack (write layout level found).text found
  | .scalar found, .scalar plain, storable => by
    have storable := Value.storable_scalar.mp storable
    obtain ⟨text, run⟩ := scalarText_refusal.mpr storable
    rw [write, run]
    exact scalar_reads plain storable run
  | .list [], _, _ => fun _ _ _ _ => rfl
  | .list (item :: rest), .list plain, storable => by
    obtain ⟨plain, plainRest⟩ := List.forall_mem_cons.mp plain
    obtain ⟨storable, storableRest⟩ := List.forall_mem_cons.mp (Value.storable_list.mp storable)
    rw [write_list_text storable storableRest]
    exact reads_list (write_reads layout (level + 1) item plain storable)
      (writeItems_reads layout (level + 1) rest plainRest storableRest)
      (blank_lineBreak layout (level + 1)) (blank_lineBreak layout level)
  | .map [], _, _ => fun _ _ _ _ => rfl
  | .map ((key, member) :: rest), .map keys distinct plain, storable => by
    have storable := Value.storable_map.mp storable
    have apart := Keyed.ofEntries_of_apart (Keyed.apart_of_nodup keys distinct)
    obtain ⟨⟨name, rfl⟩, keysRest⟩ := List.forall_mem_cons.mp keys
    obtain ⟨plain, plainRest⟩ := List.forall_mem_cons.mp plain
    obtain ⟨⟨_, storable⟩, storableRest⟩ := List.forall_mem_cons.mp storable
    rw [write_map_text storable storableRest]
    have read := reads_object name (write_reads layout (level + 1) member plain storable)
      (writeEntries_reads layout (level + 1) rest keysRest plainRest storableRest)
      (blank_lineBreak layout (level + 1)) (blank_lineBreak layout level)
    rwa [apart] at read

theorem writeItems_reads (layout : Layout) (level : Nat) :
    (items : List Value) → (∀ item ∈ items, item.Plain) → (∀ item ∈ items, item.Storable) →
      ItemsBack (writeItems layout level items).text items
  | [], _, _ => .nil
  | item :: rest, plain, storable => by
    obtain ⟨plain, plainRest⟩ := List.forall_mem_cons.mp plain
    obtain ⟨storable, storableRest⟩ := List.forall_mem_cons.mp storable
    obtain ⟨gap, separator, blank⟩ := exists_separator layout level
    rw [writeItems_text storable, separator]
    exact .cons (write_reads layout level item plain storable)
      (writeItems_reads layout level rest plainRest storableRest) blank

theorem writeEntries_reads (layout : Layout) (level : Nat) :
    (entries : List (Scalar × Value)) → (∀ entry ∈ entries, ∃ name, entry.1 = .text name) →
      (∀ entry ∈ entries, entry.2.Plain) → (∀ entry ∈ entries, entry.1.Storable ∧ entry.2.Storable) →
      MembersBack (writeEntries layout level entries).text entries
  | [], _, _, _ => .nil
  | (key, member) :: rest, keys, plain, storable => by
    obtain ⟨⟨name, rfl⟩, keysRest⟩ := List.forall_mem_cons.mp keys
    obtain ⟨plain, plainRest⟩ := List.forall_mem_cons.mp plain
    obtain ⟨⟨_, storable⟩, storableRest⟩ := List.forall_mem_cons.mp storable
    obtain ⟨gap, separator, blank⟩ := exists_separator layout level
    rw [writeEntries_text storable, separator]
    exact .cons (write_reads layout level member plain storable)
      (writeEntries_reads layout level rest keysRest plainRest storableRest) blank

end

/-- A value reads back from the whole text that is written for it, with blanks at its end. -/
theorem read_written (layout : Layout) (level : Nat) {found : Value} (plain : found.Plain)
    (storable : found.Storable) {spaces : List Char} (blank : ∀ c ∈ spaces, isSpace c = true) :
    read ((write layout level found).text ++ spaces) = .ok found := by
  have reads := write_reads layout level found plain storable
  generalize (write layout level found).text = text at reads
  have ended : Ended spaces := by
    rw [← List.append_nil spaces]
    exact ended_of_blank blank (by simp [Ended])
  have none : ∀ c ∈ ([] : List Char), isSpace c = true := by simp
  have start : skipSpace (text ++ spaces) = text ++ spaces := reads.opens.skipSpace none
  have last : skipSpace spaces = [] := by
    rw [← List.append_nil spaces]
    exact skipSpace_append blank (by simp)
  have enough : text.length ≤ 2 * (text ++ spaces).length + 1 + 1 := by
    rw [List.length_append]
    omega
  rw [read, start, reads _ spaces ended enough]
  dsimp only
  rw [last]
  rfl

end Values

/-! ### What is read -/

section Reading

variable {negative : Bool} {text rest : List Char} {found : Value}

theorem word?_plain (run : word? text = some (found, rest)) : found.Plain := by
  obtain ⟨word, listed⟩ := mem_words run
  simp only [words, List.mem_cons, List.not_mem_nil, or_false, Prod.mk.injEq] at listed
  rcases listed with ⟨_, rfl⟩ | ⟨_, rfl⟩ | ⟨_, rfl⟩ | ⟨_, rfl⟩ | ⟨_, rfl⟩ | ⟨_, rfl⟩ <;>
    exact .scalar trivial

theorem number_plain (run : number negative text = .ok (found, rest)) : found.Plain := by
  unfold number at run
  extract_lets whole at run
  clear_value whole
  split at run
  · cases run
  · dsimp only at run
    split at run
    · cases run
      exact .scalar (Binary64.ofDecimal_canonical negative _ _)
    · split at run
      · split at run
        · cases run
        · obtain ⟨rfl, _⟩ := Prod.mk.inj (Except.ok.inj run)
          exact .scalar trivial
      · cases run
        exact .scalar (Binary64.ofDecimal_canonical negative _ _)

theorem sayable_plain : Sayable Value.Plain where
  text := Value.plain_text
  word := word?_plain
  number := number_plain
  list := .list
  object := fun {entries} each => by
    have keys : ∀ entry ∈ entries, ∃ name, entry.1 = .text name := fun entry listed => (each entry listed).1
    refine .map (fun entry listed => ?_) (Keyed.nodup_ofEntries keys) fun entry listed => ?_
    · obtain ⟨one, inside, same⟩ := List.mem_map.mp (Keyed.mem_ofEntries listed).1
      exact same ▸ keys one inside
    · obtain ⟨other, among, same⟩ := List.mem_map.mp (Keyed.mem_ofEntries listed).2
      exact same ▸ (each other among).2

/-- What a JSON text says has the form that is written and read back. -/
theorem read_plain (run : read text = .ok found) : found.Plain :=
  sayable_plain.read run

end Reading

end Json

end Scaffold
