import Mathlib
import Scaffold.Generator.Head
import Scaffold.Proofs.Text.Lines

/-!
The head of a template file by lines. A fence is a line of its own, but for a carriage return at its end. Main
statement: a text has a head exactly when its first line opens one and a later line, which a line feed ends, closes
it; the head is what stands between the two, and the body what stands behind. Reading fails for a head that is no
mapping, and for one that its format cannot read.
-/

namespace Scaffold

open Text

variable {format other : HeadFormat} {content fence row rest text after head body : List Char}
  {between behind rows : List (List Char)}

/-! ### Fences -/

/-- A line is a fence, but for a carriage return at its end. -/
def IsFence (fence line : List Char) : Prop :=
  line = fence ∨ line = fence ++ ['\r']

/-- What follows a fence that is the first line of a text, if a line feed ends it. -/
def afterFenceLine? (fence text : List Char) : Option (List Char) :=
  (afterPrefix? fence text).bind afterBreak?

theorem afterBreak?_eq_some : afterBreak? text = some rest ↔ text = '\n' :: rest ∨ text = '\r' :: '\n' :: rest := by
  unfold afterBreak?
  split
  · simp
  · simp
  · next unbroken broken =>
    constructor
    · exact nofun
    · rintro (rfl | rfl)
      · exact absurd rfl (unbroken rest)
      · exact absurd rfl (broken rest)

/-- A text begins with a fence line exactly when its first line is a fence that a line feed ends. -/
theorem afterFenceLine?_line (plain : '\n' ∉ fence) (absent : '\n' ∉ row) :
    afterFenceLine? fence (row ++ '\n' :: rest) = some after ↔ IsFence fence row ∧ after = rest := by
  have returned : '\n' ∉ fence ++ ['\r'] := by simpa using plain
  simp only [afterFenceLine?, Option.bind_eq_some_iff, afterPrefix?_eq_some, afterBreak?_eq_some]
  constructor
  · rintro ⟨_, split, rfl | rfl⟩
    · obtain ⟨rfl, rfl⟩ := (append_cons_inj absent plain).mp split
      exact ⟨.inl rfl, rfl⟩
    · rw [List.append_cons _ '\r'] at split
      obtain ⟨rfl, rfl⟩ := (append_cons_inj absent returned).mp split
      exact ⟨.inr rfl, rfl⟩
  · rintro ⟨rfl | rfl, rfl⟩
    · exact ⟨_, rfl, .inl rfl⟩
    · exact ⟨_, by rw [List.append_assoc, List.singleton_append], .inr rfl⟩

theorem afterFenceLine?_last (absent : '\n' ∉ text) : afterFenceLine? fence text = none := by
  refine Option.eq_none_iff_forall_ne_some.mpr fun after found => absent ?_
  obtain ⟨_, ended, broken⟩ := Option.bind_eq_some_iff.mp found
  rw [afterPrefix?_eq_some.mp ended]
  rcases afterBreak?_eq_some.mp broken with rfl | rfl
  · simp
  · simp

/-- A text that begins with a fence line, by its lines. -/
theorem afterFenceLine?_eq_some (plain : '\n' ∉ fence) :
    afterFenceLine? fence text = some after ↔ ∃ line, lines text = line :: lines after ∧ IsFence fence line := by
  constructor
  · intro found
    by_cases broken : '\n' ∈ text
    · obtain ⟨row, rest, rfl, absent⟩ := List.eq_append_cons_of_mem broken
      obtain ⟨isFence, rfl⟩ := (afterFenceLine?_line plain absent).mp found
      exact ⟨row, splitOn_append_cons absent _, isFence⟩
    · rw [afterFenceLine?_last broken] at found
      cases found
  · rintro ⟨line, split, isFence⟩
    obtain ⟨rest, rfl, absent, same⟩ := exists_of_lines split (splitOn_ne_nil _ _)
    refine (afterFenceLine?_line plain absent).mpr ⟨isFence, ?_⟩
    rw [← joinWith_splitOn '\n' after, ← lines, ← same, lines, joinWith_splitOn]

/-- The first line of a text that begins with no fence line is no fence, unless the text has no other line. -/
theorem not_isFence_of_none (plain : '\n' ∉ fence) (missed : afterFenceLine? fence text = none)
    (split : lines text = row :: rows) (filled : rows ≠ []) : ¬IsFence fence row := by
  intro isFence
  obtain ⟨after, _, _, rfl⟩ := exists_of_lines split filled
  have begins := (afterFenceLine?_eq_some plain).mpr ⟨row, split, isFence⟩
  rw [missed] at begins
  cases begins

/-! ### Up to the closing fence -/

/-- The text without one carriage return at its end. -/
def withoutReturn (text : List Char) : List Char :=
  if text.getLast? = some '\r' then text.dropLast else text

theorem withoutReturn_cons {c : Char} (more : c = '\r' → text ≠ []) :
    withoutReturn (c :: text) = c :: withoutReturn text := by
  cases text with
  | nil => simpa [withoutReturn] using more
  | cons d text =>
    simp only [withoutReturn, List.getLast?_cons_cons, List.dropLast_cons_cons]
    split <;> rfl

theorem withoutReturn_append_line (front text : List Char) :
    withoutReturn (front ++ '\n' :: text) = front ++ '\n' :: withoutReturn text := by
  induction front with
  | nil => exact withoutReturn_cons nofun
  | cons c front ih => rw [List.cons_append, withoutReturn_cons (by simp), ih, List.cons_append]

theorem afterFence?_cons {c : Char} (other : c ≠ '\n') (filled : c = '\r' → row ≠ []) (absent : '\n' ∉ row) :
    afterFence? fence (c :: (row ++ '\n' :: rest)) = none := by
  have unbroken : afterBreak? (c :: (row ++ '\n' :: rest)) = none := by
    refine Option.eq_none_iff_forall_ne_some.mpr fun after found => ?_
    rcases afterBreak?_eq_some.mp found with feed | feed
    · exact other (List.cons.inj feed).1
    · obtain ⟨returned, feed⟩ := List.cons.inj feed
      obtain ⟨d, row, rfl⟩ := List.exists_cons_of_ne_nil (filled returned)
      exact absent (by rw [(List.cons.inj feed).1]; exact List.mem_cons_self)
  rw [afterFence?, unbroken]
  rfl

/-- A closing fence is looked for behind each line in turn. -/
theorem untilFence?_line (absent : '\n' ∉ row) :
    untilFence? fence (row ++ '\n' :: rest) =
      match afterFenceLine? fence rest with
      | some after => some (withoutReturn row, after)
      | none => (untilFence? fence rest).map fun found => (row ++ '\n' :: found.1, found.2) := by
  have broken : afterFence? fence ('\n' :: rest) = afterFenceLine? fence rest := rfl
  have returned : afterFence? fence ('\r' :: '\n' :: rest) = afterFenceLine? fence rest := rfl
  induction row with
  | nil =>
    rw [List.nil_append, untilFence?, broken]
    cases afterFenceLine? fence rest <;> rfl
  | cons c row ih =>
    rw [List.mem_cons, not_or] at absent
    rw [List.cons_append, untilFence?, ih absent.2]
    -- A carriage return right before the line feed belongs to the break, any other one to the head.
    by_cases last : c = '\r' ∧ row = []
    · obtain ⟨rfl, rfl⟩ := last
      rw [List.nil_append, returned]
      cases afterFenceLine? fence rest with
      | some after => rfl
      | none => simp [Function.comp_def]
    · have filled : c = '\r' → row ≠ [] := fun same vacant => last ⟨same, vacant⟩
      rw [afterFence?_cons (Ne.symm absent.1) filled absent.2, withoutReturn_cons filled]
      cases afterFenceLine? fence rest with
      | some after => rfl
      | none => simp [Function.comp_def]

theorem untilFence?_last (absent : '\n' ∉ text) : untilFence? fence text = none := by
  induction text with
  | nil => rfl
  | cons c text ih =>
    rw [List.mem_cons, not_or] at absent
    have unbroken : afterFence? fence (c :: text) = none := by
      refine Option.eq_none_iff_forall_ne_some.mpr fun after found => ?_
      obtain ⟨_, feed, _⟩ := Option.bind_eq_some_iff.mp found
      rcases afterBreak?_eq_some.mp feed with feed | feed
      · exact absent.1 (List.cons.inj feed).1.symm
      · exact absent.2 (by rw [(List.cons.inj feed).2]; exact List.mem_cons_self)
    rw [untilFence?, unbroken, ih absent.2]
    rfl

/-- Of joined lines the last one loses the carriage return. -/
theorem withoutReturn_joinWith_cons (row : List Char) (filled : rows ≠ []) :
    withoutReturn (joinWith ['\n'] (row :: rows)) = row ++ '\n' :: withoutReturn (joinWith ['\n'] rows) := by
  rw [← withoutReturn_append_line, joinWith.eq_3 _ _ _ filled, List.append_assoc]
  rfl

/-! ### Heads by lines -/

/-- A closing fence among lines, the first one from the second line on: the lines before it and those behind it, of
which there is one at least as a line feed ends the fence. -/
def ClosedBy (fence : List Char) (rows between behind : List (List Char)) : Prop :=
  ∃ closing, rows = between ++ closing :: behind ∧ between ≠ [] ∧ behind ≠ [] ∧ IsFence fence closing ∧
    ∀ line ∈ between.tail, ¬IsFence fence line

/-- The first closing fence stands right behind the first line, or the lines behind that, which begin with no fence,
are closed by it. -/
theorem closedBy_cons :
    ClosedBy fence (row :: rows) between behind ↔
      (between = [row] ∧ ∃ closing, rows = closing :: behind ∧ behind ≠ [] ∧ IsFence fence closing) ∨
        ∃ inner, between = row :: inner ∧ ClosedBy fence rows inner behind ∧
          ∀ line ∈ rows.head?, ¬IsFence fence line := by
  constructor
  · rintro ⟨closing, split, begun, filled, isFence, first⟩
    obtain ⟨_, between, rfl⟩ := List.exists_cons_of_ne_nil begun
    rw [List.cons_append] at split
    obtain ⟨rfl, rfl⟩ := List.cons.inj split
    cases between with
    | nil => exact .inl ⟨rfl, closing, rfl, filled, isFence⟩
    | cons next inner =>
      obtain ⟨unfenced, first⟩ := List.forall_mem_cons.mp first
      exact .inr ⟨_, rfl, ⟨closing, rfl, List.cons_ne_nil _ _, filled, isFence, first⟩, by simpa using unfenced⟩
  · rintro (⟨rfl, closing, rfl, filled, isFence⟩ |
      ⟨inner, rfl, ⟨closing, rfl, begun, filled, isFence, first⟩, unfenced⟩)
    · exact ⟨closing, rfl, List.cons_ne_nil _ _, filled, isFence, nofun⟩
    · obtain ⟨next, inner, rfl⟩ := List.exists_cons_of_ne_nil begun
      refine ⟨closing, rfl, List.cons_ne_nil _ _, filled, isFence, ?_⟩
      exact List.forall_mem_cons.mpr ⟨unfenced next rfl, first⟩

/-- The lines of what stands before the first closing fence and of what stands behind it. -/
theorem untilFence?_eq_some (plain : '\n' ∉ fence) :
    untilFence? fence text = some (head, body) ↔
      ∃ between behind, ClosedBy fence (lines text) between behind ∧
        head = withoutReturn (joinWith ['\n'] between) ∧ body = joinWith ['\n'] behind := by
  induction text using line_induction generalizing head body with
  | last row absent =>
    rw [untilFence?_last absent, lines, splitOn_of_absent absent]
    constructor
    · intro impossible
      cases impossible
    · rintro ⟨_, _, closed, _⟩
      rcases closedBy_cons.mp closed with ⟨_, _, none, _⟩ | ⟨_, _, ⟨_, none, _⟩, _⟩
      · cases none
      · simp at none
  | line row rest absent ih =>
    rw [untilFence?_line absent, lines, splitOn_append_cons absent, ← lines]
    cases found : afterFenceLine? fence rest with
    | some after =>
      -- the next line is the fence, so the head is this line alone
      obtain ⟨closing, split, isFence⟩ := (afterFenceLine?_eq_some plain).mp found
      simp only [closedBy_cons, split]
      constructor
      · intro same
        obtain ⟨rfl, rfl⟩ := Prod.mk.inj (Option.some.inj same)
        exact ⟨[row], lines after, .inl ⟨rfl, closing, rfl, splitOn_ne_nil _ _, isFence⟩, rfl,
          (joinWith_splitOn _ _).symm⟩
      · rintro ⟨_, others, ⟨rfl, _, cut, _⟩ | ⟨_, _, _, unfenced⟩, rfl, rfl⟩
        · obtain ⟨_, rfl⟩ := List.cons.inj cut
          rw [lines, joinWith_splitOn]
          rfl
        · exact absurd isFence (unfenced closing rfl)
    | none =>
      -- the next line is no fence, so the head goes on with it
      simp only [closedBy_cons, Option.map_eq_some_iff, Prod.exists, ih, Prod.mk.injEq]
      constructor
      · rintro ⟨_, _, ⟨inner, behind, closed, rfl, rfl⟩, rfl, rfl⟩
        obtain ⟨closing, split, begun, _⟩ := id closed
        obtain ⟨next, inner, rfl⟩ := List.exists_cons_of_ne_nil begun
        refine ⟨_, behind, .inr ⟨_, rfl, closed, ?_⟩, (withoutReturn_joinWith_cons row begun).symm, rfl⟩
        rw [split]
        rintro _ ⟨⟩
        exact not_isFence_of_none plain found split (by simp)
      · rintro ⟨_, behind, ⟨rfl, closing, split, filled, isFence⟩ | ⟨inner, rfl, closed, _⟩, rfl, rfl⟩
        · exact absurd isFence (not_isFence_of_none plain found split filled)
        · obtain ⟨_, _, begun, _⟩ := id closed
          exact ⟨_, _, ⟨inner, behind, closed, rfl, rfl⟩, (withoutReturn_joinWith_cons row begun).symm, rfl⟩

/-- The lines of a text with a head: a fence, the lines of the head, another fence, and the lines behind, of which
there is one at least as a line feed ends the fence. -/
structure HeadLines (format : HeadFormat) (content : List Char) (between behind : List (List Char)) : Prop where
  cut : ∃ opening closing, lines content = opening :: (between ++ closing :: behind) ∧
    IsFence format.opening opening ∧ IsFence format.closing closing
  begun : between ≠ []
  ended : behind ≠ []

/-- The lines of a text with a head up to the first fence that closes it. -/
structure FirstHeadLines (format : HeadFormat) (content : List Char) (between behind : List (List Char)) : Prop
    extends HeadLines format content between behind where
  first : ∀ line ∈ between.tail, ¬IsFence format.closing line

theorem HeadFormat.opening_plain (format : HeadFormat) : '\n' ∉ format.opening := by
  cases format <;> decide

theorem HeadFormat.closing_plain (format : HeadFormat) : '\n' ∉ format.closing := by
  cases format <;> decide

/-- The first line of a text tells the format of its head. -/
theorem HeadLines.format_unique {between' behind' : List (List Char)}
    (headed : HeadLines format content between behind) (headed' : HeadLines other content between' behind') :
    format = other := by
  obtain ⟨opening, _, split, isFence, _⟩ := headed.cut
  obtain ⟨opening', _, split', isFence', _⟩ := headed'.cut
  obtain ⟨rfl, _⟩ := List.cons.inj (split.symm.trans split')
  have dashes : ∀ line, IsFence HeadFormat.yaml.opening line → line.head? = some '-' := by
    rintro line (rfl | rfl) <;> rfl
  have slash : ∀ line, IsFence HeadFormat.json.opening line → line.head? = some '/' := by
    rintro line (rfl | rfl) <;> rfl
  cases format <;> cases other
  · rfl
  · have same := (dashes _ isFence).symm.trans (slash _ isFence')
    simp at same
  · have same := (slash _ isFence).symm.trans (dashes _ isFence')
    simp at same
  · rfl

/-- If some line closes a head, then a first one does. -/
theorem HeadLines.exists_first {between behind : List (List Char)} (headed : HeadLines format content between behind) :
    ∃ between behind, FirstHeadLines format content between behind := by
  by_cases first : ∀ line ∈ between.tail, ¬IsFence format.closing line
  · exact ⟨between, behind, headed, first⟩
  · simp only [not_forall, not_not] at first
    obtain ⟨line, member, isFence⟩ := first
    obtain ⟨opening, closing, split, opens, _⟩ := headed.cut
    obtain ⟨row, rows, rfl⟩ := List.exists_cons_of_ne_nil headed.begun
    obtain ⟨front, back, rfl⟩ : ∃ front back, rows = front ++ line :: back := List.append_of_mem member
    have shorter : HeadLines format content (row :: front) (back ++ closing :: behind) :=
      ⟨⟨opening, line, by rw [split]; simp, opens, isFence⟩, by simp, by simp⟩
    exact HeadLines.exists_first shorter
termination_by between.length
decreasing_by
  subst_vars
  simp

theorem firstHeadLines_iff :
    FirstHeadLines format content between behind ↔
      ∃ opening rows, lines content = opening :: rows ∧ IsFence format.opening opening ∧
        ClosedBy format.closing rows between behind := by
  constructor
  · rintro ⟨⟨⟨opening, closing, split, opens, closes⟩, begun, ended⟩, first⟩
    exact ⟨opening, _, split, opens, closing, rfl, begun, ended, closes, first⟩
  · rintro ⟨opening, _, split, opens, closing, rfl, begun, ended, closes, first⟩
    exact ⟨⟨⟨opening, closing, split, opens, closes⟩, begun, ended⟩, first⟩

theorem splitHead?_eq_some :
    splitHead? format content = some (head, body) ↔
      ∃ between behind, FirstHeadLines format content between behind ∧
        head = withoutReturn (joinWith ['\n'] between) ∧ body = joinWith ['\n'] behind := by
  have parts : splitHead? format content =
      (afterFenceLine? format.opening content).bind (untilFence? format.closing) := by
    unfold splitHead? afterFenceLine?
    rw [Option.bind_assoc]
    rfl
  simp only [parts, Option.bind_eq_some_iff, afterFenceLine?_eq_some format.opening_plain,
    untilFence?_eq_some format.closing_plain, firstHeadLines_iff]
  constructor
  · rintro ⟨after, ⟨opening, split, opens⟩, between, behind, closed, rfl, rfl⟩
    exact ⟨between, behind, ⟨opening, _, split, opens, closed⟩, rfl, rfl⟩
  · rintro ⟨between, behind, ⟨opening, rows, split, opens, closed⟩, rfl, rfl⟩
    have filled : rows ≠ [] := by
      obtain ⟨_, rfl, _⟩ := closed
      simp
    obtain ⟨after, _, _, rfl⟩ := exists_of_lines split filled
    exact ⟨after, ⟨opening, split, opens⟩, between, behind, closed, rfl, rfl⟩

/-! ### Reading heads -/

variable {value : Value} {entries : Record} {error : Error}

/-- The entries of a value that is a mapping. Null counts as a mapping without entries. -/
def Value.Maps (value : Value) (entries : Record) : Prop :=
  value = .map entries ∨ value = .null ∧ entries = []

theorem headEntries_eq_ok : headEntries format value = .ok entries ↔ value.Maps entries := by
  unfold headEntries Value.Maps
  split
  · simp [eq_comm]
  · simp
  · next noNull noMap =>
    refine ⟨nofun, ?_⟩
    rintro (same | ⟨same, _⟩)
    · exact absurd same (noMap entries)
    · exact absurd same noNull

theorem headEntries_refused (unmapped : ∀ entries, ¬value.Maps entries) :
    headEntries format value = .error (.headNotMapping format.name) := by
  unfold headEntries
  split
  · exact absurd (.inr ⟨rfl, rfl⟩) (unmapped [])
  · next entries => exact absurd (.inl rfl) (unmapped entries)
  · rfl

/-- A format fails to read a head as such, or for a number or a date out of range. -/
theorem HeadFormat.read_eq_error (failed : format.read head = .error error) :
    (∃ detail, error = .unreadableHead format.name detail) ∨ ∃ detail, error = .badValue detail := by
  unfold read at failed
  split at failed
  · split at failed
    · cases failed
    · exact .inl ⟨_, (Except.error.inj failed).symm⟩
    · exact .inr ⟨_, (Except.error.inj failed).symm⟩
  · split at failed
    · cases failed
    · exact .inl ⟨_, (Except.error.inj failed).symm⟩
    · exact .inr ⟨_, (Except.error.inj failed).symm⟩

theorem readHead_of_splitHead? (headed : splitHead? format content = some (head, body)) :
    readHead content = (format.read head >>= headEntries format).map fun entries => (entries, trimLeft body) := by
  have taken (format : HeadFormat) :
      (do return (← headEntries format (← format.read head), trimLeft body) : Except Error _) =
        (format.read head >>= headEntries format).map fun entries => (entries, trimLeft body) := by
    cases format.read head with
    | error => rfl
    | ok value => cases headEntries format value <;> rfl
  cases format with
  | yaml =>
    rw [readHead, headed]
    exact taken .yaml
  | json =>
    have other : splitHead? .yaml content = none := by
      refine Option.eq_none_iff_forall_ne_some.mpr fun found split => ?_
      obtain ⟨_, _, first, _⟩ := splitHead?_eq_some.mp split
      obtain ⟨_, _, second, _⟩ := splitHead?_eq_some.mp headed
      cases first.toHeadLines.format_unique second.toHeadLines
    rw [readHead, other, headed]
    exact taken .json

/-- Reading the head of a text, by its lines. The text has a head of a format when its first line is a fence that
opens one and a line from the third one on, which a line feed ends, is a fence that closes it. The first such line
counts, and the head is what stands between the two fences, the body what stands behind. A head that is a mapping,
or nothing, gives its entries; one that is anything else, or that its format cannot read, is told as written wrongly.
Only a number or a date out of range in the head is told otherwise. -/
theorem readHead_by_lines (content : List Char) :
    (∀ format, (∃ between behind, HeadLines format content between behind) ↔
        ∃ between behind, FirstHeadLines format content between behind) ∧
      ((∀ format between behind, ¬HeadLines format content between behind) → readHead content = .ok ([], content)) ∧
      ∀ format between behind, FirstHeadLines format content between behind →
        let head := withoutReturn (joinWith ['\n'] between)
        let body := trimLeft (joinWith ['\n'] behind)
        (∀ result, readHead content = .ok result ↔
            ∃ value entries, format.read head = .ok value ∧ value.Maps entries ∧ result = (entries, body)) ∧
          ((∃ error, readHead content = .error error ∧ error.errorClass = .validation) ↔
            (∃ detail, format.read head = .error (.unreadableHead format.name detail)) ∨
              ∃ value, format.read head = .ok value ∧ ∀ entries, ¬value.Maps entries) ∧
          (∀ detail, readHead content = .error (.badValue detail) ↔ format.read head = .error (.badValue detail)) ∧
          (((∃ error, readHead content = .error error ∧ error.errorClass = .validation) ↔
              ¬∃ value entries, format.read head = .ok value ∧ value.Maps entries) ↔
            ∀ detail, format.read head ≠ .error (.badValue detail)) := by
  refine ⟨fun format => ⟨fun ⟨_, _, headed⟩ => headed.exists_first,
    fun ⟨_, _, headed⟩ => ⟨_, _, headed.toHeadLines⟩⟩, fun headless => ?_, fun format between behind headed => ?_⟩
  · have none (format : HeadFormat) : splitHead? format content = none := by
      refine Option.eq_none_iff_forall_ne_some.mpr fun found split => ?_
      obtain ⟨_, _, headed, _⟩ := splitHead?_eq_some.mp split
      exact headless _ _ _ headed.toHeadLines
    rw [readHead, none, none]
  · intro head body
    have read : readHead content = (format.read head >>= headEntries format).map fun entries => (entries, body) :=
      readHead_of_splitHead? (splitHead?_eq_some.mpr ⟨between, behind, headed, rfl, rfl⟩)
    rw [read]
    cases known : format.read head with
    | error error =>
      rcases HeadFormat.read_eq_error known with ⟨detail, rfl⟩ | ⟨detail, rfl⟩
      · simp [Bind.bind, Except.bind, Except.map, Error.errorClass]
      · simp [Bind.bind, Except.bind, Except.map, Error.errorClass]
    | ok value =>
      by_cases mapped : ∃ entries, value.Maps entries
      · obtain ⟨entries, maps⟩ := mapped
        have same (others : Record) : value.Maps others ↔ others = entries := by
          rw [← @headEntries_eq_ok format, headEntries_eq_ok.mpr maps, Except.ok.injEq, eq_comm]
        simp [Bind.bind, Except.bind, Except.map, headEntries_eq_ok.mpr maps, same, eq_comm]
      · rw [not_exists] at mapped
        simp [Bind.bind, Except.bind, Except.map, Error.errorClass, headEntries_refused mapped, mapped]

/-- A head with a day that no calendar has. -/
def datedText : List Char :=
  "---\nd: 2020-13-45\n---\nx".toList

/-- A head whose lines end in carriage returns, with another fence in the body. -/
def returnedText : List Char :=
  "---\r\nname: x\r\n---\r\n\r\n---\r\ny".toList

/-- The body of a text begins behind the first fence that closes its head. A head with a day that is none is not
told as written wrongly. -/
theorem readHead_by_lines_of_returns :
    (FirstHeadLines .yaml returnedText ["name: x\r".toList] [['\r'], "---\r".toList, ['y']] ∧
        readHead returnedText = .ok ([(.text "name", .text "x")], "---\r\ny".toList)) ∧
      FirstHeadLines .yaml datedText ["d: 2020-13-45".toList] [['x']] ∧
        readHead datedText = .error (.badValue "no such day") ∧
        ¬∃ error, readHead datedText = .error error ∧ error.errorClass = .validation := by
  have returned : FirstHeadLines .yaml returnedText ["name: x\r".toList] [['\r'], "---\r".toList, ['y']] :=
    ⟨⟨⟨"---\r".toList, "---\r".toList, by cbv, .inr rfl, .inr rfl⟩, by simp, by simp⟩, by simp⟩
  have dated : FirstHeadLines .yaml datedText ["d: 2020-13-45".toList] [['x']] :=
    ⟨⟨⟨"---".toList, "---".toList, by cbv, .inl rfl, .inl rfl⟩, by simp, by simp⟩, by simp⟩
  obtain ⟨reads, _⟩ := (readHead_by_lines returnedText).2.2 _ _ _ returned
  obtain ⟨_, told, ranged, _⟩ := (readHead_by_lines datedText).2.2 _ _ _ dated
  have unread : HeadFormat.yaml.read (withoutReturn (joinWith ['\n'] ["d: 2020-13-45".toList])) =
      .error (.badValue "no such day") := by cbv
  refine ⟨⟨returned, (reads _).mpr ⟨.map [(.text "name", .text "x")], _, by cbv, .inl rfl, by cbv⟩⟩, dated,
    (ranged _).mpr unread, fun wrong => ?_⟩
  rcases told.mp wrong with ⟨_, failed⟩ | ⟨_, read, _⟩
  · cases unread.symm.trans failed
  · cases unread.symm.trans read

end Scaffold
