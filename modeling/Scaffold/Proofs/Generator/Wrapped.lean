import Mathlib
import Scaffold.Generator.File
import Scaffold.Proofs.Outcome
import Scaffold.Proofs.Sentinel.LineByLine
import Scaffold.Proofs.Sentinel.Decoding
import Scaffold.Proofs.Text.Lines
import Scaffold.Proofs.Text.Trim

/-!
Template files that are generated themselves. Their text stands between two sentinels, which are left out with
their lines when the file is loaded. Main statement: the file loads as if it held the text alone.
-/

namespace Scaffold

open Text Sentinel

variable {dialect : Dialect} {name : String} {text front : List Char} {path path' : Path}
  {store store' : Store}

/-! ### Lines that hold sentinels -/

theorem holdsSentinel_iff :
    holdsSentinel text = true ↔ startTag <:+: text ∨ endTag <:+: text := by
  rw [holdsSentinel, Bool.or_eq_true, holds_iff, holds_iff]

namespace Sentinel.Dialect

variable {generator : String} {unitId : Option String}

theorem Unbroken.ending (unbroken : dialect.Unbroken) : ∀ c ∈ dialect.ending, isBreak c = false := by
  unfold Dialect.ending
  split
  · simp
  · exact List.forall_mem_cons.mpr ⟨rfl, unbroken.closer⟩

theorem start_line (unbroken : dialect.Unbroken) (factory : dialect.Quotable generator)
    (identity : ∀ id ∈ unitId, dialect.Quotable id) :
    ∀ c ∈ dialect.start generator unitId, isBreak c = false := by
  rw [start_eq, List.forall_mem_append, List.forall_mem_cons, List.forall_mem_append, List.forall_mem_append]
  exact ⟨unbroken.opener, rfl, List.all_iff_forall_prop.mp (by decide), attributesOf_line factory identity,
    unbroken.ending⟩

theorem finish_line (unbroken : dialect.Unbroken) : ∀ c ∈ dialect.finish, isBreak c = false := by
  rw [finish_eq, List.forall_mem_append, List.forall_mem_cons, List.forall_mem_append]
  exact ⟨unbroken.opener, rfl, List.all_iff_forall_prop.mp (by decide), unbroken.ending⟩

theorem startTag_infix_start (dialect : Dialect) (generator : String) (unitId : Option String) :
    startTag <:+: dialect.start generator unitId := by
  rw [start_eq]
  exact List.infix_append_of_infix_right (List.infix_cons (List.infix_append_of_infix_left List.infix_rfl))

theorem endTag_infix_finish (dialect : Dialect) : endTag <:+: dialect.finish := by
  rw [finish_eq]
  exact List.infix_append_of_infix_right (List.infix_cons (List.infix_append_of_infix_left List.infix_rfl))

/-- A wrapped text that one line feed ends stands as it is between the lines of its sentinels. -/
theorem wrap_ended (dialect : Dialect) (ends : front.getLast? ≠ some '\n') (generator : String)
    (unitId : Option String) :
    dialect.wrap (front ++ ['\n']) generator unitId ++ ['\n'] =
      dialect.start generator unitId ++ '\n' :: (front ++ '\n' :: (dialect.finish ++ ['\n'])) := by
  have kept : dropRightWhile (· == '\n') front = front :=
    dropRightWhile_eq_self fun c last => beq_eq_false_iff_ne.mpr fun same => ends (same ▸ last)
  rw [wrap, dropRightWhile_append_of_all (by simp), kept]
  simp only [List.append_assoc, List.cons_append, List.nil_append]

end Sentinel.Dialect

/-- Lines that hold sentinels before and behind a text do not count. -/
theorem withoutSentinels_between {first last : List Char} (whole : '\n' ∉ first) (whole' : '\n' ∉ last)
    (marked : holdsSentinel (first ++ ['\n']) = true) (marked' : holdsSentinel (last ++ ['\n']) = true)
    (front : List Char) :
    withoutSentinels (first ++ '\n' :: (front ++ '\n' :: (last ++ ['\n']))) =
      withoutSentinels (front ++ ['\n']) := by
  rw [withoutSentinels, wholeLines_line whole, wholeLines_append, wholeLines_line whole', withoutSentinels]
  simp [marked, marked', wholeLines]

/-! ### Loading -/

/-- Results that differ at most in the path that a missing field is reported for. -/
inductive Alike (path path' : Path) {α : Type} : Except Error α → Except Error α → Prop
  | same (result : Except Error α) : Alike path path' result result
  | missing (field : String) :
    Alike path path' (.error (.missingField path.toString field)) (.error (.missingField path'.toString field))

theorem Alike.bind {α β : Type} {first second : Except Error α} {next next' : α → Except Error β}
    (alike : Alike path path' first second) (later : ∀ value, Alike path path' (next value) (next' value)) :
    Alike path path' (first >>= next) (second >>= next') := by
  cases alike with
  | same =>
    cases first with
    | error error => exact .same _
    | ok value => exact later value
  | missing field => exact .missing field

namespace Generator

theorem required_alike (path path' : Path) (head : Record) (field : String) :
    Alike path path' (required path head field) (required path' head field) := by
  unfold required
  dsimp only
  split
  · exact .same _
  · exact .missing field

/-- Two texts that are the same without their sentinels load alike. -/
theorem ofText_alike (path path' : Path) {text other : List Char}
    (same : withoutSentinels (unifyBreaks text) = withoutSentinels (unifyBreaks other)) :
    Alike path path' (ofText path text) (ofText path' other) := by
  rw [ofText, ofText, same]
  exact .bind (.same _) fun _ => .bind (required_alike _ _ _ _) fun _ => .bind (required_alike _ _ _ _) fun _ =>
    .same _

theorem load_of_read (held : store.read path = .ok text) : load store path = ofText path text := by
  rw [load, held]
  rfl

/-- A template file whose text has been wrapped by sentinels loads like a file of the text alone. -/
theorem load_wrapped (known : dialect ∈ Dialect.standard) (plain : Registry.isPlainName name.toList = true)
    (once : front.getLast? ≠ some '\n') (held : store.read path = .ok (front ++ ['\n']))
    (held' : store'.read path' = .ok (dialect.wrap (front ++ ['\n']) name none ++ ['\n'])) :
    Alike path path' (load store path) (load store' path') := by
  have unbroken := Dialect.unbroken_of_standard known
  have opening : ∀ c ∈ dialect.start name none, isBreak c = false :=
    Dialect.start_line unbroken (Dialect.quotable_of_isPlainName known plain) nofun
  have closing := Dialect.finish_line unbroken
  obtain ⟨unified, cut⟩ := unifyBreaks_append_line front
  rw [load_of_read held, load_of_read held']
  refine ofText_alike path path' ?_
  rw [Dialect.wrap_ended dialect once, unifyBreaks_line (carriageReturn_not_mem opening), cut, cut,
    unifyBreaks_line (carriageReturn_not_mem closing)]
  refine (withoutSentinels_between (lineFeed_not_mem opening) (lineFeed_not_mem closing) ?_ ?_ unified).symm
  · exact holdsSentinel_iff.mpr (.inl (List.infix_append_of_infix_left (Dialect.startTag_infix_start _ _ _)))
  · exact holdsSentinel_iff.mpr (.inr (List.infix_append_of_infix_left (Dialect.endTag_infix_finish _)))

/-- A template with a head. -/
def greetingLines : List Char :=
  "/*---\n\x7b\"name\": \"hello\", \"description\": \"A greeting\"\x7d\n---*/\n\x7b\x7bx\x7d\x7d".toList

/-- The path of a file of the template alone. -/
def plainPath : Path :=
  ⟨.relative, ["plain.j2"]⟩

/-- The path of a file that has been generated from the template. -/
def madePath : Path :=
  ⟨.relative, ["made.j2"]⟩

/-- The template in both files. -/
def greetingFiles : Store where
  entries :=
    [(["plain.j2"], .file (.text (greetingLines ++ ['\n']))),
      (["made.j2"], .file (.text (Dialect.template.wrap (greetingLines ++ ['\n']) "maker" none ++ ['\n'])))]
  here := []

/-- Both files give the same generator. -/
theorem load_wrapped_greeting :
    ∃ generator, load greetingFiles plainPath = .ok generator ∧ load greetingFiles madePath = .ok generator ∧
      generator.name = "hello" := by
  have named : (load greetingFiles plainPath).map Generator.name = .ok "hello" := by cbv
  obtain ⟨generator, loaded, called⟩ := map_eq_ok.mp named
  have alike := @load_wrapped Dialect.template "maker" greetingLines plainPath madePath greetingFiles greetingFiles
    (by decide) (by decide) (by cbv; decide) (by cbv) (by cbv)
  refine ⟨generator, loaded, ?_, called⟩
  rw [loaded] at alike
  generalize load greetingFiles madePath = other at alike ⊢
  cases alike
  rfl

end Generator

end Scaffold
