import Scaffold.Proofs.Extract.ParamMatches
import Scaffold.Proofs.Value.Fields

/-!
The values that are read off a filled line. Each parameter is found once, in the order of their first
use, with the value that stands for it in the line.
-/

namespace Scaffold

open Text Template

/-- A line with other runs of blanks in its texts. -/
def Template.ParamLine.Respaced (line line' : ParamLine) : Prop :=
  Extract.RespacedPlaces line.places line'.places ∧ Text.Respaced line.last line'.last

namespace Extract

open Pattern

variable {line line' : ParamLine} {hints : Hints} {value : String → Value} {name : String}

/-- The parameters of a line have values of their kinds. -/
def Assigned (line : ParamLine) (hints : Hints) (value : String → Value) : Prop :=
  ∀ name ∈ line.names, Suited (paramKind hints name) (value name)

/-- The matcher of a parameter of a line. -/
def lineParam (line : ParamLine) (hints : Hints) (name : String) : Matcher :=
  .param name (paramPattern line.trimmed name (paramKind hints name)) (paramKind hints name)

/-- The filled line is matched from its first character on, with the text of the value. -/
theorem search?_paramPattern (shaped : line.Shaped) (assigned : Assigned line hints value)
    (spaced : line.Respaced line') (listed : name ∈ line.names) :
    ∃ found, (paramPattern line.trimmed name (paramKind hints name)).search?
        (line'.fill fun name => (value name).shown) = some found ∧
      found.capture? valueName = some (value name).shown := by
  obtain ⟨core, blanks, split, blank, respaced⟩ := spaced.2.trimRight
  obtain ⟨_, _, _, ends⟩ := trimRight_spec line.last
  have begins : ∀ c ∈ line.trimmed.last.head?, isEnd c = true := by
    have last := shaped.trimmed.last
    intro c first
    rw [Option.mem_def.mp first] at last
    exact last
  have stopped : ∀ c ∈ blanks.head?, isEnd c = true :=
    fun c first => isEnd_of_isBlank (blank c (List.mem_of_mem_head? first))
  have fresh : ([] : List String).contains valueName = true →
      ([] : List (String × List Char)).lookup valueName = some (value name).shown := nofun
  obtain ⟨finish, first, caught⟩ := first_paramPatterns spaced.1 respaced
    shaped.trimmed.plain.plainPlaces shaped.trimmed.plain.literal_last shaped.between begins ends stopped
    (List.forall_mem_map.mp assigned) fresh
  rw [ParamLine.fill, split]
  exact ⟨_, search?_first first, caught (.inr listed)⟩

theorem extract_lineParam (shaped : line.Shaped) (assigned : Assigned line hints value)
    (spaced : line.Respaced line') (listed : name ∈ line.names) :
    (lineParam line hints name).extract (line'.fill fun name => (value name).shown) =
      .ok (some (value name)) := by
  obtain ⟨found, matched, kept⟩ := search?_paramPattern shaped assigned spaced listed
  have read : captured found valueName = .ok (value name).shown := by
    rw [captured, kept]
    exact congrArg Except.ok (assigned name listed).tight.trim_eq
  have same := (assigned name listed).read
  rw [lineParam, Matcher.extract, matched]
  change (do let text ← captured found valueName; _) = _
  rw [read]
  conv_rhs => rw [← same]
  cases paramKind hints name <;> rfl

/-- Matchers of distinct names that find something give all that they find, in their order. -/
theorem extractFrom_map {source : List Char} {names claimed : List String}
    {matcher : String → Matcher} (distinct : names.Nodup) (new : ∀ name ∈ names, name ∉ claimed)
    (found : ∀ name ∈ names,
      (matcher name).name = name ∧ (matcher name).extract source = .ok (some (value name))) :
    Extractor.extractFrom source claimed (names.map matcher) =
      .ok (names.map fun name => (name, value name)) := by
  induction names generalizing claimed with
  | nil => rfl
  | cons name names ih =>
    obtain ⟨⟨named, here⟩, found⟩ := List.forall_mem_cons.mp found
    obtain ⟨unclaimed, new⟩ := List.forall_mem_cons.mp new
    obtain ⟨apart, distinct⟩ := List.nodup_cons.mp distinct
    have later : ∀ other ∈ names, other ∉ name :: claimed := by
      intro other member
      rw [List.mem_cons, not_or]
      exact ⟨fun same => apart (same ▸ member), new other member⟩
    rw [List.map_cons, Extractor.extractFrom, named, if_neg (by simpa using unclaimed), here,
      ih distinct later found]
    rfl

/-- A filled line gives the values of its parameters, in the order of their first use. -/
theorem extract_fill (shaped : line.Shaped) (assigned : Assigned line hints value)
    (spaced : line.Respaced line') (template : List Char) :
    Extractor.extract ⟨template, line.params.map (lineParam line hints)⟩
        (line'.fill fun name => (value name).shown) =
      .ok (line.params.map fun name => (name, value name)) :=
  extractFrom_map (nodup_eraseDups line.names) (fun _ _ => List.not_mem_nil) fun _ listed =>
    ⟨rfl, extract_lineParam shaped assigned spaced (List.mem_eraseDups.mp listed)⟩

end Extract

end Scaffold
