import Scaffold.Proofs.Registry.Loading
import Scaffold.Proofs.Store.Tree

/-!
Loading the template files of a directory. Each file gives its generator or one line that names it, and
goes on to the next one, but for a few heads that nobody expects: those with a number or a date out of
range, with parameters that are no mapping, or with examples that have no items. One such file stops the
loading of all files.
-/

namespace Scaffold

variable {value : Value}

/-! ### Declarations -/

namespace Value

/-- A value is a mapping, unless it counts as false. -/
def MapOrNothing (value : Value) : Prop :=
  value.truthy = true → ∃ entries, value = .map entries

/-- A value has items: those of a list, the keys of a map, or the characters of a text. -/
def HasItems (value : Value) : Prop :=
  (∃ items, value = .list items) ∨ (∃ entries, value = .map entries) ∨
    ∃ text, value = .scalar (.text text)

theorem parts_stops : Stops value.parts ↔ ¬value.HasItems := by
  unfold parts HasItems
  split
  · simp
  · simp
  · simp
  · next noList noMap noText => simpa [Error.errorClass] using ⟨noList, noMap, noText⟩

end Value

namespace Param

variable {name : Scalar} {record : Record}

/-- A value declares a parameter: it is the name of a type, or a mapping whose fields are a mapping if
there are any. -/
def Declares (value : Value) : Prop :=
  (∃ type, value = .scalar (.text type)) ∨
    ∃ entries, value = .map entries ∧ ((Keyed.field? entries "fields").getD .null).MapOrNothing

theorem fieldsOf_succeeds : (∃ fields, fieldsOf name value = .ok fields) ↔ value.MapOrNothing := by
  unfold fieldsOf Value.MapOrNothing
  split
  · next vacant => simpa using fun filled => absurd filled (by simpa using vacant)
  · next filled =>
    split
    · simp
    · next other => simpa using ⟨by simpa using filled, other⟩

theorem ofValue_succeeds : (∃ param, ofValue name value = .ok param) ↔ Declares value := by
  unfold ofValue Declares
  split
  · simp
  · next entries =>
    simp only [bind_eq_ok, Value.map.injEq, exists_eq_left', reduceCtorEq, exists_false, false_or]
    rw [← @fieldsOf_succeeds _ name]
    exact ⟨fun ⟨_, fields, given, _⟩ => ⟨fields, given⟩, fun ⟨fields, given⟩ => ⟨_, fields, given, rfl⟩⟩
  · next noText noMap => simpa using ⟨noText, fun entries same => (noMap entries same).elim⟩

theorem ofRecord_succeeds :
    (∃ params, ofRecord record = .ok params) ↔ ∀ entry ∈ record, Declares entry.2 := by
  induction record with
  | nil => simp [ofRecord]
  | cons entry rest ih =>
    rw [List.forall_mem_cons, ← ih, ← @ofValue_succeeds _ entry.1]
    constructor
    · rintro ⟨params, run⟩
      obtain ⟨param, here, run⟩ := bind_eq_ok.mp run
      obtain ⟨others, later, _⟩ := bind_eq_ok.mp run
      exact ⟨⟨param, here⟩, others, later⟩
    · rintro ⟨⟨param, here⟩, others, later⟩
      exact ⟨(entry.1, param) :: others, bind_eq_ok.mpr ⟨param, here, bind_eq_ok.mpr ⟨others, later, rfl⟩⟩⟩

end Param

namespace Generator

variable {store : Store} {top path : Path} {recursive : Bool} {content : Content} {text : List Char}
  {paths : List Path} {name description : String} {template : List Char} {params examples outputPath : Value}

/-! ### Heads that nobody expects -/

/-- A value declares parameters: it is a mapping of declarations, or counts as false. -/
def DeclaresAll (params : Value) : Prop :=
  params.MapOrNothing ∧ ∀ entries, params = .map entries → ∀ entry ∈ entries, Param.Declares entry.2

theorem declarationsOf_stops : Stops (declarationsOf params) ↔ ¬params.MapOrNothing := by
  unfold declarationsOf Value.MapOrNothing
  split
  · next vacant => simpa using fun filled => absurd filled (by simpa using vacant)
  · next filled =>
    split
    · simp
    · next other => simpa [Error.errorClass] using ⟨by simpa using filled, other⟩

theorem declared_succeeds :
    (∃ record, declarationsOf params = .ok record ∧ ∃ declared, Param.ofRecord record = .ok declared) ↔
      DeclaresAll params := by
  simp only [Param.ofRecord_succeeds]
  unfold declarationsOf DeclaresAll Value.MapOrNothing
  split
  · next vacant =>
    have nothing : params.truthy = false := by simpa using vacant
    simp only [Except.ok.injEq, exists_eq_left', List.not_mem_nil, false_implies, implies_true, nothing,
      Bool.false_eq_true, true_and, true_iff]
    rintro entries rfl entry member
    rw [Value.truthy, Bool.not_eq_false', List.isEmpty_iff] at nothing
    rw [nothing] at member
    cases member
  · next filled =>
    split
    · simp
    · next other => simpa using fun given => absurd (given (by simpa using filled)) (by simpa using other)

theorem define_stops :
    Stops (define name description template params examples outputPath) ↔
      ¬params.MapOrNothing ∨
        DeclaresAll params ∧ examples.truthy = true ∧ ¬examples.HasItems := by
  have listed : Stops (examplesOf examples) ↔ examples.truthy = true ∧ ¬examples.HasItems := by
    unfold examplesOf
    split
    · next filled => simp [Value.parts_stops, filled]
    · next vacant => simp [vacant]
  have parsed (record : Record) : ¬Stops (Param.ofRecord record) :=
    Stops.not_of_fails (Param.ofRecord_fails [] record)
  unfold define
  simp only [Stops.bind_iff, declarationsOf_stops, parsed, false_or, listed, ← declared_succeeds]
  refine or_congr_right ⟨?_, ?_⟩
  · rintro ⟨record, given, declared, read, stopped | ⟨_, _, impossible⟩⟩
    · exact ⟨⟨record, given, declared, read⟩, stopped⟩
    · exact absurd impossible (by simp [pure, Except.pure])
  · rintro ⟨⟨record, given, declared, read⟩, stopped⟩
    exact ⟨record, given, declared, read, .inl stopped⟩

/-- A head nobody expects: it names and describes a generator, but its parameters are something other
than a mapping, or its examples have no items while the parameters are declared well. -/
def Misshapen (head : Record) : Prop :=
  (optional head "name").truthy = true ∧ (optional head "description").truthy = true ∧
    (¬(optional head "params").MapOrNothing ∨
      DeclaresAll (optional head "params") ∧ (optional head "examples").truthy = true ∧
        ¬(optional head "examples").HasItems)

/-- The text of a template file stops the loading: a number or a date in its head is out of range, or
the head is misshapen. -/
def Unforeseen (text : List Char) : Prop :=
  (∃ detail, readHead (withoutSentinels (Text.unifyBreaks text)) = .error (.badValue detail)) ∨
    ∃ head body, readHead (withoutSentinels (Text.unifyBreaks text)) = .ok (head, body) ∧ Misshapen head

theorem readHead_stops : Stops (readHead text) ↔ ∃ detail, readHead text = .error (.badValue detail) := by
  constructor
  · rintro ⟨error, failed, misuse⟩
    cases known : error.escape? with
    | none => exact absurd misuse (Error.escape?_eq_none.mp known).1
    | some kind =>
      have range := readHead_fails text error failed kind known
      obtain rfl : kind = .range := by simpa using range
      cases error <;> cases known
      exact ⟨_, failed⟩
  · rintro ⟨detail, failed⟩
    exact ⟨_, failed, rfl⟩

theorem required_succeeds {head : Record} {field : String} :
    (∃ value, required path head field = .ok value) ↔ (optional head field).truthy = true := by
  unfold required optional
  dsimp only
  split
  · next filled => simp [filled]
  · next vacant => simp [vacant]

theorem ofText_stops : Stops (ofText path text) ↔ Unforeseen text := by
  have told (head : Record) (field : String) : ¬Stops (required path head field) :=
    Stops.not_of_fails (required_fails [] path head field)
  unfold ofText Unforeseen Misshapen
  simp only [Stops.bind_iff, readHead_stops, told, false_or, define_stops, Prod.exists]
  refine or_congr_right (exists_congr fun head => exists_congr fun body => and_congr_right fun _ => ?_)
  rw [← @required_succeeds path head "name", ← @required_succeeds path head "description"]
  constructor
  · rintro ⟨name, named, description, described, stopped⟩
    exact ⟨⟨name, named⟩, ⟨description, described⟩, stopped⟩
  · rintro ⟨⟨name, named⟩, ⟨description, described⟩, stopped⟩
    exact ⟨name, named, description, described, stopped⟩

theorem load_stops : Stops (load store path) ↔ ∃ text, store.read path = .ok text ∧ Unforeseen text := by
  have told : ¬Stops (store.read path) := by
    rintro ⟨error, failed, misuse⟩
    rcases Store.read_fails store path error failed with refused | rfl
    · exact absurd (refused.symm.trans misuse) (by decide)
    · cases misuse
  rw [load, Stops.bind_iff, or_iff_right told]
  simp only [ofText_stops]

/-! ### The files that are loaded -/

/-- A template file below a directory, or directly in it. -/
def TemplateBelow (store : Store) (top : Path) (recursive : Bool) (path : Path) (content : Content) : Prop :=
  ∃ place key, store.place top = .ok place ∧ key ≠ [] ∧ (recursive = true ∨ key.length = 1) ∧
    path = Store.pathBelow top key ∧ store.node? (place ++ key) = some (.file content) ∧
    ∃ ending ∈ templateEndings, ending.toList <:+ path.name.toList

theorem mem_templateFiles (sound : store.Sound) :
    path ∈ templateFiles store top recursive ↔ ∃ content, TemplateBelow store top recursive path content := by
  have ended {name : String} : (templateEndings.any fun ending => Text.endsWith ending.toList name.toList) = true ↔
      ∃ ending ∈ templateEndings, ending.toList <:+ name.toList := by
    simp only [List.any_eq_true, Text.endsWith, List.isPrefixOf_iff_prefix, List.reverse_prefix]
  have near {key : Key} : key ∈ (if recursive then store.descendants top else store.children top) ↔
      key ∈ store.descendants top ∧ (recursive = true ∨ key.length = 1) := by
    cases recursive <;> simp [Store.children]
  simp only [templateFiles, List.mem_filter, List.mem_map, Bool.and_eq_true, near, ended]
  constructor
  · rintro ⟨⟨key, ⟨below, close⟩, rfl⟩, file, ending⟩
    obtain ⟨place, node, placed, filled, held⟩ := sound.mem_descendants.mp below
    rw [Store.hasFile, Store.find?, sound.place_below placed held filled] at file
    simp only [held] at file
    cases node with
    | directory => cases file
    | file content => exact ⟨content, place, key, placed, filled, close, rfl, held, ending⟩
  · rintro ⟨content, place, key, placed, filled, close, rfl, held, ending⟩
    refine ⟨⟨key, ⟨sound.mem_descendants.mpr ⟨place, _, placed, filled, held⟩, close⟩, rfl⟩, ?_, ending⟩
    rw [Store.hasFile, Store.find?, sound.place_below placed held filled]
    simp only [held]

/-- The template files come in the order of their paths, each once. -/
theorem templateFiles_ascending (sound : store.Sound) (top : Path) (recursive : Bool) :
    (templateFiles store top recursive).Pairwise fun one other => one.names < other.names := by
  have ascending := sound.descendants_ascending top
  refine (List.pairwise_map.mpr ?_).filter _
  have sorted : (if recursive then store.descendants top else store.children top).Pairwise (· < ·) := by
    cases recursive
    · exact ascending.filter _
    · exact ascending
  exact sorted.imp fun less => List.append_left_lt less

theorem TemplateBelow.read_eq_ok (sound : store.Sound) (below : TemplateBelow store top recursive path content) :
    store.read path = .ok text ↔ content = .text text := by
  obtain ⟨place, key, placed, filled, _, rfl, held, _⟩ := below
  have led := sound.place_below placed held filled
  rw [Store.read_eq_ok]
  constructor
  · rintro ⟨other, there, same⟩
    obtain rfl := Except.ok.inj (led.symm.trans there)
    simpa using held.symm.trans same
  · rintro rfl
    exact ⟨_, led, held⟩

/-! ### Loading them in turn -/

/-- The line that reports a failure of a file. -/
def failureLine (path : Path) (error : Error) : String :=
  path.toString ++ ": " ++ error.message

/-- What files give when nothing stops their loading: each one its generator, or the line that reports
its failure. -/
def Loaded.ofFiles (store : Store) (paths : List Path) : Loaded where
  generators := paths.filterMap fun path =>
    match load store path with
    | .ok generator => some (path, generator)
    | .error _ => none
  errors := paths.filterMap fun path =>
    match load store path with
    | .ok _ => none
    | .error error => some (failureLine path error)

theorem loadAll_eq_ok {loaded : Loaded} :
    (loadAll store paths).2 = .ok loaded ↔
      (∀ path ∈ paths, ¬Stops (load store path)) ∧ loaded = .ofFiles store paths := by
  induction paths generalizing loaded with
  | nil => simpa [loadAll, Loaded.ofFiles] using eq_comm
  | cons path rest ih =>
    rw [List.forall_mem_cons, loadAll]
    cases run : load store path with
    | ok generator =>
      have grown : Loaded.ofFiles store (path :: rest) = { Loaded.ofFiles store rest with
          generators := (path, generator) :: (Loaded.ofFiles store rest).generators } := by
        simp [Loaded.ofFiles, run]
      simp only [map_eq_ok, ih, grown, Stops.ok_iff, not_false_eq_true, true_and]
      constructor
      · rintro ⟨others, ⟨calm, rfl⟩, rfl⟩
        exact ⟨calm, rfl⟩
      · rintro ⟨calm, rfl⟩
        exact ⟨_, ⟨calm, rfl⟩, rfl⟩
    | error error =>
      have grown : Loaded.ofFiles store (path :: rest) = { Loaded.ofFiles store rest with
          errors := failureLine path error :: (Loaded.ofFiles store rest).errors } := by
        simp [Loaded.ofFiles, run]
      by_cases misuse : error.errorClass = .misuse
      · simp [misuse]
      · simp only [misuse, if_false, map_eq_ok, ih, grown, Stops.error_iff, not_false_eq_true, true_and]
        constructor
        · rintro ⟨others, ⟨calm, rfl⟩, rfl⟩
          exact ⟨calm, rfl⟩
        · rintro ⟨calm, rfl⟩
          exact ⟨_, ⟨calm, rfl⟩, rfl⟩

theorem loadDirectory_eq_ok (sound : store.Sound) {loaded : Loaded} :
    (loadDirectory store top recursive).2 = .ok loaded ↔
      (∀ path text, TemplateBelow store top recursive path (.text text) → ¬Unforeseen text) ∧
        loaded = .ofFiles store (templateFiles store top recursive) := by
  rw [loadDirectory, loadAll_eq_ok]
  refine and_congr_left fun _ => ?_
  simp only [mem_templateFiles sound, load_stops]
  constructor
  · intro calm path text below unforeseen
    exact calm path ⟨_, below⟩ ⟨text, (below.read_eq_ok sound).mpr rfl, unforeseen⟩
  · rintro calm path ⟨content, below⟩ ⟨text, read, unforeseen⟩
    obtain rfl := (below.read_eq_ok sound).mp read
    exact calm path text below unforeseen

end Generator

end Scaffold
