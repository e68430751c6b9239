import Scaffold.Proofs.Store.Tree

/-!
How a store grows. Making directories touches no file, and succeeds when no file is in the way; a path
without double dots leads to the place that its names spell, whatever is there.
-/

namespace Scaffold

/-- What reading gives where a path leads to an entry. -/
def Node.read (path : Path) : Node → Except Error (List Char)
  | directory => .error (.isADirectory path.toString)
  | file (.bytes _) => .error .undecodable
  | file (.text chars) => .ok chars

namespace Store

variable {store after middle last : Store} {path : Path} {start key other : Key} {names : List String}
  {node : Node} {text : List Char}

/-- Two stores have the same files with the same contents. -/
def SameFiles (one other : Store) : Prop :=
  ∀ key content, other.node? key = some (.file content) ↔ one.node? key = some (.file content)

namespace SameFiles

theorem refl (store : Store) : store.SameFiles store :=
  fun _ _ => Iff.rfl

theorem trans (first : store.SameFiles middle) (second : middle.SameFiles last) : store.SameFiles last :=
  fun key content => (second key content).trans (first key content)

end SameFiles

/-- A store has grown by directories: they stand where nothing was, and all else is as before. -/
structure Furnished (before after : Store) : Prop where
  here : after.here = before.here
  nodes : ∀ key, after.node? key = before.node? key ∨
    (before.node? key = none ∧ after.node? key = some .directory)

namespace Furnished

theorem refl (store : Store) : store.Furnished store :=
  ⟨rfl, fun _ => .inl rfl⟩

theorem trans (first : store.Furnished middle) (second : middle.Furnished last) :
    store.Furnished last := by
  refine ⟨second.here.trans first.here, fun key => ?_⟩
  rcases first.nodes key with same | ⟨vacant, made⟩
  · rw [← same]
    exact second.nodes key
  · rcases second.nodes key with same | ⟨none, _⟩
    · exact .inr ⟨vacant, same.trans made⟩
    · rw [made] at none
      cases none

theorem set (vacant : store.node? key = none) : store.Furnished (store.set key .directory) := by
  have unheld : store.node? key ≠ some .directory := by simp [vacant]
  refine ⟨rfl, fun other => ?_⟩
  rw [node?_set (isEmpty_of_not_directory unheld)]
  split
  · next same => exact .inr ⟨same ▸ vacant, rfl⟩
  · exact .inl rfl

theorem sameFiles (grown : store.Furnished after) : store.SameFiles after := by
  intro key content
  rcases grown.nodes key with same | ⟨vacant, made⟩
  · rw [same]
  · simp [vacant, made]

theorem keeps (grown : store.Furnished after) (held : store.node? key = some node) :
    after.node? key = some node := by
  rcases grown.nodes key with same | ⟨vacant, _⟩
  · rw [same, held]
  · rw [held] at vacant
    cases vacant

end Furnished

theorem makeDirectory_furnished {ifMissing : Except Error Store}
    (otherwise : ∀ larger, ifMissing = .ok larger → store.Furnished larger)
    (run : store.makeDirectory path ifMissing = .ok after) : store.Furnished after := by
  unfold makeDirectory at run
  split at run
  · exact otherwise _ run
  · cases run
  · split at run
    · cases run
      exact .refl store
    · cases run
    · next vacant =>
      split at run
      · cases run
        exact .set vacant
      · cases run
      · exact otherwise _ run

theorem makeDirectoriesUpTo_furnished (levels : Nat)
    (run : makeDirectoriesUpTo levels store path = .ok after) : store.Furnished after := by
  induction levels generalizing path after with
  | zero => exact makeDirectory_furnished (fun _ impossible => by cases impossible) run
  | succ levels ih =>
    refine makeDirectory_furnished (fun larger made => ?_) run
    obtain ⟨above, below, made⟩ := bind_eq_ok.mp made
    exact (ih below).trans (makeDirectory_furnished (fun _ impossible => by cases impossible) made)

theorem makeDirectories_furnished (run : store.makeDirectories path = .ok after) :
    store.Furnished after :=
  makeDirectoriesUpTo_furnished _ run

/-! ### Looking up paths -/

theorem find?_eq_some :
    store.find? path = some node ↔ ∃ key, store.place path = .ok key ∧ store.node? key = some node := by
  unfold find?
  cases store.place path <;> simp

/-- Reading tells what a path leads to. -/
theorem read_of_find? (held : store.find? path = some node) : store.read path = node.read path := by
  obtain ⟨key, placed, there⟩ := find?_eq_some.mp held
  unfold read
  simp only [placed, there]
  match node with
  | .directory => rfl
  | .file (.bytes _) => rfl
  | .file (.text _) => rfl

/-! ### Paths without double dots -/

/-- The place that the names of a path spell from where it starts. -/
def goal (store : Store) (path : Path) : Key :=
  (if path.anchor = .relative then store.here else []) ++ path.names

/-- Names are followed as far as directories go. -/
theorem steps_of_directories (forward : ".." ∉ names)
    (directories : ∀ front name, front ++ [name] <+: names →
      store.node? (start ++ front) = some .directory) :
    names.foldlM store.step start = .ok (start ++ names) := by
  induction names generalizing start with
  | nil =>
    rw [List.append_nil]
    rfl
  | cons name names ih =>
    rw [List.mem_cons, not_or] at forward
    have first := directories [] name ⟨names, rfl⟩
    rw [List.append_nil] at first
    have stepped : store.step start name = .ok (start ++ [name]) :=
      step_eq_ok.mpr ⟨first, (if_neg (Ne.symm forward.1)).symm⟩
    rw [List.foldlM_cons, List.append_cons]
    refine bind_eq_ok.mpr ⟨_, stepped, ih forward.2 fun front other below => ?_⟩
    rw [List.append_assoc]
    exact directories (name :: front) other ((List.prefix_cons_inj name).mpr below)

/-- Where names are not followed, the place that stops them is no directory. -/
theorem steps_error {obstruction : Obstruction} (forward : ".." ∉ names)
    (run : names.foldlM store.step start = .error obstruction) :
    ∃ front name, front ++ [name] <+: names ∧
      ((obstruction = .missing ∧ store.node? (start ++ front) = none) ∨
        ∃ content, store.node? (start ++ front) = some (.file content)) := by
  induction names generalizing start with
  | nil => cases run
  | cons name names ih =>
    rw [List.mem_cons, not_or] at forward
    rw [List.foldlM_cons] at run
    cases here : store.node? start with
    | none =>
      refine ⟨[], name, ⟨names, rfl⟩, .inl ⟨?_, by simpa using here⟩⟩
      rw [step, here] at run
      exact (Except.error.inj run).symm
    | some node =>
      cases node with
      | file content => exact ⟨[], name, ⟨names, rfl⟩, .inr ⟨content, by simpa using here⟩⟩
      | directory =>
        rw [step, here] at run
        simp only [if_neg (Ne.symm forward.1)] at run
        obtain ⟨front, other, below, stopped⟩ := ih forward.2 run
        refine ⟨name :: front, other, (List.prefix_cons_inj name).mpr below, ?_⟩
        simpa using stopped

theorem goal_eq_of_place (forward : ".." ∉ path.names) (placed : store.place path = .ok key) :
    key = store.goal path :=
  steps_forward placed forward

theorem goal_concat (store : Store) (anchor : Anchor) (front : List String) (name : String) :
    store.goal ⟨anchor, front ++ [name]⟩ = store.goal ⟨anchor, front⟩ ++ [name] :=
  (List.append_assoc _ front [name]).symm

theorem parent_concat (anchor : Anchor) (front : List String) (name : String) :
    Path.parent ⟨anchor, front ++ [name]⟩ = ⟨anchor, front⟩ := by
  rw [Path.parent, List.dropLast_concat]

theorem goal_congr (here : after.here = store.here) (path : Path) : after.goal path = store.goal path := by
  rw [goal, goal, here]

/-- A path without names leads to a directory. -/
theorem names_ne_nil (standing : store.node? store.here = some .directory)
    (unheld : store.node? (store.goal path) ≠ some .directory) : path.names ≠ [] := by
  intro vacant
  refine unheld ?_
  rw [goal, vacant, List.append_nil]
  split
  · exact standing
  · rfl

namespace Sound

theorem place_of_node (sound : store.Sound) (forward : ".." ∉ path.names)
    (held : store.node? (store.goal path) = some node) :
    store.place path = .ok (store.goal path) :=
  sound.steps held forward

/-- What a path leads to is what is at the place that it spells. -/
theorem find?_eq (sound : store.Sound) (forward : ".." ∉ path.names) :
    store.find? path = store.node? (store.goal path) := by
  unfold find?
  cases placed : store.place path with
  | ok key => rw [goal_eq_of_place forward placed]
  | error obstruction =>
    cases held : store.node? (store.goal path) with
    | none => rfl
    | some node =>
      rw [sound.place_of_node forward held] at placed
      cases placed

/-- What is above something is a directory. -/
theorem directory_above (sound : store.Sound) (held : store.node? key = some node)
    (above : other <+: key) (apart : other ≠ key) :
    store.node? other = some .directory := by
  obtain ⟨rest, rfl⟩ := above
  refine sound.above held fun direct => apart ?_
  rw [direct, List.append_nil]

end Sound

/-- A place and all above it are directories now, and nothing else has changed. -/
structure Opened (before : Store) (key : Key) (after : Store) : Prop where
  grown : before.Furnished after
  made : ∀ above, above <+: key → after.node? above = some .directory
  only : ∀ other, ¬ other <+: key → after.node? other = before.node? other

namespace Opened

theorem self (sound : store.Sound) (held : store.node? key = some .directory) : store.Opened key store where
  grown := .refl store
  made := by
    intro above below
    by_cases same : above = key
    · rwa [same]
    · exact sound.directory_above held below same
  only := fun _ _ => rfl

theorem below {name : String} (opened : store.Opened key middle)
    (vacant : middle.node? (key ++ [name]) = none) :
    store.Opened (key ++ [name]) (middle.set (key ++ [name]) .directory) where
  grown := opened.grown.trans (.set vacant)
  made := by
    intro above inside
    rcases List.prefix_concat_iff.mp inside with rfl | inside
    · rw [node?_set (by simp), if_pos rfl]
    · exact (Furnished.set vacant).keeps (opened.made above inside)
  only := by
    intro other outside
    rw [List.prefix_concat_iff, not_or] at outside
    rw [node?_set (by simp), if_neg outside.1, opened.only other outside.2]

theorem concat {name : String} (opened : store.Opened key middle)
    (held : middle.node? (key ++ [name]) = some .directory) :
    store.Opened (key ++ [name]) middle where
  grown := opened.grown
  made := by
    intro above inside
    rcases List.prefix_concat_iff.mp inside with rfl | inside
    · exact held
    · exact opened.made above inside
  only := fun other outside => opened.only other fun inside =>
    outside (inside.trans (List.prefix_append _ _))

end Opened

theorem place_of_above {name : String} (forward : ".." ∉ path.names)
    (spelled : store.goal path = key ++ [name])
    (directories : ∀ above, above <+: key → store.node? above = some .directory) :
    store.place path = .ok (key ++ [name]) := by
  rw [← spelled]
  refine steps_of_directories forward fun front other below => directories _ ?_
  obtain ⟨rest, same⟩ := below
  have longer : (if path.anchor = .relative then store.here else []) ++ front <+: key ++ [name] := by
    refine ⟨other :: rest, ?_⟩
    rw [← spelled, goal, ← same]
    simp
  refine (List.prefix_concat_iff.mp longer).resolve_left fun equal => ?_
  have lengths := congrArg List.length (equal.trans spelled.symm)
  rw [goal, ← same] at lengths
  simp at lengths

/-- In a directory, a directory is made where no file is. -/
theorem makeDirectory_open {name : String} (forward : ".." ∉ path.names)
    (spelled : store.goal path = key ++ [name]) (opened : middle.Opened key store)
    (free : ∀ content, store.node? (key ++ [name]) ≠ some (.file content))
    (ifMissing : Except Error Store) :
    ∃ after, store.makeDirectory path ifMissing = .ok after ∧ middle.Opened (key ++ [name]) after := by
  have placed := place_of_above forward spelled opened.made
  have parent : store.node? (key ++ [name]).dropLast = some .directory := by
    rw [List.dropLast_concat]
    exact opened.made key List.prefix_rfl
  unfold Store.makeDirectory
  simp only [placed]
  cases held : store.node? (key ++ [name]) with
  | none =>
    simp only [parent]
    exact ⟨_, rfl, opened.below held⟩
  | some node =>
    cases node with
    | file content => exact absurd held (free content)
    | directory => exact ⟨store, rfl, opened.concat held⟩

/-- With no file in the way, a path is missing if what it goes through last is. -/
theorem place_missing {anchor : Anchor} {front : List String} {name : String}
    (forward : ".." ∉ front ++ [name]) (vacant : store.node? (store.goal ⟨anchor, front⟩) = none)
    (free : ∀ above content, above <+: store.goal ⟨anchor, front ++ [name]⟩ →
      store.node? above ≠ some (.file content)) :
    store.place ⟨anchor, front ++ [name]⟩ = .error .missing := by
  cases placed : store.place ⟨anchor, front ++ [name]⟩ with
  | ok key =>
    rw [place, List.foldlM_append] at placed
    obtain ⟨top, led, stepped⟩ := bind_eq_ok.mp placed
    obtain ⟨_, stepped, _⟩ := bind_eq_ok.mp stepped
    have directory := (step_eq_ok.mp stepped).1
    rw [steps_forward led fun inside => forward (List.mem_append_left _ inside)] at directory
    exact absurd (vacant.symm.trans directory) (by simp)
  | error obstruction =>
    obtain ⟨first, last, below, ⟨rfl, _⟩ | ⟨content, file⟩⟩ := steps_error forward placed
    · rfl
    · refine absurd file (free _ content ?_)
      exact (List.prefix_append_right_inj _).mpr ((List.prefix_append _ _).trans below)

/-- With no file in the way, the directories of a path can be made. The names are taken off from the
end, as the directories above come first. -/
theorem Sound.makeDirectories_open (sound : store.Sound)
    (standing : store.node? store.here = some .directory) (forward : ".." ∉ path.names)
    (free : ∀ above content, above <+: store.goal path → store.node? above ≠ some (.file content)) :
    ∃ after, store.makeDirectories path = .ok after ∧ store.Opened (store.goal path) after := by
  obtain ⟨anchor, names⟩ := path
  induction names using List.reverseRecOn with
  | nil =>
    have made : store.node? (store.goal ⟨anchor, []⟩) = some .directory := by
      rw [goal, List.append_nil]
      split
      · exact standing
      · rfl
    have placed : store.place ⟨anchor, []⟩ = .ok (store.goal ⟨anchor, []⟩) := by
      rw [goal, List.append_nil]
      rfl
    refine ⟨store, ?_, .self sound made⟩
    change Store.makeDirectory store ⟨anchor, []⟩ _ = _
    simp only [Store.makeDirectory, placed, made]
  | append_singleton front name ih =>
    -- the directory above is there, or is made first
    have spelled := store.goal_concat anchor front name
    have missing (vacant : store.node? (store.goal ⟨anchor, front⟩) = none) :=
      place_missing forward vacant free
    rw [spelled] at free ⊢
    rw [Store.makeDirectories, List.length_append, List.length_singleton, Store.makeDirectoriesUpTo,
      parent_concat]
    have unfiled := fun content => free _ content List.prefix_rfl
    cases held : store.node? (store.goal ⟨anchor, front⟩) with
    | some node =>
      cases node with
      | file content => exact absurd held (free _ content (List.prefix_append _ _))
      | directory => exact makeDirectory_open forward spelled (.self sound held) unfiled _
    | none =>
      obtain ⟨above, run, opened⟩ := ih (fun inside => forward (List.mem_append_left _ inside))
        fun other content inside => free other content (inside.trans (List.prefix_append _ _))
      have unheld content : above.node? (store.goal ⟨anchor, front⟩ ++ [name]) ≠ some (.file content) :=
        fun file => unfiled content ((opened.grown.sameFiles _ content).mp file)
      obtain ⟨after, made, opened⟩ := makeDirectory_open forward
        ((goal_congr opened.grown.here _).trans spelled) opened unheld
        (.error (.fileNotFound (Path.toString ⟨anchor, front ++ [name]⟩)))
      refine ⟨after, ?_, opened⟩
      rw [Store.makeDirectory, missing held]
      exact bind_eq_ok.mpr ⟨above, run, made⟩

/-! ### A text put into a file -/

/-- A store holds a text at a place. Directories may stand above it where nothing was, and all else is
as before. -/
structure Gained (before : Store) (key : Key) (text : List Char) (after : Store) : Prop where
  here : after.here = before.here
  file : after.node? key = some (.file (.text text))
  others : ∀ other, other ≠ key → after.node? other = before.node? other ∨
    (before.node? other = none ∧ other <+: key ∧ after.node? other = some .directory)

theorem gained_of_write (run : store.write path text = .ok after) :
    ∃ key, store.place path = .ok key ∧ store.node? key ≠ some .directory ∧
      store.Gained key text after := by
  obtain ⟨key, placed, vacant, rfl⟩ := write_eq_ok run
  have inside := isEmpty_of_not_directory vacant
  refine ⟨key, placed, vacant, rfl, by rw [node?_set inside, if_pos rfl], fun other apart => .inl ?_⟩
  rw [node?_set inside, if_neg apart]

/-- In a directory, a text is written where no directory is. -/
theorem write_open {name : String} (placed : store.place path = .ok (key ++ [name]))
    (parent : store.node? key = some .directory) (unheld : store.node? (key ++ [name]) ≠ some .directory)
    (text : List Char) :
    ∃ after, store.write path text = .ok after ∧ store.Gained (key ++ [name]) text after := by
  have written : ∃ after, store.write path text = .ok after := by
    unfold Store.write
    simp only [placed, List.dropLast_concat, parent]
    match held : store.node? (key ++ [name]) with
    | none => exact ⟨_, rfl⟩
    | some .directory => exact absurd held unheld
    | some (.file content) => exact ⟨_, rfl⟩
  obtain ⟨after, written⟩ := written
  obtain ⟨other, led, _, gained⟩ := gained_of_write written
  obtain rfl := Except.ok.inj (placed.symm.trans led)
  exact ⟨after, written, gained⟩

/-- A text put into a directory that was opened for it. -/
theorem Opened.gain {name : String} (opened : store.Opened key middle)
    (gained : middle.Gained (key ++ [name]) text after) : store.Gained (key ++ [name]) text after := by
  refine ⟨gained.here.trans opened.grown.here, gained.file, fun other apart => ?_⟩
  by_cases above : other <+: key
  · have made := opened.made other above
    have still := (gained.others other apart).resolve_right fun ⟨vacant, _⟩ => by simp [made] at vacant
    rcases opened.grown.nodes other with same | ⟨none, now⟩
    · exact .inl (still.trans same)
    · exact .inr ⟨none, above.trans (List.prefix_append _ _), still.trans now⟩
  · rw [← opened.only other above]
    exact gained.others other apart

/-- With no file in the way, a new file can be written, and the directories above it made. -/
theorem Sound.newFile_open (sound : store.Sound) (standing : store.node? store.here = some .directory)
    (forward : ".." ∉ path.names) (vacant : store.node? (store.goal path) ≠ some .directory)
    (free : ∀ above content, above <+: store.goal path → above ≠ store.goal path →
      store.node? above ≠ some (.file content)) (text : List Char) :
    ∃ middle after, store.makeDirectories path.parent = .ok middle ∧
      middle.write path text = .ok after ∧ store.Gained (store.goal path) text after := by
  obtain ⟨anchor, names⟩ := path
  rcases List.eq_nil_or_concat names with rfl | ⟨front, name, rfl⟩
  · exact absurd rfl (names_ne_nil standing vacant)
  rw [List.concat_eq_append] at *
  have spelled := store.goal_concat anchor front name
  rw [spelled] at vacant free ⊢
  rw [parent_concat]
  have shorter {above : Key} (inside : above <+: store.goal ⟨anchor, front⟩) :
      above ≠ store.goal ⟨anchor, front⟩ ++ [name] := by
    rintro rfl
    simpa using inside.length_le
  have forwardFront : ".." ∉ (⟨anchor, front⟩ : Path).names :=
    fun inside => forward (List.mem_append_left _ inside)
  obtain ⟨middle, made, opened⟩ := sound.makeDirectories_open standing forwardFront
    fun above content inside => free above content (inside.trans (List.prefix_append _ _)) (shorter inside)
  have placed := place_of_above forward ((goal_congr opened.grown.here _).trans spelled) opened.made
  have same := opened.only (store.goal ⟨anchor, front⟩ ++ [name]) fun inside => shorter inside rfl
  obtain ⟨after, written, gained⟩ := write_open placed (opened.made _ List.prefix_rfl) (same ▸ vacant) text
  exact ⟨middle, after, made, written, opened.gain gained⟩

end Store

end Scaffold
