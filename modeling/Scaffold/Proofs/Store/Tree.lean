import Mathlib.Data.List.Induction
import Mathlib.Data.List.Infix
import Mathlib.Data.List.Sort
import Mathlib.Data.String.Basic
import Mathlib.Order.Basic
import Scaffold.Proofs.Store.Write

/-!
Stores as trees. Every entry stands once, in a directory, and under a name that does not lead back. The
changes that a store allows keep this, and in such a store the entries below a directory are what its
path leads to when their names are added.
-/

namespace Scaffold.Store

variable {store after : Store} {top path : Path} {place key other : Key} {node : Node} {name : String}
  {text : List Char}

/-- A store is a tree: no entry stands twice, each one is in a directory, and no name of an entry is a
double dot. -/
structure Sound (store : Store) : Prop where
  distinct : (store.entries.map Prod.fst).Nodup
  nested : ∀ entry ∈ store.entries, store.node? entry.1.dropLast = some .directory
  forward : ∀ entry ∈ store.entries, ".." ∉ entry.1
  here_forward : ".." ∉ store.here

theorem mem_of_lookup {entries : List (Key × Node)} (found : entries.lookup key = some node) :
    (key, node) ∈ entries := by
  obtain ⟨front, back, rfl, _⟩ := List.lookup_eq_some_iff.mp found
  simp

theorem lookup_of_mem {entries : List (Key × Node)} (distinct : (entries.map Prod.fst).Nodup)
    (member : (key, node) ∈ entries) : entries.lookup key = some node := by
  obtain ⟨front, back, rfl⟩ := List.append_of_mem member
  rw [List.map_append, List.map_cons] at distinct
  refine List.lookup_eq_some_iff.mpr ⟨front, back, rfl, fun entry before => bne_iff_ne.mpr fun same => ?_⟩
  have earlier : entry.1 ∈ front.map Prod.fst := List.mem_map_of_mem before
  exact (List.nodup_middle.mp distinct).notMem (List.mem_append_left _ (same ▸ earlier))

/-- Anything but the root is an entry. -/
theorem mem_of_node (held : store.node? key = some node) (filled : key ≠ []) :
    (key, node) ∈ store.entries := by
  rw [node?, if_neg (by simpa using filled)] at held
  exact mem_of_lookup held

theorem mem_of_node_below (held : store.node? (place ++ key) = some node) (filled : key ≠ []) :
    (place ++ key, node) ∈ store.entries :=
  mem_of_node held (List.append_ne_nil_of_right_ne_nil place filled)

/-! ### Places -/

theorem step_eq_ok {next : Key} :
    store.step place name = .ok next ↔ store.node? place = some .directory ∧
      next = if name = ".." then place.dropLast else place ++ [name] := by
  unfold step
  constructor
  · intro stepped
    split at stepped
    · cases stepped
    · cases stepped
    · next held => exact ⟨held, (Except.ok.inj stepped).symm⟩
  · rintro ⟨held, rfl⟩
    rw [held]

/-- Steps along names that do not lead back go on from the place before. -/
theorem steps_forward (led : key.foldlM store.step place = .ok other) (forward : ".." ∉ key) :
    other = place ++ key := by
  induction key generalizing place with
  | nil => simpa using (Except.ok.inj led).symm
  | cons name key ih =>
    rw [List.mem_cons, not_or] at forward
    rw [List.foldlM_cons] at led
    obtain ⟨next, stepped, led⟩ := bind_eq_ok.mp led
    obtain ⟨_, below⟩ := step_eq_ok.mp stepped
    rw [if_neg (Ne.symm forward.1)] at below
    rw [ih led forward.2, below, List.append_assoc, List.singleton_append]

theorem steps_keep_forward {names : List String} (led : names.foldlM store.step place = .ok other)
    (forward : ".." ∉ place) : ".." ∉ other := by
  induction names generalizing place with
  | nil => exact Except.ok.inj led ▸ forward
  | cons name names ih =>
    rw [List.foldlM_cons] at led
    obtain ⟨next, stepped, led⟩ := bind_eq_ok.mp led
    obtain ⟨_, rfl⟩ := step_eq_ok.mp stepped
    refine ih led ?_
    split
    · exact fun inside => forward (List.mem_of_mem_dropLast inside)
    · next apart => simpa [forward] using Ne.symm apart

theorem place_below_eq (run : store.place (pathBelow top key) = .ok other) (forward : ".." ∉ key) :
    ∃ place, store.place top = .ok place ∧ other = place ++ key := by
  change (top.names ++ key).foldlM store.step _ = _ at run
  rw [List.foldlM_append] at run
  obtain ⟨place, placed, led⟩ := bind_eq_ok.mp run
  exact ⟨place, placed, steps_forward led forward⟩

namespace Sound

/-- What is on the way to an entry is a directory. -/
theorem above (sound : store.Sound) (held : store.node? (place ++ key) = some node) (filled : key ≠ []) :
    store.node? place = some .directory := by
  induction key using List.reverseRecOn generalizing node with
  | nil => exact absurd rfl filled
  | append_singleton front name ih =>
    have parent := sound.nested _ (mem_of_node_below held (by simp))
    rw [← List.append_assoc, List.dropLast_concat] at parent
    by_cases direct : front = []
    · simpa [direct] using parent
    · exact ih parent direct

theorem steps (sound : store.Sound) (held : store.node? (place ++ key) = some node)
    (forward : ".." ∉ key) : key.foldlM store.step place = .ok (place ++ key) := by
  induction key generalizing place with
  | nil =>
    rw [List.append_nil]
    rfl
  | cons name key ih =>
    rw [List.mem_cons, not_or] at forward
    have stepped : store.step place name = .ok (place ++ [name]) :=
      step_eq_ok.mpr ⟨sound.above held (by simp), (if_neg (Ne.symm forward.1)).symm⟩
    rw [List.append_cons] at held ⊢
    rw [List.foldlM_cons]
    exact bind_eq_ok.mpr ⟨_, stepped, ih held forward.2⟩

/-- An entry below a directory is where its names lead from there. -/
theorem place_below (sound : store.Sound) (placed : store.place top = .ok place)
    (held : store.node? (place ++ key) = some node) (filled : key ≠ []) :
    store.place (pathBelow top key) = .ok (place ++ key) := by
  have forward : ".." ∉ key := fun inside =>
    sound.forward _ (mem_of_node_below held filled) (List.mem_append_right _ inside)
  change (top.names ++ key).foldlM store.step _ = _
  rw [List.foldlM_append]
  exact bind_eq_ok.mpr ⟨place, placed, sound.steps held forward⟩

end Sound

/-! ### Entries below a directory -/

theorem below?_eq_some : below? place other = some key ↔ key ≠ [] ∧ other = place ++ key := by
  unfold below?
  constructor
  · intro found
    split at found
    · next name rest cut =>
      cases found
      exact ⟨by simp, (List.isPrefixOf?_eq_some_iff_append_eq.mp cut).symm⟩
    · cases found
  · rintro ⟨filled, rfl⟩
    rw [List.isPrefixOf?_eq_some_iff_append_eq.mpr rfl]
    cases key with
    | nil => exact absurd rfl filled
    | cons name rest => rfl

theorem Sound.mem_descendants (sound : store.Sound) :
    key ∈ store.descendants top ↔
      ∃ place node, store.place top = .ok place ∧ key ≠ [] ∧ store.node? (place ++ key) = some node := by
  unfold descendants
  constructor
  · intro member
    split at member
    · simp at member
    · next place placed =>
      split at member
      · obtain ⟨⟨found, node⟩, inside, cut⟩ := List.mem_filterMap.mp (List.mem_mergeSort.mp member)
        obtain ⟨filled, rfl⟩ := below?_eq_some.mp cut
        refine ⟨place, node, placed, filled, ?_⟩
        rw [node?, if_neg (by simp [filled])]
        exact lookup_of_mem sound.distinct inside
      · simp at member
  · rintro ⟨place, node, placed, filled, held⟩
    simp only [placed, sound.above held filled, if_true]
    refine List.mem_mergeSort.mpr (List.mem_filterMap.mpr ⟨_, mem_of_node_below held filled, ?_⟩)
    exact below?_eq_some.mpr ⟨filled, rfl⟩

theorem keyLe_iff {first second : Key} : keyLe first second = true ↔ first ≤ second := by
  rw [keyLe, Bool.not_eq_true', decide_eq_false_iff_not, not_lt]

/-- Keys that are sorted come in order. -/
theorem sorted_keys (keys : List Key) : (keys.mergeSort keyLe).Pairwise (· ≤ ·) := by
  have sorted := @List.pairwise_mergeSort Key keyLe ?_ ?_ keys
  · exact sorted.imp keyLe_iff.mp
  · intro first second third less later
    exact keyLe_iff.mpr ((keyLe_iff.mp less).trans (keyLe_iff.mp later))
  · intro first second
    simpa [keyLe_iff] using le_total first second

/-- The entries below a directory come in order, each once. -/
theorem Sound.descendants_ascending (sound : store.Sound) (top : Path) :
    (store.descendants top).Pairwise (· < ·) := by
  unfold descendants
  split
  · exact .nil
  · next place placed =>
    split
    · have single : (store.entries.filterMap fun entry => below? place entry.1).Nodup := by
        rw [show (fun entry : Key × Node => below? place entry.1) = below? place ∘ Prod.fst from rfl,
          ← List.filterMap_map]
        refine sound.distinct.filterMap fun first second key one other => ?_
        rw [(below?_eq_some.mp one).2, (below?_eq_some.mp other).2]
      have apart := (List.mergeSort_perm _ keyLe).nodup_iff.mpr single
      exact ((sorted_keys _).and apart).imp fun both => lt_of_le_of_ne both.1 both.2
    · exact .nil

/-! ### Changes -/

theorem map_fst_setEntry (key : Key) (node : Node) (entries : List (Key × Node)) :
    (setEntry key node entries).map Prod.fst =
      if key ∈ entries.map Prod.fst then entries.map Prod.fst else entries.map Prod.fst ++ [key] := by
  induction entries with
  | nil => rfl
  | cons entry rest ih =>
    rw [setEntry]
    by_cases same : entry.1 = key
    · simp [same]
    · rw [if_neg same, List.map_cons, ih, List.map_cons]
      simp only [List.mem_cons, Ne.symm same, false_or]
      split <;> rfl

theorem mem_setEntry {entries : List (Key × Node)} {entry : Key × Node}
    (member : entry ∈ setEntry key node entries) : entry.1 = key ∨ entry ∈ entries := by
  induction entries with
  | nil => exact .inl (congrArg Prod.fst (List.mem_singleton.mp member))
  | cons first rest ih =>
    rw [setEntry] at member
    split at member
    · rcases List.mem_cons.mp member with rfl | later
      · exact .inl rfl
      · exact .inr (List.mem_cons_of_mem _ later)
    · rcases List.mem_cons.mp member with rfl | later
      · exact .inr List.mem_cons_self
      · exact (ih later).imp_right (List.mem_cons_of_mem _)

namespace Sound

/-- An entry may be put in a directory, where no other directory is lost. -/
theorem set (sound : store.Sound) (inside : key.isEmpty = false) (forward : ".." ∉ key)
    (parent : store.node? key.dropLast = some .directory)
    (kept : store.node? key = some .directory → node = .directory) :
    (store.set key node).Sound where
  distinct := by
    change ((setEntry key node store.entries).map Prod.fst).Nodup
    rw [map_fst_setEntry]
    split
    · exact sound.distinct
    · next fresh => exact List.concat_eq_append ▸ sound.distinct.concat fresh
  nested := by
    have still : ∀ {other : Key}, store.node? other = some .directory →
        (store.set key node).node? other = some .directory := by
      intro other held
      rw [node?_set inside]
      split
      · next same => rw [kept (same ▸ held)]
      · exact held
    intro entry member
    rcases mem_setEntry member with here | old
    · rw [here]
      exact still parent
    · exact still (sound.nested entry old)
  forward := by
    intro entry member
    rcases mem_setEntry member with here | old
    · rwa [here]
    · exact sound.forward entry old
  here_forward := sound.here_forward

/-- No path leads to a place with a double dot in it. -/
theorem place_forward (sound : store.Sound) (placed : store.place path = .ok key) : ".." ∉ key := by
  have start : ".." ∉ if path.anchor = .relative then store.here else [] := by
    split
    · exact sound.here_forward
    · exact List.not_mem_nil
  exact steps_keep_forward placed start

theorem write (sound : store.Sound) (run : store.write path text = .ok after) : after.Sound := by
  unfold Store.write at run
  split at run
  · cases run
  · next key placed =>
    have forward := sound.place_forward placed
    split at run
    · cases run
    · next file there =>
      cases run
      have fileThere : store.node? key ≠ some .directory := by simp [there]
      have inside := isEmpty_of_not_directory fileThere
      refine sound.set inside forward ?_ fun directory => absurd directory fileThere
      exact sound.nested _ (mem_of_node there (by simpa using inside))
    · next vacant =>
      split at run
      · next parent =>
        cases run
        have nothingThere : store.node? key ≠ some .directory := by simp [vacant]
        exact sound.set (isEmpty_of_not_directory nothingThere) forward parent fun directory =>
          absurd directory nothingThere
      · cases run
      · cases run

theorem makeDirectory (sound : store.Sound) {ifMissing : Except Error Store}
    (otherwise : ∀ larger, ifMissing = .ok larger → larger.Sound)
    (run : store.makeDirectory path ifMissing = .ok after) : after.Sound := by
  unfold Store.makeDirectory at run
  split at run
  · exact otherwise _ run
  · cases run
  · next key placed =>
    split at run
    · cases run
      exact sound
    · cases run
    · next vacant =>
      split at run
      · next parent =>
        cases run
        have nothingThere : store.node? key ≠ some .directory := by simp [vacant]
        exact sound.set (isEmpty_of_not_directory nothingThere) (sound.place_forward placed) parent
          fun _ => rfl
      · cases run
      · exact otherwise _ run

theorem makeDirectoriesUpTo (sound : store.Sound) (levels : Nat)
    (run : Store.makeDirectoriesUpTo levels store path = .ok after) : after.Sound := by
  induction levels generalizing path after with
  | zero => exact sound.makeDirectory (fun _ impossible => by cases impossible) run
  | succ levels ih =>
    refine sound.makeDirectory (fun larger made => ?_) run
    obtain ⟨above, below, made⟩ := bind_eq_ok.mp made
    exact (ih below).makeDirectory (fun _ impossible => by cases impossible) made

theorem makeDirectories (sound : store.Sound) (run : store.makeDirectories path = .ok after) :
    after.Sound :=
  sound.makeDirectoriesUpTo _ run

end Sound

/-! ### Shape -/

/-- Two stores have directories and files at the same places; the files may hold other things. -/
structure SameShape (one other : Store) : Prop where
  here : one.here = other.here
  nodes : ∀ key, one.node? key = other.node? key ∨
    ∃ first second, one.node? key = some (.file first) ∧ other.node? key = some (.file second)

namespace SameShape

variable {one last : Store}

theorem refl (store : Store) : store.SameShape store :=
  ⟨rfl, fun _ => .inl rfl⟩

theorem trans (first : one.SameShape store) (second : store.SameShape last) : one.SameShape last := by
  refine ⟨first.here.trans second.here, fun key => ?_⟩
  rcases first.nodes key with same | ⟨old, middle, before, between⟩
  · rw [same]
    exact second.nodes key
  · rcases second.nodes key with same | ⟨_, new, _, after⟩
    · exact .inr ⟨old, middle, before, same ▸ between⟩
    · exact .inr ⟨old, new, before, after⟩

/-- A file may get another content. -/
theorem set {old new : Content} (held : store.node? key = some (.file old)) :
    store.SameShape (store.set key (.file new)) := by
  have vacant : store.node? key ≠ some .directory := by simp [held]
  have inside := isEmpty_of_not_directory vacant
  refine ⟨rfl, fun other => ?_⟩
  rw [node?_set inside]
  split
  · next same => exact .inr ⟨old, new, same ▸ held, rfl⟩
  · exact .inl rfl

/-- Paths lead to the same places. -/
theorem place_eq (same : one.SameShape store) (path : Path) : one.place path = store.place path := by
  have steps : one.step = store.step := by
    funext key name
    rw [step, step]
    rcases same.nodes key with equal | ⟨first, second, here, there⟩
    · rw [equal]
    · rw [here, there]
  rw [place, place, steps, same.here]

/-- A file that both hold alike is read alike. -/
theorem read_eq (same : one.SameShape store)
    (alike : ∀ key, store.place path = .ok key → one.node? key = store.node? key) :
    one.read path = store.read path := by
  rw [read, read, same.place_eq]
  cases placed : store.place path with
  | error obstruction => rfl
  | ok key => simp only [alike key placed]

end SameShape

theorem read_eq_ok :
    store.read path = .ok text ↔
      ∃ key, store.place path = .ok key ∧ store.node? key = some (.file (.text text)) := by
  unfold read
  constructor
  · intro run
    split at run
    · cases run
    · next key placed =>
      split at run
      · cases run
      · cases run
      · cases run
      · next chars there =>
        cases run
        exact ⟨key, placed, there⟩
  · rintro ⟨key, placed, there⟩
    simp only [placed, there]

end Scaffold.Store
