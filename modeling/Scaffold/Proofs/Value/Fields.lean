import Mathlib.Data.List.Nodup
import Mathlib.Tactic.Tauto
import Scaffold.Value.Basic

/-!
Records of fields: one entry for each of several names. A field is found under its name, and entries
under different names stay as they are when they are put into a record one by one.
-/

namespace Scaffold

theorem nodup_eraseDups {α : Type} [BEq α] [LawfulBEq α] (items : List α) :
    items.eraseDups.Nodup := by
  match items with
  | [] => exact List.nodup_nil
  | item :: rest =>
    rw [List.eraseDups_cons, List.nodup_cons]
    refine ⟨?_, nodup_eraseDups (rest.filter fun other => !other == item)⟩
    intro again
    have other := List.mem_filter.mp (List.mem_eraseDups.mp again)
    simp at other
termination_by items.length
decreasing_by exact Nat.lt_succ_of_le (List.length_filter_le _ rest)

theorem eraseDups_of_nodup {α : Type} [BEq α] [LawfulBEq α] {items : List α} (distinct : items.Nodup) :
    items.eraseDups = items := by
  induction items with
  | nil => rfl
  | cons item rest ih =>
    obtain ⟨apart, distinct⟩ := List.nodup_cons.mp distinct
    have kept : (rest.filter fun other => !other == item) = rest := by
      refine List.filter_eq_self.mpr fun other listed => ?_
      have different : other ≠ item := by
        rintro rfl
        exact apart listed
      simpa using different
    rw [List.eraseDups_cons, kept, ih distinct]

namespace Keyed

variable {α : Type} {names : List String} {name : String} {value : String → α}

/-- An entry for each name. -/
def ofFields (names : List String) (value : String → α) : Keyed α :=
  names.map fun name => (.text name, value name)

theorem same_text (name other : String) :
    (Scalar.text name).same (.text other) = (name == other) := by
  rw [Bool.eq_iff_iff, beq_iff_eq]
  simp [Scalar.same, Scalar.asInt?]

/-- A field is looked up among the fields that a record is made of. -/
theorem field?_map (fields : List (String × α)) (name : String) :
    field? (fields.map fun field => (.text field.1, field.2)) name = fields.lookup name := by
  induction fields with
  | nil => rfl
  | cons field rest ih =>
    rw [field?, get?, List.map_cons, List.find?_cons, same_text, List.lookup_cons, BEq.comm]
    cases name == field.1 with
    | true => rfl
    | false => exact ih

theorem field?_ofFields (member : name ∈ names) :
    field? (ofFields names value) name = some (value name) := by
  induction names with
  | nil => cases member
  | cons other names ih =>
    rw [field?, get?, ofFields, List.map_cons, List.find?_cons, same_text]
    cases same : other == name with
    | true => rw [eq_of_beq same]; rfl
    | false =>
      exact ih ((List.mem_cons.mp member).resolve_left (beq_eq_false_iff_ne.mp same).symm)

theorem insert_of_absent {entries : Keyed α} {key : Scalar} (value : α)
    (absent : ∀ entry ∈ entries, entry.1.same key = false) :
    insert entries key value = entries ++ [(key, value)] := by
  induction entries with
  | nil => rfl
  | cons entry entries ih =>
    obtain ⟨here, absent⟩ := List.forall_mem_cons.mp absent
    rw [insert, here, if_neg Bool.false_ne_true, ih absent, List.cons_append]

/-- Setting a key puts nothing else into a record than this key and its value. -/
theorem mem_insert {entries : Keyed α} {key : Scalar} {value : α} {entry : Scalar × α}
    (listed : entry ∈ insert entries key value) :
    entry.1 ∈ key :: entries.map Prod.fst ∧ entry.2 ∈ value :: entries.map Prod.snd := by
  induction entries with
  | nil => simpa [insert, Prod.ext_iff] using listed
  | cons first rest ih =>
    rw [insert] at listed
    split at listed
    · rcases List.mem_cons.mp listed with rfl | inside
      · simp
      · simp [List.mem_map_of_mem (f := Prod.fst) inside, List.mem_map_of_mem (f := Prod.snd) inside]
    · rcases List.mem_cons.mp listed with rfl | inside
      · simp
      · have here := ih inside
        simp only [List.map_cons, List.mem_cons] at here ⊢
        exact ⟨by tauto, by tauto⟩

theorem mem_ofEntries {entries : List (Scalar × α)} {entry : Scalar × α}
    (listed : entry ∈ ofEntries entries) :
    entry.1 ∈ entries.map Prod.fst ∧ entry.2 ∈ entries.map Prod.snd := by
  have merged : ∀ front : Keyed α, entry ∈ merge front entries →
      entry.1 ∈ (front ++ entries).map Prod.fst ∧ entry.2 ∈ (front ++ entries).map Prod.snd := by
    clear listed
    induction entries with
    | nil =>
      intro front listed
      rw [List.append_nil]
      exact ⟨List.mem_map_of_mem listed, List.mem_map_of_mem listed⟩
    | cons first rest ih =>
      intro front listed
      obtain ⟨key, value⟩ := ih (insert front first.1 first.2) listed
      simp only [List.map_append, List.map_cons, List.mem_append, List.mem_cons] at key value ⊢
      refine ⟨?_, ?_⟩
      · rcases key with key | key
        · obtain ⟨one, inside, same⟩ := List.mem_map.mp key
          have shown := (mem_insert inside).1
          rw [same, List.mem_cons] at shown
          tauto
        · tauto
      · rcases value with value | value
        · obtain ⟨one, inside, same⟩ := List.mem_map.mp value
          have shown := (mem_insert inside).2
          rw [same, List.mem_cons] at shown
          tauto
        · tauto
  simpa using merged [] listed

theorem same_text_iff {key : Scalar} {name : String} : key.same (.text name) = true ↔ key = .text name := by
  cases key <;> simp [Scalar.same, Scalar.floatSame, Scalar.asInt?]

theorem nodup_insert {entries : Keyed α} {name : String} (value : α) (distinct : (entries.map Prod.fst).Nodup) :
    ((insert entries (.text name) value).map Prod.fst).Nodup := by
  induction entries with
  | nil => exact List.nodup_singleton _
  | cons entry rest ih =>
    obtain ⟨fresh, distinct⟩ := List.nodup_cons.mp distinct
    rw [insert]
    split
    · exact List.nodup_cons.mpr ⟨fresh, distinct⟩
    · next apart =>
      refine List.nodup_cons.mpr ⟨fun again => ?_, ih distinct⟩
      obtain ⟨other, inside, same⟩ := List.mem_map.mp again
      rcases List.mem_cons.mp (mem_insert inside).1 with named | before
      · exact apart (same_text_iff.mpr (same.symm.trans named))
      · exact fresh (same ▸ before)

/-- The keys of a record are distinct when they are texts. -/
theorem nodup_ofEntries {entries : List (Scalar × α)} (keys : ∀ entry ∈ entries, ∃ name, entry.1 = .text name) :
    ((ofEntries entries).map Prod.fst).Nodup := by
  have merged : ∀ front : Keyed α, (front.map Prod.fst).Nodup → ((merge front entries).map Prod.fst).Nodup := by
    induction entries with
    | nil => exact fun _ distinct => distinct
    | cons entry rest ih =>
      obtain ⟨⟨name, named⟩, keys⟩ := List.forall_mem_cons.mp keys
      intro front distinct
      refine ih keys (insert front entry.1 entry.2) ?_
      rw [named]
      exact nodup_insert entry.2 distinct
  exact merged [] List.nodup_nil

/-- Entries under keys that are different, and not there yet, are set behind the others. -/
theorem merge_of_apart {front entries : Keyed α}
    (apart : (front ++ entries).Pairwise fun one other => one.1.same other.1 = false) :
    merge front entries = front ++ entries := by
  induction entries generalizing front with
  | nil => rw [List.append_nil]; rfl
  | cons entry rest ih =>
    have absent : ∀ other ∈ front, other.1.same entry.1 = false := fun other listed =>
      (List.pairwise_append.mp apart).2.2 other listed entry List.mem_cons_self
    rw [List.append_cons] at apart ⊢
    rw [← ih apart, ← insert_of_absent entry.2 absent]
    rfl

/-- Entries under different keys are put into a record as they are. -/
theorem ofEntries_of_apart {entries : List (Scalar × α)}
    (apart : entries.Pairwise fun one other => one.1.same other.1 = false) : ofEntries entries = entries :=
  merge_of_apart apart

theorem apart_of_nodup {entries : List (Scalar × α)} (keys : ∀ entry ∈ entries, ∃ name, entry.1 = .text name)
    (distinct : (entries.map Prod.fst).Nodup) :
    entries.Pairwise fun one other => one.1.same other.1 = false := by
  refine (List.pairwise_map.mp distinct).imp_of_mem fun {one other} inside among different => ?_
  obtain ⟨first, here⟩ := keys one inside
  obtain ⟨second, there⟩ := keys other among
  rw [here, there] at different ⊢
  rw [same_text, beq_eq_false_iff_ne]
  exact fun same => different (congrArg Scalar.text same)

/-- Entries under different names are put into a record as they are. -/
theorem ofEntries_ofFields (distinct : names.Nodup) :
    ofEntries (ofFields names value) = ofFields names value := by
  refine ofEntries_of_apart (apart_of_nodup (List.forall_mem_map.mpr fun name _ => ⟨name, rfl⟩) ?_)
  rw [ofFields, List.map_map]
  exact distinct.map fun _ _ => Scalar.text.inj

theorem text_same_iff {key : Scalar} {name : String} : (Scalar.text name).same key = true ↔ key = .text name := by
  cases key <;> simp [Scalar.same, Scalar.floatSame, Scalar.asInt?, @eq_comm _ _ name]

/-- Of the entries those are left whose keys are none of the names. -/
theorem foldl_erase (names : List String) (entries : Keyed α) :
    names.foldl (fun rest name => erase rest (.text name)) entries =
      entries.filter fun entry => entry.1 ∉ names.map .text := by
  induction names generalizing entries with
  | nil => simp
  | cons name names ih =>
    rw [List.foldl_cons, ih, erase, List.filter_filter]
    refine List.filter_congr fun entry _ => ?_
    rw [Bool.eq_iff_iff]
    simp only [Bool.and_eq_true, decide_eq_true_eq, Bool.not_eq_true', ← Bool.not_eq_true, same_text_iff,
      List.map_cons, List.mem_cons, not_or]
    exact and_comm

theorem field?_cons (entry : Scalar × α) (rest : Keyed α) (name : String) :
    field? (entry :: rest) name = if entry.1 = .text name then some entry.2 else field? rest name := by
  rw [field?, get?, List.find?_cons]
  by_cases here : entry.1 = .text name
  · rw [same_text_iff.mpr here, if_pos here]
    rfl
  · rw [Bool.eq_false_iff.mpr fun same => here (same_text_iff.mp same), if_neg here]
    rfl

theorem field?_eq_none {entries : Keyed α} {name : String} :
    field? entries name = none ↔ .text name ∉ entries.map Prod.fst := by
  induction entries with
  | nil => exact iff_of_true rfl List.not_mem_nil
  | cons entry rest ih =>
    rw [field?_cons, List.map_cons, List.mem_cons, not_or, ← ih]
    split
    · next here => simp [here]
    · next other => simp [Ne.symm other]

/-- What stands under a name among entries under different keys. -/
theorem field?_of_mem {entries : Keyed α} {name : String} {value : α}
    (apart : entries.Pairwise fun one other => one.1.same other.1 = false) (listed : (.text name, value) ∈ entries) :
    field? entries name = some value := by
  induction entries with
  | nil => cases listed
  | cons entry rest ih =>
    obtain ⟨other, apart⟩ := List.pairwise_cons.mp apart
    rw [field?_cons]
    rcases List.mem_cons.mp listed with rfl | later
    · exact if_pos rfl
    · have different : entry.1 ≠ .text name := by
        intro here
        have distinct := other _ later
        rw [same_text_iff.mpr here] at distinct
        cases distinct
      rw [if_neg different, ih apart later]

theorem field?_insert (entries : Keyed α) (key : Scalar) (value : α) (name : String) :
    field? (insert entries key value) name =
      if key = .text name then some value else field? entries name := by
  induction entries with
  | nil => exact field?_cons (key, value) [] name
  | cons entry rest ih =>
    rw [insert]
    split
    · next same =>
      rw [field?_cons, field?_cons]
      by_cases here : entry.1 = .text name
      · rw [here] at same
        rw [if_pos here, if_pos (text_same_iff.mp same)]
      · have other : key ≠ .text name := by
          rintro rfl
          exact here (same_text_iff.mp same)
        rw [if_neg here, if_neg other, if_neg here]
    · next apart =>
      rw [field?_cons, field?_cons, ih]
      by_cases here : entry.1 = .text name
      · have other : key ≠ .text name := by
          rintro rfl
          exact apart (same_text_iff.mpr here)
        rw [if_pos here, if_neg other, if_pos here]
      · rw [if_neg here, if_neg here]

/-- What entries that are set give counts before what was there. -/
theorem field?_merge (entries others : Keyed α) (name : String) :
    field? (merge entries others) name = (field? (ofEntries others) name).or (field? entries name) := by
  induction others generalizing entries with
  | nil => rfl
  | cons entry rest ih =>
    have first (front : Keyed α) :
        merge front (entry :: rest) = merge (insert front entry.1 entry.2) rest := rfl
    have here : field? (insert entries entry.1 entry.2) name =
        (field? (insert [] entry.1 entry.2) name).or (field? entries name) := by
      rw [field?_insert, field?_insert]
      split <;> rfl
    rw [ofEntries, first, first, ih, ih (insert [] entry.1 entry.2), here, Option.or_assoc]

end Keyed

end Scaffold
