import Mathlib
import Scaffold.Generator.Basic
import Scaffold.Proofs.Outcome
import Scaffold.Proofs.Render.TokenSteps
import Scaffold.Proofs.Template.Groups
import Scaffold.Proofs.Value.Fields

/-!
The parameters of a generator that is made from a template. Its variables come first, then the other declared
parameters. Main statement: what is declared is kept, and what is not is an array exactly when a loop of the template
goes over it, where the loops in comments count too.
-/

namespace Scaffold

open Text Sentinel Template Render

variable {entries : Record} {declared : Keyed Param} {names : List String} {name description : String}
  {template : List Char} {examples outputPath : Value} {generator : Generator}

/-! ### Declarations -/

/-- Every declared parameter is what the value under its key declares, in the order of the record. -/
theorem Param.ofRecord_eq_ok : Param.ofRecord entries = .ok declared ↔
    List.Forall₂ (fun entry param => param.1 = entry.1 ∧ Param.ofValue entry.1 entry.2 = .ok param.2)
      entries declared := by
  induction entries generalizing declared with
  | nil =>
    rw [ofRecord, List.forall₂_nil_left_iff]
    exact ⟨fun same => (Except.ok.inj same).symm, fun same => congrArg _ same.symm⟩
  | cons entry rest ih =>
    obtain ⟨key, value⟩ := entry
    rw [ofRecord, List.forall₂_cons_left_iff, bind_eq_ok]
    constructor
    · rintro ⟨param, here, run⟩
      obtain ⟨params, later, same⟩ := bind_eq_ok.mp run
      exact ⟨(key, param), params, ⟨rfl, here⟩, ih.mp later, (Except.ok.inj same).symm⟩
    · rintro ⟨⟨_, param⟩, params, ⟨rfl, here⟩, later, rfl⟩
      exact ⟨param, here, bind_eq_ok.mpr ⟨params, ih.mpr later, rfl⟩⟩

theorem Param.ofRecord_keys (run : Param.ofRecord entries = .ok declared) :
    declared.map Prod.fst = entries.map Prod.fst := by
  have each := Param.ofRecord_eq_ok.mp run
  clear run
  induction each with
  | nil => rfl
  | cons here _ ih => rw [List.map_cons, List.map_cons, here.1, ih]

/-- The parameter of a variable that is not declared. -/
def Param.assumed (looped : Bool) (name : String) : Param :=
  if looped then { type := "array", description := "Items for " ++ name } else { description := "Value for " ++ name }

namespace Generator

theorem declarationsOf_map (entries : Record) : declarationsOf (.map entries) = .ok entries := by
  unfold declarationsOf Value.truthy
  cases entries <;> rfl

theorem params_of_define (run : define name description template (.map entries) examples outputPath = .ok generator) :
    ∃ declared, Param.ofRecord entries = .ok declared ∧ generator.params = allParams declared template := by
  obtain ⟨record, given, run⟩ := bind_eq_ok.mp run
  obtain rfl := Except.ok.inj ((declarationsOf_map entries).symm.trans given)
  obtain ⟨declared, known, run⟩ := bind_eq_ok.mp run
  obtain ⟨_, _, run⟩ := bind_eq_ok.mp run
  exact ⟨declared, known, by rw [← Except.ok.inj run]⟩

theorem variableParams_eq (declared : Keyed Param) (collections names : List String) :
    variableParams declared collections names = names.map fun name =>
      (.text name, (Keyed.field? declared name).getD (Param.assumed (collections.contains name) name)) := by
  induction names with
  | nil => rfl
  | cons name names ih =>
    rw [variableParams, ih, List.map_cons]
    rfl

theorem variableNames_nodup (template : List Char) : (variableNames template).Nodup :=
  nodup_eraseDups _

/-- All parameters: those of the variables, and behind them the declared ones that are none. -/
theorem allParams_eq (apart : declared.Pairwise fun one other => one.1.same other.1 = false) (template : List Char) :
    let params := variableParams declared (collectionNames template) (variableNames template) ++
      declared.filter fun entry => entry.1 ∉ (variableNames template).map .text
    allParams declared template = params ∧ params.Pairwise fun one other => one.1.same other.1 = false := by
  intro params
  have distinct : params.Pairwise fun one other => one.1.same other.1 = false := by
    refine List.pairwise_append.mpr ⟨?_, apart.filter _, fun one first other second => ?_⟩
    · rw [variableParams_eq, List.pairwise_map]
      refine (variableNames_nodup template).imp fun {name other} different => ?_
      rw [Keyed.same_text, beq_eq_false_iff_ne]
      exact different
    · rw [variableParams_eq] at first
      obtain ⟨name, used, rfl⟩ := List.mem_map.mp first
      have undeclared : other.1 ∉ (variableNames template).map .text := by simpa using (List.mem_filter.mp second).2
      rw [← Bool.not_eq_true, Keyed.text_same_iff]
      exact fun same => undeclared (same ▸ List.mem_map_of_mem used)
  refine ⟨?_, distinct⟩
  rw [allParams, Keyed.foldl_erase]
  exact Keyed.merge_of_apart distinct

/-- The parameter of a variable: the declared one, if there is one. -/
theorem mem_allParams (apart : declared.Pairwise fun one other => one.1.same other.1 = false)
    (used : name ∈ variableNames template) {param : Param} :
    (.text name, param) ∈ allParams declared template ↔
      param = (Keyed.field? declared name).getD (.assumed ((collectionNames template).contains name) name) := by
  have others : (.text name, param) ∉
      declared.filter fun entry => entry.1 ∉ (variableNames template).map Scalar.text := by
    intro listed
    have undeclared := (List.mem_filter.mp listed).2
    simp [used] at undeclared
  rw [(allParams_eq apart template).1, List.mem_append, or_iff_left others, variableParams_eq, List.mem_map]
  constructor
  · rintro ⟨other, _, same⟩
    obtain ⟨named, rfl⟩ := Prod.mk.inj same
    rw [Scalar.text.inj named]
  · rintro rfl
    exact ⟨name, used, rfl⟩

/-- A declared parameter is kept. -/
theorem mem_allParams_of_declared (apart : declared.Pairwise fun one other => one.1.same other.1 = false)
    {entry : Scalar × Param} (listed : entry ∈ declared) : entry ∈ allParams declared template := by
  obtain ⟨key, param⟩ := entry
  by_cases among : key ∈ (variableNames template).map .text
  · obtain ⟨name, used, rfl⟩ := List.mem_map.mp among
    rw [mem_allParams apart used, Keyed.field?_of_mem apart listed]
    rfl
  · rw [(allParams_eq apart template).1]
    exact List.mem_append_right _ (List.mem_filter.mpr ⟨listed, by simpa using among⟩)

theorem keys_allParams (apart : declared.Pairwise fun one other => one.1.same other.1 = false)
    (template : List Char) :
    (allParams declared template).map Prod.fst = (variableNames template).map .text ++
      (declared.map Prod.fst).filter (· ∉ (variableNames template).map .text) := by
  rw [(allParams_eq apart template).1, variableParams_eq, List.map_append, List.map_map, List.filter_map]
  rfl

/-! ### Loops in comments -/

/-- The opening tag of a loop anywhere in a text goes over a collection. -/
def GoesOver (text : List Char) (name : String) : Prop :=
  ∃ tag : Located ForTag, tag.At forTag? text ∧ tag.value.collection = name

/-- A variable of a template that is not declared. -/
structure Undeclared (declared : Keyed Param) (template : List Char) (name : String) : Prop where
  used : name ∈ variableNames template
  absent : .text name ∉ declared.map Prod.fst

theorem contains_collectionNames {text : List Char} :
    (collectionNames text).contains name = true ↔ GoesOver text name := by
  rw [List.contains_iff_mem, mem_collectionNames]
  rfl

theorem withoutComments_eq_self (unmarked : ¬commentMark <:+: template) : withoutComments template = template := by
  have whole : withoutComments (template ++ []) = template ++ withoutComments [] :=
    eraseAll_append_of_none fun before after split _ =>
      comment?_eq_none fun marked => unmarked (by
        rw [List.append_nil] at marked
        exact marked.isInfix.trans ⟨before, [], by rw [split, List.append_nil]⟩)
  rw [List.append_nil] at whole
  rw [whole]
  exact List.append_nil _

/-- A generator that is made from a template and a mapping of declared parameters. Its parameters are the variables
of the template and then the declared ones that are none, each kind in its order; a declared parameter is kept as it
is declared. A variable that is not declared is an array if a loop of the template goes over it, and a text
otherwise. Loops in comments count as well: the arrays are what loops outside of comments go over exactly when those
go over the same undeclared variables as all loops do, and when no comment begins in the template they do. -/
theorem define_declares (mapping : entries.Pairwise fun one other => one.1.same other.1 = false)
    (accepted : define name description template (.map entries) examples outputPath = .ok generator) :
    ∃ declared : Keyed Param,
      List.Forall₂ (fun entry param => param.1 = entry.1 ∧ Param.ofValue entry.1 entry.2 = .ok param.2)
          entries declared ∧
        generator.params.Pairwise (fun one other => one.1.same other.1 = false) ∧
        generator.params.map Prod.fst = (variableNames template).map .text ++
          (declared.map Prod.fst).filter (· ∉ (variableNames template).map .text) ∧
        (∀ entry ∈ declared, entry ∈ generator.params) ∧
        (∀ name, Undeclared declared template name → ∀ param, (.text name, param) ∈ generator.params ↔
          (GoesOver template name ∧ param = .assumed true name) ∨
            (¬GoesOver template name ∧ param = .assumed false name)) ∧
        ((∀ name, Undeclared declared template name → ∀ param, (.text name, param) ∈ generator.params →
            (param.type = "array" ↔ GoesOver (withoutComments template) name)) ↔
          ∀ name, Undeclared declared template name →
            (GoesOver template name ↔ GoesOver (withoutComments template) name)) ∧
        (¬commentMark <:+: template → ∀ name, GoesOver template name ↔ GoesOver (withoutComments template) name) := by
  obtain ⟨declared, known, params⟩ := params_of_define accepted
  have apart : declared.Pairwise fun one other => one.1.same other.1 = false := by
    rw [← List.pairwise_map (f := Prod.fst) (R := fun one other : Scalar => one.same other = false)] at mapping ⊢
    rwa [Param.ofRecord_keys known]
  have assumed {name : String} (undeclared : Undeclared declared template name) (param : Param) :
      (.text name, param) ∈ generator.params ↔
        (GoesOver template name ∧ param = .assumed true name) ∨
          (¬GoesOver template name ∧ param = .assumed false name) := by
    rw [params, mem_allParams apart undeclared.used, Keyed.field?_eq_none.mpr undeclared.absent,
      ← contains_collectionNames]
    cases (collectionNames template).contains name <;> simp
  refine ⟨declared, Param.ofRecord_eq_ok.mp known, ?_, ?_, fun entry listed => ?_, fun name => assumed, ?_,
    fun unmarked name => by rw [withoutComments_eq_self unmarked]⟩
  · rw [params]
    exact (allParams_eq apart template).1 ▸ (allParams_eq apart template).2
  · rw [params, keys_allParams apart]
  · rw [params]
    exact mem_allParams_of_declared apart listed
  · refine forall₂_congr fun name undeclared => ?_
    simp only [assumed undeclared]
    by_cases looped : GoesOver template name
    · simp [looped, Param.assumed]
    · simp [looped, Param.assumed]

/-- A template with a loop in a comment over one of its two variables. -/
def commentedLoop : List Char :=
  "\x7b# \x7b% for x in xs %\x7d #\x7d\x7b\x7b y \x7d\x7d\x7b\x7b xs \x7d\x7d".toList

/-- The loop in the comment makes an array of a variable that no other loop goes over. -/
theorem define_declares_of_comment :
    ∃ generator, define "g" "D" commentedLoop (.map [(.text "z", .text "number"), (.text "y", .text "string")]) .null
        .null = .ok generator ∧
      generator.params.map Prod.fst = [.text "y", .text "xs", .text "z"] ∧
      (.text "xs", .assumed true "xs") ∈ generator.params ∧
      ¬GoesOver (withoutComments commentedLoop) "xs" := by
  obtain ⟨generator, accepted⟩ : ∃ generator, define "g" "D" commentedLoop
      (.map [(.text "z", .text "number"), (.text "y", .text "string")]) .null .null = .ok generator := ⟨_, rfl⟩
  have names : variableNames commentedLoop = ["y", "xs"] := by cbv
  have looped : GoesOver commentedLoop "xs" := contains_collectionNames.mp (by cbv)
  have unlooped : ¬GoesOver (withoutComments commentedLoop) "xs" := by
    rw [← contains_collectionNames, show collectionNames (withoutComments commentedLoop) = [] by cbv]
    decide
  obtain ⟨declared, each, _, keys, _, assumed, _⟩ := define_declares (by decide) accepted
  have declares : declared.map Prod.fst = [.text "z", .text "y"] :=
    Param.ofRecord_keys (Param.ofRecord_eq_ok.mpr each)
  have undeclared : Undeclared declared commentedLoop "xs" := ⟨by rw [names]; decide, by rw [declares]; decide⟩
  refine ⟨generator, accepted, ?_, (assumed _ undeclared _).mpr (.inl ⟨looped, rfl⟩), unlooped⟩
  rw [keys, names, declares]
  rfl

end Generator

end Scaffold
