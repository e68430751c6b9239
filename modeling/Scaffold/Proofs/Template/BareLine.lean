import Mathlib.Data.List.Infix
import Scaffold.Proofs.Template.PropsLoop

/-!
Lines of literal texts and placeholders. The texts may have braces, as long as no tag and no comment opens
in them, and the names in the placeholders may have any blanks around them.
-/

namespace Scaffold.Template

open Text

/-- Neither a tag nor a comment opens in a text. -/
def Untagged (text : List Char) : Prop :=
  ∀ sign ∈ ['{', '%', '#'], ¬ ['{', sign] <:+: text

instance (text : List Char) : Decidable (Untagged text) :=
  List.decidableBAll (fun sign => ¬ ['{', sign] <:+: text) ['{', '%', '#']

/-- A line of literal texts and placeholders: a placeholder with the text before it, then more of them,
and a text at the end. -/
structure BareLine where
  slot : Slot
  more : List Slot
  last : List Char

namespace BareLine

def slots (line : BareLine) : List Slot :=
  line.slot :: line.more

def source (line : BareLine) : List Char :=
  line.slots.flatMap Slot.source ++ line.last

/-- The line without the blanks in its placeholders. -/
def toParamLine (line : BareLine) : ParamLine :=
  ⟨line.slot.text, line.slot.name, line.more.map fun slot => (slot.text, slot.name), line.last⟩

/-- No tag and no comment opens in the texts, nor with the brace behind a text; what stands around a name
are blanks; and the names can stand in tags. -/
structure Shaped (line : BareLine) : Prop where
  texts : ∀ slot ∈ line.slots, Untagged (slot.text ++ ['{'])
  last : Untagged line.last
  blank : ∀ slot ∈ line.slots, ∀ c ∈ slot.before ++ slot.behind, isBlank c = true
  names : ∀ slot ∈ line.slots, isTagName slot.name.toList = true

/-- No line ends inside of the line, and its names are not reserved. -/
structure Renderable (line : BareLine) : Prop where
  inLine : '\n' ∉ line.source ∧ '\r' ∉ line.source
  free : ∀ name ∈ line.toParamLine.names, name ∉ reservedNames

end BareLine

variable {line : BareLine} {slot : Slot} {text : List Char} {c d : Char}

/-! ### Texts without tags -/

namespace Untagged

theorem tail (untagged : Untagged (c :: text)) : Untagged text :=
  fun sign listed within => untagged sign listed (List.infix_cons within)

theorem suffix {front : List Char} (untagged : Untagged (front ++ text)) : Untagged text :=
  fun sign listed within => untagged sign listed (List.infix_append_of_infix_right within)

/-- What stands behind a brace opens nothing with it. -/
theorem apart (untagged : Untagged (c :: text)) (brace : c = '{') :
    ∀ d ∈ text.head?, d ∉ ['{', '%', '#'] := by
  subst brace
  intro d first listed
  obtain ⟨more, rfl⟩ := List.head?_eq_some_iff.mp first
  exact untagged d listed (List.IsPrefix.isInfix ⟨more, rfl⟩)

/-- A text in which nothing opens, nor with what follows it. -/
theorem apart_append {back : List Char} (untagged : Untagged (c :: (text ++ back.head?.toList)))
    (brace : c = '{') : ∀ d ∈ (text ++ back).head?, d ∉ ['{', '%', '#'] := by
  have same : (text ++ back).head? = (text ++ back.head?.toList).head? := by
    cases text with
    | nil => cases back <;> rfl
    | cons => rfl
  exact same ▸ untagged.apart brace

end Untagged

/-! ### Places -/

namespace BareLine

theorem places_toParamLine (line : BareLine) :
    line.toParamLine.places = line.slots.map fun slot => (slot.text, slot.name) :=
  rfl

theorem names_toParamLine (line : BareLine) : line.toParamLine.names = line.slots.map Slot.name := by
  rw [ParamLine.names, places_toParamLine, List.map_map]
  rfl

/-- The parts of a placeholder stand in the line. -/
theorem absent_slot (listed : slot ∈ line.slots) (absent : d ∉ line.source) :
    d ∉ slot.text ∧ d ∉ slot.before ++ slot.behind := by
  have within : d ∉ slot.source := by
    refine fun member => absent (List.mem_append_left _ ?_)
    exact List.mem_flatMap_of_mem listed member
  simp only [Slot.source, Slot.braced, List.mem_append, List.mem_cons, not_or] at within ⊢
  exact ⟨within.1, within.2.2.2.1, within.2.2.2.2.2.1⟩

/-- A placeholder is recognised as such, whatever follows it. -/
theorem Shaped.placeholder?_braced (shaped : line.Shaped) (listed : slot ∈ line.slots) (back : List Char) :
    placeholder? (slot.braced ++ back) = some (slot.name, back) := by
  rw [slot.braced_append]
  exact placeholder?_blanks (shaped.blank slot listed) (shaped.names slot listed) back

end BareLine

end Scaffold.Template
