import Scaffold.Proofs.Extract.FieldText
import Scaffold.Proofs.Extract.LinePattern
import Scaffold.Proofs.Text.Respaced

/-!
The matches of a loop's line. In lines that are filled with texts of the fields' kinds, each line is
matched as a whole and gives its texts back. In any text whatever, what a match captures for a field
is a text of the field's kind.
-/

namespace Scaffold.Extract

open Text Template Pattern

variable {kind : String → Kind} {text rest : List Char} {captured : List String}
  {captures : List (String × List Char)} {places : List (List Char × String)}
  {start finish : State} {line : LoopLine} {texts : String → List Char}

/-! ### Filled lines -/

/-- A literal text is matched as a whole, with any runs of blanks for its own, unless blanks at its end
go on after it. -/
theorem first_respaced {other : List Char} (respaced : Respaced text other)
    (literal : ∀ c ∈ text, isLiteral c = true)
    (stopped : (∀ c ∈ text.getLast?, isBlank c = false) ∨ ∀ c ∈ rest.head?, isBlank c = false)
    (captures : List (String × List Char)) :
    (sequence (literalPatterns text)).First ⟨other ++ rest, captures⟩ ⟨rest, captures⟩ := by
  induction respaced with
  | nil => exact First.empty _
  | @solid c text other solid more ih =>
    obtain ⟨here, literal⟩ := List.forall_mem_cons.mp literal
    rw [literalPatterns_solid solid here]
    refine First.append (First.char c (other ++ rest) captures) (ih literal ?_)
    refine stopped.imp_left fun ends d last => ends d ?_
    cases text with
    | nil => cases last
    | cons e more => exact last
  | @blanks run run' text other filled filled' blank blank' begins more ih =>
    -- a run is taken as a whole, since no blank follows it
    obtain ⟨_, literal⟩ := List.forall_mem_append.mp literal
    rw [literalPatterns_blanks filled blank begins, List.append_assoc]
    have ends : ∀ c ∈ (other ++ rest).head?, isBlank c = false := by
      cases form : other with
      | cons c other =>
        rw [form] at more
        exact more.head_solid begins
      | nil =>
        obtain rfl := more.eq_nil_iff.mpr form
        refine stopped.resolve_left fun solid => ?_
        rw [List.append_nil] at solid
        have final := List.getLast?_eq_some_getLast filled
        have last := solid _ final
        rw [blank _ (List.getLast_mem filled)] at last
        cases last
    have taken : (Pattern.many .blank).First ⟨run' ++ (other ++ rest), captures⟩
        ⟨other ++ rest, captures⟩ := First.many .blank filled' blank' ends captures
    refine First.append taken (ih literal ?_)
    exact stopped.imp_left fun solid c last =>
      solid c (List.mem_getLast?_append_of_mem_getLast? last)

/-- A literal text is matched as a whole, unless blanks at its end go on after it. -/
theorem first_literalPatterns (literal : ∀ c ∈ text, isLiteral c = true)
    (stopped : (∀ c ∈ text.getLast?, isBlank c = false) ∨ ∀ c ∈ rest.head?, isBlank c = false)
    (captures : List (String × List Char)) :
    (sequence (literalPatterns text)).First ⟨text ++ rest, captures⟩ ⟨rest, captures⟩ :=
  first_respaced (.refl text) literal stopped captures

/-- Each of some fields has been captured, with a text that is fit for it. -/
def Captured (fit : String → List Char → Prop) (captures : List (String × List Char))
    (fields : List String) : Prop :=
  ∀ field ∈ fields, ∃ text, captures.lookup field = some text ∧ fit field text

theorem Captured.cons {fit : String → List Char → Prop} (held : Captured fit captures captured)
    {field : String} (fits : fit field text) :
    Captured fit ((field, text) :: captures) (field :: captured) := by
  intro other member
  rw [List.lookup_cons]
  cases same : other == field with
  | true =>
    rw [eq_of_beq same]
    exact ⟨text, rfl, fits⟩
  | false => exact held other ((List.mem_cons.mp member).resolve_left (beq_eq_false_iff_ne.mp same))

theorem Captured.of_capturedAfter {fit : String → List Char → Prop} {field : String}
    {fields : List String} (held : Captured fit captures (capturedAfter captured field ++ fields)) :
    Captured fit captures (captured ++ field :: fields) := by
  intro other member
  refine held other ?_
  simp only [List.mem_append, List.mem_cons, mem_capturedAfter] at member ⊢
  tauto

/-- A reference takes the text that stands for it, and the text is captured or was before. -/
theorem first_captureOnce {field : String} {kind : Kind} (written : FieldText kind (texts field))
    (stopped : ∀ c ∈ rest.head?, CharClass.bare.holds c = false)
    (held : Captured (fun field text => text = texts field) captures captured) :
    ∃ captures', Captured (fun field text => text = texts field) captures'
        (capturedAfter captured field) ∧
      (captureOnce captured field (fieldPattern kind)).1.First ⟨texts field ++ rest, captures⟩
        ⟨rest, captures'⟩ := by
  rw [captureOnce, capturedAfter]
  split
  · next known =>
    rw [List.contains_iff_mem] at known
    obtain ⟨text, kept, rfl⟩ := held field known
    exact ⟨captures, held, First.again kept rest⟩
  · exact ⟨_, held.cons rfl, First.capture field (written.first stopped captures)⟩

theorem head_filledPlaces (between : ∀ place ∈ places, place.1.head?.any isStop = true)
    (stopped : ∀ c ∈ rest.head?, CharClass.bare.holds c = false) :
    ∀ c ∈ (filledPlaces texts places ++ rest).head?, CharClass.bare.holds c = false := by
  cases places with
  | nil => exact stopped
  | cons place places =>
    obtain ⟨text, field⟩ := place
    have stop := (List.forall_mem_cons.mp between).1
    cases text with
    | nil => cases stop
    | cons d text =>
      rintro c ⟨⟩
      simpa [isStop] using stop

/-- What stands for references is matched as a whole when each text after one begins with a character
at which a value ends. -/
theorem first_placePatterns (plain : PlainPlaces places)
    (written : ∀ place ∈ places, FieldText (kind place.2) (texts place.2))
    (between : ∀ place ∈ places.tail, place.1.head?.any isStop = true)
    (stopped : ∀ c ∈ rest.head?, CharClass.bare.holds c = false)
    (held : Captured (fun field text => text = texts field) captures captured) :
    ∃ captures', Captured (fun field text => text = texts field) captures'
        (captured ++ places.map (·.2)) ∧
      (sequence (placePatterns kind captured places)).First
        ⟨filledPlaces texts places ++ rest, captures⟩ ⟨rest, captures'⟩ := by
  induction places generalizing captured captures with
  | nil => exact ⟨captures, by simpa using held, First.empty _⟩
  | cons place places ih =>
    obtain ⟨⟨literal, _⟩, plain⟩ := List.forall_mem_cons.mp plain
    obtain ⟨here, written⟩ := List.forall_mem_cons.mp written
    obtain ⟨middle, heldMiddle, reference⟩ :=
      first_captureOnce here (head_filledPlaces between stopped) held
    obtain ⟨final, heldFinal, more⟩ := ih plain written
      (fun place member => between place (List.mem_of_mem_tail member)) heldMiddle
    refine ⟨final, heldFinal.of_capturedAfter, ?_⟩
    have begins : ∀ c ∈ (texts place.2 ++ (filledPlaces texts places ++ rest)).head?,
        isBlank c = false := by
      rw [List.head?_append_of_ne_nil _ here.filled]
      exact here.tight.begins
    rw [filledPlaces_cons, List.append_assoc, List.append_assoc, placePatterns]
    exact First.sequence_append (first_literalPatterns literal (.inr begins) captures)
      (First.append reference more)

/-- A trimmed line that is filled is matched as a whole. -/
theorem first_linePattern (shaped : line.Shaped)
    (written : ∀ field ∈ line.names, FieldText (kind field) (texts field))
    (ends : ∀ c ∈ line.last.getLast?, isBlank c = false)
    (stopped : ∀ c ∈ rest.head?, CharClass.bare.holds c = false) :
    ∃ captures, Captured (fun field text => text = texts field) captures line.names ∧
      (linePattern kind line).First ⟨line.fill texts ++ rest, []⟩ ⟨rest, captures⟩ := by
  have stop : ∀ c ∈ (line.last ++ rest).head?, CharClass.bare.holds c = false := by
    have begins := shaped.last
    cases last : line.last with
    | nil => exact stopped
    | cons d text =>
      rw [last] at begins
      rintro c ⟨⟩
      simpa [isStop] using begins
  have none : Captured (fun field text => text = texts field) [] [] := by simp [Captured]
  obtain ⟨captures, held, places⟩ :=
    first_placePatterns shaped.plainPlaces (List.forall_mem_map.mp written) shaped.between stop none
  refine ⟨captures, held, ?_⟩
  rw [LoopLine.fill, List.append_assoc, linePattern]
  exact First.sequence_append places
    (first_literalPatterns shaped.literal_last (.inl ends) captures)

/-! ### Any text -/

theorem leads_literalPatterns (literal : ∀ c ∈ text, isLiteral c = true)
    (leads : (sequence (literalPatterns text)).Leads start finish) :
    finish.captures = start.captures := by
  induction text using blanks_induction generalizing start with
  | nil => rw [show finish = start from leads]
  | solid c rest solid ih =>
    obtain ⟨here, literal⟩ := List.forall_mem_cons.mp literal
    rw [literalPatterns_solid solid here] at leads
    obtain ⟨middle, ⟨_, same⟩, more⟩ := leads
    exact (ih literal more).trans same
  | blanks run rest filled blank stopped ih =>
    obtain ⟨_, literal⟩ := List.forall_mem_append.mp literal
    rw [literalPatterns_blanks filled blank stopped] at leads
    obtain ⟨middle, ⟨_, _, _, _, same⟩, more⟩ := leads
    exact (ih literal more).trans same

theorem leads_captureOnce {field : String}
    (leads : (captureOnce captured field (fieldPattern (kind field))).1.Leads start finish)
    (held : Captured (fun field => FieldText (kind field)) start.captures captured) :
    Captured (fun field => FieldText (kind field)) finish.captures
      (capturedAfter captured field) := by
  rw [captureOnce] at leads
  rw [capturedAfter]
  split at leads
  · next known =>
    obtain ⟨_, _, _, same⟩ := leads
    rwa [if_pos known, same]
  · next unknown =>
    obtain ⟨after, inside, _, same⟩ := leads
    obtain ⟨used, written, split, same'⟩ := FieldText.of_leads inside
    rw [if_neg unknown, same, split, between_append, same']
    exact held.cons written

theorem leads_placePatterns (plain : PlainPlaces places)
    (leads : (sequence (placePatterns kind captured places)).Leads start finish)
    (held : Captured (fun field => FieldText (kind field)) start.captures captured) :
    Captured (fun field => FieldText (kind field)) finish.captures
      (captured ++ places.map (·.2)) := by
  induction places generalizing captured start with
  | nil =>
    rw [show finish = start from leads]
    simpa using held
  | cons place places ih =>
    obtain ⟨⟨literal, _⟩, plain⟩ := List.forall_mem_cons.mp plain
    obtain ⟨middle, text, after, reference, more⟩ := leads_sequence_append.mp leads
    rw [← leads_literalPatterns literal text] at held
    exact (ih plain more (leads_captureOnce reference held)).of_capturedAfter

/-- Every match captures, for each field, a text of the field's kind. -/
theorem captured_of_leads (shaped : line.Shaped)
    (leads : (linePattern kind line).Leads ⟨text, []⟩ finish) :
    Captured (fun field => FieldText (kind field)) finish.captures line.names := by
  obtain ⟨middle, places, last⟩ := leads_sequence_append.mp leads
  rw [leads_literalPatterns shaped.literal_last last]
  exact leads_placePatterns shaped.plainPlaces places (by simp [Captured])

/-- A match of a trimmed line begins with no blank. -/
theorem solid_linePattern (shaped : line.Shaped)
    (begins : ∀ c ∈ line.first.head?, isBlank c = false) : (linePattern kind line).Solid := by
  intro start finish leads
  rw [linePattern, LoopLine.places, placePatterns] at leads
  cases first : line.first with
  | nil =>
    rw [first] at leads
    obtain ⟨middle, ⟨after, inside, same, _⟩, more⟩ := leads
    obtain ⟨used, written, split, _⟩ := FieldText.of_leads inside
    obtain ⟨used', split'⟩ := more.used
    obtain ⟨c, tail, rfl⟩ := List.exists_cons_of_ne_nil written.filled
    refine ⟨c, tail ++ used', ?_, written.tight.begins c rfl⟩
    rw [split, ← same, split', List.cons_append, List.append_assoc]
  | cons c rest =>
    have solid : isBlank c = false := begins c (by rw [first]; rfl)
    have here : isLiteral c = true :=
      shaped.literals line.first (by simp [LoopLine.literals]) c (by simp [first])
    rw [first, literalPatterns_solid solid here] at leads
    obtain ⟨middle, ⟨split, _⟩, more⟩ := leads
    obtain ⟨used, split'⟩ := more.used
    exact ⟨c, used, by rw [split, split'], solid⟩

/-! ### All lines -/

theorem findMatches_filledLines (shaped : line.Shaped)
    {assignments : List (String → List Char)}
    (written : ∀ texts ∈ assignments, ∀ field ∈ line.names, FieldText (kind field) (texts field)) :
    List.Forall₂ (fun texts found =>
        Captured (fun field text => text = texts field) found.captures line.names)
      assignments
      ((linePattern kind line.trimmed).findMatches (line.filledLines assignments)) := by
  obtain ⟨front, back, before, after, filled⟩ := line.fill_trimmed
  obtain ⟨_, _, _, begins⟩ := trimLeft_spec line.first
  obtain ⟨_, _, _, ends⟩ := trimRight_spec line.last
  have solid : (linePattern kind line.trimmed).Solid := solid_linePattern shaped.trimmed begins
  induction assignments with
  | nil =>
    rw [LoopLine.filledLines, List.flatMap_nil, solid.findMatches_nil]
    exact .nil
  | cons texts assignments ih =>
    obtain ⟨here, written⟩ := List.forall_mem_cons.mp written
    have blanks : ∀ c ∈ back ++ ['\n'], isBlank c = true :=
      List.forall_mem_append.mpr ⟨after, by simp [isBlank]⟩
    have stopped : ∀ c ∈ (back ++ ['\n'] ++ line.filledLines assignments).head?,
        CharClass.bare.holds c = false := by
      intro c head
      have blank : isBlank c = true := by
        rw [List.head?_append_of_ne_nil _ (by simp)] at head
        exact blanks c (List.mem_of_mem_head? head)
      simp [CharClass.holds, blank]
    obtain ⟨captures, held, first⟩ := first_linePattern shaped.trimmed here ends stopped
    have text : line.filledLines (texts :: assignments) =
        front ++ (line.trimmed.fill texts ++ (back ++ ['\n'] ++ line.filledLines assignments)) := by
      rw [LoopLine.filledLines, List.flatMap_cons, filled, ← LoopLine.filledLines]
      simp only [List.append_assoc]
    have tight := LoopLine.tight_fill fun place member =>
      (here place.2 (List.mem_map_of_mem member)).tight
    rw [text, solid.findMatches_blanks before, findMatches_first first tight.filled,
      solid.findMatches_blanks blanks]
    exact .cons held (ih written)

end Scaffold.Extract
