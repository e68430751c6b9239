import Scaffold.Extract.Reading
import Scaffold.Proofs.Extract.Placeholders
import Scaffold.Proofs.Pattern.Searching
import Scaffold.Proofs.Text.Braces
import Scaffold.Proofs.Text.Lines

/-!
The items of a scalar loop, read off the lines of the block around it. The block is found by its
header and ends at the first closing brace, and its inside holds no brace at all. Main statement: which
items are found behind a header, when braces are balanced within each line.
-/

namespace Scaffold.Extract

open Text Template Pattern

variable {block : LoopBlock} {header : Pattern} {source text body inside rest front : List Char}
  {line row : List Char} {found : Match} {c : Char}

/-! ### Headers -/

/-- The pattern of the header of the block around a scalar loop. -/
def headerPattern (block : LoopBlock) : Pattern :=
  match block.container with
  | some (c :: line) => patternOf (fun state _ => (.any .word, state)) () (c :: line)
  | _ => usualHeader

theorem scalarLoopMatcher_eq (block : LoopBlock) :
    scalarLoopMatcher block = .scalarLoop block.name (.append (headerPattern block) blockInside) :=
  rfl

theorem endsWith_singleton : endsWith [c] text = true ↔ ∃ front, text = front ++ [c] := by
  rw [endsWith, List.isPrefixOf_iff_prefix, List.reverse_prefix]
  exact exists_congr fun front => eq_comm

/-- A brace that opens at the end of a line is a fragment of its own. -/
theorem fragments_concat (front : List Char) :
    ∃ before, fragments (front ++ ['{']) = before ++ [.char '{'] := by
  generalize whole : front ++ ['{'] = text
  induction text using scan_induction fragment?_consuming generalizing front with
  | nil => simp at whole
  | char c rest missed ih =>
    rw [fragments_of_none missed]
    cases front with
    | nil =>
      obtain ⟨rfl, rfl⟩ := List.cons.inj whole
      exact ⟨[], rfl⟩
    | cons d front =>
      obtain ⟨rfl, rest⟩ := List.cons.inj whole
      obtain ⟨before, last⟩ := ih front rest
      exact ⟨.char d :: before, by rw [last]; rfl⟩
  | found used rest fragment filled found ih =>
    rw [fragments_of_some filled found]
    obtain ⟨start, last, split, other⟩ := fragment?_split found
    rw [List.append_cons] at split
    obtain rfl := List.append_cancel_right split
    rcases List.eq_nil_or_concat rest with rfl | ⟨rest, d, rfl⟩
    · rw [List.append_nil] at whole
      obtain ⟨_, same⟩ := List.append_inj' whole rfl
      exact absurd (List.cons.inj same).1.symm other
    · rw [List.concat_eq_append, ← List.append_assoc] at whole
      obtain ⟨_, same⟩ := List.append_inj' whole rfl
      obtain ⟨before, last⟩ := ih rest (by rw [List.concat_eq_append, same])
      exact ⟨fragment :: before, by rw [last]; rfl⟩

theorem patternsFrom_concat {σ : Type} (expression : σ → List Char → Pattern × σ) (state : σ)
    (before : List Fragment) (c : Char) :
    ∃ parts, patternsFrom expression state (before ++ [.char c]) = parts ++ [.char c] := by
  induction before generalizing state with
  | nil => exact ⟨[], rfl⟩
  | cons fragment before ih =>
    cases fragment with
    | char d =>
      obtain ⟨parts, last⟩ := ih state
      exact ⟨.char d :: parts, congrArg (Pattern.char d :: ·) last⟩
    | expression inner =>
      obtain ⟨parts, last⟩ := ih (expression state inner).2
      exact ⟨(expression state inner).1 :: parts, congrArg ((expression state inner).1 :: ·) last⟩
    | statement =>
      obtain ⟨parts, last⟩ := ih state
      exact ⟨.few .inLine :: parts, congrArg (Pattern.few .inLine :: ·) last⟩
    | blanks =>
      obtain ⟨parts, last⟩ := ih state
      exact ⟨.many .blank :: parts, congrArg (Pattern.many .blank :: ·) last⟩

theorem endsIn_headerPattern (braced : ∀ line ∈ block.container, endsWith ['{'] line = true) :
    (headerPattern block).EndsIn '{' := by
  rw [headerPattern]
  split
  · next c line held =>
    obtain ⟨front, ended⟩ := endsWith_singleton.mp (braced _ held)
    obtain ⟨before, last⟩ := fragments_concat front
    obtain ⟨parts, last'⟩ := patternsFrom_concat (fun state _ => (Pattern.any .word, state)) () before '{'
    rw [patternOf, ended, last, last']
    exact endsIn_sequence parts '{'
  · exact endsIn_sequence
      [.group (.choice (["interface", "type", "class", "struct"].map fun word => .literal word.toList)),
        .many .blank, .any .word, .literal "Props".toList, .any .blank, .optional (.char '='),
        .any .blank] '{'

theorem isEven_patternsFrom {fragments : List Fragment} (untagged : .statement ∉ fragments) :
    ∀ part ∈ patternsFrom (fun state _ => (Pattern.any .word, state)) () fragments,
      part.isEven '{' = true := by
  induction fragments with
  | nil => simp [patternsFrom]
  | cons fragment fragments ih =>
    rw [List.mem_cons, not_or] at untagged
    have more := ih untagged.2
    cases fragment with
    | statement => exact absurd rfl untagged.1
    | char | expression | blanks => exact List.forall_mem_cons.mpr ⟨rfl, more⟩

/-- Without a statement in it, the header of a block takes up the braces that it names and no others. -/
theorem count_of_fits (untagged : ∀ line ∈ block.container, .statement ∉ fragments line)
    (fitting : (headerPattern block).fits text = true) :
    text.count '{' = (headerPattern block).least '{' := by
  obtain ⟨captures, leads⟩ := fits_iff.mp fitting
  have even : (headerPattern block).isEven '{' = true := by
    rw [headerPattern]
    split
    · next c line held =>
      rw [patternOf, isEven_sequence, List.all_eq_true]
      exact isEven_patternsFrom (untagged _ held)
    · decide
  have counted := leads.count_eq even
  simpa using counted

/-! ### The inside of a block -/

theorem braceless_iff : CharClass.braceless.holds c = true ↔ isBrace c = false := by
  simp [CharClass.holds, isBrace]

/-- What is found is the inside of a block: text without braces between a brace that opens at the end
of a header and the next one. -/
theorem found_inside (ends : header.EndsIn '{')
    (searched : (Pattern.append header blockInside).search? source = some found) :
    ∃ front body, source = front ++ '{' :: (body ++ '}' :: found.rest) ∧
      (∀ c ∈ body, isBrace c = false) ∧ header.least '{' ≤ (front ++ ['{']).count '{' ∧
      found.capture? "body" = some body := by
  obtain ⟨before, start, rfl, middle, leads, last, ⟨after, inside, same, kept⟩, closes⟩ :=
    search?_place searched
  obtain ⟨body, free, split, _⟩ := inside
  obtain ⟨closes, captures⟩ := closes
  obtain ⟨used, opens⟩ := ends leads
  have few := leads.least_le '{'
  change start = used ++ '{' :: middle.rest at opens
  change last.rest = '}' :: found.rest at closes
  rw [← same, closes] at split
  refine ⟨before ++ used, body, ?_, fun c member => braceless_iff.mp (free c member), ?_, ?_⟩
  · rw [opens, split, List.append_assoc]
  · simp only [opens, List.count_append, List.count_cons_self] at few
    simp only [List.count_append, List.count_singleton_self]
    omega
  · have captured : found.captures = last.captures := captures
    rw [Match.capture?, captured, kept, List.lookup_cons, beq_self_eq_true, ← same, closes, split,
      between_append]

/-- A block whose inside holds no braces is found. -/
theorem search?_block_isSome (fitting : header.fits text = true)
    (free : ∀ c ∈ inside, isBrace c = false) (front rest : List Char) :
    ((Pattern.append header blockInside).search?
      (front ++ (text ++ (inside ++ '}' :: rest)))).isSome := by
  obtain ⟨captures, leads⟩ := fits_iff.mp fitting
  have opens := leads.frame (List.append_nil text).symm (inside ++ '}' :: rest)
  have closes : blockInside.Leads ⟨inside ++ '}' :: rest, captures⟩
      ⟨rest, ("body", inside) :: captures⟩ :=
    ⟨⟨'}' :: rest, ("body", inside) :: captures⟩,
      ⟨⟨'}' :: rest, captures⟩, ⟨inside, fun c member => braceless_iff.mpr (free c member), rfl, rfl⟩,
        rfl, by rw [between_append]⟩,
      rfl, rfl⟩
  exact search?_isSome ⟨_, opens, closes⟩

/-- A block whose header has no more braces than its pattern and whose inside has none is what is
found, when no brace is opened behind it. -/
theorem search?_block (ends : header.EndsIn '{') (fitting : header.fits text = true)
    (few : text.count '{' ≤ header.least '{') (free : ∀ c ∈ inside, isBrace c = false)
    (quiet : '{' ∉ rest) :
    ∃ found, (Pattern.append header blockInside).search? (text ++ (inside ++ '}' :: rest)) =
        some found ∧ found.capture? "body" = some inside := by
  obtain ⟨found, searched⟩ := Option.isSome_iff_exists.mp (search?_block_isSome fitting free [] rest)
  rw [List.nil_append] at searched
  obtain ⟨front, body, split, free', many, captured⟩ := found_inside ends searched
  obtain ⟨captures, leads⟩ := fits_iff.mp fitting
  obtain ⟨head, whole⟩ := ends leads
  change text = head ++ ['{'] at whole
  have unopened : ∀ {part : List Char}, (∀ c ∈ part, isBrace c = false) → '{' ∉ part := by
    intro part free member
    cases free _ member
  -- The header takes up every brace that opens, so that the last one is where the body begins.
  have absent : '{' ∉ inside ++ '}' :: rest := by simp [unopened free, quiet]
  have absent' : '{' ∉ body ++ '}' :: found.rest := by
    have counted : (text ++ (inside ++ '}' :: rest)).count '{' = text.count '{' := by
      rw [List.count_append, List.count_eq_zero.mpr absent, Nat.add_zero]
    rw [split, List.append_cons front, List.count_append] at counted
    exact List.count_eq_zero.mp (by omega)
  rw [whole, List.append_assoc] at split
  obtain ⟨_, same⟩ := last_unique split absent absent'
  obtain ⟨rfl, _⟩ := first_unique same free free' (by decide) (by decide)
  exact ⟨found, searched, captured⟩

/-! ### Lines -/

/-- A line as an item: without blanks around it and without the separators at its end. -/
def cleaned (line : List Char) : List Char :=
  trimRight (dropRightWhile (fun c => c == ';' || c == ',') (trim line))

/-- The items of lines: those without braces, cleaned, unless nothing is left. -/
def keptItems (rows : List (List Char)) : List Value :=
  (((rows.filter (·.all (!isBrace ·))).map cleaned).filter (!·.isEmpty)).map
    fun item => .text (String.ofList item)

theorem isBrace_trim (line : List Char) : (trim line).any isBrace = line.any isBrace := by
  obtain ⟨before, blank, split, _⟩ := trimLeft_spec line
  obtain ⟨after, blank', split', _⟩ := trimRight_spec (trimLeft line)
  have none : ∀ {blanks : List Char}, (∀ c ∈ blanks, isBlank c = true) → blanks.any isBrace = false := by
    intro blanks all
    rw [List.any_eq_false]
    intro c member brace
    have blank := all c member
    rcases Bool.or_eq_true _ _ |>.mp brace with opens | closes
    · rw [eq_of_beq opens] at blank
      cases blank
    · rw [eq_of_beq closes] at blank
      cases blank
  rw [← trim] at split'
  conv_rhs => rw [split, split', List.any_append, List.any_append, none blank, none blank',
    Bool.or_false, Bool.false_or]

/-- A line gives an item if it has no braces and something is left of it. -/
theorem lineItem?_eq (line : List Char) : lineItem? line =
    if line.any isBrace || (cleaned line).isEmpty then none
    else some (.text (String.ofList (cleaned line))) := by
  have braces : ((trim line).contains '{' || (trim line).contains '}') = line.any isBrace := by
    rw [← isBrace_trim]
    induction trim line with
    | nil => rfl
    | cons c rest ih =>
      rw [List.contains_cons, List.contains_cons, List.any_cons, ← ih, isBrace, Bool.beq_comm,
        Bool.beq_comm (a := '}')]
      cases c == '{' <;> cases c == '}' <;> simp
  have kept : lineItem? line =
      if (trim line).isEmpty || line.any isBrace then none
      else if (cleaned line).isEmpty then none else some (.text (String.ofList (cleaned line))) := by
    rw [← braces, ← Bool.or_assoc]
    rfl
  rw [kept]
  cases empty : (trim line).isEmpty with
  | true =>
    have nothing : cleaned line = [] := by
      rw [cleaned, List.isEmpty_iff.mp empty]
      rfl
    rw [nothing, Bool.true_or, if_pos rfl, List.isEmpty_nil, Bool.or_true, if_pos rfl]
  | false => cases line.any isBrace <;> rfl

theorem filterMap_lineItem? (rows : List (List Char)) : rows.filterMap lineItem? = keptItems rows := by
  induction rows with
  | nil => rfl
  | cons row rows ih =>
    have plain : row.all (!isBrace ·) = !row.any isBrace := by simp [List.all_eq_not_any_not]
    rw [List.filterMap_cons, lineItem?_eq, ih, keptItems, keptItems, List.filter_cons, plain]
    cases row.any isBrace <;> cases empty : (cleaned row).isEmpty <;> simp [empty]

theorem lines_append_cons (absent : '\n' ∉ row) (rest : List Char) :
    lines (row ++ '\n' :: rest) = row :: lines rest :=
  splitOn_append_cons absent rest

theorem keptItems_cons (row : List Char) (rows : List (List Char)) :
    keptItems (row :: rows) = keptItems [row] ++ keptItems rows := by
  rw [← filterMap_lineItem?, ← filterMap_lineItem?, ← filterMap_lineItem?, ← List.filterMap_append]
  rfl

/-- The empty line behind the last line feed gives no item. -/
theorem keptItems_ended {rows : List (List Char)} (inLine : ∀ row ∈ rows, '\n' ∉ row) :
    keptItems (lines (rows.flatMap (· ++ ['\n']))) = keptItems rows := by
  induction rows with
  | nil => rfl
  | cons row rows ih =>
    obtain ⟨here, more⟩ := List.forall_mem_cons.mp inLine
    rw [List.flatMap_cons, List.append_assoc, List.singleton_append, lines_append_cons here,
      keptItems_cons, ih more, ← keptItems_cons]

/-- An empty line before the others gives no item. -/
theorem keptItems_begun (text : List Char) : keptItems (lines ('\n' :: text)) = keptItems (lines text) := by
  have opens : lines ('\n' :: text) = [] :: lines text := lines_append_cons List.not_mem_nil text
  rw [opens, keptItems_cons]
  rfl

/-- Blank lines before and behind give no items. -/
theorem keptItems_lines {rows : List (List Char)} (inLine : ∀ row ∈ rows, '\n' ∉ row) :
    keptItems (lines ('\n' :: (joinWith ['\n'] rows ++ ['\n']))) = keptItems rows := by
  cases rows with
  | nil => rfl
  | cons row rows =>
    rw [keptItems_begun, joinWith_append_separator, keptItems_ended inLine]

/-! ### Blocks -/

/-- A block: its header, its lines, and the closing brace on a line of its own. -/
def blockText (header : List Char) (rows : List (List Char)) : List Char :=
  header ++ '\n' :: (joinWith ['\n'] rows ++ ['\n', '}'])

variable {rows : List (List Char)}

/-- The block that a header opens is not found when some line of it has braces: what is found stands
between braces within one line. -/
theorem found_within_row (ends : header.EndsIn '{') (fitting : header.fits text = true)
    (few : text.count '{' ≤ header.least '{') (balanced : ∀ row ∈ rows, IsBalanced row)
    (braced : ∃ row ∈ rows, ∃ c ∈ row, isBrace c = true)
    (searched : (Pattern.append header blockInside).search? (blockText text rows) = some found) :
    ∃ part, found.capture? "body" = some part ∧
      ∃ row ∈ rows, '{' :: (part ++ ['}']) <:+: row := by
  obtain ⟨front, part, split, free, many, captured⟩ := found_inside ends searched
  refine ⟨part, captured, ?_⟩
  obtain ⟨captures, leads⟩ := fits_iff.mp fitting
  obtain ⟨head, whole⟩ := ends leads
  change text = head ++ ['{'] at whole
  rw [blockText] at split
  rcases List.append_eq_append_iff.mp split with ⟨more, _, inRows⟩ | ⟨more, inText, behind⟩
  · -- the brace stands in one of the lines, and the next brace in the same line
    cases more with
    | nil => cases inRows
    | cons d more =>
      obtain ⟨_, inRows⟩ := List.cons.inj inRows
      obtain ⟨row, member, before, behind, after, rfl, rest⟩ :=
        joinWith_split (by decide) (by decide) inRows
      obtain ⟨first, c, last, rfl, free', brace⟩ := exists_first_brace (balanced _ member).behind
      rw [List.append_assoc, List.cons_append] at rest
      obtain ⟨rfl, rfl, _⟩ := first_unique rest free free' (by decide) brace
      exact ⟨_, member, before, last, by simp⟩
  · -- the brace ends the header, and the next brace does not close
    exfalso
    cases more with
    | nil => cases behind
    | cons d more =>
      obtain ⟨rfl, behind⟩ := List.cons.inj behind
      have unopened : '{' ∉ more := by
        rw [inText, List.append_cons, List.count_append] at few
        exact List.count_eq_zero.mp (by omega)
      obtain ⟨_, rfl⟩ := last_unique (inText.symm.trans whole) unopened (by simp)
      obtain ⟨row, member, c, within, brace⟩ := braced
      obtain ⟨first, d, last, joined, free', brace⟩ :=
        exists_first_brace ⟨c, mem_joinWith member within, brace⟩
      have balanced : IsBalanced (joinWith ['\n'] rows) :=
        isBalanced_joinWith (List.forall_mem_singleton.mpr rfl) balanced
      rw [joined] at balanced behind
      obtain rfl := balanced.first free' brace
      have apart : ∀ c ∈ '\n' :: first, isBrace c = false := List.forall_mem_cons.mpr ⟨rfl, free'⟩
      have same : part ++ '}' :: found.rest =
          ('\n' :: first) ++ '{' :: (last ++ ['\n', '}']) := by simpa using behind
      obtain ⟨_, other, _⟩ := first_unique same free apart (by decide) (by decide)
      cases other

theorem lines_of_absent (absent : '\n' ∉ text) : lines text = [text] :=
  splitOn_of_absent absent

/-- What is read off a block whose lines have their braces balanced. When no line has braces, these are
the cleaned lines. When some line has them, the block itself is not found, and at most one item is:
what stands between braces in one of the lines. -/
theorem extract_blockText {title : List Char}
    (braced : ∀ line ∈ block.container, endsWith ['{'] line = true)
    (fitting : (headerPattern block).fits title = true)
    (few : title.count '{' ≤ (headerPattern block).least '{')
    (inLine : ∀ row ∈ rows, '\n' ∉ row) (balanced : ∀ row ∈ rows, IsBalanced row) :
    ((∀ row ∈ rows, ∀ c ∈ row, isBrace c = false) →
      (scalarLoopMatcher block).extract (blockText title rows) =
        .ok (some (.list (keptItems rows)))) ∧
    ((∃ row ∈ rows, ∃ c ∈ row, isBrace c = true) →
      ∃ items, (scalarLoopMatcher block).extract (blockText title rows) = .ok (some (.list items)) ∧
        items.length ≤ 1 ∧
        (items = [] ∨ ∃ part, items = keptItems [part] ∧
          ∃ row ∈ rows, '{' :: (part ++ ['}']) <:+: row)) := by
  have ends := endsIn_headerPattern braced
  rw [scalarLoopMatcher_eq, Matcher.extract]
  refine ⟨fun free => ?_, fun some => ?_⟩
  · have inside : ∀ c ∈ '\n' :: (joinWith ['\n'] rows ++ ['\n']), isBrace c = false := by
      rw [List.forall_mem_cons, List.forall_mem_append]
      have lineFeed : ∀ c ∈ ['\n'], isBrace c = false := List.forall_mem_singleton.mpr rfl
      exact ⟨rfl, forall_mem_joinWith lineFeed free, lineFeed⟩
    obtain ⟨found, searched, captured⟩ := search?_block ends fitting few inside List.not_mem_nil
    have form : title ++ ('\n' :: (joinWith ['\n'] rows ++ ['\n']) ++ ['}']) =
        blockText title rows := by
      simp [blockText]
    rw [form] at searched
    simp only [searched, captured, filterMap_lineItem?, keptItems_lines inLine]
  · cases searched : (Pattern.append (headerPattern block) blockInside).search? (blockText title rows) with
    | none => exact ⟨[], rfl, Nat.zero_le 1, .inl rfl⟩
    | some found =>
      obtain ⟨part, captured, row, member, within⟩ :=
        found_within_row ends fitting few balanced some searched
      have absent : '\n' ∉ part := fun broken =>
        inLine row member (within.subset (by simp [broken]))
      simp only [captured, lines_of_absent absent, filterMap_lineItem?]
      refine ⟨_, rfl, ?_, .inr ⟨part, rfl, row, member, within⟩⟩
      rw [← filterMap_lineItem?]
      exact List.length_filterMap_le lineItem? [part]

/-- A line with an object type hides the lines around it. -/
theorem extract_blockText_of_object_line :
    let block : LoopBlock := {
      name := "props", body := "\x7b\x7b p \x7d\x7d;".toList, item := "p", scalar := true,
      container := some "export interface \x7b\x7b name \x7d\x7dProps \x7b".toList }
    let title := "export interface AProps \x7b".toList
    let rows := ["  a: string;".toList, "  b: \x7b x: number \x7d;".toList, "  c: string;".toList]
    (headerPattern block).fits title = true ∧ (∀ row ∈ rows, IsBalanced row) ∧
    keptItems rows = [.text "a: string", .text "c: string"] ∧
    ∃ items, (scalarLoopMatcher block).extract (blockText title rows) = .ok (some (.list items)) ∧
      items.length ≤ 1 := by
  intro block title rows
  have fitting : (headerPattern block).fits title = true := by decide
  have balanced : ∀ row ∈ rows, IsBalanced row := by decide
  have braced : ∃ row ∈ rows, ∃ c ∈ row, isBrace c = true :=
    ⟨_, List.mem_cons_of_mem _ List.mem_cons_self, '{', by decide, rfl⟩
  obtain ⟨items, read, few, _⟩ := (extract_blockText (by decide) fitting
    (count_of_fits (by decide) fitting).le (by decide) balanced).2 braced
  exact ⟨fitting, balanced, rfl, items, read, few⟩

end Scaffold.Extract
