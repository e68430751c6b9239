import Mathlib.Tactic.IntervalCases
import Scaffold.Json.Printer

/-!
Reading the strings that are written. Every character reads back from its escape: one outside of the
first sixteen bits from the two codes that stand for it.
-/

namespace Scaffold.Json

/-! ### Codes in base sixteen -/

theorem hexDigits_one {code : Nat} (small : code < 16) : Text.hexDigits 1 code = [code.digitChar] := by
  rw [Text.hexDigits, Nat.toDigits_of_lt_base small]
  rfl

theorem hexDigits_succ (width code : Nat) :
    Text.hexDigits (width + 2) code = Text.hexDigits (width + 1) (code / 16) ++ [(code % 16).digitChar] := by
  simp only [Text.hexDigits]
  rw [Nat.toDigits_eq_if (by decide)]
  split
  · next small =>
    rw [Nat.div_eq_of_lt small, Nat.mod_eq_of_lt small, Nat.toDigits_zero, List.length_singleton,
      List.length_singleton]
    simp [List.replicate_succ']
  · rw [List.length_append, List.length_singleton, ← List.append_assoc]
    simp

theorem hexDigits_four {code : Nat} (small : code < 0x10000) :
    Text.hexDigits 4 code =
      [(code / 4096).digitChar, (code / 256 % 16).digitChar, (code / 16 % 16).digitChar,
        (code % 16).digitChar] := by
  rw [hexDigits_succ, hexDigits_succ, hexDigits_succ, hexDigits_one (by omega)]
  simp only [Nat.div_div_eq_div_mul]
  rfl

theorem hexValue?_digitChar {digit : Nat} (small : digit < 16) :
    hexValue? digit.digitChar = some digit := by
  interval_cases digit <;> rfl

theorem hexQuad?_hexDigits {code : Nat} (small : code < 0x10000) (rest : List Char) :
    hexQuad? (Text.hexDigits 4 code ++ rest) = some (code, rest) := by
  rw [hexDigits_four small]
  have value : (((code / 4096) * 16 + code / 256 % 16) * 16 + code / 16 % 16) * 16 + code % 16 = code := by
    omega
  simp only [List.cons_append, List.nil_append, hexQuad?, hexValue?_digitChar (by omega : code / 4096 < 16),
    hexValue?_digitChar (Nat.mod_lt _ (by decide : 0 < 16)), Option.bind_eq_bind, Option.bind_some, value]

/-! ### Characters -/

variable {c : Char}

/-- No character has a code between those of the two halves of a pair. -/
theorem toNat_apart (c : Char) : c.toNat < 0xd800 ∨ 0xdfff < c.toNat ∧ c.toNat < 0x110000 :=
  c.valid

theorem codeEscape?_unit (small : c.toNat < 0x10000) (rest : List Char) :
    codeEscape? (Text.hexDigits 4 c.toNat ++ rest) = some (c, rest) := by
  have apart := toNat_apart c
  have high : ¬ (0xd800 ≤ c.toNat ∧ c.toNat < 0xdc00) := by omega
  have low : ¬ (0xdc00 ≤ c.toNat ∧ c.toNat < 0xe000) := by omega
  simp only [codeEscape?, hexQuad?_hexDigits small, Option.bind_eq_bind, Option.bind_some, Bool.and_eq_true,
    decide_eq_true_eq, if_neg high, if_neg low, Char.ofNat_toNat]

/-- Two halves form the character that they stand for. -/
theorem codeEscape?_halves {high low : Nat} (highHalf : 0xd800 ≤ high ∧ high < 0xdc00)
    (lowHalf : 0xdc00 ≤ low ∧ low < 0xe000) (rest : List Char) :
    codeEscape? (Text.hexDigits 4 high ++ (unitEscape low ++ rest)) =
      some (Char.ofNat (0x10000 + (high - 0xd800) * 0x400 + (low - 0xdc00)), rest) := by
  simp only [codeEscape?, hexQuad?_hexDigits (by omega : high < 0x10000), unitEscape, List.cons_append,
    List.nil_append, hexQuad?_hexDigits (by omega : low < 0x10000), Option.bind_eq_bind, Option.bind_some,
    Bool.and_eq_true, decide_eq_true_eq, if_pos highHalf, if_pos lowHalf]

theorem codeEscape?_pair (large : 0x10000 ≤ c.toNat) (rest : List Char) :
    codeEscape? (Text.hexDigits 4 (0xd800 + (c.toNat - 0x10000) / 0x400) ++
        (unitEscape (0xdc00 + (c.toNat - 0x10000) % 0x400) ++ rest)) = some (c, rest) := by
  have apart := toNat_apart c
  rw [codeEscape?_halves (by omega) (by omega), Nat.add_sub_cancel_left, Nat.add_sub_cancel_left,
    Nat.add_assoc, Nat.div_add_mod', Nat.add_sub_cancel' large, Char.ofNat_toNat]

/-- A character reads back from what is written for it. -/
theorem stringBody?_escapedChar (c : Char) (fuel : Nat) (rest : List Char) :
    stringBody? (fuel + 1) (escapedChar c ++ rest) =
      (stringBody? fuel rest).map fun (chars, last) => (c :: chars, last) := by
  unfold escapedChar
  split_ifs with quote backslash lineFeed carriageReturn tab formFeed backspace printable small
  · subst quote; rfl
  · subst backslash; rfl
  · subst lineFeed; rfl
  · subst carriageReturn; rfl
  · subst tab; rfl
  · subst formFeed; rfl
  · subst backspace; rfl
  · have visible : ¬ c.toNat < 32 := by simp at printable; omega
    rw [List.singleton_append, stringBody?.eq_def]
    simp only [if_neg quote, if_neg backslash, if_neg visible]
  · rw [unitEscape, List.append_assoc]
    simp [stringBody?, codeEscape?_unit small]
  · dsimp only
    rw [unitEscape, List.append_assoc, List.append_assoc]
    simp [stringBody?, codeEscape?_pair (not_lt.mp small)]

theorem stringBody?_written (chars : List Char) {fuel : Nat} (enough : chars.length < fuel) (rest : List Char) :
    stringBody? fuel (chars.flatMap escapedChar ++ '"' :: rest) = some (chars, rest) := by
  obtain ⟨spare, rfl⟩ : ∃ spare, fuel = chars.length + spare + 1 := Nat.exists_eq_add_of_lt enough
  clear enough
  induction chars with
  | nil =>
    rw [List.flatMap_nil, List.nil_append, stringBody?.eq_def]
    rfl
  | cons c chars ih =>
    have more : (c :: chars).length + spare + 1 = chars.length + spare + 1 + 1 := by
      rw [List.length_cons]
      omega
    rw [List.flatMap_cons, List.append_assoc, more, stringBody?_escapedChar, ih]
    rfl

theorem length_le_written (chars : List Char) : chars.length ≤ (chars.flatMap escapedChar).length := by
  have filled (c : Char) : escapedChar c ≠ [] := by
    unfold escapedChar unitEscape
    split_ifs <;> exact List.cons_ne_nil _ _
  induction chars with
  | nil => rfl
  | cons c chars ih =>
    have here := List.length_pos_iff.mpr (filled c)
    rw [List.flatMap_cons, List.length_append, List.length_cons]
    omega

/-- A string reads back from what is written for it. -/
theorem string?_written (chars rest : List Char) :
    string? (chars.flatMap escapedChar ++ '"' :: rest) = some (String.ofList chars, rest) := by
  have enough : chars.length < (chars.flatMap escapedChar ++ '"' :: rest).length + 1 := by
    have here := length_le_written chars
    rw [List.length_append]
    omega
  rw [string?, stringBody?_written chars enough]
  rfl

theorem return_not_mem_unitEscape {code : Nat} (small : code < 0x10000) : '\r' ∉ unitEscape code := by
  have apart {digit : Nat} (small : digit < 16) : '\r' ≠ digit.digitChar := by
    intro same
    have value := hexValue?_digitChar small
    rw [← same] at value
    cases value
  rw [unitEscape, hexDigits_four small]
  simp only [List.cons_append, List.nil_append, List.mem_cons, List.not_mem_nil, or_false, not_or]
  exact ⟨by decide, by decide, apart (by omega), apart (by omega), apart (by omega), apart (by omega)⟩

/-- No escape holds a carriage return. -/
theorem return_not_mem_escapedChar (c : Char) : '\r' ∉ escapedChar c := by
  have apart := toNat_apart c
  unfold escapedChar
  split_ifs with quote backslash lineFeed carriageReturn tab formFeed backspace printable small
  iterate 7 decide
  · simpa using Ne.symm carriageReturn
  · exact return_not_mem_unitEscape small
  · refine List.not_mem_append (return_not_mem_unitEscape ?_) (return_not_mem_unitEscape ?_) <;> omega

end Scaffold.Json
