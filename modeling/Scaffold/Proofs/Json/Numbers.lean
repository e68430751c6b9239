import Mathlib.Data.List.Induction
import Scaffold.Proofs.Json.Storable
import Scaffold.Proofs.Number.Nearest
import Scaffold.Proofs.Text.Scan

/-!
Reading the numbers that are written. A number ends where no digit, point or exponent can follow, so it
is read off the front of a longer text; and the decimal that is read has the value of the one that was
written, however its digits are laid out around the point.
-/

namespace Scaffold.Json

/-- A number cannot go on here. -/
def Ended (rest : List Char) : Prop :=
  ∀ c ∈ rest.head?, c.isDigit = false ∧ c ≠ '.' ∧ c ≠ 'e' ∧ c ≠ 'E'

def Decimal (digits : List Char) : Prop :=
  ∀ c ∈ digits, c.isDigit = true

/-- The digits of a whole number, without needless zeros before them. -/
structure Whole (digits : List Char) : Prop where
  decimal : Decimal digits
  filled : digits ≠ []
  first : digits.head? = some '0' → digits = ['0']

variable {digits places rest : List Char}

/-! ### The value of digits -/

theorem digitsValue_append (front back : List Char) :
    digitsValue (front ++ back) = digitsValue front * 10 ^ back.length + digitsValue back := by
  induction back using List.reverseRecOn with
  | nil => simp [digitsValue]
  | append_singleton back digit ih =>
    have last (digits : List Char) :
        digitsValue (digits ++ [digit]) = digitsValue digits * 10 + (digit.toNat - 48) :=
      List.foldl_append
    rw [← List.append_assoc, last, last, ih, List.length_append, List.length_singleton, Nat.pow_succ]
    ring

theorem digitsValue_zeros (count : Nat) : digitsValue (List.replicate count '0') = 0 := by
  induction count with
  | zero => rfl
  | succ count ih =>
    rw [List.replicate_succ', digitsValue_append, ih]
    rfl

theorem digitsValue_toDigits (n : Nat) : digitsValue (Nat.toDigits 10 n) = n :=
  Text.foldl_toDigits (fun _ _ => rfl) n

theorem decimal_toDigits (n : Nat) : Decimal (Nat.toDigits 10 n) :=
  fun _ => Nat.isDigit_of_mem_toDigits (by decide) (by decide)

theorem digitsValue_zero_cons (digits : List Char) : digitsValue ('0' :: digits) = digitsValue digits := by
  have zero : digitsValue ['0'] = 0 := rfl
  rw [← List.singleton_append, digitsValue_append, zero, Nat.zero_mul, Nat.zero_add]

theorem whole_toDigits (n : Nat) : Whole (Nat.toDigits 10 n) := by
  refine ⟨decimal_toDigits n, Nat.toDigits_ne_nil, fun zero => ?_⟩
  obtain ⟨more, text⟩ := List.head?_eq_some_iff.mp zero
  rw [text]
  cases more with
  | nil => rfl
  | cons digit more =>
    -- Without the zero before them the digits would be too few.
    have decimal := decimal_toDigits n
    have value := digitsValue_toDigits n
    rw [text] at decimal value
    rw [digitsValue_zero_cons] at value
    have small := digitsValue_lt (List.forall_mem_cons.mp decimal).2
    rw [value] at small
    have short := (Nat.length_toDigits_le_iff (by decide) (Nat.succ_pos _)).mpr small
    rw [text, List.length_cons, List.length_cons] at short
    exact absurd short (Nat.not_succ_le_self _)

/-! ### Reading off the front -/

theorem Ended.not_isDigit (ended : Ended rest) : ∀ c ∈ rest.head?, c.isDigit = false :=
  fun c first => (ended c first).1

theorem dropWhile_append (decimal : Decimal digits) (stopped : ∀ c ∈ rest.head?, c.isDigit = false) :
    (digits ++ rest).dropWhile Char.isDigit = rest :=
  Text.dropWhile_eq_iff.mpr ⟨digits, decimal, rfl, stopped⟩

/-- The digits that a number begins with. -/
def wholePart (text : List Char) : List Char :=
  match text with
  | '0' :: _ => ['0']
  | _ => text.takeWhile Char.isDigit

theorem wholePart_append (whole : Whole digits) (stopped : ∀ c ∈ rest.head?, c.isDigit = false) :
    wholePart (digits ++ rest) = digits := by
  obtain ⟨digit, more, rfl⟩ := List.exists_cons_of_ne_nil whole.filled
  unfold wholePart
  split
  · next text =>
    obtain ⟨rfl, _⟩ := List.cons.inj text
    exact (whole.first rfl).symm
  · exact Text.takeWhile_append whole.decimal stopped

theorem fraction?_append (decimal : Decimal places) (filled : places ≠ [])
    (stopped : ∀ c ∈ rest.head?, c.isDigit = false) :
    fraction? ('.' :: (places ++ rest)) = some (places, rest) := by
  simp only [fraction?, Text.takeWhile_append decimal stopped, dropWhile_append decimal stopped,
    List.isEmpty_iff, if_neg filled]

theorem fraction?_eq_none (ended : ∀ c ∈ rest.head?, c ≠ '.') : fraction? rest = none := by
  unfold fraction?
  split
  · exact absurd rfl (ended '.' rfl)
  · rfl

theorem exponent?_eq_none (ended : ∀ c ∈ rest.head?, c ≠ 'e' ∧ c ≠ 'E') : exponent? rest = none := by
  unfold exponent?
  split
  · next e _ =>
    obtain ⟨small, large⟩ := ended e rfl
    simp [small, large]
  · rfl

theorem exponent?_append (negative : Bool) (decimal : Decimal digits) (filled : digits ≠ [])
    (stopped : ∀ c ∈ rest.head?, c.isDigit = false) :
    exponent? ('e' :: (if negative then '-' else '+') :: (digits ++ rest)) =
      some (if negative then -(digitsValue digits : Int) else digitsValue digits, rest) := by
  cases negative <;>
    simp [exponent?, Text.takeWhile_append decimal stopped, dropWhile_append decimal stopped, filled]

theorem number_append (negative : Bool) (whole : Whole digits) (stopped : ∀ c ∈ rest.head?, c.isDigit = false) :
    number negative (digits ++ rest) =
      let (places, after) := (fraction? rest).getD ([], rest)
      match exponent? after with
      | some (power, last) =>
        .ok (.scalar (.float (.ofDecimal negative (digitsValue (digits ++ places)) (power - places.length))),
          last)
      | none =>
        if places.isEmpty then
          if digitLimit < digits.length then .error .longInteger
          else .ok (.int (if negative then -(digitsValue digits : Int) else digitsValue digits), rest)
        else
          .ok (.scalar (.float (.ofDecimal negative (digitsValue (digits ++ places))
            (-(places.length : Int)))), after) := by
  unfold number
  extract_lets found left
  have same : found = digits := wholePart_append whole stopped
  have after : left = rest := by
    unfold left
    rw [same, List.drop_left]
  clear_value left found
  subst same after
  exact if_neg (by simpa using whole.filled)

/-- A number begins with a digit. -/
theorem number_first {negative : Bool} {text : List Char} {read : Value × List Char}
    (run : number negative text = .ok read) :
    ∃ c more, text = c :: more ∧ c.isDigit = true := by
  cases text with
  | nil => cases run
  | cons c more =>
    refine ⟨c, more, rfl, by_contra fun other => ?_⟩
    have none : wholePart (c :: more) = [] := by
      unfold wholePart
      split
      · next same =>
        obtain ⟨rfl, _⟩ := List.cons.inj same
        exact absurd rfl other
      · exact List.takeWhile_cons_of_neg other
    unfold number at run
    extract_lets found at run
    have vacant : found = [] := none
    rw [if_pos (List.isEmpty_iff.mpr vacant)] at run
    cases run

theorem number_integer (negative : Bool) (whole : Whole digits) (short : digits.length ≤ digitLimit) (ended : Ended rest) :
    number negative (digits ++ rest) =
      .ok (.int (if negative then -(digitsValue digits : Int) else digitsValue digits), rest) := by
  have plain : fraction? rest = none := fraction?_eq_none fun c first => (ended c first).2.1
  have bare : exponent? rest = none := exponent?_eq_none fun c first => (ended c first).2.2
  rw [number_append negative whole ended.not_isDigit, plain]
  simp [bare, Nat.not_lt.mpr short]

theorem number_fraction (negative : Bool) (whole : Whole digits) (decimal : Decimal places) (filled : places ≠ [])
    (ended : Ended rest) :
    number negative (digits ++ '.' :: (places ++ rest)) =
      .ok (.scalar (.float (.ofDecimal negative (digitsValue (digits ++ places)) (-(places.length : Int)))),
        rest) := by
  have bare : exponent? rest = none := exponent?_eq_none fun c first => (ended c first).2.2
  rw [number_append negative whole (by simp), fraction?_append decimal filled ended.not_isDigit]
  simp [bare, filled]

/-- A number with an exponent is a decimal, with a fraction or without. -/
theorem number_exponent (negative down : Bool) (whole : Whole digits) (decimal : Decimal places)
    {power : List Char} (powerDecimal : Decimal power) (powerFilled : power ≠ []) (ended : Ended rest) :
    number negative (digits ++ ((if places = [] then [] else '.' :: places) ++
        'e' :: (if down then '-' else '+') :: (power ++ rest))) =
      .ok (.scalar (.float (.ofDecimal negative (digitsValue (digits ++ places))
        ((if down then -(digitsValue power : Int) else digitsValue power) - places.length))), rest) := by
  have raised := exponent?_append down powerDecimal powerFilled ended.not_isDigit
  by_cases none : places = []
  · subst none
    rw [if_pos rfl, List.nil_append, number_append negative whole (by simp), fraction?_eq_none (by simp)]
    simp [raised]
  · rw [if_neg none, List.cons_append, number_append negative whole (by simp),
      fraction?_append decimal none (by simp)]
    simp [raised]

/-! ### Decimals as they are laid out -/

theorem decimal_append {front back : List Char} (first : Decimal front) (last : Decimal back) :
    Decimal (front ++ back) :=
  List.forall_mem_append.mpr ⟨first, last⟩

theorem decimal_zeros (count : Nat) : Decimal (List.replicate count '0') :=
  fun _ listed => List.eq_of_mem_replicate listed ▸ rfl

/-- Digits that begin with another digit than zero. -/
structure Leading (digits : List Char) : Prop where
  decimal : Decimal digits
  filled : digits ≠ []
  first : digits.head? ≠ some '0'

theorem Leading.whole (proper : Leading digits) : Whole digits :=
  ⟨proper.decimal, proper.filled, fun zero => absurd zero proper.first⟩

theorem Leading.append (proper : Leading digits) {more : List Char} (decimal : Decimal more) :
    Leading (digits ++ more) := by
  refine ⟨decimal_append proper.decimal decimal, by simp [proper.filled], ?_⟩
  rw [List.head?_append_of_ne_nil _ proper.filled]
  exact proper.first

theorem Leading.take_succ (proper : Leading digits) (count : Nat) : Leading (digits.take (count + 1)) := by
  refine ⟨fun c listed => proper.decimal c (List.mem_of_mem_take listed), by simp [proper.filled], ?_⟩
  rw [List.head?_take, if_neg (Nat.succ_ne_zero count)]
  exact proper.first

theorem decimal_drop (decimal : Decimal digits) (count : Nat) : Decimal (digits.drop count) :=
  fun c listed => decimal c (List.mem_of_mem_drop listed)

theorem whole_zero : Whole ['0'] :=
  ⟨decimal_zeros 1, by simp, fun _ => rfl⟩

/-- All digits stand after the point, with zeros before them. -/
theorem number_lowered (negative : Bool) (proper : Leading digits) (zeros : Nat) (ended : Ended rest) :
    number negative (['0', '.'] ++ List.replicate zeros '0' ++ digits ++ rest) =
      .ok (.scalar (.float (.ofDecimal negative (digitsValue digits) (-(zeros + digits.length : Nat)))),
        rest) := by
  have read := number_fraction negative whole_zero (decimal_append (decimal_zeros zeros) proper.decimal)
    (by simp [proper.filled]) ended
  have value : digitsValue (['0'] ++ (List.replicate zeros '0' ++ digits)) = digitsValue digits := by
    rw [List.singleton_append, digitsValue_zero_cons, digitsValue_append, digitsValue_zeros,
      Nat.zero_mul, Nat.zero_add]
  rw [value, List.length_append, List.length_replicate] at read
  simpa using read

/-- All digits stand before the point, with zeros after them. -/
theorem number_raised (negative : Bool) (proper : Leading digits) (zeros : Nat) (ended : Ended rest) :
    number negative (digits ++ List.replicate zeros '0' ++ ['.', '0'] ++ rest) =
      .ok (.scalar (.float (.ofDecimal negative (digitsValue digits) zeros)), rest) := by
  have read := number_fraction negative (proper.append (decimal_zeros zeros)).whole (decimal_zeros 1)
    (by simp) ended
  have value : digitsValue (digits ++ List.replicate zeros '0' ++ List.replicate 1 '0') =
      digitsValue digits * 10 ^ (zeros + 1) := by
    rw [List.append_assoc, ← List.replicate_add, digitsValue_append, digitsValue_zeros,
      List.length_replicate, Nat.add_zero]
  have same : ((digitsValue digits * 10 ^ (zeros + 1) : Nat) : ℚ) * 10 ^ (-((1 : Nat) : Int)) =
      digitsValue digits * 10 ^ (zeros : Int) := by
    rw [zpow_natCast, Nat.pow_succ]
    push_cast
    field_simp
  rw [value, List.length_replicate, Binary64.ofDecimal_congr negative same] at read
  simpa using read

/-- The point stands among the digits. -/
theorem number_parted (negative : Bool) (proper : Leading digits) {count : Nat}
    (long : count + 1 < digits.length) (ended : Ended rest) :
    number negative (digits.take (count + 1) ++ ['.'] ++ digits.drop (count + 1) ++ rest) =
      .ok (.scalar (.float (.ofDecimal negative (digitsValue digits) (-(digits.length - (count + 1) : Nat)))),
        rest) := by
  have read := number_fraction negative (proper.take_succ count).whole (decimal_drop proper.decimal _)
    (by simpa using long) ended
  rw [List.take_append_drop, List.length_drop] at read
  simpa using read

/-- One digit stands before the point, and an exponent of at least two digits follows. -/
theorem number_scientific (negative down : Bool) (proper : Leading digits) (size : Nat) (ended : Ended rest) :
    let power := Nat.toDigits 10 size
    let padded := if power.length < 2 then '0' :: power else power
    let fraction := if digits.length ≤ 1 then [] else '.' :: digits.drop 1
    number negative (digits.take 1 ++ fraction ++ ['e', if down then '-' else '+'] ++ padded ++ rest) =
      .ok (.scalar (.float (.ofDecimal negative (digitsValue digits)
        ((if down then -(size : Int) else size) - (digits.length - 1 : Nat)))), rest) := by
  intro power padded fraction
  have decimal : Decimal padded := by
    unfold padded
    split
    · exact List.forall_mem_cons.mpr ⟨rfl, decimal_toDigits _⟩
    · exact decimal_toDigits _
  have value : digitsValue padded = size := by
    unfold padded
    split
    · rw [digitsValue_zero_cons, digitsValue_toDigits]
    · exact digitsValue_toDigits _
  have filled : padded ≠ [] := by
    unfold padded
    split
    · simp
    · exact Nat.toDigits_ne_nil
  have read := number_exponent negative down (proper.take_succ 0).whole (decimal_drop proper.decimal 1)
    decimal filled ended
  have shape : (if digits.drop 1 = [] then [] else '.' :: digits.drop 1) = fraction := by
    simp only [fraction, List.drop_eq_nil_iff]
  rw [List.take_append_drop, shape, value, List.length_drop] at read
  simpa using read

/-- A laid out decimal reads as the decimal of its digits with its leading digit where it was laid. -/
theorem number_layout (negative : Bool) (proper : Leading digits) (leading : Int) (ended : Ended rest) :
    number negative (Binary64.layout digits leading ++ rest) =
      .ok (.scalar (.float (.ofDecimal negative (digitsValue digits) (leading + 1 - digits.length))),
        rest) := by
  have positive : 0 < digits.length := List.length_pos_of_ne_nil proper.filled
  unfold Binary64.layout
  split
  · split
    · have power : leading + 1 - digits.length = -((-leading - 1).toNat + digits.length : Nat) := by omega
      rw [power]
      exact number_lowered negative proper _ ended
    · extract_lets whole
      split
      · have power : leading + 1 - digits.length = (whole - digits.length : Nat) := by omega
        rw [power]
        exact number_raised negative proper _ ended
      · next long =>
        have power : leading + 1 - digits.length = -(digits.length - whole : Nat) := by omega
        rw [power]
        exact number_parted negative proper (not_le.mp long) ended
  · have power : leading + 1 - digits.length =
        (if decide (leading < 0) then -(leading.natAbs : Int) else leading.natAbs) - (digits.length - 1 : Nat) := by
      by_cases below : leading < 0
      · rw [decide_eq_true below, if_pos rfl]
        omega
      · rw [decide_eq_false below, if_neg Bool.false_ne_true]
        omega
    rw [power]
    simpa using number_scientific negative (decide (leading < 0)) proper leading.natAbs ended

/-! ### What is written -/

theorem leading_toDigits {n : Nat} (filled : n ≠ 0) : Leading (Nat.toDigits 10 n) := by
  refine ⟨decimal_toDigits n, Nat.toDigits_ne_nil, fun zero => filled ?_⟩
  rw [← digitsValue_toDigits n, (whole_toDigits n).first zero]
  rfl

/-- The digits that are kept are those of the number without some zeros at the end. -/
theorem significant_spec {n : Nat} (filled : n ≠ 0) :
    ∃ zeros, Nat.toDigits 10 n = Binary64.significant n ++ List.replicate zeros '0' ∧
      Leading (Binary64.significant n) := by
  have proper := leading_toDigits filled
  obtain ⟨run, zero, text, _⟩ := Text.dropWhile_eq_iff.mp
    (rfl : (Nat.toDigits 10 n).reverse.dropWhile (· == '0') = _)
  rw [List.reverse_eq_iff, List.reverse_append] at text
  have zeros : run.reverse = List.replicate run.length '0' :=
    List.eq_replicate_iff.mpr ⟨List.length_reverse, fun c listed => by simpa using zero c (List.mem_reverse.mp listed)⟩
  rw [zeros] at text
  unfold Binary64.significant
  extract_lets whole front
  change Nat.toDigits 10 n = front ++ _ at text
  clear_value front
  have kept : front ≠ [] := by
    rintro rfl
    have first := proper.first
    have whole := proper.filled
    rw [text, List.nil_append] at first whole
    exact first (by rw [List.head?_replicate, if_neg (by simpa using whole)])
  rw [if_neg (by simpa using kept)]
  refine ⟨run.length, text, ?_, kept, ?_⟩
  · intro c listed
    exact proper.decimal c (text ▸ List.mem_append_left _ listed)
  · have first := proper.first
    rwa [text, List.head?_append_of_ne_nil _ kept] at first

/-- The decimal text of a number reads as the number. -/
theorem number_shortest (negative : Bool) {mantissa : Nat} {exponent : Int}
    (fits : Binary64.Fits mantissa exponent) (filled : mantissa ≠ 0) (ended : Ended rest) :
    let (digits, power) := Binary64.shortest mantissa exponent
    let leading := (Nat.toDigits 10 digits).length - 1 + power
    number negative (Binary64.layout (Binary64.significant digits) leading ++ rest) =
      .ok (.scalar (.float (.finite negative mantissa exponent)), rest) := by
  have read := Binary64.ofDecimal_shortest fits filled
  generalize Binary64.shortest mantissa exponent = decimal at read ⊢
  obtain ⟨digits, power⟩ := decimal
  have nonzero : digits ≠ 0 := by
    rintro rfl
    cases read
    exact filled rfl
  obtain ⟨zeros, text, proper⟩ := significant_spec nonzero
  have same : (digitsValue (Binary64.significant digits) : ℚ) * 10 ^ (zeros + power) = digits * 10 ^ power := by
    have value := digitsValue_toDigits digits
    rw [text, digitsValue_append, digitsValue_zeros, List.length_replicate, Nat.add_zero] at value
    have whole : (digits : ℚ) = digitsValue (Binary64.significant digits) * 10 ^ zeros := by
      exact_mod_cast value.symm
    rw [whole, zpow_add₀ (by decide), zpow_natCast]
    ring
  have place : (Nat.toDigits 10 digits).length - 1 + power + 1 - (Binary64.significant digits).length = zeros + power := by
    rw [text, List.length_append, List.length_replicate]
    push_cast
    ring
  dsimp only
  rw [number_layout negative proper _ ended, place, Binary64.ofDecimal_congr negative same,
    Binary64.ofDecimal_withSign, read]
  rfl

end Scaffold.Json
