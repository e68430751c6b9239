import Scaffold.Value.Shown

/-!
Instants of universal time and their written form: date and time to the millisecond.
-/

namespace Scaffold

/-- An instant, in milliseconds since the beginning of 1970. -/
structure Instant where
  milliseconds : Nat
  deriving DecidableEq, Repr

namespace Instant

/-- The year, month and day that lie a number of days after the beginning of March of the year 0.
Years begin in March here, so that a leap day comes last; four centuries always have the same
length. -/
def civil (days : Nat) : Nat × Nat × Nat :=
  let era := days / 146097
  let inEra := days % 146097
  let year := (inEra - inEra / 1460 + inEra / 36524 - inEra / 146096) / 365
  let inYear := inEra - (365 * year + year / 4 - year / 100)
  let shifted := (5 * inYear + 2) / 153
  let day := inYear - (153 * shifted + 2) / 5 + 1
  let month := if shifted < 10 then shifted + 3 else shifted - 9
  (era * 400 + year + (if month ≤ 2 then 1 else 0), month, day)

/-- The written form of an instant. -/
def text (instant : Instant) : String :=
  let seconds := instant.milliseconds / 1000
  let (year, month, day) := civil (seconds / 86400 + 719468)
  let inDay := seconds % 86400
  let date := padded 4 year ++ ['-'] ++ padded 2 month ++ ['-'] ++ padded 2 day
  let time := padded 2 (inDay / 3600) ++ [':'] ++ padded 2 (inDay / 60 % 60) ++ [':'] ++
    padded 2 (inDay % 60)
  String.ofList (date ++ ['T'] ++ time ++ ['.'] ++ padded 3 (instant.milliseconds % 1000) ++ ['Z'])

example : (Instant.mk 1704067200123).text = "2024-01-01T00:00:00.123Z" := by decide

end Instant

end Scaffold
