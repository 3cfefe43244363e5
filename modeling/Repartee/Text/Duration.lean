import Repartee.Text.Decimal

/-!
# Durations

A length of time is shown in the largest unit of which it has one at least, with as many places
behind the point as it needs.
-/

namespace Repartee.Text

/-- The part of a unit as `places` digits behind a point, without zeros at the end, if there is
anything to show. -/
def fraction (places part : Nat) : String :=
  let digits := Nat.toDigits 10 part
  let padded := List.replicate (places - digits.length) '0' ++ digits
  let shown := (padded.reverse.dropWhile (· == '0')).reverse
  if part = 0 then "" else "." ++ String.ofList shown

/-- A length of time in nanoseconds, as it is shown. -/
def duration (nanoseconds : Nat) : String :=
  let inUnit (size places : Nat) (unit : String) : String :=
    decimal (nanoseconds / size) ++ fraction places (nanoseconds % size) ++ unit
  if 1000000000 ≤ nanoseconds then inUnit 1000000000 9 "s"
  else if 1000000 ≤ nanoseconds then inUnit 1000000 6 "ms"
  else if 1000 ≤ nanoseconds then inUnit 1000 3 "µs"
  else decimal nanoseconds ++ "ns"

end Repartee.Text
