/-!
# Decimal numbers

Numbers written in ASCII digits, and how they are read back: `ofDecimal?_decimal` says that nothing
is lost.
-/

namespace Repartee.Text

def decimal (n : Nat) : String :=
  String.ofList (Nat.toDigits 10 n)

/-- A whole number in decimal digits, behind a minus sign if it is negative. -/
def signedDecimal (n : Int) : String :=
  if n < 0 then "-" ++ decimal n.natAbs else decimal n.natAbs

/-- The number that is written in one or more ASCII digits and nothing else. -/
def ofDecimal? (cs : List Char) : Option Nat :=
  if cs ≠ [] ∧ cs.all Char.isDigit then some (Nat.ofDigitChars 10 cs 0) else none

theorem ofDecimal?_decimal (n : Nat) : ofDecimal? (decimal n).toList = some n := by
  have digits : (Nat.toDigits 10 n).all Char.isDigit = true :=
    List.all_eq_true.mpr fun _ h => Nat.isDigit_of_mem_toDigits (by decide) (by decide) h
  simp [ofDecimal?, decimal, digits, Nat.toDigits_ne_nil, Nat.ofDigitChars_toDigits]

end Repartee.Text
