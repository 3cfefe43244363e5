import Repartee.Pattern.Error
import Repartee.Pattern.WordClass
import Repartee.Text.Decimal

/-!
# Wildcards

A wildcard stands for a number of words of one class. It is written as the symbol of the class and
the counts: a single count is exact, a tilde makes a range of which either end may be left out.
-/

namespace Repartee.Pattern

open Repartee.Text

/-- At least `min` words of a class, and at most `max` of them unless it is absent. -/
structure Wildcard where
  kind : WordClass
  min : Nat
  max : Option Nat
  min_pos : 1 ≤ min
  min_le_max : ∀ most ∈ max, min ≤ most
  deriving Repr, DecidableEq

/-- The largest repetition count that can be written. -/
def maxCount : Nat :=
  UInt32.size - 1

/-- The count written in ASCII digits, unless it is too large. -/
def count? (cs : List Char) : Option Nat :=
  (ofDecimal? cs).filter (· ≤ maxCount)

namespace Wildcard

/-- The wildcard with these counts, of which a least count of nothing is raised to one and a most
count below the least one is raised to it. -/
def clamp (kind : WordClass) (min : Nat) (max : Option Nat) : Wildcard where
  kind := kind
  min := Nat.max 1 min
  max := max.map (Nat.max (Nat.max 1 min))
  min_pos := Nat.le_max_left 1 min
  min_le_max := by
    intro most h
    obtain ⟨m, _, rfl⟩ := Option.map_eq_some_iff.mp h
    exact Nat.le_max_left _ m

/-- The counts of a wildcard as they are written: the least and the most number of words, where a
single count is both. -/
def readCounts? (cs : List Char) : Option (Nat × Option Nat) :=
  match cs.span (· != '~') with
  | ([], []) => some (1, none)
  | (lower, []) => (count? lower).map fun n => (n, some n)
  | (lower, _ :: upper) => do
    let min ← if lower.isEmpty then some 1 else count? lower
    let max ← if upper.isEmpty then some none else (count? upper).map some
    return (min, max)

/-- Reads a wildcard from the text of its token. -/
def ofText? (text : String) : Except Error Wildcard :=
  match text.toList with
  | [] => .error (.unexpectedCharacter text)
  | c :: cs =>
    match WordClass.ofSymbol? c, readCounts? cs with
    | none, _ => .error (.unexpectedCharacter text)
    | _, none => .error (.badRepetition text)
    | some kind, some (min, max) => .ok (clamp kind min max)

/-- The shortest way to write a wildcard: an exact count alone, and no end of a range that is the
one understood. -/
def canonical (w : Wildcard) : String :=
  let symbol := String.ofList [w.kind.symbol]
  match w.max with
  | some most =>
    if most = w.min then symbol ++ decimal most
    else if w.min = 1 then symbol ++ "~" ++ decimal most
    else symbol ++ decimal w.min ++ "~" ++ decimal most
  | none => if w.min = 1 then symbol else symbol ++ decimal w.min ++ "~"

/-- The wildcard stands for less than any number of any words. -/
def isRestricted (w : Wildcard) : Bool :=
  w.kind != .any || w.min != 1 || w.max.isSome

end Wildcard
end Repartee.Pattern
