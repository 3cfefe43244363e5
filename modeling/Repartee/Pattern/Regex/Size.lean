import Repartee.Pattern.Regex.Basic
import Repartee.Text.Bytes

/-!
# The size of a matcher

No matcher is built for an expression if it would take more bytes than there may be. How many it
takes depends on how matchers are built, so which expressions are refused is left open
(`SizeLimit`): all that is known is that an expression is not refused if an estimate of the bytes
that it takes (`Regex.weight`) is half of the limit at most. The estimate itself is one way to
decide (`SizeLimit.byWeight`).
-/

namespace Repartee.Pattern

open Repartee.Text

/-- How many bytes a matcher may take. -/
def sizeLimit : Nat := 10485760

namespace Regex

/-- How many bytes a single word of a class takes in a matcher, about. There are so many word
characters that it takes more than anything else. -/
def wordWeight : Nat := 49152

/-- How many bytes the expression takes in a matcher, about. A run of words is built word by word, up
to its largest count. -/
def weight : Regex → Nat
  | empty => 0
  | literal text => 32 * byteSize text.toList
  | boundary => 32
  | blank => 1024
  | words _ min max => wordWeight * (Nat.max min (max.getD min) + 1)
  | seq first second | alt first second => first.weight + second.weight + 32
  | optional inner | group inner | capture _ inner => inner.weight + 64

end Regex

/-- For which expressions no matcher is built, since it would be too large. -/
class SizeLimit where
  refuses : Regex → Bool
  /-- What takes up half of the limit at most, by the estimate, is not refused. -/
  builds : ∀ r : Regex, 2 * r.weight ≤ sizeLimit → refuses r = false

/-- An expression is refused if its estimate is above the limit. -/
@[reducible] def SizeLimit.byWeight : SizeLimit where
  refuses r := decide (sizeLimit < r.weight)
  builds r h := decide_eq_false (by omega)

end Repartee.Pattern
