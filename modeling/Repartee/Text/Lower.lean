import Repartee.Unicode.Casing
import Repartee.Unicode.Lowercase

/-!
# Lowercase text

A text is lowercased character by character, but for the capital sigma, whose small form depends
on its place: the final form at the end of a word, the plain form everywhere else. A sigma ends a
word when the nearest character before it that is not case-ignorable is cased and the nearest such
character after it is not.
-/

namespace Repartee.Text

open Repartee.Unicode

/-- The first character that is not case-ignorable is cased. -/
def leadsCased : List Char → Bool
  | [] => false
  | c :: cs => if isCaseIgnorable c then leadsCased cs else isCased c

/-- The small form of a capital sigma after the characters `before`, nearest first, and ahead of
the characters `after`. -/
def smallSigma (before after : List Char) : Char :=
  if leadsCased before && !leadsCased after then 'ς' else 'σ'

/-- Lowercases `cs`, which stands behind the characters `before`, nearest first. -/
def lowerAfter (before : List Char) : List Char → List Char
  | [] => []
  | c :: cs =>
    (if c = 'Σ' then [smallSigma before cs] else lowerChar c) ++ lowerAfter (c :: before) cs

/-- The lowercase form of a text as a list of characters. -/
def lowerChars (cs : List Char) : List Char :=
  lowerAfter [] cs

def lower (s : String) : String :=
  String.ofList (lowerChars s.toList)

end Repartee.Text
