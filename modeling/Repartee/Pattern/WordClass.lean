import Repartee.Unicode.Letter

/-!
# Classes of words

A word belongs to a class if all of its characters do.
-/

namespace Repartee.Pattern

open Repartee.Unicode

/-- The classes of words that a wildcard can stand for. -/
inductive WordClass where
  /-- Words of any word characters. -/
  | any
  /-- Words without digits and underscores. -/
  | letters
  /-- Words of digits alone. -/
  | digits
  deriving Repr, DecidableEq, Inhabited

namespace WordClass

/-- The symbol with which a wildcard of this class starts. -/
def symbol : WordClass → Char
  | any => '*'
  | letters => '@'
  | digits => '#'

def ofSymbol? : Char → Option WordClass
  | '*' => some any
  | '@' => some letters
  | '#' => some digits
  | _ => none

theorem ofSymbol?_symbol (kind : WordClass) : ofSymbol? kind.symbol = some kind := by
  cases kind <;> rfl

/-- The character may stand in words of this class. -/
def accepts : WordClass → Char → Bool
  | any => isWordChar
  | letters => isLetter
  | digits => isDecimal

end WordClass
end Repartee.Pattern
