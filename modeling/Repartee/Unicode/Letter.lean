import Repartee.Unicode.Decimal
import Repartee.Unicode.WordChar

/-!
# Letters

Word characters that are neither digits nor the underscore. They make up the words that a letter
wildcard accepts and begin the names of variables.
-/

namespace Repartee.Unicode

/-- A word character that is neither a digit nor the underscore. -/
def isLetter (c : Char) : Bool :=
  isWordChar c && c != '_' && !isDecimal c

end Repartee.Unicode
