import Repartee.Text.Bytes
import Repartee.Unicode.Blank
import Repartee.Unicode.WordChar

/-!
# Words of a text

Splitting at white space, trimming it, joining words by single spaces, and cutting a word down to
its word characters.
-/

namespace Repartee.Text

open Repartee.Unicode

/-- The maximal runs of characters other than white space. -/
def splitChars (cs : List Char) : List (List Char) :=
  (cs.splitOnP isBlank).filter fun word => !word.isEmpty

/-- The words of a text: what stands between its stretches of white space. -/
def words (s : String) : List String :=
  (splitChars s.toList).map String.ofList

/-- The words one after the other, with a single space between neighbours. -/
def unwords (ws : List String) : String :=
  String.intercalate " " ws

/-- The text without its characters that are not word characters. -/
def keepWordChars (s : String) : String :=
  String.ofList (s.toList.filter isWordChar)

/-- The text without the white space at both of its ends. -/
def trim (s : String) : String :=
  String.ofList ((s.toList.dropWhile isBlank).reverse.dropWhile isBlank).reverse

end Repartee.Text
