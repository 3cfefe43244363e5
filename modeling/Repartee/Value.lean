import Repartee.Table
import Repartee.Text.Decimal

/-!
# Variable values

Bots and users carry variables. A variable holds a text, a whole number or a truth value; patterns
can refer to texts alone, the other kinds are for the bookkeeping of scripts.
-/

namespace Repartee

inductive Value where
  | text (content : String)
  | whole (number : Int)
  | truth (flag : Bool)
  deriving Repr, DecidableEq, Inhabited

namespace Value

def text? : Value → Option String
  | text content => some content
  | _ => none

/-- The whole number held, if it is one. -/
def whole? : Value → Option Int
  | whole number => some number
  | _ => none

/-- The truth value held, if it is one. -/
def truth? : Value → Option Bool
  | truth flag => some flag
  | _ => none

/-- How a value is shown: a text as it is, a number in decimal, a truth value as a word. -/
def render : Value → String
  | text content => content
  | whole number => Text.signedDecimal number
  | truth flag => if flag then "true" else "false"

end Value

/-- The variables of a bot or of a user. -/
abbrev Variables := Table Value

end Repartee
