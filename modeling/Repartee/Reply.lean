import Repartee.Random

/-!
# Replies of rules

What the handler of a rule answers: a text, several texts of which one is to be chosen, or nothing.
-/

namespace Repartee

inductive Reply where
  | text (content : String)
  /-- One of the texts, all being as likely. -/
  | choices (options : List String)
  /-- One of the texts, in proportion to their weights. -/
  | weighted (options : List (String × Int))
  | nothing
  deriving Repr, DecidableEq, Inhabited

namespace Reply

/-- The text of the reply, for which a choice may have to be made. Without anything to choose from
it is empty. -/
def pick (reply : Reply) (r : Random) : String × Random :=
  match reply with
  | text content => (content, r)
  | choices options => let (choice, r) := r.choose options; (choice.getD "", r)
  | weighted options => let (choice, r) := r.chooseWeighted options; (choice.getD "", r)
  | nothing => ("", r)

end Reply
end Repartee
