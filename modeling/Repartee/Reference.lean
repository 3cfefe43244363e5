/-!
# References in replies

A reply may refer to other replies: what stands between angle brackets is a message of its own,
and the reply to it takes its place. A reference begins at the first opening bracket that has a
closing one behind it on the same line, and ends at the nearest such bracket.
-/

namespace Repartee

inductive Piece where
  /-- A character that is said as it is. -/
  | plain (char : Char)
  /-- A message whose reply is said instead. -/
  | reference (message : String)
  deriving Repr, DecidableEq

namespace Piece

/-- The characters of a reference, given the text behind its opening bracket. -/
def referenceAt? (cs : List Char) : Option (List Char) :=
  let message := cs.takeWhile fun c => c != '>' && c != '\n'
  if (cs.drop message.length).head? = some '>' then some message else none

/-- The pieces of a text whose first `skip` characters belong to a piece already taken. -/
def piecesAfter : Nat → List Char → List Piece
  | _, [] => []
  | skip + 1, _ :: cs => piecesAfter skip cs
  | 0, c :: cs =>
    if c = '<' then
      match referenceAt? cs with
      | some message => reference (String.ofList message) :: piecesAfter (message.length + 1) cs
      | none => plain c :: piecesAfter 0 cs
    else plain c :: piecesAfter 0 cs

def split (s : String) : List Piece :=
  piecesAfter 0 s.toList

end Piece
end Repartee
