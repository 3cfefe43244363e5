import Repartee.Pattern.Wildcard
import Repartee.Text.Words

/-!
# Pattern trees

What a pattern says, apart from how it is written. `Sequence.canonical` writes a tree in the one
way that stands for all others, and `Sequence.score` measures how specific it is: literal words
and variables count for it, wildcards against it, and a bracket counts as its best alternative.
-/

namespace Repartee.Pattern

open Repartee.Text

inductive Bracket where
  /-- One of the alternatives may be there, or none. -/
  | optional
  /-- One of the alternatives has to be there. -/
  | group
  deriving Repr, DecidableEq, Inhabited

namespace Bracket

def opener : Bracket → Char
  | optional => '['
  | group => '('

def closer : Bracket → Char
  | optional => ']'
  | group => ')'

end Bracket

inductive Node where
  | wildcard (wildcard : Wildcard)
  | words (words : List String)
  /-- White space between two other parts. -/
  | space
  /-- A part whose words are remembered. -/
  | memo (node : Node)
  | reference (kind : VariableKind) (name : String)
  | choice (bracket : Bracket) (alternatives : List (List Node))
  deriving Repr, Inhabited

/-- Parts one after the other: a whole pattern, or an alternative in brackets. -/
abbrev Sequence := List Node

mutual

def Node.canonical : Node → String
  | .wildcard w => w.canonical
  | .words ws => unwords ws
  | .space => " "
  | .memo node => "_" ++ node.canonical
  | .reference kind name => kind.reference name
  | .choice bracket alternatives =>
    String.ofList [bracket.opener] ++ canonicalAlternatives alternatives ++
      String.ofList [bracket.closer]

def Sequence.canonical : List Node → String
  | [] => ""
  | node :: nodes => node.canonical ++ Sequence.canonical nodes

/-- The texts of alternatives, with bars between them. -/
def canonicalAlternatives : List (List Node) → String
  | [] => ""
  | [alternative] => Sequence.canonical alternative
  | alternative :: rest => Sequence.canonical alternative ++ "|" ++ canonicalAlternatives rest

end

/-- What a literal word, or a variable in place of one, adds to the score. -/
def wordScore : Int := 10

/-- What a wildcard adds to the score when it stands for any number of any words. -/
def openWildcardScore : Int := -2

/-- What any other wildcard adds to the score. -/
def restrictedWildcardScore : Int := -1

def Wildcard.score (w : Wildcard) : Int :=
  if w.isRestricted then restrictedWildcardScore else openWildcardScore

mutual

def Node.score : Node → Int
  | .wildcard w => w.score
  | .words ws => ws.length * wordScore
  | .space => 0
  | .memo node => node.score
  | .reference _ _ => wordScore
  | .choice _ alternatives => bestScore alternatives

/-- The score of a sequence is the sum over its parts. -/
def Sequence.score : List Node → Int
  | [] => 0
  | node :: nodes => node.score + Sequence.score nodes

def bestScore : List (List Node) → Int
  | [] => 0
  | [alternative] => Sequence.score alternative
  | alternative :: rest => max (Sequence.score alternative) (bestScore rest)

end

end Repartee.Pattern
