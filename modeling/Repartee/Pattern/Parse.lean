import Repartee.Pattern.Token
import Repartee.Pattern.Tree
import Repartee.Text.Lower

/-!
# Reading patterns

The tree of a pattern is built token by token. A `Draft` is a tree that is not finished: the
sequence being written, and around it the brackets and memo markers that are still open.
`Draft.step` takes in one token, and `Draft.finish` closes what is left at the end of the text, so
reading is a fold over the tokens and stops at the first one that cannot stand where it does.

White space is kept only between two other parts of a sequence, and literal words with nothing but
white space between them become one part.
-/

namespace Repartee.Pattern

open Repartee.Text

/-- The sequence, last part first, with another part behind it. -/
def pushNode : Node → List Node → List Node
  | .space, [] => []
  | .space, .space :: nodes => .space :: nodes
  | .words later, .space :: .words earlier :: nodes => .words (earlier ++ later) :: nodes
  | node, nodes => node :: nodes

/-- The finished sequence: its parts in order, without white space at the end. -/
def closeNodes : List Node → Sequence
  | .space :: nodes => nodes.reverse
  | nodes => nodes.reverse

/-- What an unfinished construct waits for. -/
inductive Opening where
  /-- The part that a memo marker stands before. -/
  | memo
  /-- The rest of a bracket, of which these alternatives are finished, the last one first. -/
  | bracket (bracket : Bracket) (alternatives : List Sequence)

/-- An unfinished construct and the sequence that it stands in, last part first. -/
structure Layer where
  opening : Opening
  outer : List Node

/-- A tree that is not finished: the sequence being written, last part first, and the unfinished
constructs around it, innermost first. -/
structure Draft where
  current : List Node := []
  layers : List Layer := []

/-- The most brackets and memo markers that can stand inside each other. -/
def maxNesting : Nat := 32

namespace Draft

/-- Adds a part to the sequence `current` inside `layers`. A part that a memo marker waited for
finishes the memo, which is a part of the sequence around it. -/
def place (node : Node) (current : List Node) : List Layer → Draft
  | ⟨.memo, outer⟩ :: layers => place (.memo node) outer layers
  | layers => ⟨pushNode node current, layers⟩

def add (d : Draft) (node : Node) : Draft :=
  place node d.current d.layers

def openLayer (d : Draft) (opening : Opening) : Except Error Draft :=
  if maxNesting ≤ d.layers.length then .error (.nestedTooDeep maxNesting)
  else .ok ⟨[], ⟨opening, d.current⟩ :: d.layers⟩

def closeAlternative (current : List Node) (alternatives : List Sequence) :
    Except Error (List Sequence) :=
  match closeNodes current with
  | [] => .error .emptyAlternative
  | node :: nodes => .ok ((node :: nodes) :: alternatives)

/-- Takes in a bar, which is between two alternatives of the innermost bracket. -/
def takePipe (d : Draft) : Except Error Draft :=
  match d.layers with
  | ⟨.bracket bracket alternatives, outer⟩ :: layers => do
    let alternatives ← closeAlternative d.current alternatives
    return ⟨[], ⟨.bracket bracket alternatives, outer⟩ :: layers⟩
  | _ => .error .misplacedPipe

/-- Takes in a closing bracket, which has to be that of the innermost construct. -/
def takeCloser (d : Draft) (closer : Char) : Except Error Draft :=
  match d.layers with
  | ⟨.bracket bracket alternatives, outer⟩ :: layers =>
    if bracket.closer = closer then do
      let alternatives ← closeAlternative d.current alternatives
      return place (.choice bracket alternatives.reverse) outer layers
    else .error (.unexpectedTerminator closer)
  | _ => .error (.unexpectedTerminator closer)

/-- The part that a reference stands for: its kind's letter is the second character, and its name
begins at the fourth. -/
def readReference (text : String) : Except Error Node :=
  match text.toList with
  | _ :: letter :: _ :: name =>
    match VariableKind.ofLetter? letter with
    | some kind => if name.isEmpty then .error (.unexpectedCharacter text)
      else .ok (.reference kind (String.ofList name))
    | none => .error (.unexpectedCharacter text)
  | _ => .error (.unexpectedCharacter text)

def step (d : Draft) (t : Token) : Except Error Draft :=
  match t.kind with
  | .invalid => .error (.unexpectedCharacter t.text)
  | .space => .ok { d with current := pushNode .space d.current }
  | .word => .ok (d.add (.words [t.text]))
  | .wildcard => do return d.add (.wildcard (← Wildcard.ofText? t.text))
  | .reference => do return d.add (← readReference t.text)
  | .memo => d.openLayer .memo
  | .optional => d.openLayer (.bracket .optional [])
  | .group => d.openLayer (.bracket .group [])
  | .pipe => d.takePipe
  | .terminator => d.takeCloser (t.text.toList.headD ')')

/-- The tree at the end of the text. -/
def finish (d : Draft) : Except Error Sequence :=
  match d.layers with
  | ⟨.bracket _ _, _⟩ :: _ => .error .missingTerminator
  | ⟨.memo, _⟩ :: _ => .error .empty
  | [] =>
    match closeNodes d.current with
    | [] => .error .empty
    | node :: nodes => .ok (node :: nodes)

end Draft

def Sequence.ofTokens? (tokens : List Token) : Except Error Sequence := do
  (← tokens.foldlM Draft.step {}).finish

/-- Reads a pattern made of the enabled kinds of tokens, whatever its letter case. -/
def parse? (enabled : TokenSet) (text : String) : Except Error Sequence :=
  Sequence.ofTokens? (Token.scan enabled (lower text))

end Repartee.Pattern
