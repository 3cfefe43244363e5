import Repartee.Pattern.Parse
import Repartee.Pattern.Regex.Factor
import Repartee.Pattern.Regex.Size

/-!
# From pattern trees to regular expressions

Every part of a pattern has a regular expression, and that of a sequence is made of those of its
parts. Memos are numbered from left to right, an outer one before those inside it. A reference
stands for the value of its variable, which has to be a text that can be read as a simple pattern:
such a pattern has neither memos nor references, so the numbering passes it over.
-/

namespace Repartee.Pattern

open Repartee.Text

mutual

/-- How many memos there are in a part. -/
def Node.memos : Node → Nat
  | .memo node => 1 + node.memos
  | .choice _ alternatives => memosInAlternatives alternatives
  | .wildcard _ | .words _ | .space | .reference _ _ => 0

/-- How many memos there are in a sequence. -/
def Sequence.memos : List Node → Nat
  | [] => 0
  | node :: nodes => node.memos + Sequence.memos nodes

def memosInAlternatives : List (List Node) → Nat
  | [] => 0
  | alternative :: rest => Sequence.memos alternative + memosInAlternatives rest

end

/-- Brackets around the alternatives of a choice. -/
def Bracket.around : Bracket → Regex → Regex
  | optional, r => .optional r
  | group, r => .group r

/-- What a reference stands for. -/
abbrev Resolver := VariableKind → String → Except Error Regex

mutual

/-- The regular expression of a part, the memos of which are numbered from `first` on. -/
def Node.regex (resolve : Resolver) (first : Nat) : Node → Except Error Regex
  | .wildcard w => .ok (.words w.kind w.min w.max)
  | .words ws => .ok (.seq (.literal (unwords ws)) .boundary)
  | .space => .ok .blank
  | .memo node => do return .capture first (← node.regex resolve (first + 1))
  | .reference kind name => resolve kind name
  | .choice bracket alternatives => do
    return bracket.around (← alternativesRegex resolve first alternatives)

def Sequence.regex (resolve : Resolver) (first : Nat) : List Node → Except Error Regex
  | [] => .ok .empty
  | node :: nodes => do
    let one ← node.regex resolve first
    let others ← Sequence.regex resolve (first + node.memos) nodes
    return .seq one others

def alternativesRegex (resolve : Resolver) (first : Nat) : List (List Node) → Except Error Regex
  | [] => .ok .empty
  | [alternative] => Sequence.regex resolve first alternative
  | alternative :: rest => do
    let one ← Sequence.regex resolve first alternative
    let others ← alternativesRegex resolve (first + Sequence.memos alternative) rest
    return .alt one others

end

def noVariables : Resolver := fun kind name =>
  .error (.variableNotFound kind name)

/-- The regular expression of a text in a variable. -/
def valueRegex? (content : String) : Except Error Regex := do
  let tree ← parse? .simple content
  return .seq (← Sequence.regex noVariables 0 tree) .boundary

/-- What a reference stands for: the value of its variable. -/
def Bindings.resolve (b : Bindings) : Resolver := fun kind name =>
  match b.lookup kind name with
  | none => .error (.variableNotFound kind name)
  | some (.text content) => (valueRegex? content).mapError (.inVariable kind name)
  | some _ => .error (.badVariableValue kind name)

/-- The regular expression of a pattern with these variables. -/
def Sequence.regexWith (b : Bindings) (tree : Sequence) : Except Error Regex :=
  Sequence.regex b.resolve 0 tree

/-- The regular expression against which texts are matched with these variables, if a matcher is
built for it: that of the pattern, with the common beginnings of alternatives put in front. -/
def Sequence.compile [SizeLimit] (b : Bindings) (tree : Sequence) : Except Error Regex := do
  let r ← tree.regexWith b
  match SizeLimit.refuses r with
  | true => .error .oversized
  | false => .ok r.factored

end Repartee.Pattern
