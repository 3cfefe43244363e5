import Repartee.Pattern.Compile
import Repartee.Pattern.Regex.Match

/-!
# Patterns

A pattern is compiled once, when it is read, with the variables that are known by then. If it
refers to a variable of the user, whose value cannot be known yet, it is kept as it is and compiled
anew for every text (`Pattern.deferred`). The empty pattern matches anything and remembers nothing.

Matching yields the places of all memos in the text, counted in bytes.
-/

namespace Repartee

open Repartee.Text Repartee.Pattern

inductive Pattern where
  | anything
  /-- Compiled with the variables known when it was read. -/
  | ready (raw : String) (tree : Sequence) (regex : Regex)
  /-- Compiled anew for every text, with alternates that are fixed. -/
  | deferred (raw : String) (tree : Sequence) (alternates : Variables)

namespace Pattern

variable [SizeLimit]

/-- The place of a memo in the text, if the memo took part in the match. -/
structure Capture where
  index : Nat
  span : Option (Nat × Nat)
  deriving Repr, DecidableEq

def Capture.name (c : Capture) : String :=
  captureName c.index

/-- Reads a pattern made of the enabled kinds of tokens. It is deferred if it fails to compile for
want of a variable of the user. -/
def read? (enabled : TokenSet) (raw : String) (b : Bindings) : Except Error Pattern :=
  if raw.isEmpty then .ok .anything
  else do
    let tree ← parse? enabled raw
    match tree.compile b with
    | .ok regex => .ok (.ready raw tree regex)
    | .error e =>
      if e.missingVariable? = some .user then .ok (.deferred raw tree b.alternates) else .error e

/-- Reads a pattern with all kinds of tokens. -/
def ofText? (raw : String) (b : Bindings) : Except Error Pattern :=
  read? .full raw b

def simple? (raw : String) : Except Error Pattern :=
  read? .simple raw {}

/-- The text that the pattern was read from. -/
def raw : Pattern → String
  | anything => ""
  | ready raw _ _ => raw
  | deferred raw _ _ => raw

/-- What the pattern says, if it says anything. -/
def tree? : Pattern → Option Sequence
  | anything => none
  | ready _ tree _ => some tree
  | deferred _ tree _ => some tree

/-- The text that stands for all ways to write the pattern. -/
def canonical (p : Pattern) : String :=
  match p.tree? with
  | none => ""
  | some tree => Sequence.canonical tree

/-- How specific the pattern is. -/
def score (p : Pattern) : Int :=
  match p.tree? with
  | none => openWildcardScore
  | some tree => Sequence.score tree

/-- The pattern is not the empty one. -/
def isPresent (p : Pattern) : Bool :=
  p.tree?.isSome

/-- The pattern is compiled anew for every text. -/
def isDeferred : Pattern → Bool
  | deferred _ _ _ => true
  | _ => false

/-- The written form of the regular expression that the pattern has with these variables. -/
def source? (p : Pattern) (b : Bindings) : Except Error String :=
  match p.tree? with
  | none => .ok "^.*$"
  | some tree => do return "^" ++ (← tree.regexWith b).source ++ "$"

/-- The regular expression against which a text is matched under these variables, or `none` if
there is no such expression. -/
def regex? (b : Bindings) : Pattern → Option Regex
  | anything => none
  | ready _ _ regex => some regex
  | deferred _ tree alternates =>
    match tree.compile { b with alternates } with
    | .ok regex => some regex
    | .error _ => none

/-- The place of a memo in bytes of the text. -/
def markSpan (cs : List Char) (m : Regex.Mark) : Nat × Nat :=
  (byteSize (cs.take m.2.1), byteSize (cs.take m.2.2))

/-- The places of the memos when the expression matches the whole text. -/
def regexCaptures? (r : Regex) (cs : List Char) : Option (List Capture) :=
  (r.matchWhole? cs.toArray).map fun marks =>
    r.captureIndices.map fun index =>
      ⟨index, (marks.find? (·.1 = index)).map (markSpan cs)⟩

/-- The places of the memos in a text that the pattern matches, in the order of their numbers. -/
def captures? (p : Pattern) (b : Bindings) (s : String) : Option (List Capture) :=
  match p with
  | anything => some []
  | _ => (p.regex? b).bind fun r => regexCaptures? r s.toList

def isMatch (p : Pattern) (b : Bindings) (s : String) : Bool :=
  (p.captures? b s).isSome

end Pattern
end Repartee
