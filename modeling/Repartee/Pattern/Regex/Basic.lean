import Repartee.Pattern.WordClass
import Repartee.Text.Decimal

/-!
# Regular expressions for patterns

The few forms of regular expressions that patterns come down to, and the text in which they are
usually written. A run of words is one form of its own, since wildcards need no other repetition.
-/

namespace Repartee.Pattern

open Repartee.Text

inductive Regex where
  | empty
  | literal (text : String)
  /-- The empty text between a word character and something else. -/
  | boundary
  /-- A white space character, or rather nothing if need be. -/
  | blank
  /-- Words of a class with a white space character between neighbours, as few as possible, of
  which the last one ends where a word ends. -/
  | words (kind : WordClass) (min : Nat) (max : Option Nat)
  | seq (first second : Regex)
  /-- The first one, or rather the second one if need be. -/
  | alt (first second : Regex)
  /-- The inner one, or rather nothing if need be. -/
  | optional (inner : Regex)
  | group (inner : Regex)
  /-- The inner one, whose place is remembered under a number. -/
  | capture (index : Nat) (inner : Regex)
  deriving Repr, DecidableEq, Inhabited

/-- The characters with a meaning of their own in the written form. -/
def metaCharacters : List Char :=
  ['\\', '.', '+', '*', '?', '(', ')', '|', '[', ']', '\x7b', '\x7d', '^', '$', '#', '&', '-', '~']

/-- The text with a backslash before every character that would not stand for itself. -/
def escape (text : String) : String :=
  String.ofList (text.toList.flatMap fun c => if metaCharacters.contains c then ['\\', c] else [c])

/-- The written form of a word of a class. -/
def WordClass.source : WordClass → String
  | any => "\\w+"
  | letters => "[^_\\d\\W]+"
  | digits => "\\d+"

/-- The name under which the place of a memo is remembered. -/
def captureName (index : Nat) : String :=
  "match" ++ decimal index

namespace Regex

/-- The written form of a run of words: all but the last one, as few as possible, and the last
one. -/
def wordsSource (kind : WordClass) (min : Nat) (max : Option Nat) : String :=
  if max = some 1 then kind.source ++ "\\b"
  else
    "(" ++ kind.source ++ "\\s)\x7b" ++ decimal (min - 1) ++ "," ++
      (max.map fun most => decimal (most - 1)).getD "" ++ "\x7d?" ++ kind.source ++ "\\b"

def source : Regex → String
  | empty => ""
  | literal text => escape text
  | boundary => "\\b"
  | blank => "\\s?"
  | words kind min max => wordsSource kind min max
  | seq first second => first.source ++ second.source
  | alt first second => first.source ++ "|" ++ second.source
  | optional inner => "(" ++ inner.source ++ ")?"
  | group inner => "(" ++ inner.source ++ ")"
  | capture index inner => "(?P<" ++ captureName index ++ ">" ++ inner.source ++ ")"

/-- The numbers of the places to be remembered, in the order in which their groups open. -/
def captureIndices : Regex → List Nat
  | empty | literal _ | boundary | blank | words _ _ _ => []
  | seq first second | alt first second => first.captureIndices ++ second.captureIndices
  | optional inner | group inner => inner.captureIndices
  | capture index inner => index :: inner.captureIndices

/-- The numbers of the places to be remembered with the expressions inside their groups. -/
def captured : Regex → List (Nat × Regex)
  | empty | literal _ | boundary | blank | words _ _ _ => []
  | seq first second | alt first second => first.captured ++ second.captured
  | optional inner | group inner => inner.captured
  | capture index inner => (index, inner) :: inner.captured

theorem map_fst_captured (r : Regex) : r.captured.map Prod.fst = r.captureIndices := by
  induction r <;> simp_all [captured, captureIndices]

end Regex
end Repartee.Pattern
