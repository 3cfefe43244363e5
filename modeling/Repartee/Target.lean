import Repartee.Error
import Repartee.Text.Lower
import Repartee.Text.Words

/-!
# Texts to be matched

A message is matched in a normal form: its words in lowercase, without anything but word
characters, and with single spaces between them. The normal form is made word by word, so that a
stretch of it can be led back to the raw words that it came from (`Target.rawSpan`). In between,
substitutions may replace the words, as long as they keep one list of words for each raw word.
-/

namespace Repartee

open Repartee.Text

/-- A change to the words of a message before it is normalized. It is given the raw text and a list
of words for each raw word, and has to return as many lists. -/
structure Substitution where
  name : String
  apply : String → List (List String) → List (List String)

/-- A text prepared for matching, with a list of normal words for each raw word. -/
structure Target where
  rawText : String
  rawWords : List String
  tokens : List (List String)
  deriving Repr, DecidableEq, Inhabited

/-- The normal words of a text: lowercase, of word characters alone, and not empty. -/
def normalWords (chunk : String) : List String :=
  ((words chunk).map fun word => keepWordChars (lower word)).filter fun word => !word.isEmpty

/-- Runs the substitutions one after the other, each on what the one before it returned. -/
def applySubstitutions (text : String) (expected : Nat) :
    List Substitution → List (List String) → Except Error (List (List String))
  | [], lists => .ok lists
  | s :: ss, lists =>
    let changed := s.apply text lists
    if changed.length = expected then applySubstitutions text expected ss changed
    else .error (.substitution s.name expected changed.length)

namespace Target

def ofText? (text : String) (substitutions : List Substitution) : Except Error Target := do
  let rawWords := words text
  let lists ← applySubstitutions text rawWords.length substitutions (rawWords.map fun w => [w])
  return ⟨text, rawWords, lists.map fun chunks => chunks.flatMap normalWords⟩

def plain (text : String) : Target :=
  ⟨text, words text, (words text).map normalWords⟩

def normalized (t : Target) : String :=
  unwords t.tokens.flatten

/-- Where the tokens of each list begin, in bytes of the normal form, when those of the first list
begin at `offset`. A list without tokens begins where the next ones do. -/
def offsetsFrom (offset : Nat) : List (List String) → List Nat
  | [] => []
  | tokens :: rest =>
    let next := if tokens.isEmpty then offset else offset + (unwords tokens).utf8ByteSize + 1
    offset :: offsetsFrom next rest

/-- Where the tokens of each raw word begin, in bytes of the normal form. -/
def wordOffsets (t : Target) : List Nat :=
  offsetsFrom 0 t.tokens

/-- The raw words behind the bytes from `start` to `stop` of the normal form. -/
def rawSpan (t : Target) (start stop : Nat) : String :=
  let offsets := t.wordOffsets
  let first := (offsets.takeWhile (· < start)).length
  let last := (offsets.takeWhile (· ≤ stop)).length
  let within := (t.rawWords.zip t.tokens).take last |>.drop first
  unwords ((within.dropWhile fun w => w.2.isEmpty).map Prod.fst)

end Target
end Repartee
