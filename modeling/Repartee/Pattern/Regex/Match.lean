import Repartee.Pattern.Regex.Basic
import Repartee.Text.Words
import Repartee.Unicode.Blank

/-!
# Matching regular expressions

A regular expression is matched against a whole text. Among the ways to match, the forms state
which one they rather take, and the earlier parts decide before the later ones.

Matching runs in two directions. `Regex.viable` works from the end to the front: given the places
where it is good to arrive, it yields those where it is good to start. `Regex.walk` works from the
front to the end and makes every choice for the preferred alternative that is still viable, so it
never has to take a choice back, and the time is a polynomial in the lengths of text and expression.
-/

namespace Repartee.Pattern

open Repartee.Unicode

/-- A set of places in a text, as a table of which places belong to it. -/
abbrev Places := Array Bool

namespace Places

def has (s : Places) (i : Nat) : Bool :=
  s.getD i false

/-- The places of a text of `size` characters, its end included, with a property. -/
def tabulate (size : Nat) (p : Nat → Bool) : Places :=
  Array.ofFn fun i : Fin (size + 1) => p i

theorem has_tabulate (size : Nat) (p : Nat → Bool) (i : Nat) :
    (tabulate size p).has i = (decide (i ≤ size) && p i) := by
  by_cases h : i < size + 1
  · have h' : i ≤ size := by omega
    simp [has, tabulate, Array.getD, h, h']
  · have h' : ¬ i ≤ size := by omega
    simp [has, tabulate, Array.getD, h, h']

end Places

namespace Regex

variable (text : Array Char)

/-- There is a character with the property at the place. -/
def holdsAt (p : Char → Bool) (i : Nat) : Bool :=
  text[i]?.any p

/-- A word begins or ends at the place. -/
def isBoundary (i : Nat) : Bool :=
  (0 < i && holdsAt text isWordChar (i - 1)) != holdsAt text isWordChar i

def literalAt (literal : List Char) (i : Nat) : Bool :=
  match literal with
  | [] => true
  | c :: cs => text[i]? == some c && literalAt cs (i + 1)

/-- The end of the longest run of characters with the property from the place on, at most `fuel` of
them. -/
def runFrom (p : Char → Bool) : Nat → Nat → Nat
  | 0, i => i
  | fuel + 1, i => if holdsAt text p i then runFrom p fuel (i + 1) else i

/-- The end of the longest run of characters with the property from the place on. -/
def runEnd (p : Char → Bool) (i : Nat) : Nat :=
  runFrom text p (text.size - i) i

/-- The place behind a word of the class and the white space character after it. -/
def nextWord? (kind : WordClass) (i : Nat) : Option Nat :=
  let j := runEnd text kind.accepts i
  if i < j && holdsAt text isBlank j then some (j + 1) else none

/-- The place behind a word of the class that goes on with no other word character. -/
def lastWord? (kind : WordClass) (i : Nat) : Option Nat :=
  let j := runEnd text kind.accepts i
  if i < j && isBoundary text j then some j else none

/-- The end of the shortest run of between `min` and `max` words of the class that begins at the
place and ends in the set. The fuel bounds the number of words. -/
def wordsEnd? (kind : WordClass) (goal : Places) : Nat → Nat → Option Nat → Nat → Option Nat
  | 0, _, _, _ => none
  | fuel + 1, min, max, i =>
    let here := if min ≤ 1 then (lastWord? text kind i).filter goal.has else none
    here.or <|
      if max.any (· ≤ 1) then none
      else (nextWord? text kind i).bind fun j =>
        wordsEnd? kind goal fuel (min - 1) (max.map (· - 1)) j

/-- The end of the shortest run of words that begins at the place and ends in the set. A text has
no more words than characters. -/
def wordsFrom? (kind : WordClass) (min : Nat) (max : Option Nat) (goal : Places) (i : Nat) :
    Option Nat :=
  wordsEnd? text kind goal (text.size + 1) min max i

/-- The places from which the expression can reach the set. -/
def viable : Regex → Places → Places
  | empty, goal => goal
  | literal s, goal =>
    .tabulate text.size fun i => literalAt text s.toList i && goal.has (i + s.length)
  | boundary, goal => .tabulate text.size fun i => isBoundary text i && goal.has i
  | blank, goal =>
    .tabulate text.size fun i => (holdsAt text isBlank i && goal.has (i + 1)) || goal.has i
  | words kind min max, goal =>
    .tabulate text.size fun i => (wordsFrom? text kind min max goal i).isSome
  | seq first second, goal => viable first (viable second goal)
  | alt first second, goal =>
    let one := viable first goal
    let two := viable second goal
    .tabulate text.size fun i => one.has i || two.has i
  | optional inner, goal =>
    let one := viable inner goal
    .tabulate text.size fun i => one.has i || goal.has i
  | group inner, goal => viable inner goal
  | capture _ inner, goal => viable inner goal

/-- A remembered place: the number of the memo, and where it starts and ends. -/
abbrev Mark := Nat × Nat × Nat

/-- Where the preferred way through the expression from the place into the set arrives, and what it
remembers. -/
def walk : Regex → Places → Nat → Option (Nat × List Mark)
  | empty, goal, i => if goal.has i then some (i, []) else none
  | literal s, goal, i =>
    if literalAt text s.toList i && goal.has (i + s.length) then some (i + s.length, []) else none
  | boundary, goal, i => if isBoundary text i && goal.has i then some (i, []) else none
  | blank, goal, i =>
    if holdsAt text isBlank i && goal.has (i + 1) then some (i + 1, [])
    else if goal.has i then some (i, []) else none
  | words kind min max, goal, i => (wordsFrom? text kind min max goal i).map fun j => (j, [])
  | seq first second, goal, i => do
    let (j, before) ← walk first (viable text second goal) i
    let (k, after) ← walk second goal j
    return (k, before ++ after)
  | alt first second, goal, i => (walk first goal i).or (walk second goal i)
  | optional inner, goal, i =>
    (walk inner goal i).or (if goal.has i then some (i, []) else none)
  | group inner, goal, i => walk inner goal i
  | capture index inner, goal, i => do
    let (j, marks) ← walk inner goal i
    return (j, (index, i, j) :: marks)

/-- What the preferred way to match the whole text remembers. -/
def matchWhole? (r : Regex) : Option (List Mark) :=
  (walk text r (.tabulate text.size (· == text.size)) 0).map Prod.snd

end Regex
end Repartee.Pattern
