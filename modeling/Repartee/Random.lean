/-!
# Random choice

Numbers that look random, and choices made with them. A number is asked for by a bound and stays
below it. What the numbers are is left open: they come from a source (`Random.Source`), which
answers to a seed and to the bounds of all numbers so far. One source mixes the bits of a state that
starts from the seed and moves on by a fixed odd step (`Random.Source.splitMix`).
-/

namespace Repartee

/-- A sequence of random numbers. -/
structure Random where
  /-- The number for the first of these bounds, where the others are those of the numbers before it,
  newest first. -/
  answer : List Nat → Nat
  /-- The bounds of the numbers so far, newest first. -/
  asked : List Nat

namespace Random

/-- Where random numbers come from: the sequence for each seed. -/
class Source where
  answer : UInt64 → List Nat → Nat

def ofSeed [Source] (seed : UInt64) : Random :=
  ⟨Source.answer seed, []⟩

/-- The next of the numbers, which is below `n` if there are any such. -/
def below (n : Nat) (r : Random) : Nat × Random :=
  let asked := n :: r.asked
  (r.answer asked % n, { r with asked })

/-- One of the items, if there are any. -/
def choose {α : Type} (items : List α) (r : Random) : Option α × Random :=
  if items.isEmpty then (none, r)
  else
    let (k, r) := r.below items.length
    (items[k]?, r)

/-- How much an item counts in a choice: its weight, or 1 if that is more. -/
def share (weight : Int) : Nat :=
  (max weight 1).toNat

/-- The shares of all items together. -/
def shares {α : Type} : List (α × Int) → Nat
  | [] => 0
  | (_, weight) :: rest => share weight + shares rest

/-- The item in whose share the number falls, when the shares are laid one after the other. -/
def itemAt {α : Type} : List (α × Int) → Nat → Option α
  | [], _ => none
  | (item, weight) :: rest, k =>
    if k < share weight then some item else itemAt rest (k - share weight)

/-- One of the items, in proportion to their weights, if there are any. -/
def chooseWeighted {α : Type} (items : List (α × Int)) (r : Random) : Option α × Random :=
  if items.isEmpty then (none, r)
  else
    let (k, r) := r.below (shares items)
    (itemAt items k, r)

def mix (n : UInt64) : UInt64 :=
  let n := (n ^^^ (n >>> 30)) * 0xBF58476D1CE4E5B9
  let n := (n ^^^ (n >>> 27)) * 0x94D049BB133111EB
  n ^^^ (n >>> 31)

/-- The source that mixes the bits of a state. The bounds do not matter, but how many there are. -/
@[reducible] def Source.splitMix : Source where
  answer seed asked := (mix (seed + .ofNat asked.length * 0x9E3779B97F4A7C15)).toNat

end Random
end Repartee
