import Repartee.Rule

/-!
# Topics

A topic holds rules in the order in which they were registered, each known by its key, and the
substitutions that messages pass through. The rules are tried from the highest rank down, in an
order that is made anew only when rules have arrived since it was made last.
-/

namespace Repartee

structure Topic where
  name : String
  /-- The rules in the order of registration. -/
  rules : List Rule := []
  /-- The rules in the order in which they are tried, as of the last sorting. -/
  sorted : List Rule := []
  /-- No rule has arrived since the last sorting. -/
  isSorted : Bool := true
  substitutions : List Substitution := []

namespace Topic

variable [Pattern.SizeLimit]

def hasKey (t : Topic) (key : String × String) : Bool :=
  t.rules.any fun r => r.key == key

/-- Registers a rule, unless there is one of the same key. -/
def insert (t : Topic) (r : Rule) : Topic :=
  if t.hasKey r.key then t else { t with rules := t.rules ++ [r], isSorted := false }

def addSubstitution (t : Topic) (s : Substitution) : Topic :=
  { t with substitutions := t.substitutions ++ [s] }

def size (t : Topic) : Nat :=
  t.rules.length

/-- How many rules there are in all of the topics. -/
def totalSize : List Topic → Nat
  | [] => 0
  | t :: ts => t.size + totalSize ts

/-- The rules from the highest rank down, those of the same rank in the order given. -/
def byRank (rules : List Rule) : List Rule :=
  rules.mergeSort fun r s => (r.compare s).isGE

/-- Makes the order in which the rules are tried, if rules have arrived. -/
def sort (t : Topic) : Topic :=
  if t.isSorted then t else { t with sorted := byRank t.rules, isSorted := true }

/-- The first of the rules that matches, with what it remembers, and how many had to be tried. -/
def firstMatch (message : Target) (normalized : String) (replies : List Target)
    (b : Pattern.Bindings) : List Rule → Nat × Option (Rule × Match)
  | [] => (0, none)
  | r :: rs =>
    match r.matchNormal? message normalized replies b with
    | some found => (1, some (r, found))
    | none =>
      let (tried, found) := firstMatch message normalized replies b rs
      (tried + 1, found)

/-- Searches the rules in order for one that matches the message. -/
def search (t : Topic) (message : Target) (replies : List Target) (b : Pattern.Bindings) :
    Nat × Option (Rule × Match) :=
  firstMatch message message.normalized replies b t.sorted

end Topic
end Repartee
