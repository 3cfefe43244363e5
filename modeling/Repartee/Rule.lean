import Repartee.Handler
import Repartee.Text.Quoted

/-!
# Rules

A rule has a pattern for the message, a pattern for the reply before it, and a handler that answers
when both match. Rules are ranked by weight first, then by how specific the pattern for the message
is, and then by how specific the other one is. Within a topic, a rule is known by the canonical
texts of its two patterns.
-/

namespace Repartee

open Repartee.Text

/-- A rule as it is written, with its patterns not yet read. -/
structure RuleDefinition where
  name : String
  pattern : String
  /-- The pattern for the reply before the message. If it is empty, any reply will do, or none. -/
  previous : String := ""
  weight : Int := 1
  handler : Handler

/-- A rule with its patterns read. -/
structure Rule where
  name : String
  pattern : Pattern
  previous : Pattern
  weight : Int
  handler : Handler

/-- How a rule is listed: its name, its two patterns and its weight. -/
def listing (kind name pattern previous : String) (weight : Int) : String :=
  kind ++ " \x7b name: " ++ quoted name ++ ", pattern: " ++ quoted pattern ++ ", previous: " ++
    quoted previous ++ ", weight: " ++ signedDecimal weight ++ ", handler: \"<function>\" \x7d"

/-- The listing of a rule as it is written. -/
def RuleDefinition.listing (d : RuleDefinition) : String :=
  Repartee.listing "RuleDef" d.name d.pattern d.previous d.weight

namespace Rule

variable [Pattern.SizeLimit]

/-- Reads the patterns of a rule, which is to have this name. Bot variables and alternates are
known by now, variables of the user are not. -/
def compile? (name : String) (d : RuleDefinition) (alternates bot : Variables) :
    Except Error Rule := do
  let b : Pattern.Bindings := { alternates, bot }
  let pattern ← (Pattern.ofText? d.pattern b).mapError (.rule name .pattern)
  if !pattern.isPresent then throw (.rule name .pattern .empty)
  let previous ← (Pattern.ofText? d.previous b).mapError (.rule name .previous)
  return ⟨name, pattern, previous, d.weight, d.handler⟩

/-- What a rule is known by within its topic. -/
def key (r : Rule) : String × String :=
  (r.pattern.canonical, r.previous.canonical)

def compare (r s : Rule) : Ordering :=
  (Ord.compare r.weight s.weight).then <|
    (Ord.compare r.pattern.score s.pattern.score).then
      (Ord.compare r.previous.score s.previous.score)

/-- A rule with its rank, as it is shown. -/
def label (r : Rule) : String :=
  r.name ++ " (" ++ signedDecimal r.weight ++ "/" ++ signedDecimal r.pattern.score ++ "/" ++
    signedDecimal r.previous.score ++ ")"

def listing (r : Rule) : String :=
  Repartee.listing "Rule" r.name r.pattern.canonical r.previous.canonical r.weight

/-- What the rule remembers if it matches the message, whose normal form is given beside it. A rule
with a pattern for the reply before the message has to match the newest reply too. -/
def matchNormal? (r : Rule) (message : Target) (normalized : String) (replies : List Target)
    (b : Pattern.Bindings) : Option Match := do
  let captures ← r.pattern.captures? b normalized
  let found := Match.addCaptures "" message ∅ captures
  if r.previous.isPresent then
    let last ← replies.head?
    let captures ← r.previous.captures? b last.normalized
    return Match.addCaptures Match.replyMark last found captures
  else return found

/-- What the rule remembers if it matches the message and, where it asks for one, the newest of the
replies. -/
def match? (r : Rule) (message : Target) (replies : List Target) (b : Pattern.Bindings) :
    Option Match :=
  r.matchNormal? message message.normalized replies b

end Rule
end Repartee
