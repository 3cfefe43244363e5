import Repartee.Rule

/-!
# Scripts

A script declares rules and substitutions for one topic, and alternates that its own patterns may
refer to. It prepares the variables of the bot when it is loaded, and those of a user when the user
turns up.
-/

namespace Repartee

structure Declarations where
  /-- Names and the simple patterns that they stand for. -/
  alternates : List (String × String) := []
  rules : List RuleDefinition := []
  substitutions : List Substitution := []

structure Script where
  name : String
  /-- The topic of the rules. A script without a topic is not loaded at all. -/
  topic : Option String := some defaultTopic
  /-- Prepares the variables of the bot. It is told for which time it does so. -/
  setup : Nat → Variables → Variables := fun _ bot => bot
  /-- Prepares the variables of the user of this name. -/
  setupUser : String → Variables → Variables := fun _ user => user
  declarations : Declarations := {}
  /-- How often the script has prepared the variables of the bot. -/
  setups : Nat := 0

namespace Script

variable [Pattern.SizeLimit]

def start (s : Script) (bot : Variables) : Script × Variables :=
  let s := { s with setups := s.setups + 1 }
  (s, s.setup s.setups bot)

/-- Lets the scripts prepare the variables of the bot, one after the other. -/
def startAll : List Script → Variables → List Script × Variables
  | [], bot => ([], bot)
  | s :: rest, bot =>
    let (s, bot) := s.start bot
    let (rest, bot) := startAll rest bot
    (s :: rest, bot)

/-- The variables of a new user, prepared by each of the scripts in turn. -/
def newUserVariables (scripts : List Script) (userId : String) : Variables :=
  scripts.foldl (fun user s => s.setupUser userId user) ∅

/-- Reads one alternate of a script and puts it under its name in lowercase, in canonical form. -/
def addAlternate (s : Script) (table : Variables) (entry : String × String) :
    Except Error Variables := do
  let pattern ← (Pattern.simple? entry.2).mapError (.alternate s.name entry.1)
  return table.insert (Text.lower entry.1) (.text pattern.canonical)

def alternates? (s : Script) : Except Error Variables :=
  s.declarations.alternates.foldlM s.addAlternate ∅

/-- The name by which a rule of the script is known. -/
def ruleName (s : Script) (d : RuleDefinition) : String :=
  s.name ++ "." ++ d.name

end Script
end Repartee
