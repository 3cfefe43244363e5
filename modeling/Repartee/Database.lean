import Repartee.Script
import Repartee.Topic

/-!
# Databases of rules

All topics of the loaded scripts, by name. The default topic is always there. Loading lets all
scripts prepare the bot's variables before any pattern is read, so that a pattern may refer to
variables of any script; it fails on the first pattern that is refused.
-/

namespace Repartee

/-- The topics, and the scripts that they come from. -/
structure Database where
  topics : Table Topic
  scripts : List Script

namespace Database

variable [Pattern.SizeLimit]

def empty : Database :=
  ⟨Table.empty.insert defaultTopic ⟨defaultTopic, [], [], true, []⟩, []⟩

instance : Inhabited Database :=
  ⟨empty⟩

def hasTopic (d : Database) (name : String) : Bool :=
  d.topics.contains name

/-- The topic of this name, without anything in it if it is not there. -/
def topicNamed (d : Database) (name : String) : Topic :=
  (d.topics.get? name).getD { name }

/-- The topic that stands for this name: the one of that name, or else the default topic. -/
def topicOrDefault (d : Database) (name : String) : Topic :=
  (d.topics.get? name).getD (d.topicNamed defaultTopic)

/-- How many rules there are in all topics. -/
def ruleCount (d : Database) : Nat :=
  Topic.totalSize d.topics.values

def sort (d : Database) : Database :=
  { d with topics := d.topics.mapValues Topic.sort }

/-- Adds what a script declares to its topic. -/
def addScript (bot : Variables) (d : Database) (s : Script) : Except Error Database := do
  let alternates ← s.alternates?
  let name := s.topic.getD defaultTopic
  let rules ← s.declarations.rules.mapM fun r => Rule.compile? (s.ruleName r) r alternates bot
  let topic := rules.foldl Topic.insert (d.topicNamed name)
  let topic := s.declarations.substitutions.foldl Topic.addSubstitution topic
  return { d with topics := d.topics.insert name topic }

/-- Adds what the scripts declare, and sorts the rules, of which there has to be one at least. The
error gives the number of scripts as `candidates`. -/
def build (scripts : List Script) (candidates : Nat) (bot : Variables) : Except Error Database := do
  let d ← scripts.foldlM (addScript bot) { empty with scripts }
  if d.ruleCount = 0 then throw (.noRulesFound candidates)
  return d.sort

/-- Loads the scripts that have a topic. The bot's variables are prepared whether this succeeds or
not. -/
def load (scripts : List Script) (bot : Variables) : Except Error Database × Variables :=
  let (started, bot) := Script.startAll (scripts.filter fun s => s.topic.isSome) bot
  (build started scripts.length bot, bot)

end Database
end Repartee
