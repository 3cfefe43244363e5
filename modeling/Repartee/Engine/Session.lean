import Repartee.Database
import Repartee.Reference
import Repartee.Template

/-!
# Finding a reply

A message is answered by searching the rules of the user's topic, running the handler of the first
one that matches, and replacing the references in its reply by the replies to them, each of which is
found in the same way one level deeper. What handlers have changed by then stays changed when a
reply fails in the end.

The depth of references is limited, and the levels that are left are what the search recurs on.
-/

namespace Repartee

structure Step where
  /-- How many references lead from the message to this search. -/
  depth : Nat
  topic : String
  input : String
  normalized : String
  /-- How many rules were tried. -/
  tried : Nat
  rule : Option String
  /-- The reply of that rule, with its references as they are. -/
  output : String
  deriving Repr, DecidableEq

/-- What stays the same while a message is answered. -/
structure Scene where
  database : Database
  userId : String
  /-- The message to be answered, as it came in. -/
  message : String
  /-- How many references may lead to a search. -/
  limit : Nat
  messages : List Target
  replies : List Target

/-- What changes while a message is answered. -/
structure Session where
  memory : Memory
  /-- The lines that handlers have noted down, newest first. -/
  journal : List String
  /-- The searches so far, newest first, if they are recorded at all. -/
  trace : Option (List Step)

/-- A part of answering a message. -/
abbrev Answering := EStateM Error Session

namespace Session

variable [Pattern.SizeLimit]

def require {α : Type} : Except Error α → Answering α
  | .ok a => pure a
  | .error e => throw e

def handle {α : Type} (action : Handling α) : Answering α :=
  modifyGet fun s =>
    let ⟨(a, memory), notes⟩ := action.run s.memory
    (a, { s with memory, journal := notes.reverse ++ s.journal })

/-- Moves a user whose topic has changed to one that is not there to the default topic. -/
def settleTopic (d : Database) (before : String) (m : Memory) : Memory :=
  if m.topic = before || d.hasTopic m.topic then m else { m with topic := defaultTopic }

/-- The text that a rule answers with when it has matched: its handler runs, and then the template
that it returns is filled in. -/
def answer (scene : Scene) (rule : Rule) (matched : Match) : Answering String := do
  let before := (← get).memory.topic
  let template ← handle do
    let reply ← rule.handler ⟨scene.userId, matched, scene.messages, scene.replies⟩
    modify (settleTopic scene.database before)
    modifyGet fun m => let (template, random) := reply.pick m.random; (template, { m with random })
  require <| (Template.fill matched template).mapError (.placeholder rule.name template)

def record (step : Step) : Answering Unit :=
  modify fun s => { s with trace := s.trace.map (step :: ·) }

/-- Searches the user's topic for a rule that matches `input`, and yields its reply, with the
references in it as they are. Without such a rule the reply is empty. -/
def search (scene : Scene) (depth : Nat) (input : String) : Answering String := do
  let memory := (← get).memory
  let topic := scene.database.topicOrDefault memory.topic
  let target ← require (Target.ofText? input topic.substitutions)
  let (tried, found) :=
    topic.search target scene.replies { bot := memory.bot, user := memory.user }
  let output ← match found with
    | some (rule, matched) => answer scene rule matched
    | none => pure ""
  record
    { depth, topic := topic.name, input, normalized := target.normalized, tried
      rule := found.map (·.1.name), output }
  return output

/-- The text of the pieces, where `replyTo` yields what is said instead of a reference. -/
def expand (replyTo : String → Answering String) : List Piece → Answering (List Char)
  | [] => pure []
  | .plain c :: rest => do return c :: (← expand replyTo rest)
  | .reference message :: rest => do
    let reply ← replyTo message
    return reply.toList ++ (← expand replyTo rest)

/-- The reply to `input`, which references lead to from `depth` levels above. There are `levels`
levels left, this one included. -/
def replyAt (scene : Scene) : (levels depth : Nat) → (input : String) → Answering String
  | 0, _, _ => throw (.recursionTooDeep scene.message scene.limit)
  | levels + 1, depth, input => do
    let output ← search scene depth input
    let chars ← expand (replyAt scene levels (depth + 1)) (Piece.split output)
    return String.ofList chars

def reply (scene : Scene) : Answering String :=
  replyAt scene (scene.limit + 1) 0 scene.message

end Session
end Repartee
