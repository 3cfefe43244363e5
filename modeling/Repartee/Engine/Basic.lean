import Repartee.Engine.Session

/-!
# Engines

An engine holds a database of rules, the variables of the bot and all users, and answers the
messages of users one after the other. A message and its reply are remembered only if the reply
was found and both can be prepared for matching in the topic that the user is in by then.
-/

namespace Repartee

structure Options where
  /-- How many references may lead to a search for a reply. -/
  depthLimit : Nat := 50
  /-- How many messages and replies are remembered of a user. -/
  historyLength : Nat := 10
  /-- What random choices depend on, if it is to be the same every time. -/
  seed : Option UInt64 := none
  deriving Repr, DecidableEq

/-- What is told of a reply that was asked for with a trace. -/
structure ReplyDetails where
  user : String
  message : String
  reply : String
  /-- The topic in which the message was searched. -/
  topicBefore : String
  /-- The topic of the user behind the reply. -/
  topicAfter : String
  /-- The searches, in the order in which they began. -/
  steps : List Step
  deriving Repr, DecidableEq

namespace ReplyDetails

def topRule? (d : ReplyDetails) : Option String :=
  (d.steps.find? (·.depth = 0)).bind Step.rule

/-- The most references that led to a search. -/
def maxDepth (d : ReplyDetails) : Nat :=
  (d.steps.map Step.depth).foldl max 0

end ReplyDetails

structure Engine where
  database : Database
  bot : Variables
  users : Table User
  options : Options
  random : Random
  /-- The lines that handlers have noted down, newest first. -/
  journal : List String

namespace Engine

variable [Pattern.SizeLimit] [Random.Source]

/-- An engine without rules and users. Its choices depend on `entropy` unless the options give a
seed. -/
def ofOptions (options : Options) (entropy : UInt64) : Engine where
  database := .empty
  bot := ∅
  users := ∅
  options := options
  random := .ofSeed (options.seed.getD entropy)
  journal := []

/-- Replaces all rules by those of the scripts, and yields how many there are. If this fails, there
are no rules any more. -/
def load (e : Engine) (scripts : List Script) : Except Error Nat × Engine :=
  match Database.load scripts e.bot with
  | (.ok database, bot) => (.ok database.ruleCount, { e with database, bot })
  | (.error err, bot) => (.error err, { e with database := .empty, bot })

def reload (e : Engine) : Except Error Nat × Engine :=
  e.load e.database.scripts

def clearRules (e : Engine) : Engine :=
  { e with database := .empty }

/-- The user of this name: the one known, or a new one, whose variables the scripts prepare. The
user is in a topic that is there. -/
def userFor (e : Engine) (userId : String) : User :=
  let user := (e.users.get? userId).getD
    { capacity := e.options.historyLength
      vars := Script.newUserVariables e.database.scripts userId }
  if e.database.hasTopic user.topic then user else { user with topic := defaultTopic }

/-- What stays the same while the user is answered. -/
def sceneFor (e : Engine) (userId : String) (user : User) (message : String) : Scene where
  database := e.database
  userId := userId
  message := message
  limit := e.options.depthLimit
  messages := user.messages
  replies := user.replies

/-- What handlers may change of the engine and the user. -/
def memoryOf (e : Engine) (user : User) : Memory where
  topic := user.topic
  user := user.vars
  bot := e.bot
  random := e.random

/-- Takes over what an attempt at an answer has changed, for the user as it is by now. -/
def withSession (e : Engine) (userId : String) (user : User) (s : Session) : Engine :=
  { e with
    bot := s.memory.bot
    users := e.users.insert userId user
    random := s.memory.random
    journal := s.journal }

/-- Prepares a message and the reply to it for later matches, and adds them to the user's. -/
def remember? (d : Database) (user : User) (message reply : String) : Except Error User := do
  let substitutions := (d.topicNamed user.topic).substitutions
  let message ← Target.ofText? message substitutions
  let reply ← Target.ofText? reply substitutions
  return user.remember message reply

/-- Answers a message. If there is a trace to begin with, the searches are added to it, newest
first. -/
def run (e : Engine) (userId message : String) (trace : Option (List Step)) :
    Except Error (String × List Step) × Engine :=
  let e := { e with database := e.database.sort }
  let user := e.userFor userId
  let scene := e.sceneFor userId user message
  match (Session.reply scene).run ⟨e.memoryOf user, e.journal, trace⟩ with
  | .error err s =>
    let user := { user with topic := s.memory.topic, vars := s.memory.user }
    (.error err, e.withSession userId user s)
  | .ok reply s =>
    let user := { user with topic := s.memory.topic, vars := s.memory.user }
    match remember? e.database user message reply with
    | .error err => (.error err, e.withSession userId user s)
    | .ok user => (.ok (reply, s.trace.getD []), e.withSession userId user s)

/-- The reply to a message of the user. -/
def reply (e : Engine) (userId message : String) : Except Error String × Engine :=
  let (answer, e) := e.run userId message none
  (answer.map Prod.fst, e)

/-- The reply to a message of the user, and how it was found. -/
def replyVerbose (e : Engine) (userId message : String) : Except Error ReplyDetails × Engine :=
  match e.run userId message (some []) with
  | (.error err, e) => (.error err, e)
  | (.ok (reply, trace), e) =>
    let steps := trace.reverse
    let details :=
      { user := userId, message, reply, steps
        topicBefore := ((steps.head?).map Step.topic).getD defaultTopic
        topicAfter := ((e.users.get? userId).map User.topic).getD defaultTopic }
    (.ok details, e)

/-- Forgets a user, if there is one of this name. -/
def clearUser (e : Engine) (userId : String) : Bool × Engine :=
  (e.users.contains userId, { e with users := e.users.erase userId })

end Engine
end Repartee
