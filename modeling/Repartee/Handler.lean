import Repartee.Match
import Repartee.Reply
import Repartee.User

/-!
# Handlers

The body of a rule. It sees the match and the recent exchanges, and it may change the user's topic
and variables and the variables of the bot, make random choices, and note down lines for whoever
runs the conversation. The notes go one way: no handler can see them, so they have no part in what
is said.
-/

namespace Repartee

/-- What a handler sees and cannot change. -/
structure Context where
  userId : String
  matched : Match
  /-- The recent messages of the user, newest first. -/
  messages : List Target
  /-- The recent replies to the user, newest first. -/
  replies : List Target

namespace Context

/-- The entry of the match under this key. -/
def get? (c : Context) (key : String) : Option String :=
  c.matched.get? key

/-- The raw words behind the entry of the match under this key. -/
def raw? (c : Context) (key : String) : Option String :=
  c.matched.get? (Match.rawKey key)

end Context

/-- What a handler may change. -/
structure Memory where
  topic : String
  user : Variables
  bot : Variables
  random : Random

/-- A result, and the lines noted down on the way to it. -/
structure Noted (α : Type) where
  value : α
  notes : List String

instance : Monad Noted where
  pure a := ⟨a, []⟩
  bind x f :=
    let y := f x.value
    ⟨y.value, x.notes ++ y.notes⟩

instance : LawfulMonad Noted :=
  LawfulMonad.mk' Noted
    (fun x => by simp [Functor.map, List.append_nil])
    (fun _ _ => by simp [bind, pure])
    (fun _ _ _ => by simp [bind, List.append_assoc])

/-- A part of what a handler does. -/
abbrev Handling := StateT Memory Noted

abbrev Handler := Context → Handling Reply

/-- The handler that always makes the same reply. -/
def Handler.always (reply : Reply) : Handler :=
  fun _ => pure reply

def Handler.say (content : String) : Handler :=
  .always (.text content)

/-- The handler that says one of the texts, all being as likely. -/
def Handler.sayOneOf (options : List String) : Handler :=
  .always (.choices options)

namespace Memory

def setTopic (topic : String) : Handling Unit :=
  modify fun m => { m with topic }

/-- Gives a variable of the user a value. -/
def setUser (name : String) (value : Value) : Handling Unit :=
  modify fun m => { m with user := m.user.insert name value }

def eraseUser (name : String) : Handling Unit :=
  modify fun m => { m with user := m.user.erase name }

/-- Gives a variable of the bot a value. -/
def setBot (name : String) (value : Value) : Handling Unit :=
  modify fun m => { m with bot := m.bot.insert name value }

/-- What a variable of the bot is shown as, which is nothing if it is not there. -/
def botText (name : String) : Handling String := do
  return (((← get).bot.get? name).map Value.render).getD ""

def note (line : String) : Handling Unit :=
  fun m => ⟨((), m), [line]⟩

/-- One of the items, all being as likely, if there are any. -/
def choose {α : Type} (items : List α) : Handling (Option α) :=
  modifyGet fun m =>
    let (item, random) := m.random.choose items
    (item, { m with random })

/-- One of the items, in proportion to their weights, if there are any. -/
def chooseWeighted {α : Type} (items : List (α × Int)) : Handling (Option α) :=
  modifyGet fun m =>
    let (item, random) := m.random.chooseWeighted items
    (item, { m with random })

end Memory
end Repartee
