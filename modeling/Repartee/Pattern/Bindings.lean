import Repartee.Value

/-!
# Variables that a pattern refers to

A pattern names variables of three kinds, each looked up in a table of its own.
-/

namespace Repartee.Pattern

/-- The kinds of variables: the alternates of a script, fixed when it is loaded, the variables of
the bot, and those of the user being replied to. -/
inductive VariableKind where
  | alternate
  | bot
  | user
  deriving Repr, DecidableEq, Inhabited

namespace VariableKind

/-- The letter that stands for the kind in a reference. -/
def letter : VariableKind → Char
  | alternate => 'a'
  | bot => 'b'
  | user => 'u'

def ofLetter? : Char → Option VariableKind
  | 'a' => some alternate
  | 'b' => some bot
  | 'u' => some user
  | _ => none

theorem ofLetter?_letter (kind : VariableKind) : ofLetter? kind.letter = some kind := by
  cases kind <;> rfl

/-- A reference to the variable of that name, as it is written in a pattern. -/
def reference (kind : VariableKind) (name : String) : String :=
  String.ofList ['%', kind.letter, ':'] ++ name

end VariableKind

/-- The tables in which the references of a pattern are looked up. -/
structure Bindings where
  alternates : Variables := ∅
  bot : Variables := ∅
  user : Variables := ∅

/-- The value of the variable of that kind and name. -/
def Bindings.lookup (b : Bindings) (kind : VariableKind) (name : String) : Option Value :=
  match kind with
  | .alternate => b.alternates.get? name
  | .bot => b.bot.get? name
  | .user => b.user.get? name

end Repartee.Pattern
