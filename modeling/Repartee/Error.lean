import Repartee.Pattern.Error

/-!
# What can go wrong in a conversation

Loading scripts fails on the first pattern that is refused, or when there are no rules in the end.
Replying fails when references lead too deep, when a substitution loses track of the words of a
message, and when the template of a reply cannot be filled in.
-/

namespace Repartee

/-- What is wrong with the template of a reply. -/
inductive TemplateError where
  /-- A placeholder is not closed before the next one or the end. -/
  | unbalanced
  | unknownKey (key : String)
  | single
  deriving Repr, DecidableEq

def TemplateError.message (template : String) : TemplateError → String
  | unbalanced => "unbalanced '\x7b' in \"" ++ template ++ "\""
  | unknownKey key => "unknown match key '" ++ key ++ "'"
  | single => "single '\x7d' in \"" ++ template ++ "\""

inductive RulePart where
  | pattern
  /-- The pattern for the reply before it. -/
  | previous
  deriving Repr, DecidableEq

/-- The name of a part of a rule. -/
def RulePart.name : RulePart → String
  | pattern => "pattern"
  | previous => "previous"

/-- The reasons why scripts cannot be loaded or a message finds no reply. -/
inductive Error where
  | rule (rule : String) (part : RulePart) (source : Pattern.Error)
  | alternate (script : String) (key : String) (source : Pattern.Error)
  /-- There are no rules in any of `scripts` scripts. -/
  | noRulesFound (scripts : Nat)
  /-- References lead deeper than `limit` below the message `input`. -/
  | recursionTooDeep (input : String) (limit : Nat)
  /-- A substitution returned `found` lists of words for `expected` words. -/
  | substitution (name : String) (expected found : Nat)
  /-- The template of a rule's reply cannot be filled in. -/
  | placeholder (rule : String) (template : String) (reason : TemplateError)
  deriving Repr, DecidableEq

namespace Error

open Text

def message : Error → String
  | rule name part source => source.message ++ " in " ++ part.name ++ " of " ++ name
  | alternate script key source =>
    source.message ++ " in alternates[\"" ++ key ++ "\"] of " ++ script
  | noRulesFound scripts => "no rules were found in " ++ decimal scripts ++ " script(s)"
  | recursionTooDeep input limit =>
    "could not find reply to \"" ++ input ++
      "\", due to rules referencing other rules more than " ++ decimal limit ++ " times"
  | substitution name expected found =>
    "return value of substitution " ++ name ++ " has " ++ decimal found ++
      " word lists, expected " ++ decimal expected
  | placeholder name template reason =>
    reason.message template ++ " while processing the reply of " ++ name

/-- The error says that references lead too deep. -/
def isRecursion : Error → Bool
  | recursionTooDeep _ _ => true
  | _ => false

end Error
end Repartee
