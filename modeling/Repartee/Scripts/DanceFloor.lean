import Repartee.Script

/-!
# The dance floor

A topic in which every message is answered by a dance move until the user is done dancing. Its
substitution writes contractions out, so that the rules need not list them.
-/

namespace Repartee.Scripts

open Text Memory

/-- What a contraction in lowercase stands for. -/
def contraction? : String → Option String
  | "don't" => some "do not"
  | "can't" => some "can not"
  | "won't" => some "will not"
  | "i'm" => some "i am"
  | "you're" => some "you are"
  | "i've" => some "i have"
  | _ => none

/-- The word, or what it stands for if it is a contraction. -/
def writeOut (word : String) : String :=
  (contraction? (lower word)).getD word

def contractions : Substitution where
  name := "dancefloor.contractions"
  apply := fun _ lists => lists.map fun list => list.map writeOut

def leaveFloor : Handler := fun _ => do
  setTopic defaultTopic
  return .text "Thanks for the dance!"

def danceFloorRules : List RuleDefinition := [
  { name := "dance_move", pattern := "dance move"
    handler := .sayOneOf
      ["Spin around!", "Step to the left!", "Shuffle your feet!", "Wave your arms!"] },
  { name := "star", pattern := "*"
    handler := .say "Less talking, more dancing! <dance move>" },
  { name := "cant_dance", pattern := "i (can not|do not know how to) dance"
    handler := .say "Sure you can! Just follow me. <dance move>" },
  { name := "done", pattern := "[i am] (done|finished|tired) [dancing]", handler := leaveFloor },
  { name := "help", pattern := "help [*]"
    handler := .say "Say \"done dancing\" when you want to stop." }]

def danceFloor : Script where
  name := "dancefloor"
  topic := some "dance"
  declarations := { rules := danceFloorRules, substitutions := [contractions] }

end Repartee.Scripts
