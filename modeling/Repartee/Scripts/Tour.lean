import Repartee.Script
import Repartee.Template

/-!
# A tour of patterns

A script that shows what patterns can do, one rule for each thing: wildcards and their counts,
memos, brackets, alternates, variables of the user, weights, choices and references.
-/

namespace Repartee.Scripts

open Template Memory

def helpSubjects : List String :=
  ["valve", "fun stuff", "dancing"]

def isPunctuation (c : Char) : Bool :=
  c.toNat < 0x7f && 0x20 < c.toNat && !c.isAlphanum

/-- The text without the punctuation at its end. -/
def dropFinalPunctuation (s : String) : String :=
  String.ofList (s.toList.reverse.dropWhile isPunctuation).reverse

/-- Points the user to one of the subjects that help is offered on. -/
def randomHelp : Handler := fun _ => do
  let subject ← choose helpSubjects
  return .text ("<help " ++ subject.getD "fun stuff" ++ ">")

/-- Says why being random is a good thing. -/
def sayRandom : Handler := fun _ => do
  let reason ← choose ["it's fun", "potato"]
  return .text ("I like being random because " ++ reason.getD "potato" ++ ".")

def learnName : Handler := fun c => do
  let name := dropFinalPunctuation ((c.raw? "match0").getD "")
  setUser "name" (.text name)
  return .text ("It's nice to meet you, " ++ escapeBraces name ++ ".")

/-- Tells the user the name that was given. -/
def recallName : Handler := fun _ => do
  match (← get).user.get? "name" with
  | none => return .text "You never told me your name."
  | some value =>
    let name := escapeBraces value.render
    return .choices
      ["Your name is " ++ name ++ ".", "You told me your name is " ++ name ++ "."]

def tourRules : List RuleDefinition := [
  { name := "random_help", pattern := "random help", handler := randomHelp },
  { name := "star", pattern := "*"
    handler := .sayOneOf [
      "I don't understand that. <random help>",
      "Let's change the subject. <random help>"] },
  { name := "hello_robot", pattern := "hello robot"
    handler := .say "Hello, carbon-based life form!" },
  { name := "how_are_you", pattern := "how are you", weight := 2
    handler := .sayOneOf [
      "I'm great, how are you?",
      "Doing awesome, you?",
      "Great! You?",
      "I'm fine, thanks for asking!"] },
  { name := "say_something_random", pattern := "say something random", handler := sayRandom },
  { name := "greetings", pattern := "greetings"
    handler := .always (.weighted [("Hello!", 20), ("Buenas dias!", 25), ("Buongiorno!", 1)]) },
  { name := "told_me_to_say", pattern := "_* told me to say _*"
    handler := .sayOneOf [
      "Why would " ++ slot "raw_match0" ++ " tell you to say \"" ++ slot "match1" ++ "\"?",
      "Are you just saying \"" ++ slot "match1" ++ "\" because " ++ slot "raw_match0" ++
        " told you to?"] },
  { name := "age_number", pattern := "i am _#1 years old"
    handler := .say (slot "match0" ++ " isn't old at all!") },
  { name := "who_is", pattern := "who is _*"
    handler := .say ("I don't know who " ++ slot "match0" ++ " is.") },
  { name := "age_words", pattern := "i am @~3 years old"
    handler := .say "Tell me that again, but with a number this time." },
  { name := "age_any", pattern := "i am * years old"
    handler := .say "Can you use a number instead?" },
  { name := "are_you_a_bot", pattern := "are you a (bot|robot|computer|machine)"
    handler := .say "Darn! You got me!" },
  { name := "excited", pattern := "i am _(so|really|very) excited"
    handler := .say ("What are you " ++ slot "match0" ++ " excited about?") },
  { name := "favorite_color", pattern := "i _(like|love) the color _*"
    handler := .sayOneOf [
      "What a coincidence! I " ++ slot "match0" ++ " that color too!",
      "The color " ++ slot "match1" ++ " is one of my favorites",
      "Really? I " ++ slot "match0" ++ " the color " ++ slot "match1" ++ " too!",
      "Oh I " ++ slot "match0" ++ " " ++ slot "match1" ++ " too!"] },
  { name := "how_you", pattern := "how [are] you", handler := .say "I'm great, you?" },
  { name := "phone_number", pattern := "what is your (home|office|cell) [phone] number"
    handler := .say "You can reach me at: 1 (800) 555-1234." },
  { name := "car", pattern := "i have a [red|green|blue] car"
    handler := .say "I bet you like your car a lot." },
  { name := "matrix", pattern := "[*] the matrix [*]"
    handler := .say "How do you know about the matrix?" },
  { name := "what_color", pattern := "what color is my _(red|blue|green|yellow) _*"
    handler := .say
      ("According to you, your " ++ slot "match1" ++ " is " ++ slot "match0" ++ ".") },
  { name := "my_thing_color", pattern := "my _* is _%a:colors"
    handler := .say ("I've always wanted a " ++ slot "match1" ++ " " ++ slot "match0" ++ ".") },
  { name := "google", pattern := "google _*", weight := 10
    handler := .say "OK, I'll google it. Jk, I'm not Siri." },
  { name := "or_whatever", pattern := "_* or whatever", weight := 100
    handler := .say ("Whatever. <" ++ slot "match0" ++ ">") },
  { name := "hello", pattern := "hello", handler := .sayOneOf ["Hi there!", "Hey!", "Howdy!"] },
  { name := "hi", pattern := "hi", handler := .say "<hello>" },
  { name := "my_name", pattern := "my name is _@~3", handler := learnName },
  { name := "what_is_my_name", pattern := "what is my name", handler := recallName },
  { name := "is_my_name", pattern := "is my name %u:name"
    handler := .say "That's what you told me!" }]

def tour : Script where
  name := "tutorial"
  declarations :=
    { alternates := [("colors", "(red|yellow|orange|green|blue|indigo|violet)")]
      rules := tourRules }

end Repartee.Scripts
