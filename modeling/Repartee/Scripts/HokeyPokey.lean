import Repartee.Script
import Repartee.Template

/-!
# Jokes and the hokey pokey

A bot with moods that knows knock knock jokes, by rules that look at the reply before the message,
and a dance that goes through the parts of the body, by a variable that remembers which one is next.
From here the user is led onto the dance floor, which is a topic of its own.
-/

namespace Repartee.Scripts

open Template Memory

/-- The part of the body that the dance begins with. -/
def firstBodyPart : String := "right foot"

/-- The part of the body that is next in the dance. What is no part of it is followed by the
first one. -/
def nextBodyPart : String → String
  | "right foot" => "left foot"
  | "left foot" => "right arm"
  | "right arm" => "left arm"
  | "left arm" => "whole self"
  | _ => firstBodyPart

/-- One answer if the bot has danced, and another one if not. -/
def ifDanced (yes no : String) : Handler := fun _ => do
  let danced := (((← get).bot.get? "danced").bind Value.truth?).getD false
  return .text (if danced then yes else no)

def getInMood (mood content : String) : Handler := fun _ => do
  setBot "mood" (.text mood)
  return .text content

def tellMood : Handler := fun _ => do
  return .text ("I'm in a " ++ (← botText "mood") ++ " mood.")

/-- Greets back if the bot is in the mood for it. -/
def greetByMood : Handler := fun _ => do
  return .text (if (← botText "mood") = "good" then "<hello>" else "Hay is for horses.")

/-- Tells the part of the body that is next. -/
def tellBodyPart : Handler := fun _ => do
  return .text ("I'm about to use my " ++ (← botText "bodypart") ++ ".")

def backToFirstPart : Handler := fun _ => do
  setBot "bodypart" (.text firstBodyPart)
  return .text "OK, I'm back on the right foot."

/-- Tells the part of the body behind the next one. -/
def tellFollowingPart : Handler := fun _ => do
  let part ← botText "bodypart"
  return .text ("After " ++ part ++ " comes " ++ nextBodyPart part ++ ".")

def skipPart : Handler := fun _ => do
  let next := nextBodyPart (← botText "bodypart")
  setBot "bodypart" (.text next)
  return .text ("OK, when I dance I'll use my " ++ next ++ ".")

/-- Dances with the next part of the body. -/
def danceOn : Handler := fun _ => do
  let part ← botText "bodypart"
  setBot "danced" (.truth true)
  setBot "bodypart" (.text (nextBodyPart part))
  return .text ("<put your " ++ part ++ " in>")

def goDancing : Handler := fun _ => do
  setTopic "dance"
  return .text "Let's dance! Tell me when you're done dancing. <dance move>"

/-- The rules of jokes and the hokey pokey. -/
def hokeyPokeyRules : List RuleDefinition := [
  { name := "help_fun_stuff", pattern := "help (hokey pokey|fun stuff|knock knock|jokes)"
    handler := .sayOneOf [
      "Tell me a knock knock joke please!",
      "Do you know any knock knock jokes? Tell me one.",
      "Ask me if I can do the hokey pokey."] },
  { name := "help_dancing", pattern := "help (dancing|dance)"
    handler := .say "Say \"let's go dancing\" and I'll show you some moves." },
  { name := "how_are_you_doing", pattern := "how are you doing", handler := tellMood },
  { name := "get_grumpy", pattern := "get grumpy"
    handler := getInMood "bad" "Now I'm grouchy." },
  { name := "get_happy", pattern := "get happy"
    handler := getInMood "good" "I feel much better." },
  { name := "hey", pattern := "hey [there]", handler := greetByMood },
  { name := "knock_knock", pattern := "knock knock", handler := .say "Who's there?" },
  { name := "whos_there", pattern := "_*", previous := "whos there"
    handler := .say (slot "raw_match0" ++ " who?") },
  { name := "punchline", pattern := "_*", previous := "* who"
    handler := .say ("Lol " ++ slot "raw_match0" ++ "! That's a good one!") },
  { name := "put_your_thing_in", pattern := "put your _* in"
    handler := .say ("I put my " ++ slot "match0" ++ " in, I put my " ++ slot "match0" ++
      " out, I shake it all about!") },
  { name := "where_in_the_dance", pattern := "where are you in the dance"
    handler := tellBodyPart },
  { name := "back_to_the_right_foot", pattern := "back to the right foot"
    handler := backToFirstPart },
  { name := "what_comes_next", pattern := "what would the next one be"
    handler := tellFollowingPart },
  { name := "skip_to_the_next_one", pattern := "skip to the next one", handler := skipPart },
  { name := "do_the_hokey_pokey", pattern := "[*] do the hokey pokey", handler := danceOn },
  { name := "have_you_done_the_hokey_pokey"
    pattern := "(have you done|did you do) the hokey pokey"
    handler := ifDanced "Yes!" "No, but I'd like to!" },
  { name := "do_you_know_the_hokey_pokey", pattern := "do you know [how to do] the hokey pokey"
    handler := ifDanced "Yes!" "I think so! I'd like to try!" },
  { name := "go_dancing", pattern := "[lets] go dancing", handler := goDancing }]

def hokeyPokey : Script where
  name := "dance"
  setup := fun _ bot =>
    ((bot.insert "mood" (.text "good")).insert "bodypart" (.text firstBodyPart)).insert
      "danced" (.truth false)
  declarations := { rules := hokeyPokeyRules }

end Repartee.Scripts
