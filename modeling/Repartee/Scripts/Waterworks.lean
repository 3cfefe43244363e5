import Repartee.Script
import Repartee.Template

/-!
# The waterworks

The water of a house, with a shutoff valve, a drain valve and a leak sensor, each of which is a
variable of the bot. Water is not let in while the drain is open or the sensor is wet, and the drain
is not opened while water comes in.
-/

namespace Repartee.Scripts

open Template Memory

/-- The variable for the shutoff valve, which lets water into the house. -/
def mainValve : String := "mainvalvestatus"

/-- The variable for the drain valve, which lets water out of the house. -/
def drainValve : String := "drainvalvestatus"

def leakSensor : String := "leaksensorstatus"

/-- What is said to bridge the time until a valve has moved. -/
def stalls : List String := [
  ". Give it a few seconds and text me 'status' and I'll let you know how the valves are doing.",
  ". Give me just a moment, then text me 'status' to make sure it worked.",
  ", and in a few seconds please text me 'status' to check on the valves."]

/-- A choice of what is said to bridge the time. -/
def stall : Handling String := do
  return (← choose stalls).getD ""

/-- Lets water into the house, if the drain is closed and the sensor dry. -/
def openMain : Handler := fun _ => do
  if (← botText drainValve) = "open" then
    return .text ("The drain valve is open. Please close it before opening the " ++
      slot "match0" ++ ".")
  else if (← botText leakSensor) = "wet" then
    return .text ("<leak sensor status> Please dry it and reset it before opening the " ++
      slot "match0" ++ ".")
  else
    setBot mainValve (.text "open")
    return .text ("I'll tell the " ++ slot "match0" ++ " to open" ++ (← stall))

/-- Opens the drain, if no water comes in. -/
def openDrain : Handler := fun _ => do
  if (← botText mainValve) = "open" then
    return .text "The shutoff valve is open. Please close it first."
  else
    setBot drainValve (.text "open")
    return .text ("I'll tell the " ++ slot "match0" ++ " to open" ++ (← stall))

/-- Closes a valve, and says so after the words `beginning`. -/
def closeValve (valve beginning : String) : Handler := fun _ => do
  setBot valve (.text "closed")
  return .text (beginning ++ " tell the " ++ slot "match0" ++ " to close" ++ (← stall))

/-- Turns the water on, for which the drain is closed if need be. -/
def turnOn : Handler := fun _ => do
  if (← botText mainValve) = "open" then
    return .text "It's already on."
  else if (← botText leakSensor) = "wet" then
    return .text
      "<leak sensor status> Please dry it and reset it before turning the water on."
  else if (← botText drainValve) = "open" then
    setBot drainValve (.text "closed")
    return .text "I closed the drain valve and <open shutoff valve>"
  else
    return .text "<open shutoff valve>"

/-- Drains the house, for which the water is turned off if need be. -/
def drainHouse : Handler := fun _ => do
  if (← botText drainValve) = "open" then
    return .text "It's already drained."
  else if (← botText mainValve) = "open" then
    setBot mainValve (.text "closed")
    return .text "I closed the main valve and <open drain valve>"
  else
    return .text "<open drain valve>"

/-- Tells how a valve or the sensor is, after the words `beginning`. -/
def tellStatus (device beginning : String) : Handler := fun _ => do
  return .text (beginning ++ " is " ++ (← botText device) ++ ".")

def setSensor (status : String) : Handler := fun _ => do
  setBot leakSensor (.text status)
  return .text ("Now the leak sensor is " ++ status ++ ".")

def waterworksRules : List RuleDefinition := [
  { name := "help_valves", pattern := "help [on] (valve|valves|water valves|%a:anyvalve)"
    handler := .sayOneOf [
      "I can turn the water on and off and drain the house by controlling the shutoff valve " ++
        "and the drain valve. Ask me \"What is the valve status?\" to get started.",
      "Try telling me to turn the water on or off or to drain the house.",
      "If you tell me \"sensor wet\" I'll pretend the leak sensor in the bathroom is wet. Then " ++
        "try telling me \"Turn the water on\" and see what I do."] },
  { name := "open_main", pattern := "open [the] _%a:mainvalve", handler := openMain },
  { name := "open_drain", pattern := "open [the] _%a:drainvalve", handler := openDrain },
  { name := "close_main", pattern := "close [the] _%a:mainvalve"
    handler := closeValve mainValve "I'll" },
  { name := "close_drain", pattern := "close [the] _%a:drainvalve"
    handler := closeValve drainValve "I will" },
  { name := "open_close_it_both_mentioned", pattern := "_(open|close) it"
    previous := "([*] %a:mainvalve [*] %a:drainvalve [*]|[*] %a:drainvalve [*] %a:mainvalve [*])"
    handler := .sayOneOf [
      "What do you want me to " ++ slot "match0" ++ "?",
      "Which valve would you like to " ++ slot "match0" ++ "?"] },
  { name := "open_close_it_one_mentioned", pattern := "_(open|close) it"
    previous := "* _%a:anyvalve [*]"
    handler := .say ("<" ++ slot "match0" ++ " the " ++ slot "reply_match0" ++ ">") },
  { name := "open_close", pattern := "_(open|close) [it]"
    handler := .say ("What do you want me to " ++ slot "match0" ++ "?") },
  { name := "which_valve", pattern := "[the] _%a:anyvalve"
    previous := "(what do you want me|which valve would you like) to _(open|close)"
    handler := .say ("OK, <" ++ slot "reply_match0" ++ " the " ++ slot "match0" ++ ">") },
  { name := "water_on", pattern := "[turn [the]] water on", handler := turnOn },
  { name := "water_off", pattern := "[turn [the]] water off"
    handler := .say "<close shutoff valve>" },
  { name := "drain", pattern := "drain [the] (water|house)", handler := drainHouse },
  { name := "sensor_status", pattern := "[what is [the]] (water|leak) sensor status"
    handler := tellStatus leakSensor "The water leak sensor" },
  { name := "main_status", pattern := "_%a:mainvalve status"
    handler := tellStatus mainValve ("The " ++ slot "match0") },
  { name := "drain_status", pattern := "_%a:drainvalve status"
    handler := tellStatus drainValve ("The " ++ slot "match0") },
  { name := "valve_status", pattern := "[tell me about|how is|what is] [the] valve status"
    handler := .say "<shutoff valve status> <drain valve status>" },
  { name := "status", pattern := "status"
    handler := .say "<valve status> <water sensor status>" },
  { name := "any_valve_status"
    pattern := "(tell me about the|how is the|what is [the]) _%a:anyvalve [status]"
    handler := .say ("<" ++ slot "match0" ++ " status>") },
  { name := "is_valve_open", pattern := "is the _%a:anyvalve (open|closed)"
    handler := .say ("<" ++ slot "match0" ++ " status>") },
  { name := "sensor_wet", pattern := "sensor wet", handler := setSensor "wet" },
  { name := "sensor_dry", pattern := "sensor dry", handler := setSensor "dry" }]

def waterworks : Script where
  name := "valves"
  setup := fun _ bot =>
    ((bot.insert leakSensor (.text "dry")).insert mainValve (.text "closed")).insert
      drainValve (.text "open")
  declarations :=
    { alternates := [
        ("mainvalve", "((shutoff|shut off|main [water]|city water) valve)"),
        ("drainvalve", "([water] drain valve)"),
        ("anyvalve", "((shutoff|shut off|main|main water|city water|[water] drain) valve)")]
      rules := waterworksRules }

end Repartee.Scripts
