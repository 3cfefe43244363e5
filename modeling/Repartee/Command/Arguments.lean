import Repartee.Engine.Basic

/-!
# Arguments of the command line

Options come first, then the words of a message. An option with a value takes it from the next
argument or from behind an equals sign. Help and the version are told as soon as they are asked for,
whatever follows, and the first argument that is wrong ends the reading.
-/

namespace Repartee.Command

open Text

inductive UsageError where
  | unknownOption (argument : String)
  | missingValue (option : String)
  | badNumber (option value : String)
  | emptyUser
  deriving Repr, DecidableEq

def UsageError.message : UsageError → String
  | unknownOption argument => "error: unknown option '" ++ argument ++ "'"
  | missingValue option => "error: " ++ option ++ " expects a value"
  | badNumber option value =>
    "error: invalid " ++ option ++ " '" ++ value ++ "' (expected a non-negative integer)"
  | emptyUser => "error: --user must not be empty"

structure Settings where
  /-- The message to be answered. Without one, messages are read line by line. -/
  message : Option String := none
  user : String := "local"
  options : Options := {}
  color : Bool
  trace : Bool := false
  debug : Bool := false
  deriving Repr, DecidableEq

inductive Request where
  | help
  | version
  | converse (settings : Settings)
  deriving Repr, DecidableEq

inductive ValueOption where
  | user
  | depth
  | history
  | seed
  deriving Repr, DecidableEq

namespace ValueOption

def name : ValueOption → String
  | user => "--user"
  | depth => "--depth"
  | history => "--history"
  | seed => "--seed"

def ofName? : String → Option ValueOption
  | "--user" | "-u" => some user
  | "--depth" => some depth
  | "--history" => some history
  | "--seed" => some seed
  | _ => none

def all : List ValueOption :=
  [user, depth, history, seed]

end ValueOption

/-- The text behind the mark, repeated as often as it stands at the front. The fuel bounds how
often. -/
def dropMarks (mark : List Char) : Nat → List Char → List Char
  | 0, cs => cs
  | fuel + 1, cs =>
    if mark.isPrefixOf cs then dropMarks mark fuel (cs.drop mark.length) else cs

/-- The option and its value when both are in one argument. The name with the equals sign may be
repeated, which changes nothing. -/
def inlineValue? (argument : String) : Option (ValueOption × String) :=
  let cs := argument.toList
  ValueOption.all.findSome? fun o =>
    let mark := o.name.toList ++ ['=']
    if mark.isPrefixOf cs then some (o, String.ofList (dropMarks mark cs.length cs)) else none

/-- A number without a sign, or with a plus sign, that fits into 64 bits. -/
def number? (value : String) : Option Nat :=
  let digits := match value.toList with
    | '+' :: cs => cs
    | cs => cs
  (ofDecimal? digits).filter (· < UInt64.size)

def setOption (s : Settings) (o : ValueOption) (value : String) : Except UsageError Settings :=
  match o, number? value with
  | .user, _ => .ok { s with user := value }
  | .depth, some n => .ok { s with options := { s.options with depthLimit := n } }
  | .history, some n => .ok { s with options := { s.options with historyLength := n } }
  | .seed, some n => .ok { s with options := { s.options with seed := some (UInt64.ofNat n) } }
  | o, none => .error (.badNumber o.name value)

/-- The settings when the arguments are read, which need a user with a name. -/
def finish (s : Settings) : Except UsageError Request :=
  if (trim s.user).isEmpty then .error .emptyUser else .ok (.converse s)

/-- What an argument in the place of an option is. -/
inductive Argument where
  | help
  | version
  | color (on : Bool)
  | trace
  | debug
  /-- The mark behind which there are no options. -/
  | rest
  /-- An option whose value is the next argument. -/
  | option (name : ValueOption)
  | valued (name : ValueOption) (value : String)
  | unknown
  | word
  deriving Repr, DecidableEq

/-- What an argument is if it looks neither like a flag nor like the name of an option. -/
def Argument.ofOther (argument : String) : Argument :=
  match inlineValue? argument with
  | some (o, value) => .valued o value
  | none => if argument.toList.head? = some '-' then .unknown else .word

/-- What an argument in the place of an option is. -/
def Argument.ofText (argument : String) : Argument :=
  match argument with
  | "-h" | "--help" => .help
  | "-V" | "--version" => .version
  | "--color" => .color true
  | "--no-color" => .color false
  | "--trace" => .trace
  | "--debug" => .debug
  | "--" => .rest
  | _ =>
    match ValueOption.ofName? argument with
    | some o => .option o
    | none => .ofOther argument

/-- Reads the arguments behind those that led to the settings. -/
def readFrom (s : Settings) : List String → Except UsageError Request
  | [] => finish s
  | argument :: others =>
    match Argument.ofText argument with
    | .help => .ok .help
    | .version => .ok .version
    | .color on => readFrom { s with color := on } others
    | .trace => readFrom { s with trace := true } others
    | .debug => readFrom { s with debug := true } others
    | .rest =>
      let message := unwords others
      finish (if (trim message).isEmpty then s else { s with message := some message })
    | .option o =>
      match others with
      | [] => .error (.missingValue o.name)
      | value :: others => do readFrom (← setOption s o value) others
    | .valued o value => do readFrom (← setOption s o value) others
    | .unknown => .error (.unknownOption argument)
    | .word => finish { s with message := some (unwords (argument :: others)) }

/-- Reads the arguments. Colors are used from the start if the output is for a terminal. -/
def Request.ofArguments? (terminal : Bool) (arguments : List String) : Except UsageError Request :=
  readFrom { color := terminal } arguments

end Repartee.Command
