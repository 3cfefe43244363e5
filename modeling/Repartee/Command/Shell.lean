import Repartee.Command.Arguments
import Repartee.Command.Report
import Repartee.Scripts.Builtin

/-!
# The conversation on the command line

The state of a conversation with one user, and what each line of input does to it. A line is a
command or a message; white space around it does not count, and neither do empty lines. A message
that finds no reply does not end the conversation, but it does when it came as an argument.
-/

namespace Repartee

/-- The program refuses what is above the limit by the estimate. -/
instance : Pattern.SizeLimit := .byWeight

instance : Random.Source := .splitMix

namespace Command

open Text

/-- The name under which the program presents itself. -/
def programTitle : String := "banter 0.1.0"

/-- What there is to know about the arguments. -/
def usage : String :=
  programTitle ++ "

Pattern-driven chat bot CLI, running the built-in scripts.

Usage:
  banter [OPTIONS] [--] <message...>
  banter [OPTIONS]                      (read messages from stdin, one per line)

Options:
  -u, --user <id>        User id to talk as. Default: local
  --depth <n>            Reference expansion depth limit. Default: 50
  --history <n>          Messages and replies remembered per user. Default: 10
  --seed <n>             Seed random reply choice.
  --trace                Print which rules fired for each reply.
  --debug                Debug logging for the engine (RUST_LOG is honored too).
  --color                Force ANSI color output.
  --no-color             Disable ANSI color output.
  -h, --help             Show this help message.
  -V, --version          Print version information.

Exit codes:
  0  Success.
  1  Script load or reply error.
  2  Invalid arguments.
"

/-- What there is to know about the commands. -/
def commandHelp : List String := [
  "Commands:",
  "  /botvars    Show bot variables.",
  "  /uservars   Show your topic and user variables.",
  "  /reload     Reload the scripts (reruns their setup).",
  "  /trace      Toggle the per-reply trace.",
  "  /quit       Leave."]

structure Shell where
  engine : Engine
  user : String
  trace : Bool
  color : Bool

inductive Response where
  | silent
  | farewell
  | say (lines : List String)
  | report (details : ReplyDetails)
  | complain (message : String)
  /-- There is no room for the history of the user, and the program ends. -/
  | noRoom
  deriving Repr, DecidableEq

namespace Response

/-- What is written to the output, where finding the reply took `elapsed` nanoseconds. -/
def output (color : Bool) (elapsed : Nat) : Response → String
  | say ls => Report.lines ls
  | report details => Report.render color elapsed details
  | silent | farewell | complain _ | noRoom => ""

def errors : Response → String
  | complain message => "error: " ++ message ++ "\n"
  | silent | farewell | say _ | report _ | noRoom => ""

end Response

/-- The largest history that there can be room for: its texts take 96 bytes each, and no more than
half of all addresses can be taken. -/
def largestHistory : Nat := (UInt64.size / 2 - 1) / 96

namespace Shell

def variableLines (t : Variables) : List String :=
  t.entries.map fun e => e.1 ++ " = " ++ e.2.render

def answer (s : Shell) (message : String) : Response × Shell :=
  if largestHistory < s.engine.options.historyLength && !s.engine.users.contains s.user then
    (.noRoom, s)
  else if s.trace then
    match s.engine.replyVerbose s.user message with
    | (.ok details, engine) => (.report details, { s with engine })
    | (.error e, engine) => (.complain e.message, { s with engine })
  else
    match s.engine.reply s.user message with
    | (.ok reply, engine) => (.say [reply], { s with engine })
    | (.error e, engine) => (.complain e.message, { s with engine })

/-- Shows the topic and the variables of the user. -/
def showUser (s : Shell) : List String :=
  match s.engine.users.get? s.user with
  | some user => ("topic = " ++ user.topic) :: variableLines user.vars
  | none => ["(no messages from " ++ s.user ++ " yet)"]

def reload (s : Shell) : Response × Shell :=
  match s.engine.reload with
  | (.ok count, engine) => (.say ["Reloaded " ++ decimal count ++ " rules."], { s with engine })
  | (.error e, engine) => (.complain ("reload failed: " ++ e.message), { s with engine })

def takeLine (s : Shell) (line : String) : Response × Shell :=
  match trim line with
  | "" => (.silent, s)
  | "/quit" | "/exit" => (.farewell, s)
  | "/help" => (.say commandHelp, s)
  | "/botvars" => (.say (variableLines s.engine.bot), s)
  | "/uservars" => (.say s.showUser, s)
  | "/reload" => s.reload
  | "/trace" =>
    (.say ["Trace " ++ (if s.trace then "off" else "on") ++ "."], { s with trace := !s.trace })
  | message => s.answer message

/-- A conversation that has not begun, with the scripts that come with the engine. Its choices
depend on `entropy` unless the settings give a seed. -/
def start (settings : Settings) (entropy : UInt64) : Except Error Shell :=
  match (Engine.ofOptions settings.options entropy).load Scripts.builtin with
  | (.ok _, engine) => .ok ⟨engine, settings.user, settings.trace, settings.color⟩
  | (.error e, _) => .error e

end Shell

/-- What a run of the program leaves behind. -/
structure Transcript where
  code : UInt32 := 0
  output : String := ""
  errors : String := ""

namespace Transcript

/-- The transcript with a response added to it. -/
def add (t : Transcript) (color : Bool) (r : Response) : Transcript :=
  { t with output := t.output ++ r.output color 0, errors := t.errors ++ r.errors }

end Transcript

/-- The exit code of a program that answered one message. -/
def exitCode : Response → UInt32
  | .complain _ => 1
  | .noRoom => 101
  | _ => 0

/-- Takes in lines of input until the conversation is over. -/
def converse (s : Shell) (t : Transcript) : List String → Transcript
  | [] => t
  | line :: rest =>
    match s.takeLine line with
    | (.farewell, _) => t
    | (.noRoom, _) => { t with code := exitCode .noRoom }
    | (r, s) => converse s (t.add s.color r) rest

/-- What the program leaves behind when it is run with these arguments and lines of input, and
everything takes no time. -/
def transcript (terminal : Bool) (entropy : UInt64) (arguments input : List String) : Transcript :=
  match Request.ofArguments? terminal arguments with
  | .error e => { code := 2, errors := e.message ++ "\n" }
  | .ok .help => { output := usage ++ "\n" }
  | .ok .version => { output := programTitle ++ "\n" }
  | .ok (.converse settings) =>
    match Shell.start settings entropy with
    | .error e => { code := 1, errors := "error: failed to load scripts: " ++ e.message ++ "\n" }
    | .ok s =>
      match settings.message with
      | some message =>
        let (r, _) := s.answer message
        { ({} : Transcript).add s.color r with code := exitCode r }
      | none => converse s {} input

end Command
end Repartee
