import Repartee.Command.Shell

/-!
# The program

Reads the arguments, and then either answers the message among them or the messages in the lines of
its input. On a terminal it greets the user and asks for each line.
-/

namespace Repartee.Command

/-- Runs `act`, and says how many nanoseconds it took. -/
def timed {α : Type} (act : IO α) : IO (Nat × α) := do
  let before ← IO.monoNanosNow
  let a ← act
  let after ← IO.monoNanosNow
  return (after - before, a)

def write (color : Bool) (elapsed : Nat) (r : Response) : IO Unit := do
  IO.print (r.output color elapsed)
  IO.eprint r.errors
  (← IO.getStdout).flush

/-- Takes in lines of input until the conversation is over. -/
partial def talk (interactive : Bool) (s : Shell) : IO UInt32 := do
  if interactive then
    IO.print "> "
    (← IO.getStdout).flush
  let line ← try (← IO.getStdin).getLine catch _ => pure ""
  if line.isEmpty then
    return 0
  let (elapsed, r, s) ← timed do return s.takeLine line
  write s.color elapsed r
  match r with
  | .farewell => return 0
  | .noRoom => return exitCode r
  | _ => talk interactive s

/-- Answers the message of the settings, or those that are read. -/
def run (settings : Settings) (s : Shell) : IO UInt32 := do
  match settings.message with
  | some message =>
    let (elapsed, r, s) ← timed do return s.answer message
    write s.color elapsed r
    return exitCode r
  | none =>
    let interactive ← (← IO.getStdin).isTty
    if interactive then
      IO.println (programTitle ++ ". Type /help for commands.")
    talk interactive s

end Repartee.Command

open Repartee.Command in
def main (arguments : List String) : IO UInt32 := do
  match Request.ofArguments? (← (← IO.getStdout).isTty) arguments with
  | .error e =>
    IO.eprintln e.message
    return 2
  | .ok .help =>
    IO.println usage
    return 0
  | .ok .version =>
    IO.println programTitle
    return 0
  | .ok (.converse settings) =>
    match Shell.start settings (UInt64.ofNat (← IO.monoNanosNow)) with
    | .error e =>
      IO.eprintln ("error: failed to load scripts: " ++ e.message)
      return 1
    | .ok s => run settings s
