import Repartee.Engine.Basic
import Repartee.Text.Duration

/-!
# Reports

How a reply was found, written for a person: the searches, indented by their depth, the reply, and
the time that it took. On a terminal the parts are told apart by colors.
-/

namespace Repartee.Command

open Text

/-- The colors and weights of text on a terminal. -/
inductive Style where
  | bold
  | dim
  | green
  | yellow
  | blue
  | cyan
  | gray
  deriving Repr, DecidableEq

namespace Style

/-- The parameter of the control sequence that begins a style. -/
def code : Style → String
  | bold => "1"
  | dim => "2"
  | green => "32"
  | yellow => "33"
  | blue => "34"
  | cyan => "36"
  | gray => "90"

def sequence (parameter : String) : String :=
  "\x1b[" ++ parameter ++ "m"

/-- The text in a style, if colors are used. -/
def paint (style : Style) (color : Bool) (s : String) : String :=
  if color then sequence style.code ++ s ++ sequence "0" else s

end Style

namespace Report

def lines (ls : List String) : String :=
  String.join (ls.map (· ++ "\n"))

def heading (color : Bool) (title : String) : String :=
  Style.gray.paint color ("━━━ " ++ title ++ " ━━━")

/-- The lines for a search, which took `elapsed` nanoseconds. -/
def step (color : Bool) (elapsed : Nat) (s : Step) : List String :=
  let indent := String.join (List.replicate (s.depth + 1) "  ")
  let outcome := match s.rule with
    | some rule => Style.green.paint color ("✓ " ++ rule)
    | none => Style.dim.paint color "✗ no match"
  let found := indent ++ Style.gray.paint color ("[" ++ decimal s.depth ++ "]") ++ " " ++
    Style.yellow.paint color ("\"" ++ s.normalized ++ "\"") ++ " " ++
    Style.dim.paint color ("│ " ++ s.topic ++ " │ tried " ++ decimal s.tried) ++ " " ++ outcome
  let said := indent ++ "    " ++ Style.dim.paint color "→" ++ " " ++
    Style.blue.paint color s.output ++ "  " ++ Style.dim.paint color (duration elapsed)
  if s.rule.isSome then [found, said] else [found]

def reply (color : Bool) (d : ReplyDetails) : List String :=
  if d.reply.isEmpty then
    let reasons := [
      "",
      Style.yellow.paint color "Possible reasons:",
      "  • No rule in topic \"" ++ d.topicBefore ++ "\" matched",
      "  • A rule using a user variable couldn't compile (check the log)"]
    Style.dim.paint color "  (empty reply)" :: (if d.topRule?.isNone then reasons else [])
  else ["  " ++ Style.bold.paint color (Style.green.paint color d.reply)]

/-- The line for a change of topic, if there was one. -/
def topicChange (color : Bool) (d : ReplyDetails) : List String :=
  if d.topicBefore = d.topicAfter then []
  else ["  " ++ Style.dim.paint color "topic:" ++ " " ++ Style.blue.paint color d.topicBefore ++
    " → " ++ Style.blue.paint color d.topicAfter]

/-- The report on a reply, which took `elapsed` nanoseconds in all. The searches share them
evenly. -/
def render (color : Bool) (elapsed : Nat) (d : ReplyDetails) : String :=
  let each := elapsed / max 1 d.steps.length
  let said := "⚙  " ++ d.user ++ " said: \"" ++ d.message ++ "\""
  let searches := if d.steps.isEmpty then [Style.dim.paint color "  No rules searched"]
    else d.steps.flatMap (step color each)
  let timing := "  Total: " ++ Style.green.paint color (duration elapsed) ++ "  │  Rule search: " ++
    Style.cyan.paint color (duration (each * d.steps.length)) ++ "  │  Depth: " ++
    Style.dim.paint color (decimal d.maxDepth)
  lines <|
    ["", Style.bold.paint color (Style.cyan.paint color said), "", heading color "Rules"] ++
    searches ++ ["", heading color "Reply"] ++ reply color d ++ topicChange color d ++
    ["", heading color "Timing", timing, ""]

end Report
end Repartee.Command
