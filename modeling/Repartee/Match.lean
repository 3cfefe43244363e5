import Repartee.Pattern.Basic
import Repartee.Target

/-!
# What a rule remembers of a message

For every memo of a pattern there are two entries: the normal words that it took in, and the raw
words behind them. A memo that took no part has empty entries.
-/

namespace Repartee

open Repartee.Text

/-- The entries of a match, under their keys. -/
abbrev Match := Table String

namespace Match

/-- Adds the memos of a pattern that matched the normal form of `t`. The keys begin with `mark`. -/
def addCaptures (mark : String) (t : Target) (m : Match) (captures : List Pattern.Capture) :
    Match :=
  captures.foldl
    (fun m c =>
      let (normal, raw) := match c.span with
        | some (start, stop) => (slice t.normalized start stop, t.rawSpan start stop)
        | none => ("", "")
      (m.insert (mark ++ c.name) normal).insert (mark ++ "raw_" ++ c.name) raw)
    m

/-- The beginning of the keys for the reply before the message. -/
def replyMark : String := "reply_"

/-- The key of the raw words behind the entry `key`. -/
def rawKey (key : String) : String :=
  if replyMark.toList.isPrefixOf key.toList then
    replyMark ++ "raw_" ++ String.ofList (key.toList.drop replyMark.length)
  else "raw_" ++ key

end Match
end Repartee
