import Repartee.Error
import Repartee.Match

/-!
# Templates of replies

The text of a reply may hold placeholders, a key between braces, each of which stands for an entry
of the match. A brace that is meant as such is written twice.
-/

namespace Repartee.Template

/-- Fills in the placeholders. Inside of one, the characters of its key so far are given, the last
one first. -/
def fillFrom (m : Match) : Option (List Char) → List Char → Except TemplateError (List Char)
  | none, [] => .ok []
  | none, '\x7b' :: '\x7b' :: cs => do return '\x7b' :: (← fillFrom m none cs)
  | none, '\x7b' :: cs => fillFrom m (some []) cs
  | none, '\x7d' :: '\x7d' :: cs => do return '\x7d' :: (← fillFrom m none cs)
  | none, '\x7d' :: _ => .error .single
  | none, c :: cs => do return c :: (← fillFrom m none cs)
  | some _, [] => .error .unbalanced
  | some _, '\x7b' :: _ => .error .unbalanced
  | some key, '\x7d' :: cs =>
    match m.get? (String.ofList key.reverse) with
    | none => .error (.unknownKey (String.ofList key.reverse))
    | some entry => do return entry.toList ++ (← fillFrom m none cs)
  | some key, c :: cs => fillFrom m (some (c :: key)) cs

/-- Fills in the placeholders of a template with the entries of the match. -/
def fill (m : Match) (template : String) : Except TemplateError String := do
  return String.ofList (← fillFrom m none template.toList)

/-- The placeholder for the entry under this key. -/
def slot (key : String) : String :=
  "\x7b" ++ key ++ "\x7d"

/-- The template that stands for the text itself. -/
def escapeBraces (s : String) : String :=
  String.ofList <| s.toList.flatMap fun c => if c = '\x7b' ∨ c = '\x7d' then [c, c] else [c]

end Repartee.Template
