import Repartee.Unicode.Visible

/-!
# Quoted text

Text between double quotes, for listings that a person reads. Every character that would not show
as itself is written by an escape: the quote, the backslash and the common controls by a backslash
and a letter, the rest by its code point in hexadecimal between braces.
-/

namespace Repartee.Text

open Repartee.Unicode

/-- The code point of `c` in lowercase hexadecimal, as an escape. -/
def codePointEscape (c : Char) : List Char :=
  ['\\', 'u', '\x7b'] ++ Nat.toDigits 16 c.toNat ++ ['\x7d']

def quotedChar (c : Char) : List Char :=
  match c with
  | '\x00' => ['\\', '0']
  | '\t' => ['\\', 't']
  | '\n' => ['\\', 'n']
  | '\r' => ['\\', 'r']
  | '"' => ['\\', '"']
  | '\\' => ['\\', '\\']
  | c => if isExtender c || !isVisible c then codePointEscape c else [c]

def quoted (s : String) : String :=
  String.ofList (['"'] ++ s.toList.flatMap quotedChar ++ ['"'])

end Repartee.Text
