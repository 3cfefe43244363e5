import Repartee.Unicode.Blank
import Repartee.Unicode.Letter

/-!
# Tokens of a pattern

A pattern is cut into tokens from left to right. Each kind of token has a shape, which
`TokenKind.lexeme?` recognises as the longest stretch of that shape at the front of a text, and a
demand on the character behind it (`TokenKind.fits`). The first kind that is enabled, has its shape
at this place and whose demand is met gives the token; where there is none, one character becomes
an invalid token. The tokens of a text are adjacent and cover it from end to end.
-/

namespace Repartee.Pattern

open Repartee.Unicode

inductive TokenKind where
  | wildcard
  | memo
  | word
  | space
  | reference
  | optional
  | group
  | terminator
  | pipe
  | invalid
  deriving Repr, DecidableEq, Inhabited

/-- A kind and the text that has it. -/
structure Token where
  kind : TokenKind
  text : String
  deriving Repr, DecidableEq

/-- The kinds of tokens that are looked for, all others being disabled. -/
abbrev TokenSet := List TokenKind

namespace TokenSet

/-- Everything that a pattern may hold. -/
def full : TokenSet :=
  [.wildcard, .memo, .word, .space, .reference, .optional, .terminator, .group, .pipe]

/-- Words, white space and brackets, as in the values of variables. -/
def simple : TokenSet :=
  [.word, .space, .optional, .terminator, .group, .pipe]

end TokenSet

def isWildcardSymbol (c : Char) : Bool :=
  c == '*' || c == '#' || c == '@'

/-- A word character other than the underscore, which marks a memo. -/
def startsWord (c : Char) : Bool :=
  isWordChar c && c != '_'

def continuesWord (c : Char) : Bool :=
  isWordChar c || c == '-'

/-- The counts behind the symbol of a wildcard: digits, a tilde, digits, any of which may be
missing. -/
def wildcardCounts (cs : List Char) : List Char :=
  match cs.dropWhile isDecimal with
  | '~' :: ds => cs.takeWhile isDecimal ++ '~' :: ds.takeWhile isDecimal
  | _ => cs.takeWhile isDecimal

def isTerminator (c : Char) : Bool :=
  c == ']' || c == ')'

/-- The text goes on with nothing that could belong to the token before it. -/
def atDelimiter : List Char → Bool
  | [] => true
  | c :: _ => isTerminator c || c == '|' || isBlank c

/-- The text goes on with something that a memo marker can stand before. -/
def atMemoTarget : List Char → Bool
  | [] => false
  | c :: _ => isWildcardSymbol c || c == '%' || c == '(' || c == '['

namespace TokenKind

/-- The longest stretch of this kind's shape at the front of a text. -/
def lexeme? : TokenKind → List Char → Option (List Char)
  | wildcard, c :: cs => if isWildcardSymbol c then some (c :: wildcardCounts cs) else none
  | memo, c :: _ => if c = '_' then some [c] else none
  | word, c :: cs => if startsWord c then some (c :: cs.takeWhile continuesWord) else none
  | space, c :: cs => if isBlank c then some (c :: cs.takeWhile isBlank) else none
  | reference, '%' :: k :: ':' :: c :: cs =>
    if (k == 'a' || k == 'b' || k == 'u') && isLetter c then
      some ('%' :: k :: ':' :: c :: cs.takeWhile isWordChar)
    else none
  | optional, c :: _ => if c = '[' then some [c] else none
  | group, c :: _ => if c = '(' then some [c] else none
  | terminator, c :: _ => if isTerminator c then some [c] else none
  | pipe, c :: _ => if c = '|' then some [c] else none
  | _, _ => none

/-- A token of this kind may be followed by `rest`. -/
def fits (kind : TokenKind) (rest : List Char) : Bool :=
  match kind with
  | wildcard | word | reference | terminator => atDelimiter rest
  | memo => atMemoTarget rest
  | space | optional | group | pipe | invalid => true

/-- The characters of a token of this kind at the front of a text. -/
def accept? (kind : TokenKind) (cs : List Char) : Option (List Char) :=
  (kind.lexeme? cs).filter fun lexeme => kind.fits (cs.drop lexeme.length)

end TokenKind

/-- The order in which the kinds of tokens are tried. -/
def kindsInOrder : List TokenKind :=
  [.wildcard, .memo, .word, .space, .reference, .optional, .terminator, .group, .pipe]

/-- The kind and the characters of the token at the front of `c :: cs`. -/
def frontToken (enabled : TokenSet) (c : Char) (cs : List Char) : TokenKind × List Char :=
  let found := kindsInOrder.findSome? fun kind =>
    if enabled.contains kind then (kind.accept? (c :: cs)).map fun lexeme => (kind, lexeme)
    else none
  found.getD (.invalid, [c])

/-- The tokens of a text whose first `skip` characters belong to a token already taken. -/
def tokensAfter (enabled : TokenSet) : Nat → List Char → List Token
  | _, [] => []
  | skip + 1, _ :: cs => tokensAfter enabled skip cs
  | 0, c :: cs =>
    let (kind, lexeme) := frontToken enabled c cs
    ⟨kind, String.ofList lexeme⟩ :: tokensAfter enabled (lexeme.length - 1) cs

/-- The tokens of a text. -/
def Token.scan (enabled : TokenSet) (text : String) : List Token :=
  tokensAfter enabled 0 text.toList

end Repartee.Pattern
