import Repartee.Pattern.Parse
import Repartee.Proofs.Unicode.Classes

/-!
# The grammar of patterns

What a pattern may look like, and the tree that it stands for, said without tokens and drafts:

    sequence     = blanks item (blanks item)* blanks
    item         = word | wildcard | reference | '_' target | bracket
    target       = wildcard | reference | bracket
    bracket      = '[' alternatives ']' | '(' alternatives ')'
    alternatives = sequence ('|' sequence)*

The blanks between two items are one white space character at least, those at the ends of a sequence
may be missing. `Grammar.Item`, `Grammar.Derives` and `Grammar.Alternatives` relate a text to what
it derives, with brackets and memo markers inside each other to at most the given depth. A
derivation may use the enabled kinds of tokens alone.

A sequence is derived as the list of its items (`Grammar.Items`), every word one of its own.
`Sequence.ofItems` is the tree of such a list: white space between neighbours, and neighbouring
words made one part.
-/

namespace Repartee.Pattern

open Repartee.Unicode

/-! ## Trees from items -/

/-- The sequence with one more item in front. Words in front of words become one part with them. -/
def Sequence.consItem : Node → Sequence → Sequence
  | item, [] => [item]
  | .words us, .words vs :: nodes => .words (us ++ vs) :: nodes
  | item, node :: nodes => item :: .space :: node :: nodes

/-- The sequence of these items. -/
def Sequence.ofItems : List Node → Sequence
  | [] => []
  | item :: items => consItem item (ofItems items)

/-- The parts that a memo marker can stand before. -/
def Node.isTarget : Node → Bool
  | .wildcard _ | .reference _ _ | .choice _ _ => true
  | .words _ | .space | .memo _ => false

/-- The kind of token that opens the bracket. -/
def Bracket.kind : Bracket → TokenKind
  | .optional => .optional
  | .group => .group

namespace Grammar

/-! ## Lexical parts -/

/-- A word character other than the underscore, and word characters and hyphens behind it. -/
inductive Word : List Char → Prop
  | mk {c : Char} {cs : List Char} (first : isWordChar c = true) (mark : c ≠ '_')
      (rest : ∀ d ∈ cs, isWordChar d = true ∨ d = '-') : Word (c :: cs)

theorem Word.ne_nil {cs : List Char} (h : Word cs) : cs ≠ [] := by
  cases h
  exact List.cons_ne_nil _ _

theorem Word.isBlank {cs : List Char} (h : Word cs) : ∀ c ∈ cs, isBlank c = false := by
  obtain ⟨first, -, rest⟩ := h
  refine List.forall_mem_cons.mpr ⟨isBlank_of_isWordChar first, fun d hd => ?_⟩
  rcases rest d hd with hd | rfl
  · exact isBlank_of_isWordChar hd
  · decide

/-- A letter, and word characters behind it. -/
inductive Name : List Char → Prop
  | mk {c : Char} {cs : List Char} (first : isLetter c = true)
      (rest : ∀ d ∈ cs, isWordChar d = true) : Name (c :: cs)

/-- A number in ASCII digits that is not beyond the largest one of 32 bits. -/
structure Count (cs : List Char) (n : Nat) : Prop where
  nonempty : cs ≠ []
  digits : ∀ c ∈ cs, c.isDigit = true
  value : n = Nat.ofDigitChars 10 cs 0
  bound : n < UInt32.size

/-- The counts of a wildcard: the least and the most number of words that they ask for. -/
inductive Counts : List Char → Nat → Option Nat → Prop
  | none : Counts [] 1 none
  | exact {cs n} (count : Count cs n) : Counts cs n (some n)
  | range : Counts ['~'] 1 none
  | atLeast {cs n} (lower : Count cs n) : Counts (cs ++ ['~']) n none
  | atMost {cs n} (upper : Count cs n) : Counts ('~' :: cs) 1 (some n)
  | between {cs ds m n} (lower : Count cs m) (upper : Count ds n) :
      Counts (cs ++ '~' :: ds) m (some n)

/-- White space or nothing. -/
structure Blanks (enabled : TokenSet) (cs : List Char) : Prop where
  blank : ∀ c ∈ cs, isBlank c = true
  enabled : cs ≠ [] → .space ∈ enabled

/-! ## Items and sequences -/

mutual

/-- The text derives a part other than white space. -/
inductive Item (enabled : TokenSet) : Nat → List Char → Node → Prop
  | word {depth cs} (kind : .word ∈ enabled) (word : Word cs) :
      Item enabled depth cs (.words [String.ofList cs])
  | wildcard {depth cs min max} (kind : .wildcard ∈ enabled) (words : WordClass)
      (counts : Counts cs min max) :
      Item enabled depth (words.symbol :: cs) (.wildcard (Wildcard.clamp words min max))
  | reference {depth cs} (kind : .reference ∈ enabled) (table : VariableKind)
      (name : Name cs) :
      Item enabled depth ('%' :: table.letter :: ':' :: cs)
        (.reference table (String.ofList cs))
  | memo {depth cs node} (kind : .memo ∈ enabled) (target : node.isTarget = true)
      (item : Item enabled depth cs node) : Item enabled (depth + 1) ('_' :: cs) (.memo node)
  | choice {depth cs alternatives} (bracket : Bracket) (kind : bracket.kind ∈ enabled)
      (closing : .terminator ∈ enabled) (inner : Alternatives enabled depth cs alternatives) :
      Item enabled (depth + 1) (bracket.opener :: (cs ++ [bracket.closer]))
        (.choice bracket alternatives)

/-- The text derives these items, one after the other, with white space between neighbours and
perhaps in front. -/
inductive Items (enabled : TokenSet) : Nat → List Char → List Node → Prop
  | first {depth blanks cs item} (front : Blanks enabled blanks)
      (head : Item enabled depth cs item) : Items enabled depth (blanks ++ cs) [item]
  | next {depth cs items blanks ds item} (before : Items enabled depth cs items)
      (between : Blanks enabled blanks) (apart : blanks ≠ [])
      (last : Item enabled depth ds item) :
      Items enabled depth (cs ++ blanks ++ ds) (items ++ [item])

/-- The text derives the sequence. -/
inductive Derives (enabled : TokenSet) : Nat → List Char → Sequence → Prop
  | mk {depth cs items blanks} (inner : Items enabled depth cs items)
      (back : Blanks enabled blanks) :
      Derives enabled depth (cs ++ blanks) (Sequence.ofItems items)

/-- The text derives these alternatives, with bars between them. -/
inductive Alternatives (enabled : TokenSet) : Nat → List Char → List Sequence → Prop
  | first {depth cs alternative} (head : Derives enabled depth cs alternative) :
      Alternatives enabled depth cs [alternative]
  | next {depth cs alternatives ds alternative}
      (before : Alternatives enabled depth cs alternatives) (bar : .pipe ∈ enabled)
      (last : Derives enabled depth ds alternative) :
      Alternatives enabled depth (cs ++ '|' :: ds) (alternatives ++ [alternative])

end

end Grammar
end Repartee.Pattern
