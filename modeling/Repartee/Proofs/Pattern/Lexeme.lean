import Mathlib.Data.List.Infix
import Mathlib.Data.List.TakeWhile
import Repartee.Proofs.Pattern.Grammar

/-!
# The shapes of tokens

How the tokens of each kind look, said without the way in which they are looked for
(`TokenKind.Shape`). What is found at the front of a text has the shape (`shape_of_lexeme?`), and
goes on at least as far as anything else that has it (`exists_lexeme?_of_shape`). So looking for a
lexeme comes to the longest beginning of the text with the shape (`lexeme?_eq_some_iff`).
-/

namespace Repartee.Pattern

open Repartee.Unicode Grammar

namespace TokenKind

/-- How the tokens of a kind look. -/
inductive Shape : TokenKind → List Char → Prop
  | wildcard (words : WordClass) {count} (digits : ∀ d ∈ count, isDecimal d = true) :
      Shape .wildcard (words.symbol :: count)
  | range (words : WordClass) {lower upper} (least : ∀ d ∈ lower, isDecimal d = true)
      (most : ∀ d ∈ upper, isDecimal d = true) :
      Shape .wildcard (words.symbol :: (lower ++ '~' :: upper))
  | memo : Shape .memo ['_']
  | word {cs} (word : Word cs) : Shape .word cs
  | space {cs} (some : cs ≠ []) (blank : ∀ c ∈ cs, isBlank c = true) : Shape .space cs
  | reference (table : VariableKind) {cs} (name : Name cs) :
      Shape .reference ('%' :: table.letter :: ':' :: cs)
  | optional : Shape .optional ['[']
  | group : Shape .group ['(']
  | terminator (bracket : Bracket) : Shape .terminator [bracket.closer]
  | pipe : Shape .pipe ['|']

/-- The longest beginning of the text that has the shape of the kind. -/
structure Longest (kind : TokenKind) (lexeme text : List Char) : Prop where
  front : lexeme <+: text
  shape : kind.Shape lexeme
  longest : ∀ other, other <+: text → kind.Shape other → other.length ≤ lexeme.length

theorem Shape.ne_nil {kind : TokenKind} {lexeme : List Char} (h : kind.Shape lexeme) :
    lexeme ≠ [] := by
  cases h with
  | word word => exact word.ne_nil
  | space some _ => exact some
  | _ => exact List.cons_ne_nil _ _

end TokenKind

/-! ## Stretches of characters -/

section Stop

variable {p : Char → Bool} {cs rest : List Char} (h : ∀ c ∈ cs, p c = true)
  (stop : ∀ c ∈ rest.head?, p c = false)

include stop in
theorem takeWhile_stop : rest.takeWhile p = [] := by
  cases rest with
  | nil => rfl
  | cons c cs => rw [List.takeWhile_cons, if_neg (by rw [stop c rfl]; exact Bool.false_ne_true)]

include h stop in
theorem takeWhile_append_stop : (cs ++ rest).takeWhile p = cs := by
  rw [List.takeWhile_append_of_pos h, takeWhile_stop stop, List.append_nil]

include h stop in
theorem dropWhile_append_stop : (cs ++ rest).dropWhile p = rest := by
  rw [List.dropWhile_append_of_pos h]
  cases rest with
  | nil => rfl
  | cons c cs => rw [List.dropWhile_cons, if_neg (by rw [stop c rfl]; exact Bool.false_ne_true)]

include h in
theorem isPrefix_takeWhile (rest : List Char) : cs <+: (cs ++ rest).takeWhile p :=
  ⟨rest.takeWhile p, (List.takeWhile_append_of_pos h).symm⟩

end Stop

/-! ## The search for a lexeme -/

section Search

variable {kind : TokenKind} {c : Char} {cs lexeme : List Char}

theorem isWildcardSymbol_symbol (words : WordClass) : isWildcardSymbol words.symbol = true := by
  cases words <;> rfl

theorem exists_symbol_of_isWildcardSymbol (h : isWildcardSymbol c = true) :
    ∃ words : WordClass, words.symbol = c := by
  simp only [isWildcardSymbol, Bool.or_eq_true, beq_iff_eq] at h
  obtain (rfl | rfl) | rfl := h
  · exact ⟨.any, rfl⟩
  · exact ⟨.digits, rfl⟩
  · exact ⟨.letters, rfl⟩

theorem isKindLetter_letter (table : VariableKind) :
    (table.letter == 'a' || table.letter == 'b' || table.letter == 'u') = true := by
  cases table <;> rfl

theorem wildcardCounts_isPrefix (cs : List Char) : wildcardCounts cs <+: cs := by
  unfold wildcardCounts
  split
  · rename_i ds hds
    refine ⟨ds.dropWhile isDecimal, ?_⟩
    rw [List.append_assoc, List.cons_append, List.takeWhile_append_dropWhile, ← hds,
      List.takeWhile_append_dropWhile]
  · exact List.takeWhile_prefix _

theorem takeWhile_isPrefix_wildcardCounts (cs : List Char) :
    cs.takeWhile isDecimal <+: wildcardCounts cs := by
  unfold wildcardCounts
  split
  · exact List.prefix_append _ _
  · exact List.prefix_rfl

/-- A tilde behind the digits makes a range. -/
theorem wildcardCounts_tilde {lower : List Char} (h : ∀ c ∈ lower, isDecimal c = true)
    (ds : List Char) :
    wildcardCounts (lower ++ '~' :: ds) = lower ++ '~' :: ds.takeWhile isDecimal := by
  have tilde : ∀ c ∈ ('~' :: ds).head?, isDecimal c = false := by
    intro c hc
    obtain rfl : '~' = c := Option.some.inj hc
    decide
  unfold wildcardCounts
  rw [dropWhile_append_stop h tilde, takeWhile_append_stop h tilde]
  rfl

theorem isPrefix_of_lexeme? {kind : TokenKind} {cs lexeme : List Char}
    (h : kind.lexeme? cs = some lexeme) : lexeme <+: cs ∧ lexeme ≠ [] := by
  unfold TokenKind.lexeme? at h
  split at h <;> simp only [Option.ite_none_right_eq_some, Option.some.injEq, reduceCtorEq] at h <;>
    obtain ⟨-, rfl⟩ := h <;> refine ⟨?_, List.cons_ne_nil _ _⟩
  all_goals simp [List.takeWhile_prefix, wildcardCounts_isPrefix]

theorem shape_wildcardCounts (words : WordClass) (cs : List Char) :
    TokenKind.Shape .wildcard (words.symbol :: wildcardCounts cs) := by
  unfold wildcardCounts
  split
  · exact .range words (fun d hd => List.mem_takeWhile_imp hd) fun d hd => List.mem_takeWhile_imp hd
  · exact .wildcard words fun d hd => List.mem_takeWhile_imp hd

theorem shape_of_lexeme? (h : kind.lexeme? cs = some lexeme) : kind.Shape lexeme := by
  obtain ⟨hfront, hne⟩ := isPrefix_of_lexeme? h
  obtain ⟨c, cs, rfl⟩ := List.exists_cons_of_ne_nil (hfront.ne_nil hne)
  cases kind with
  | wildcard =>
    simp only [TokenKind.lexeme?, Option.ite_none_right_eq_some, Option.some.injEq] at h
    obtain ⟨hsymbol, rfl⟩ := h
    obtain ⟨words, rfl⟩ := exists_symbol_of_isWildcardSymbol hsymbol
    exact shape_wildcardCounts words cs
  | memo =>
    simp only [TokenKind.lexeme?, Option.ite_none_right_eq_some, Option.some.injEq] at h
    obtain ⟨rfl, rfl⟩ := h
    exact .memo
  | word =>
    simp only [TokenKind.lexeme?, Option.ite_none_right_eq_some, Option.some.injEq] at h
    obtain ⟨hstart, rfl⟩ := h
    refine .word (.mk (isWordChar_of_startsWord hstart) (ne_underscore_of_startsWord hstart) ?_)
    intro d hd
    have hcontinues : continuesWord d = true := List.mem_takeWhile_imp hd
    exact (Bool.or_eq_true_iff.mp hcontinues).imp_right beq_iff_eq.mp
  | space =>
    simp only [TokenKind.lexeme?, Option.ite_none_right_eq_some, Option.some.injEq] at h
    obtain ⟨hblank, rfl⟩ := h
    exact .space (List.cons_ne_nil _ _)
      (List.forall_mem_cons.mpr ⟨hblank, fun d hd => List.mem_takeWhile_imp hd⟩)
  | reference =>
    unfold TokenKind.lexeme? at h
    split at h <;> simp only [Option.ite_none_right_eq_some, Option.some.injEq, reduceCtorEq,
      Bool.and_eq_true, Bool.or_eq_true, beq_iff_eq] at h
    all_goals try contradiction
    rename_i k first rest _ _
    obtain ⟨⟨hkind, hletter⟩, rfl⟩ := h
    have name : Name (first :: rest.takeWhile isWordChar) :=
      .mk hletter fun d hd => List.mem_takeWhile_imp hd
    obtain (rfl | rfl) | rfl := hkind
    · exact .reference .alternate name
    · exact .reference .bot name
    · exact .reference .user name
  | optional =>
    simp only [TokenKind.lexeme?, Option.ite_none_right_eq_some, Option.some.injEq] at h
    obtain ⟨rfl, rfl⟩ := h
    exact .optional
  | group =>
    simp only [TokenKind.lexeme?, Option.ite_none_right_eq_some, Option.some.injEq] at h
    obtain ⟨rfl, rfl⟩ := h
    exact .group
  | terminator =>
    simp only [TokenKind.lexeme?, Option.ite_none_right_eq_some, Option.some.injEq, isTerminator,
      Bool.or_eq_true, beq_iff_eq] at h
    obtain ⟨rfl | rfl, rfl⟩ := h
    · exact .terminator .optional
    · exact .terminator .group
  | pipe =>
    simp only [TokenKind.lexeme?, Option.ite_none_right_eq_some, Option.some.injEq] at h
    obtain ⟨rfl, rfl⟩ := h
    exact .pipe
  | invalid => cases h

/-- Where a text begins with the shape, a lexeme is found that goes on at least as far. -/
theorem exists_lexeme?_of_shape (h : kind.Shape lexeme) (rest : List Char) :
    ∃ found, kind.lexeme? (lexeme ++ rest) = some found ∧ lexeme <+: found := by
  cases h with
  | @wildcard words count digits =>
    have hcount := (isPrefix_takeWhile digits rest).trans (takeWhile_isPrefix_wildcardCounts _)
    exact ⟨_, if_pos (isWildcardSymbol_symbol words), List.cons_prefix_cons.mpr ⟨rfl, hcount⟩⟩
  | @range words lower upper least most =>
    have hcounts : lower ++ '~' :: upper <+: wildcardCounts (lower ++ '~' :: upper ++ rest) := by
      rw [List.append_assoc, List.cons_append, wildcardCounts_tilde least]
      exact (List.prefix_append_right_inj lower).mpr
        (List.cons_prefix_cons.mpr ⟨rfl, isPrefix_takeWhile most rest⟩)
    exact ⟨_, if_pos (isWildcardSymbol_symbol words), List.cons_prefix_cons.mpr ⟨rfl, hcounts⟩⟩
  | memo => exact ⟨_, rfl, List.prefix_rfl⟩
  | word word =>
    obtain ⟨first, mark, tail⟩ := word
    have hstart := Bool.and_eq_true_iff.mpr ⟨first, bne_iff_ne.mpr mark⟩
    have hgo := isPrefix_takeWhile (p := continuesWord)
      (fun d hd => Bool.or_eq_true_iff.mpr ((tail d hd).imp_right beq_iff_eq.mpr)) rest
    exact ⟨_, if_pos hstart, List.cons_prefix_cons.mpr ⟨rfl, hgo⟩⟩
  | space some blank =>
    obtain ⟨c, cs, rfl⟩ := List.exists_cons_of_ne_nil some
    obtain ⟨hblank, hblanks⟩ := List.forall_mem_cons.mp blank
    exact ⟨_, if_pos hblank, List.cons_prefix_cons.mpr ⟨rfl, isPrefix_takeWhile hblanks rest⟩⟩
  | reference table name =>
    obtain ⟨first, tail⟩ := name
    have hfront := Bool.and_eq_true_iff.mpr ⟨isKindLetter_letter table, first⟩
    exact ⟨_, if_pos hfront, by simpa using isPrefix_takeWhile tail rest⟩
  | optional => exact ⟨_, rfl, List.prefix_rfl⟩
  | group => exact ⟨_, rfl, List.prefix_rfl⟩
  | terminator bracket => cases bracket <;> exact ⟨_, rfl, List.prefix_rfl⟩
  | pipe => exact ⟨_, rfl, List.prefix_rfl⟩

/-- What is found is the longest lexeme, and nothing is found only where there is none. -/
theorem lexeme?_eq_some_iff : kind.lexeme? cs = some lexeme ↔ kind.Longest lexeme cs := by
  constructor
  · intro h
    refine ⟨(isPrefix_of_lexeme? h).1, shape_of_lexeme? h, ?_⟩
    rintro other ⟨rest, rfl⟩ hshape
    obtain ⟨found, hfound, hle⟩ := exists_lexeme?_of_shape hshape rest
    obtain rfl := Option.some.inj (hfound.symm.trans h)
    exact hle.length_le
  · rintro ⟨⟨rest, rfl⟩, hshape, hlongest⟩
    obtain ⟨found, hfound, hle⟩ := exists_lexeme?_of_shape hshape rest
    have hlength := hlongest found (isPrefix_of_lexeme? hfound).1 (shape_of_lexeme? hfound)
    rw [hfound, hle.eq_of_length_le hlength]

end Search

end Repartee.Pattern
