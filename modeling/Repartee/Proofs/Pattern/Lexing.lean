import Repartee.Proofs.Pattern.Counts
import Repartee.Proofs.Pattern.Lexeme

/-!
# Cutting a text into tokens

The first character of a text decides which kind of token can stand there (`kindAt`), so the order
in which the kinds are tried has no bearing on the result. `Lexes enabled kind lexeme rest` says
that `lexeme` is the token at the front of `lexeme ++ rest`; either there is such a token, or one
character is invalid (`tokens_cons`). For each kind, `lexes_*` and `*_of_lexes` tie this to the
grammar.
-/

namespace Repartee.Pattern

open Repartee.Unicode Repartee.Text

/-! ## The kind of a token -/

/-- The kind of token that can begin with the character. -/
def kindAt (c : Char) : TokenKind :=
  if isWildcardSymbol c then .wildcard
  else if c = '_' then .memo
  else if startsWord c then .word
  else if isBlank c then .space
  else if c = '%' then .reference
  else if c = '[' then .optional
  else if isTerminator c then .terminator
  else if c = '(' then .group
  else if c = '|' then .pipe
  else .invalid

theorem isWildcardSymbol_of_isWordChar {c : Char} (h : isWordChar c = true) :
    isWildcardSymbol c = false := by
  cases hs : isWildcardSymbol c with
  | false => rfl
  | true =>
    have hmark : isMark c = true := by simp [isMark, hs]
    rw [isWordChar_of_isMark hmark] at h
    cases h

theorem isWildcardSymbol_of_isBlank {c : Char} (h : isBlank c = true) :
    isWildcardSymbol c = false := by
  cases hs : isWildcardSymbol c with
  | false => rfl
  | true =>
    have hmark : isMark c = true := by simp [isMark, hs]
    rw [isBlank_of_isMark hmark] at h
    cases h

theorem kindAt_of_startsWord {c : Char} (h : startsWord c = true) : kindAt c = .word := by
  have hsymbol := isWildcardSymbol_of_isWordChar (isWordChar_of_startsWord h)
  simp [kindAt, hsymbol, ne_underscore_of_startsWord h, h]

theorem kindAt_of_isBlank {c : Char} (h : isBlank c = true) : kindAt c = .space := by
  have hword : isWordChar c = false := isWordChar_of_isBlank h
  have hunderscore : c ≠ '_' := by
    rintro rfl
    exact absurd hword (by decide)
  simp [kindAt, startsWord, isWildcardSymbol_of_isBlank h, hunderscore, hword, h]

theorem kindAt_of_isTerminator {c : Char} (h : isTerminator c = true) :
    kindAt c = .terminator := by
  simp only [isTerminator, Bool.or_eq_true, beq_iff_eq] at h
  rcases h with rfl | rfl <;> decide

theorem kindAt_of_shape {kind : TokenKind} {c : Char} {cs : List Char}
    (h : kind.Shape (c :: cs)) : kindAt c = kind := by
  cases h with
  | wildcard words _ => cases words <;> decide
  | range words _ _ => cases words <;> decide
  | word word =>
    obtain ⟨first, mark, -⟩ := word
    exact kindAt_of_startsWord (Bool.and_eq_true_iff.mpr ⟨first, bne_iff_ne.mpr mark⟩)
  | space _ blank => exact kindAt_of_isBlank (blank c List.mem_cons_self)
  | terminator bracket => cases bracket <;> decide
  | _ => decide

theorem kindAt_of_lexeme? {kind : TokenKind} {c : Char} {cs lexeme : List Char}
    (h : kind.lexeme? (c :: cs) = some lexeme) : kindAt c = kind := by
  obtain ⟨hfront, hne⟩ := isPrefix_of_lexeme? h
  obtain ⟨d, lexeme, rfl⟩ := List.exists_cons_of_ne_nil hne
  obtain ⟨rfl, -⟩ := List.cons_prefix_cons.mp hfront
  exact kindAt_of_shape (shape_of_lexeme? h)

theorem accept?_eq_none_of_ne {kind : TokenKind} {c : Char} (h : kindAt c ≠ kind)
    (cs : List Char) : kind.accept? (c :: cs) = none := by
  unfold TokenKind.accept?
  cases hl : kind.lexeme? (c :: cs) with
  | none => rfl
  | some lexeme => exact absurd (kindAt_of_lexeme? hl) h

theorem findSome?_eq_of_unique {α β : Type} {f : α → Option β} {a : α} {l : List α}
    (other : ∀ x, x ≠ a → f x = none) (ha : a ∈ l ∨ f a = none) : l.findSome? f = f a := by
  induction l with
  | nil =>
    rcases ha with ha | ha
    · cases ha
    · rw [ha]
      rfl
  | cons x xs ih =>
    rw [List.findSome?_cons]
    by_cases hx : x = a
    · rw [hx]
      cases hf : f a with
      | some b => rfl
      | none => exact (ih (Or.inr hf)).trans hf
    · rw [other x hx]
      refine ih (ha.imp_left fun ha => ?_)
      exact (List.mem_cons.mp ha).resolve_left fun h => hx h.symm

/-- The token at the front of `c :: cs` if the kinds are tried in this order. -/
def frontTokenIn (order : List TokenKind) (enabled : TokenSet) (c : Char) (cs : List Char) :
    TokenKind × List Char :=
  let found := order.findSome? fun kind =>
    if enabled.contains kind then (kind.accept? (c :: cs)).map fun lexeme => (kind, lexeme)
    else none
  found.getD (.invalid, [c])

/-- Only the kind that begins with the character is of interest, whatever is tried before it. -/
theorem frontTokenIn_eq {order : List TokenKind} (all : ∀ kind ≠ .invalid, kind ∈ order)
    (enabled : TokenSet) (c : Char) (cs : List Char) :
    frontTokenIn order enabled c cs =
      (if enabled.contains (kindAt c) then
        ((kindAt c).accept? (c :: cs)).map fun lexeme => (kindAt c, lexeme)
      else none).getD (.invalid, [c]) := by
  unfold frontTokenIn
  rw [findSome?_eq_of_unique (a := kindAt c)]
  · intro kind hne
    rw [accept?_eq_none_of_ne (Ne.symm hne)]
    split <;> rfl
  · by_cases hkind : kindAt c = .invalid
    · rw [hkind]
      exact Or.inr (by split <;> rfl)
    · exact Or.inl (all _ hkind)

theorem mem_kindsInOrder {kind : TokenKind} (h : kind ≠ .invalid) : kind ∈ kindsInOrder := by
  cases kind with
  | invalid => exact absurd rfl h
  | _ => decide

theorem frontToken_eq (enabled : TokenSet) (c : Char) (cs : List Char) :
    frontToken enabled c cs =
      (if enabled.contains (kindAt c) then
        ((kindAt c).accept? (c :: cs)).map fun lexeme => (kindAt c, lexeme)
      else none).getD (.invalid, [c]) :=
  frontTokenIn_eq (fun _ => mem_kindsInOrder) enabled c cs

/-! ## Tokens at the front of a text -/

/-- `lexeme` is the token of this kind at the front of `lexeme ++ rest`. -/
structure Lexes (enabled : TokenSet) (kind : TokenKind) (lexeme rest : List Char) : Prop where
  enabled : kind ∈ enabled
  shape : kind.lexeme? (lexeme ++ rest) = some lexeme
  fits : kind.fits rest = true

theorem shape_of_lexes {enabled : TokenSet} {kind : TokenKind} {lexeme rest : List Char}
    (h : Lexes enabled kind lexeme rest) : kind.Shape lexeme :=
  shape_of_lexeme? h.shape

theorem Lexes.ne_nil {enabled : TokenSet} {kind : TokenKind} {lexeme rest : List Char}
    (h : Lexes enabled kind lexeme rest) : lexeme ≠ [] :=
  (shape_of_lexes h).ne_nil

theorem tokensAfter_append (enabled : TokenSet) (taken rest : List Char) :
    tokensAfter enabled taken.length (taken ++ rest) = tokensAfter enabled 0 rest := by
  induction taken with
  | nil => rfl
  | cons c taken ih =>
    rw [List.length_cons, List.cons_append, tokensAfter]
    exact ih

theorem frontToken_of_lexes {enabled : TokenSet} {kind : TokenKind} {c : Char}
    {lexeme rest : List Char} (h : Lexes enabled kind (c :: lexeme) rest) :
    frontToken enabled c (lexeme ++ rest) = (kind, c :: lexeme) := by
  have hshape := h.shape
  rw [List.cons_append] at hshape
  have hdrop : (c :: (lexeme ++ rest)).drop (c :: lexeme).length = rest := by
    rw [← List.cons_append, List.drop_left]
  have haccept : kind.accept? (c :: (lexeme ++ rest)) = some (c :: lexeme) := by
    rw [TokenKind.accept?, hshape, Option.filter_some, hdrop, if_pos h.fits]
  have henabled : enabled.contains kind = true := List.contains_iff_mem.mpr h.enabled
  rw [frontToken_eq, kindAt_of_lexeme? hshape, if_pos henabled, haccept]
  rfl

theorem tokens_of_lexes {enabled : TokenSet} {kind : TokenKind} {lexeme rest : List Char}
    (h : Lexes enabled kind lexeme rest) :
    tokensAfter enabled 0 (lexeme ++ rest) =
      ⟨kind, String.ofList lexeme⟩ :: tokensAfter enabled 0 rest := by
  obtain ⟨c, lexeme, rfl⟩ := List.exists_cons_of_ne_nil h.ne_nil
  rw [List.cons_append, tokensAfter, frontToken_of_lexes h]
  exact congrArg _ (tokensAfter_append enabled lexeme rest)

/-- A text that is not empty has a token at the front, or its first character is invalid. -/
theorem tokens_cons (enabled : TokenSet) (c : Char) (cs : List Char) :
    (∃ kind lexeme rest, c :: cs = lexeme ++ rest ∧ Lexes enabled kind lexeme rest) ∨
      tokensAfter enabled 0 (c :: cs) =
        ⟨.invalid, String.ofList [c]⟩ :: tokensAfter enabled 0 cs := by
  cases hfound : (if enabled.contains (kindAt c) then (kindAt c).accept? (c :: cs) else none) with
  | some lexeme =>
    obtain ⟨henabled, haccept⟩ := Option.ite_none_right_eq_some.mp hfound
    obtain ⟨hlexeme, hfits⟩ := Option.filter_eq_some_iff.mp haccept
    obtain ⟨rest, hrest⟩ := (isPrefix_of_lexeme? hlexeme).1
    rw [← hrest] at hlexeme hfits
    rw [List.drop_left] at hfits
    exact Or.inl ⟨kindAt c, lexeme, rest, hrest.symm, List.contains_iff_mem.mp henabled, hlexeme,
      hfits⟩
  | none =>
    refine Or.inr ?_
    have hfront : frontToken enabled c cs = (.invalid, [c]) := by
      rw [frontToken_eq]
      split at hfound
      · rename_i henabled
        rw [if_pos henabled, hfound]
        rfl
      · rename_i henabled
        rw [if_neg henabled]
        rfl
    rw [tokensAfter, hfront]
    rfl

/-! ## Tokens of the grammar -/

open Grammar

variable {enabled : TokenSet} {cs lexeme rest : List Char}

theorem lexes_word (kind : .word ∈ enabled) (h : Word cs) (hrest : atDelimiter rest = true) :
    Lexes enabled .word cs rest := by
  obtain ⟨first, mark, tail⟩ := h
  rename_i c cs
  refine ⟨kind, ?_, hrest⟩
  have hstart : startsWord c = true := Bool.and_eq_true_iff.mpr ⟨first, bne_iff_ne.mpr mark⟩
  have hgo : ∀ d ∈ cs, continuesWord d = true := fun d hd =>
    Bool.or_eq_true_iff.mpr ((tail d hd).imp_right beq_iff_eq.mpr)
  have hstop : ∀ d ∈ rest.head?, continuesWord d = false := fun d hd =>
    continuesWord_of_isDelimiter (atDelimiter_iff.mp hrest d hd)
  rw [List.cons_append, TokenKind.lexeme?, if_pos hstart, takeWhile_append_stop hgo hstop]

theorem word_of_lexes (h : Lexes enabled .word lexeme rest) :
    Word lexeme ∧ atDelimiter rest = true := by
  cases shape_of_lexes h with
  | word word => exact ⟨word, h.fits⟩

theorem lexes_space (h : Blanks enabled cs) (hcs : cs ≠ [])
    (hrest : ∀ c ∈ rest.head?, isBlank c = false) : Lexes enabled .space cs rest := by
  obtain ⟨c, cs, rfl⟩ := List.exists_cons_of_ne_nil hcs
  refine ⟨h.enabled hcs, ?_, rfl⟩
  have hblank : isBlank c = true := h.blank c List.mem_cons_self
  have htake := takeWhile_append_stop (p := isBlank)
    (fun d hd => h.blank d (List.mem_cons_of_mem _ hd)) hrest
  rw [List.cons_append, TokenKind.lexeme?, if_pos hblank, htake]

theorem blanks_of_lexes (h : Lexes enabled .space lexeme rest) : Blanks enabled lexeme := by
  cases shape_of_lexes h with
  | space _ blank => exact ⟨blank, fun _ => h.enabled⟩

theorem Grammar.Counts.shape {min : Nat} {max : Option Nat} (h : Counts cs min max) :
    (∀ c ∈ cs, c.isDigit = true) ∨
      ∃ lower upper, cs = lower ++ '~' :: upper ∧ (∀ c ∈ lower, c.isDigit = true) ∧
        ∀ c ∈ upper, c.isDigit = true := by
  have nothing : ∀ c ∈ ([] : List Char), c.isDigit = true := fun _ h => absurd h List.not_mem_nil
  cases h with
  | none => exact Or.inl nothing
  | exact count => exact Or.inl count.digits
  | range => exact Or.inr ⟨[], [], rfl, nothing, nothing⟩
  | atLeast lower => exact Or.inr ⟨_, [], rfl, lower.digits, nothing⟩
  | atMost upper => exact Or.inr ⟨[], _, rfl, nothing, upper.digits⟩
  | between lower upper => exact Or.inr ⟨_, _, rfl, lower.digits, upper.digits⟩

theorem wildcardCounts_append {min : Nat} {max : Option Nat} (h : Counts cs min max)
    (hrest : atDelimiter rest = true) : wildcardCounts (cs ++ rest) = cs := by
  have stop : ∀ c ∈ rest.head?, isDecimal c = false := fun c hc =>
    isDecimal_of_isDelimiter (atDelimiter_iff.mp hrest c hc)
  rcases h.shape with hdigits | ⟨lower, upper, rfl, hlower, hupper⟩
  · have hdecimal : ∀ c ∈ cs, isDecimal c = true := fun c hc => isDecimal_of_isDigit (hdigits c hc)
    unfold wildcardCounts
    rw [dropWhile_append_stop hdecimal stop, takeWhile_append_stop hdecimal stop]
    split
    · exact absurd rfl (ne_of_isDelimiter (atDelimiter_iff.mp hrest '~' rfl) (by decide))
    · rfl
  · have hdecimal : ∀ c ∈ lower, isDecimal c = true := fun c hc =>
      isDecimal_of_isDigit (hlower c hc)
    rw [List.append_assoc, List.cons_append, wildcardCounts_tilde hdecimal,
      takeWhile_append_stop (fun c hc => isDecimal_of_isDigit (hupper c hc)) stop]

theorem lexes_wildcard {min : Nat} {max : Option Nat} (kind : .wildcard ∈ enabled)
    (words : WordClass) (h : Counts cs min max) (hrest : atDelimiter rest = true) :
    Lexes enabled .wildcard (words.symbol :: cs) rest := by
  refine ⟨kind, ?_, hrest⟩
  rw [List.cons_append, TokenKind.lexeme?, if_pos (isWildcardSymbol_symbol words),
    wildcardCounts_append h hrest]

theorem lexes_reference (kind : .reference ∈ enabled) (table : VariableKind) (h : Name cs)
    (hrest : atDelimiter rest = true) :
    Lexes enabled .reference ('%' :: table.letter :: ':' :: cs) rest := by
  obtain ⟨first, tail⟩ := h
  have htake := takeWhile_append_stop (p := isWordChar) tail fun d hd =>
    isWordChar_of_isDelimiter (atDelimiter_iff.mp hrest d hd)
  refine ⟨kind, ?_, hrest⟩
  simp only [List.cons_append, TokenKind.lexeme?]
  rw [isKindLetter_letter, first, htake]
  rfl

theorem lexes_memo (kind : .memo ∈ enabled) (hrest : atMemoTarget rest = true) :
    Lexes enabled .memo ['_'] rest :=
  ⟨kind, rfl, hrest⟩

theorem lexes_opener (bracket : Bracket) (kind : bracket.kind ∈ enabled) :
    Lexes enabled bracket.kind [bracket.opener] rest := by
  refine ⟨kind, ?_, ?_⟩ <;> cases bracket <;> rfl

theorem lexes_closer (bracket : Bracket) (kind : .terminator ∈ enabled)
    (hrest : atDelimiter rest = true) : Lexes enabled .terminator [bracket.closer] rest := by
  refine ⟨kind, ?_, hrest⟩
  cases bracket <;> rfl

theorem lexes_pipe (kind : .pipe ∈ enabled) : Lexes enabled .pipe ['|'] rest :=
  ⟨kind, rfl, rfl⟩

theorem kindAt_of_lexes {kind : TokenKind} {c : Char} (h : Lexes enabled kind (c :: cs) rest) :
    kindAt c = kind :=
  kindAt_of_shape (shape_of_lexes h)

end Repartee.Pattern
