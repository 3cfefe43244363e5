import Repartee.Proofs.Pattern.Lexing

/-!
# Tokens cover their text

The lexical rules of patterns, said without the way in which tokens are looked for:
`TokenKind.Shape` is how tokens of a kind look, and `TokenKind.Demands` what has to be behind them.
A rule applies at a place (`Applies`) if its kind is enabled, and the longest beginning of the text
with its shape has behind it what it demands; there is no shorter try.

This is what looking for a token comes down to (`lexeme?_eq_some_iff`, `lexes_iff`), so every token
of a text is one of a rule that applies, or a single character where none does (`covers_tokens`).
The rules are disjoint, since the first character decides between them (`kindAt_of_shape`).
-/

namespace Repartee.Pattern

open Repartee.Unicode Repartee.Text Grammar

/-! ## Lexical rules -/

namespace TokenKind

/-- What has to be behind a token of a kind: a delimiter or the end of the text, something that a
memo marker can stand before, or anything. -/
def Demands (kind : TokenKind) (rest : List Char) : Prop :=
  match kind with
  | wildcard | word | reference | terminator =>
    ∀ c ∈ rest.head?, c = ']' ∨ c = ')' ∨ c = '|' ∨ isBlank c = true
  | memo => ∃ c ∈ rest.head?, c ∈ ['*', '#', '@', '%', '(', '[']
  | space | optional | group | pipe | invalid => True

end TokenKind

/-- The rule of this kind takes `lexeme` from the text `lexeme ++ rest`. -/
structure Applies (enabled : TokenSet) (kind : TokenKind) (lexeme rest : List Char) : Prop where
  enabled : kind ∈ enabled
  longest : kind.Longest lexeme (lexeme ++ rest)
  demands : kind.Demands rest

section Rules

variable {kind : TokenKind} {cs lexeme rest : List Char}

/-- No two rules have a lexeme at the same place. -/
theorem kind_eq_of_shape {kind' : TokenKind} {lexeme' : List Char} (h : kind.Shape lexeme)
    (h' : kind'.Shape lexeme') (hfront : lexeme <+: cs) (hfront' : lexeme' <+: cs) :
    kind = kind' := by
  obtain ⟨rest, rfl⟩ := hfront
  obtain ⟨c, ds, rfl⟩ := List.exists_cons_of_ne_nil h.ne_nil
  obtain ⟨d, ds', rfl⟩ := List.exists_cons_of_ne_nil h'.ne_nil
  obtain ⟨rfl, -⟩ := List.cons_prefix_cons.mp hfront'
  exact (kindAt_of_shape h).symm.trans (kindAt_of_shape h')

theorem fits_iff : kind.fits rest = true ↔ kind.Demands rest := by
  have hdelimiter : ∀ c, isDelimiter c = true ↔ c = ']' ∨ c = ')' ∨ c = '|' ∨ isBlank c = true := by
    simp [isDelimiter, isTerminator, or_assoc]
  have htarget : atMemoTarget rest = true ↔
      ∃ c ∈ rest.head?, c ∈ ['*', '#', '@', '%', '(', '['] := by
    cases rest with
    | nil => simp [atMemoTarget]
    | cons c cs => simp [atMemoTarget, isWildcardSymbol, or_assoc]
  cases kind <;> simp [TokenKind.fits, TokenKind.Demands, atDelimiter_iff, hdelimiter, htarget]

theorem lexes_iff {enabled : TokenSet} :
    Lexes enabled kind lexeme rest ↔ Applies enabled kind lexeme rest :=
  ⟨fun h => ⟨h.enabled, lexeme?_eq_some_iff.mp h.shape, fits_iff.mp h.fits⟩,
    fun h => ⟨h.enabled, lexeme?_eq_some_iff.mpr h.longest, fits_iff.mpr h.demands⟩⟩

end Rules

/-! ## Whole texts -/

variable {enabled : TokenSet}

/-- The token stands in front of `rest`: a rule that applies takes it, or it is a single character
where none applies. -/
inductive Token.Stands (enabled : TokenSet) : Token → List Char → Prop
  | taken {kind lexeme rest} (applies : Applies enabled kind lexeme rest) :
      Stands enabled ⟨kind, String.ofList lexeme⟩ rest
  | invalid {c rest} (none : ∀ kind lexeme behind, lexeme ++ behind = c :: rest →
      ¬ Applies enabled kind lexeme behind) : Stands enabled ⟨.invalid, String.ofList [c]⟩ rest

/-- The text consists of these tokens. -/
inductive Covers (enabled : TokenSet) : List Char → List Token → Prop
  | nil : Covers enabled [] []
  | cons {t rest tokens} (front : t.Stands enabled rest) (others : Covers enabled rest tokens) :
      Covers enabled (t.text.toList ++ rest) (t :: tokens)

theorem Token.Stands.text_ne_empty {t : Token} {rest : List Char} (h : t.Stands enabled rest) :
    t.text ≠ "" := by
  cases h with
  | taken applies => exact String.ofList_eq_empty_iff.not.mpr applies.longest.shape.ne_nil
  | invalid => exact String.ofList_eq_empty_iff.not.mpr (List.cons_ne_nil _ [])

/-- The token in front of a text that is not empty. -/
theorem exists_stands (enabled : TokenSet) {cs : List Char} (hne : cs ≠ []) :
    ∃ t rest, t.Stands enabled rest ∧ cs = t.text.toList ++ rest ∧
      tokensAfter enabled 0 cs = t :: tokensAfter enabled 0 rest := by
  obtain ⟨c, cs, rfl⟩ := List.exists_cons_of_ne_nil hne
  by_cases hany : ∃ kind lexeme rest, lexeme ++ rest = c :: cs ∧ Applies enabled kind lexeme rest
  · obtain ⟨kind, lexeme, rest, hsplit, happlies⟩ := hany
    refine ⟨_, rest, .taken happlies, ?_, ?_⟩
    · rw [String.toList_ofList, hsplit]
    · rw [← hsplit, tokens_of_lexes (lexes_iff.mpr happlies)]
  · have hnone : ∀ kind lexeme rest, lexeme ++ rest = c :: cs →
        ¬ Applies enabled kind lexeme rest :=
      fun kind lexeme rest hsplit happlies => hany ⟨kind, lexeme, rest, hsplit, happlies⟩
    refine ⟨_, cs, .invalid hnone, ?_, ?_⟩
    · rw [String.toList_ofList, List.singleton_append]
    · refine (tokens_cons enabled c cs).resolve_left ?_
      rintro ⟨kind, lexeme, rest, hsplit, hlexes⟩
      exact hnone kind lexeme rest hsplit.symm (lexes_iff.mp hlexes)

theorem covers_tokens (enabled : TokenSet) (cs : List Char) :
    Covers enabled cs (tokensAfter enabled 0 cs) := by
  -- On the length, since what is left behind a token is not the tail of the text.
  induction hlength : cs.length using Nat.strong_induction_on generalizing cs with
  | _ n ih =>
    by_cases hne : cs = []
    · rw [hne]
      exact .nil
    · obtain ⟨t, rest, hstands, rfl, htokens⟩ := exists_stands enabled hne
      have hpos := List.length_pos_iff.mpr (String.toList_eq_nil_iff.not.mpr hstands.text_ne_empty)
      rw [List.length_append] at hlength
      rw [htokens]
      exact .cons hstands (ih rest.length (by omega) rest rfl)

namespace Covers

variable {cs : List Char} {tokens : List Token}

theorem toList_join (h : Covers enabled cs tokens) :
    (String.join (tokens.map Token.text)).toList = cs := by
  induction h with
  | nil => rfl
  | cons front others ih => rw [List.map_cons, String.join_cons, String.toList_append, ih]

theorem length_le (h : Covers enabled cs tokens) : tokens.length ≤ cs.length := by
  induction h with
  | nil => exact Nat.le_refl 0
  | cons front others ih =>
    have := List.length_pos_iff.mpr (String.toList_eq_nil_iff.not.mpr front.text_ne_empty)
    rw [List.length_cons, List.length_append]
    omega

theorem stands_of_split (h : Covers enabled cs tokens) {before after : List Token} {t : Token}
    (hsplit : tokens = before ++ t :: after) :
    t.Stands enabled (String.join (after.map Token.text)).toList := by
  induction h generalizing before with
  | nil => simp at hsplit
  | cons front others ih =>
    cases before with
    | nil =>
      obtain ⟨rfl, rfl⟩ := List.cons.inj hsplit
      rw [others.toList_join]
      exact front
    | cons u before => exact ih (List.cons.inj hsplit).2

end Covers

/-- The tokens of a text are no more than its characters, and put together they are the text. Each
of them is what a rule that applies takes, with the longest lexeme of its kind, or one character
where no rule applies. No two rules have a lexeme at the same place, so it makes no difference in
which order they are tried. -/
theorem tokens_cover_text (enabled : TokenSet) (text : String) :
    String.join ((Token.scan enabled text).map Token.text) = text ∧
    (Token.scan enabled text).length ≤ text.length ∧
    (∀ before t after, Token.scan enabled text = before ++ t :: after →
      let rest := (String.join (after.map Token.text)).toList
      t.text ≠ "" ∧
      (t.kind ≠ .invalid → Applies enabled t.kind t.text.toList rest) ∧
      (t.kind = .invalid → t.text.length = 1 ∧
        ∀ kind lexeme behind, lexeme ++ behind = t.text.toList ++ rest →
          ¬ Applies enabled kind lexeme behind)) ∧
    (∀ kind kind' lexeme lexeme' cs, TokenKind.Shape kind lexeme → TokenKind.Shape kind' lexeme' →
      lexeme <+: cs → lexeme' <+: cs → kind = kind') ∧
    ∀ order : List TokenKind, order.Perm kindsInOrder → ∀ c cs,
      frontTokenIn order enabled c cs = frontToken enabled c cs := by
  have hcovers := covers_tokens enabled text.toList
  refine ⟨String.toList_injective hcovers.toList_join, hcovers.length_le, ?_, ?_, ?_⟩
  · intro before t after hsplit rest
    have hstands : t.Stands enabled rest := hcovers.stands_of_split hsplit
    refine ⟨hstands.text_ne_empty, ?_⟩
    cases hstands with
    | taken applies =>
      rw [String.toList_ofList]
      refine ⟨fun _ => applies, ?_⟩
      rintro rfl
      cases applies.longest.shape
    | invalid none =>
      refine ⟨fun h => absurd rfl h, fun _ => ⟨String.length_ofList, ?_⟩⟩
      simpa using none
  · exact fun kind kind' lexeme lexeme' cs => kind_eq_of_shape
  · intro order hperm c cs
    rw [frontTokenIn_eq (fun kind hne => hperm.mem_iff.mpr (mem_kindsInOrder hne)), frontToken_eq]

/-- The digits go with the symbol, and neither the letter nor the mark behind it is a token of
some kind. -/
theorem tokens_cover_text_accent :
    Token.scan .full "_*2 é!" = [] ++ ⟨.memo, "_"⟩ :: [⟨.wildcard, "*2"⟩, ⟨.space, " "⟩,
        ⟨.invalid, "é"⟩, ⟨.invalid, "!"⟩] ∧
      Applies .full .memo ['_'] "*2 é!".toList := by
  have h : Token.scan .full "_*2 é!" = [] ++ ⟨.memo, "_"⟩ :: [⟨.wildcard, "*2"⟩, ⟨.space, " "⟩,
      ⟨.invalid, "é"⟩, ⟨.invalid, "!"⟩] := rfl
  exact ⟨h, ((tokens_cover_text .full "_*2 é!").2.2.1 _ _ _ h).2.1 (by decide)⟩

end Repartee.Pattern
