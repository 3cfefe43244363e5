import Repartee.Proofs.Pattern.Dependence
import Repartee.Proofs.Pattern.Recognition
import Repartee.Proofs.Pattern.Soundness
import Repartee.Proofs.Target
import Repartee.Proofs.Text.Layout

/-!
# Literal patterns

A text that is cut into word tokens and white space alone is laid out as words of the grammar
(`exists_spaced_of_tokens`), and is read as these words in a row (`parse?_of_spaced`). As a message
it has the same words without their hyphens, which a pattern may have but a normal text has not. So
such a pattern matches its own text, in any layout, exactly if there is no hyphen in it
(`isMatch_own_text_iff`).
-/

namespace Repartee.Pattern

open Repartee.Unicode Repartee.Text Grammar

section Tokens

variable {enabled : TokenSet}

/-! ## From tokens to words -/

theorem isBlank_of_kindAt {c : Char} (hc : isDelimiter c = true)
    (h : kindAt c = .word ∨ kindAt c = .space) : isBlank c = true := by
  rw [isDelimiter, Bool.or_eq_true, Bool.or_eq_true, beq_iff_eq] at hc
  rcases hc with (hc | rfl) | hc
  · rw [kindAt_of_isTerminator hc] at h
    simp at h
  · exact absurd h (by decide)
  · exact hc

/-- In front of a word or of white space, what ends a token is white space. -/
theorem atGap_of_atDelimiter {cs : List Char} (hcs : atDelimiter cs = true)
    (h : ∀ t ∈ tokensAfter enabled 0 cs, t.kind = .word ∨ t.kind = .space) : AtGap cs := by
  intro c hc
  refine isBlank_of_kindAt (atDelimiter_iff.mp hcs c hc) ?_
  obtain ⟨rest, rfl⟩ := List.head?_eq_some_iff.mp hc
  rcases tokens_cons enabled c rest with ⟨kind, lexeme, rest', hcut, token⟩ | hinvalid
  · obtain ⟨d, lexeme, rfl⟩ := List.exists_cons_of_ne_nil token.ne_nil
    obtain ⟨rfl, -⟩ := List.cons.inj hcut
    rw [hcut, tokens_of_lexes token] at h
    rw [kindAt_of_lexes token]
    exact h _ List.mem_cons_self
  · have hfirst := h _ (hinvalid ▸ List.mem_cons_self)
    simp at hfirst

/-- A text that is cut into word tokens and white space is made up of words of the grammar. -/
theorem exists_spaced_of_tokens {cs : List Char}
    (h : ∀ t ∈ tokensAfter enabled 0 cs, t.kind = .word ∨ t.kind = .space) :
    ∃ ws, Spaced cs ws ∧ (∀ w ∈ ws, Word w) ∧
      ((∃ t ∈ tokensAfter enabled 0 cs, t.kind = .word) → ws ≠ []) := by
  induction hlength : cs.length using Nat.strong_induction_on generalizing cs with
  | _ n ih =>
    cases cs with
    | nil => exact ⟨[], .nil, fun w hw => absurd hw List.not_mem_nil, fun ⟨t, ht, _⟩ => by cases ht⟩
    | cons c cs =>
      rcases tokens_cons enabled c cs with ⟨kind, lexeme, rest, hcut, token⟩ | hinvalid
      · rw [hcut, tokens_of_lexes token] at h ⊢
        obtain ⟨hkind, hrest⟩ := List.forall_mem_cons.mp h
        have hshorter : rest.length < n := by
          have hpos := List.length_pos_iff.mpr token.ne_nil
          rw [← hlength, hcut, List.length_append]
          omega
        obtain ⟨ws, hspaced, hwords, hsome⟩ := ih rest.length hshorter hrest rfl
        rcases hkind with rfl | rfl
        · obtain ⟨hword, hdelimited⟩ := word_of_lexes token
          exact ⟨lexeme :: ws, .word token.ne_nil hword.isBlank
            (atGap_of_atDelimiter hdelimited hrest) hspaced,
            List.forall_mem_cons.mpr ⟨hword, hwords⟩, fun _ => List.cons_ne_nil _ _⟩
        · refine ⟨ws, hspaced.append_blanks (blanks_of_lexes token).blank, hwords, ?_⟩
          rintro ⟨t, ht, hword⟩
          rcases List.mem_cons.mp ht with rfl | ht
          · cases hword
          · exact hsome ⟨t, ht, hword⟩
      · have hfirst := h _ (hinvalid ▸ List.mem_cons_self)
        simp at hfirst

end Tokens

/-! ## From words to trees -/

theorem Grammar.Blanks.snoc {blanks : List Char} (h : Blanks .full blanks) {c : Char}
    (hc : isBlank c = true) : Blanks .full (blanks ++ [c]) :=
  ⟨List.forall_mem_append.mpr ⟨h.blank, List.forall_mem_singleton.mpr hc⟩, fun _ => by decide⟩

/-- Words behind a sequence of items go on with it. -/
theorem Grammar.Items.derives_of_spaced {depth : Nat} {rest : List Char} {ws : List (List Char)}
    (h : Spaced rest ws) (hws : ∀ w ∈ ws, Word w) {cs blanks : List Char} {items : List Node}
    (before : Items .full depth cs items) (between : Blanks .full blanks)
    (apart : blanks = [] → AtGap rest) :
    Derives .full depth (cs ++ blanks ++ rest)
      (Sequence.ofItems (items ++ ws.map fun w => .words [String.ofList w])) := by
  induction h generalizing cs blanks items with
  | nil =>
    rw [List.append_nil, List.map_nil, List.append_nil]
    exact .mk before between
  | @blank c rest ws hc _ ih =>
    have hsnoc := ih hws before (between.snoc hc) fun hnil => by simp at hnil
    simpa using hsnoc
  | @word w rest ws hne solid gap _ ih =>
    obtain ⟨hw, hws⟩ := List.forall_mem_cons.mp hws
    have hblanks : blanks ≠ [] := fun hnil => not_atGap_append hne solid (apart hnil)
    have hlast := ih hws (before.next between hblanks (.word (by decide) hw)) blanks_nil
      fun _ => gap
    simpa using hlast

theorem derives_of_spaced {depth : Nat} {rest : List Char} {ws : List (List Char)}
    (h : Spaced rest ws) (hws : ∀ w ∈ ws, Word w) (hne : ws ≠ []) {blanks : List Char}
    (front : Blanks .full blanks) :
    Derives .full depth (blanks ++ rest)
      (Sequence.ofItems (ws.map fun w => .words [String.ofList w])) := by
  induction h generalizing blanks with
  | nil => exact absurd rfl hne
  | @blank c rest ws hc _ ih =>
    have hsnoc := ih hws hne (front.snoc hc)
    simpa using hsnoc
  | @word w rest ws _ _ gap hrest _ =>
    obtain ⟨hw, hws⟩ := List.forall_mem_cons.mp hws
    have hfirst : Items .full depth (blanks ++ w) [.words [String.ofList w]] :=
      .first front (.word (by decide) hw)
    have hall := hfirst.derives_of_spaced hrest hws blanks_nil fun _ => gap
    simpa using hall

theorem Sequence.ofItems_words {us : List String} (h : us ≠ []) :
    ofItems (us.map fun u => .words [u]) = [.words us] := by
  induction us with
  | nil => exact absurd rfl h
  | cons u us ih =>
    cases us with
    | nil => rfl
    | cons v vs =>
      rw [List.map_cons, ofItems, ih (List.cons_ne_nil v vs)]
      rfl

theorem parse?_of_spaced {text : String} {ws : List (List Char)}
    (h : Spaced (lower text).toList ws) (hws : ∀ w ∈ ws, Word w) (hne : ws ≠ []) :
    parse? .full text = .ok [.words (ws.map String.ofList)] := by
  have hne' : ws.map String.ofList ≠ [] := by simpa using hne
  have hleaves := Sequence.ofItems_words hne'
  rw [List.map_map] at hleaves
  rw [← hleaves]
  exact parse?_of_derives (derives_of_spaced h hws hne blanks_nil)

/-! ## Words without hyphens -/

theorem keepWordChars_ne_empty {cs : List Char} (h : Word cs) :
    keepWordChars (String.ofList cs) ≠ "" := by
  obtain ⟨first, -, -⟩ := h
  rw [keepWordChars, String.toList_ofList, List.filter_cons, if_pos first]
  exact fun hempty => List.cons_ne_nil _ _ (String.ofList_eq_empty_iff.mp hempty)

theorem keepWordChars_eq_self_iff {cs : List Char} (h : Word cs) :
    keepWordChars (String.ofList cs) = String.ofList cs ↔ '-' ∉ cs := by
  obtain ⟨first, -, rest⟩ := h
  rename_i c cs
  rw [keepWordChars, String.toList_ofList, String.ofList_inj, List.filter_eq_self]
  constructor
  · intro hkeep hmem
    exact absurd (hkeep '-' hmem) (by decide)
  · intro hhyphen d hd
    rcases List.mem_cons.mp hd with rfl | htail
    · exact first
    · refine (rest d htail).resolve_right ?_
      rintro rfl
      exact hhyphen hd

/-- The words of a normal text made of words of the grammar are these words but for the hyphens. -/
theorem normalWords_of_words {text : String} {ws : List (List Char)}
    (h : Spaced (lower text).toList ws) (hws : ∀ w ∈ ws, Word w) :
    normalWords text = (ws.map String.ofList).map keepWordChars := by
  have hlower : (words text).map lower = ws.map String.ofList := by
    rw [← words_lower, words, h.splitChars_eq]
  have hkeep : (words text).map (fun w => keepWordChars (lower w)) =
      (ws.map String.ofList).map keepWordChars := by
    rw [← hlower, List.map_map]
    rfl
  rw [normalWords, hkeep, List.filter_eq_self]
  intro w hw
  rw [List.map_map] at hw
  obtain ⟨cs, hcs, rfl⟩ := List.mem_map.mp hw
  simpa using keepWordChars_ne_empty (hws cs hcs)

/-- Words of the grammar have no hyphens in them exactly if the text that they make up has none. -/
theorem map_keepWordChars_eq_iff {cs : List Char} {ws : List (List Char)} (h : Spaced cs ws)
    (hws : ∀ w ∈ ws, Word w) :
    (ws.map String.ofList).map keepWordChars = ws.map String.ofList ↔ '-' ∉ cs := by
  rw [h.mem_iff (by decide), List.map_map, List.map_inj_left, List.mem_flatten]
  constructor
  · rintro hkeep ⟨w, hw, hhyphen⟩
    exact (keepWordChars_eq_self_iff (hws w hw)).mp (hkeep w hw) hhyphen
  · exact fun hhyphen w hw => (keepWordChars_eq_self_iff (hws w hw)).mpr fun h => hhyphen ⟨w, hw, h⟩

/-- A text that is cut into words and white space alone, with a word among them, can be read. If its
expression is not refused, then the text is accepted as a pattern, and the pattern matches the text,
in whatever layout, exactly if there is no hyphen in it: a hyphen is part of a word of a pattern,
but is left out of the words of a message. -/
theorem isMatch_own_text_iff [SizeLimit] {text : String}
    (literal : ∀ t ∈ Token.scan .full (lower text), t.kind = .word ∨ t.kind = .space)
    (nonempty : ∃ t ∈ Token.scan .full (lower text), t.kind = .word) (b : Bindings) :
    ∃ tree r, parse? .full text = .ok tree ∧ tree.regexWith b = .ok r ∧
      (SizeLimit.refuses r = true → Pattern.ofText? text b = .error .oversized) ∧
      (SizeLimit.refuses r = false → ∃ p, Pattern.ofText? text b = .ok p ∧
        ∀ now layout, words layout = words text →
          (p.isMatch now (Target.plain layout).normalized = true ↔
            '-' ∉ (lower text).toList)) := by
  obtain ⟨ws, hspaced, hws, hsome⟩ := exists_spaced_of_tokens literal
  have hread := parse?_of_spaced hspaced hws (hsome nonempty)
  obtain ⟨r, hr⟩ : ∃ r, Sequence.regexWith b [.words (ws.map String.ofList)] = .ok r := ⟨_, rfl⟩
  refine ⟨_, r, hread, hr, fun hrefuses => ?_, fun hbuilds => ?_⟩
  · rw [Pattern.ofText?, read?_eq hread, Sequence.compile_of_refuses hr hrefuses]
    rfl
  have hp : Pattern.ofText? text b =
      .ok (.ready text [.words (ws.map String.ofList)] r.factored) := by
    have hcompile := Sequence.compile_eq_ok_iff.mpr ⟨r, hr, hbuilds, rfl⟩
    rw [Pattern.ofText?, read?_eq hread, hcompile]
  refine ⟨_, hp, fun now layout hlayout => ?_⟩
  have hnormal : normalWords layout = (ws.map String.ofList).map keepWordChars := by
    rw [← normalWords_of_words hspaced hws, normalWords, hlayout, normalWords]
  rw [Target.normalized_plain, isMatch_unwords_iff hp now (fun h => by cases h)
    (fun h => by cases h) (fun w hw => isNormalWord_of_mem_normalWords hw)
    (fun _ tree htree => by cases htree; rfl), ← map_keepWordChars_eq_iff hspaced hws, ← hnormal]
  have hlanguage : ∀ (B : Bindings) (us : List String),
      us ∈ Sequence.language B.language [.words (ws.map String.ofList)] ↔
        us = ws.map String.ofList := by
    intro B us
    rw [Sequence.language, Sequence.language, mul_one]
    rfl
  constructor
  · exact fun hmem => (hlanguage _ _).mp (hmem _ rfl)
  · rintro heq tree ⟨⟩
    exact (hlanguage _ _).mpr heq

section Example

attribute [local instance] SizeLimit.byWeight

/-- A greeting in capitals is matched by itself with other white space between its words. -/
theorem isMatch_own_text_greeting :
    ∃ p, Pattern.ofText? "Hello there" {} = .ok p ∧
      p.isMatch {} (Target.plain " Hello  there\n").normalized = true := by
  obtain ⟨tree, r, hread, hr, -, haccepted⟩ :=
    @isMatch_own_text_iff _ "Hello there" (by decide) (by decide) {}
  obtain rfl : [.words ["hello", "there"]] = tree := Except.ok.inj hread
  cases hr
  obtain ⟨p, hp, hmatch⟩ := haccepted (SizeLimit.builds _ (by decide))
  exact ⟨p, hp, (hmatch {} " Hello  there\n" rfl).mpr (by decide)⟩

/-- A hyphenated word is read as a pattern and does not match itself. -/
theorem not_isMatch_own_text_hyphen :
    ¬∀ text, (∀ t ∈ Token.scan .full (lower text), t.kind = .word ∨ t.kind = .space) →
      (∃ t ∈ Token.scan .full (lower text), t.kind = .word) → ∀ b,
        ∃ p, Pattern.ofText? text b = .ok p ∧ ∀ now layout, words layout = words text →
          p.isMatch now (Target.plain layout).normalized = true := by
  intro h
  obtain ⟨p, hp, hmatch⟩ := h "well-known" (by decide) (by decide) {}
  obtain rfl : _ = p := Except.ok.inj ((rfl : Pattern.ofText? "well-known" {} = .ok
    (.ready "well-known" [.words ["well-known"]] _)).symm.trans hp)
  exact absurd (hmatch {} "well-known" rfl) (by decide)

end Example

end Repartee.Pattern
