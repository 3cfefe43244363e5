import Repartee.Proofs.Text.Lower
import Repartee.Proofs.Text.Words
import Repartee.Unicode.Casing

/-!
# The layout of a text

A text is laid out as its words with white space around them (`Spaced`), and in no other way than as
the words that it is split into (`spaced_iff`). Lowercasing changes no white space and makes none,
and no character has its small letter decided by what is behind white space. So the lowercase form
of a text has the lowercase words of the text in the same layout (`words_lower`).
-/

namespace Repartee.Unicode

/-! ## White space and letter case -/

theorem blankRanges_apart_casedRanges : Apart blankRanges casedRanges = true := by
  decide

set_option maxRecDepth 10000 in
theorem blankRanges_apart_caseIgnorableRanges : Apart blankRanges caseIgnorableRanges = true := by
  decide

theorem caseRuns_apart_blankRanges :
    (caseRuns.all fun r => blankRanges.all fun s => r.last < s.1 || s.2 < r.first) = true := by
  decide

theorem caseRuns_images_apart_blankRanges :
    (caseRuns.all fun r => blankRanges.all fun s => r.lastImage < s.1 || s.2 < r.image) = true := by
  decide

theorem isCased_of_isBlank {c : Char} (h : isBlank c = true) : isCased c = false :=
  covers_eq_false_of_apart blankRanges_apart_casedRanges h

theorem isCaseIgnorable_of_isBlank {c : Char} (h : isBlank c = true) : isCaseIgnorable c = false :=
  covers_eq_false_of_apart blankRanges_apart_caseIgnorableRanges h

theorem lowerChar_of_isBlank {c : Char} (h : isBlank c = true) : lowerChar c = [c] := by
  have hdotted : c ≠ dottedCapitalI := by
    rintro rfl
    exact absurd h (by decide)
  obtain ⟨s, hs, hlo, hhi⟩ := mem_range_of_covers h
  cases hsmall : smallLetter? caseRuns c.toNat with
  | none => rw [lowerChar, if_neg hdotted, hsmall]
  | some m =>
    obtain ⟨r, hr, hfirst, hlast, -, -⟩ := run_of_smallLetter?_eq_some hsmall
    have key := List.all_eq_true.mp (List.all_eq_true.mp caseRuns_apart_blankRanges r hr) s hs
    simp only [Bool.or_eq_true, decide_eq_true_eq] at key
    omega

theorem isBlank_of_mem_lowerChar {c d : Char} (hc : isBlank c = false) (h : d ∈ lowerChar c) :
    isBlank d = false := by
  unfold lowerChar at h
  split at h
  · simp only [List.mem_cons, List.not_mem_nil, or_false] at h
    rcases h with rfl | rfl <;> decide
  · cases hsmall : smallLetter? caseRuns c.toNat with
    | none =>
      rw [hsmall] at h
      obtain rfl := List.mem_singleton.mp h
      exact hc
    | some m =>
      rw [hsmall] at h
      obtain rfl := List.mem_singleton.mp h
      obtain ⟨-, -, hval⟩ := smallLetter?_smallLetter hsmall
      obtain ⟨r, hr, hfirst, hlast, -, hm⟩ := run_of_smallLetter?_eq_some hsmall
      cases hblank : isBlank (Char.ofNat m) with
      | false => rfl
      | true =>
        obtain ⟨s, hs, hlo, hhi⟩ := mem_range_of_covers hblank
        have key := List.all_eq_true.mp
          (List.all_eq_true.mp caseRuns_images_apart_blankRanges r hr) s hs
        simp only [Bool.or_eq_true, decide_eq_true_eq] at key
        unfold CaseRun.lastImage at key
        omega

theorem lowerChar_ne_nil (c : Char) : lowerChar c ≠ [] := by
  unfold lowerChar
  split
  · exact List.cons_ne_nil _ _
  · split <;> exact List.cons_ne_nil _ _

end Repartee.Unicode

namespace Repartee.Text

open Repartee.Unicode

/-! ## Words and white space -/

/-- The text is at its end, or goes on with white space. -/
def AtGap (cs : List Char) : Prop :=
  ∀ c ∈ cs.head?, isBlank c = true

theorem atGap_nil : AtGap [] :=
  fun c h => absurd h (Option.not_mem_none c)

theorem atGap_cons {c : Char} {cs : List Char} (h : isBlank c = true) : AtGap (c :: cs) := by
  intro d hd
  obtain rfl := Option.some.inj hd
  exact h

theorem not_atGap_append {word cs : List Char} (hne : word ≠ [])
    (hblank : ∀ c ∈ word, isBlank c = false) : ¬AtGap (word ++ cs) := by
  obtain ⟨c, word, rfl⟩ := List.exists_cons_of_ne_nil hne
  intro h
  exact Bool.noConfusion ((hblank c List.mem_cons_self).symm.trans (h c rfl))

/-- The text consists of these words, with white space between neighbours and perhaps around them.
-/
inductive Spaced : List Char → List (List Char) → Prop
  | nil : Spaced [] []
  | blank {c : Char} {cs : List Char} {ws : List (List Char)} (blank : isBlank c = true)
      (rest : Spaced cs ws) : Spaced (c :: cs) ws
  | word {word cs : List Char} {ws : List (List Char)} (nonempty : word ≠ [])
      (solid : ∀ c ∈ word, isBlank c = false) (gap : AtGap cs) (rest : Spaced cs ws) :
      Spaced (word ++ cs) (word :: ws)

theorem Spaced.append_blanks {blanks cs : List Char} {ws : List (List Char)} (h : Spaced cs ws)
    (hblanks : ∀ c ∈ blanks, isBlank c = true) : Spaced (blanks ++ cs) ws := by
  induction blanks with
  | nil => exact h
  | cons c blanks ih =>
    obtain ⟨hc, hblanks⟩ := List.forall_mem_cons.mp hblanks
    exact .blank hc (ih hblanks)

theorem exists_spaced (cs : List Char) : ∃ ws, Spaced cs ws := by
  induction cs with
  | nil => exact ⟨[], .nil⟩
  | cons c cs ih =>
    obtain ⟨ws, h⟩ := ih
    cases hc : isBlank c with
    | true => exact ⟨ws, .blank hc h⟩
    | false =>
      have hsingle : ∀ d ∈ [c], isBlank d = false := List.forall_mem_singleton.mpr hc
      -- the character is put in front of the word that is there, or is a word of its own
      cases h with
      | nil => exact ⟨[[c]], .word (List.cons_ne_nil c []) hsingle atGap_nil .nil⟩
      | blank hd rest =>
        exact ⟨_, .word (List.cons_ne_nil c []) hsingle (atGap_cons hd) (.blank hd rest)⟩
      | @word word ds ws hne solid gap rest =>
        exact ⟨(c :: word) :: ws, .word (List.cons_ne_nil c word)
          (List.forall_mem_cons.mpr ⟨hc, solid⟩) gap rest⟩

theorem Spaced.splitChars_eq {cs : List Char} {ws : List (List Char)} (h : Spaced cs ws) :
    splitChars cs = ws := by
  have hskip : ∀ {c : Char} (cs : List Char), isBlank c = true →
      splitChars (c :: cs) = splitChars cs := by
    intro c cs hc
    unfold splitChars
    rw [List.splitOnP_cons_eq_if_modifyHead, if_pos hc]
    rfl
  induction h with
  | nil => rfl
  | blank hc _ ih => rw [hskip _ hc, ih]
  | @word word cs ws hne solid gap _ ih =>
    have hkeep : (!word.isEmpty) = true := by simpa using hne
    cases cs with
    | nil =>
      have hws : ws = [] := by rw [← ih]; rfl
      unfold splitChars
      rw [List.append_nil, List.splitOnP_eq_singleton solid, List.filter_cons, if_pos hkeep, hws]
      rfl
    | cons c cs =>
      have hc : isBlank c = true := gap c rfl
      rw [hskip _ hc] at ih
      rw [← ih]
      unfold splitChars
      rw [List.splitOnP_append_cons_of_forall_mem solid c hc, List.filter_cons, if_pos hkeep]

theorem spaced_splitChars (cs : List Char) : Spaced cs (splitChars cs) := by
  obtain ⟨ws, h⟩ := exists_spaced cs
  rwa [h.splitChars_eq]

/-- A text is laid out as the words that it is split into, and not as any others. -/
theorem spaced_iff {cs : List Char} {ws : List (List Char)} :
    Spaced cs ws ↔ splitChars cs = ws := by
  constructor
  · exact Spaced.splitChars_eq
  · rintro rfl
    exact spaced_splitChars cs

theorem Spaced.mem_iff {cs : List Char} {ws : List (List Char)} (h : Spaced cs ws) {c : Char}
    (hc : isBlank c = false) : c ∈ cs ↔ c ∈ ws.flatten := by
  induction h with
  | nil => rfl
  | @blank b cs ws hb _ ih =>
    have hne : c ≠ b := by
      rintro rfl
      exact Bool.noConfusion (hc.symm.trans hb)
    rw [List.mem_cons, ih, or_iff_right hne]
  | word _ _ _ _ ih => rw [List.mem_append, ih, List.flatten_cons, List.mem_append]

/-! ## Lowercasing word by word -/

theorem leadsCased_append {cs gap : List Char} (h : AtGap gap) :
    leadsCased (cs ++ gap) = leadsCased cs := by
  induction cs with
  | nil =>
    cases gap with
    | nil => rfl
    | cons c cs =>
      have hc := h c rfl
      show (if isCaseIgnorable c then leadsCased cs else isCased c) = false
      rw [isCaseIgnorable_of_isBlank hc, isCased_of_isBlank hc]
      rfl
  | cons c cs ih => rw [List.cons_append, leadsCased, leadsCased, ih]

theorem smallSigma_append {before after gap gap' : List Char} (hgap : AtGap gap)
    (hgap' : AtGap gap') :
    smallSigma (before ++ gap) (after ++ gap') = smallSigma before after := by
  unfold smallSigma
  rw [leadsCased_append hgap, leadsCased_append hgap']

/-- A word is lowercased as it would be if it stood alone. -/
theorem lowerAfter_append {before word gap cs : List Char} (hgap : AtGap gap) (hcs : AtGap cs) :
    lowerAfter (before ++ gap) (word ++ cs) =
      lowerAfter before word ++ lowerAfter (word.reverse ++ (before ++ gap)) cs := by
  induction word generalizing before with
  | nil => rfl
  | cons c word ih =>
    have hrest := @ih (c :: before)
    rw [List.cons_append] at hrest
    rw [List.cons_append, lowerAfter, hrest, lowerAfter, smallSigma_append hgap hcs,
      List.append_assoc, List.reverse_cons, List.append_assoc, List.singleton_append]

theorem lowerAfter_cons_of_isBlank {c : Char} (h : isBlank c = true) (before cs : List Char) :
    lowerAfter before (c :: cs) = c :: lowerAfter (c :: before) cs := by
  have hsigma : c ≠ 'Σ' := by
    rintro rfl
    exact absurd h (by decide)
  rw [lowerAfter, if_neg hsigma, lowerChar_of_isBlank h]
  rfl

theorem atGap_lowerAfter {cs : List Char} (h : AtGap cs) (before : List Char) :
    AtGap (lowerAfter before cs) := by
  cases cs with
  | nil => exact h
  | cons c cs =>
    rw [lowerAfter_cons_of_isBlank (h c rfl)]
    exact atGap_cons (h c rfl)

theorem isBlank_of_mem_lowerAfter {word before : List Char} (h : ∀ c ∈ word, isBlank c = false) :
    ∀ d ∈ lowerAfter before word, isBlank d = false := by
  induction word generalizing before with
  | nil => exact fun d hd => absurd hd List.not_mem_nil
  | cons c word ih =>
    intro d hd
    obtain ⟨hc, hword⟩ := List.forall_mem_cons.mp h
    rw [lowerAfter, List.mem_append] at hd
    rcases hd with hd | hd
    · split at hd
      · obtain rfl := List.mem_singleton.mp hd
        unfold smallSigma
        split <;> decide
      · exact isBlank_of_mem_lowerChar hc hd
    · exact ih hword d hd

theorem lowerAfter_ne_nil {word : List Char} (hne : word ≠ []) (before : List Char) :
    lowerAfter before word ≠ [] := by
  obtain ⟨c, word, rfl⟩ := List.exists_cons_of_ne_nil hne
  rw [lowerAfter]
  refine List.append_ne_nil_of_left_ne_nil ?_ _
  split
  · exact List.cons_ne_nil _ _
  · exact lowerChar_ne_nil c

theorem Spaced.lowerAfter {cs : List Char} {ws : List (List Char)} (h : Spaced cs ws)
    {before : List Char} (gap : AtGap before ∨ AtGap cs) :
    Spaced (lowerAfter before cs) (ws.map lowerChars) := by
  induction h generalizing before with
  | nil => exact .nil
  | blank hc _ ih =>
    rw [lowerAfter_cons_of_isBlank hc]
    exact .blank hc (ih (.inl (atGap_cons hc)))
  | @word word cs ws hne solid hcs _ ih =>
    have hbefore : AtGap before := gap.resolve_right (not_atGap_append hne solid)
    have hsplit := @lowerAfter_append [] word _ _ hbefore hcs
    rw [List.nil_append] at hsplit
    rw [hsplit]
    exact .word (lowerAfter_ne_nil hne []) (isBlank_of_mem_lowerAfter solid)
      (atGap_lowerAfter hcs _) (ih (.inr hcs))

/-- Lowercasing a text as a whole lowercases its words one by one. -/
theorem words_lower (s : String) : words (lower s) = (words s).map lower := by
  have h : Spaced (lowerAfter [] s.toList) ((splitChars s.toList).map lowerChars) :=
    (spaced_splitChars s.toList).lowerAfter (.inl atGap_nil)
  unfold words
  rw [lower, String.toList_ofList, lowerChars, h.splitChars_eq, List.map_map, List.map_map]
  refine List.map_congr_left fun word _ => ?_
  simp only [Function.comp_apply, lower, String.toList_ofList]

/-- What stands on either side of white space is lowercased as if it stood alone. -/
theorem lowerChars_append_cons {c : Char} (hc : isBlank c = true) (cs ds : List Char) :
    lowerChars (cs ++ c :: ds) = lowerChars cs ++ c :: lowerChars ds := by
  have hfront : lowerChars (cs ++ c :: ds) = lowerChars cs ++ lowerAfter cs.reverse (c :: ds) := by
    simpa [lowerChars] using @lowerAfter_append [] cs [] (c :: ds) atGap_nil (atGap_cons hc)
  have hback : lowerAfter (c :: cs.reverse) ds = lowerChars ds := by
    simpa [lowerChars, lowerAfter] using
      @lowerAfter_append [] ds (c :: cs.reverse) [] (atGap_cons hc) atGap_nil
  rw [hfront, lowerAfter_cons_of_isBlank hc, hback]

theorem lower_append_space (s t : String) :
    lower (s ++ " " ++ t) = lower s ++ " " ++ lower t := by
  have := lowerChars_append_cons isBlank_space s.toList t.toList
  rw [← String.toList_inj]
  simpa [lower] using this

end Repartee.Text
