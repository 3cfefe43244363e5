import Repartee.Proofs.Pattern.Recognition

/-!
# Wider wildcards

A wildcard is widened by asking for less: for words of any class instead of one, for fewer words at
least, or for more of them at most. `Sequence.Replaced` says that a tree has another wildcard in one
place, at any depth. If this one is wider, the tree matches all that it matched before and its score
is not greater (`widening_monotone`).

Both are shown along the way from the wildcard out to the whole tree. The score goes through sums
and maxima. A match goes through every form of regular expression (`Regex.CoveredBy`), since none of
them asks for something not to match. It does not matter what the text looks like: a run of words of
a class has to end where a word ends, so it is a run of any words as well (`Regex.Run.any`).

What can be lost is the matcher, since the expression of the new tree may be refused where the one
of the original was not.
-/

namespace Repartee.Pattern

open Repartee.Unicode

/-! ## Runs of words -/

namespace Regex

section Run

variable {text : Array Char} {kind : WordClass} {p q : Char → Bool}
  (hpq : ∀ c, p c = true → q c = true)

include hpq in
theorem holdsAt_mono {i : Nat} (h : holdsAt text p i = true) : holdsAt text q i = true := by
  unfold holdsAt at h ⊢
  cases hc : text[i]? with
  | none =>
    rw [hc] at h
    cases h
  | some c =>
    rw [hc] at h
    exact hpq c h

theorem isWordChar_of_isBlank_at {i : Nat} (h : holdsAt text isBlank i = true) :
    holdsAt text isWordChar i = false := by
  unfold holdsAt at h ⊢
  cases hc : text[i]? with
  | none => rfl
  | some c =>
    rw [hc] at h
    exact isWordChar_of_isBlank h

include hpq in
/-- A run that stops where the wider property fails is as long as one with that property. -/
theorem runFrom_eq_of_stop {fuel i : Nat} (hstop : holdsAt text q (runFrom text p fuel i) = false) :
    runFrom text q fuel i = runFrom text p fuel i := by
  induction fuel generalizing i with
  | zero => rfl
  | succ fuel ih =>
    unfold runFrom at hstop ⊢
    cases hp : holdsAt text p i with
    | true =>
      rw [hp, if_pos rfl] at hstop
      rw [holdsAt_mono hpq hp, if_pos rfl, if_pos rfl]
      exact ih hstop
    | false =>
      rw [hp, if_neg Bool.false_ne_true] at hstop
      rw [hstop]
      rfl

/-- The last character of a run has the property. -/
theorem holdsAt_of_lt_runFrom {fuel i : Nat} (h : i < runFrom text p fuel i) :
    holdsAt text p (runFrom text p fuel i - 1) = true := by
  induction fuel generalizing i with
  | zero => exact absurd h (Nat.lt_irrefl i)
  | succ fuel ih =>
    unfold runFrom at h ⊢
    cases hp : holdsAt text p i with
    | false =>
      rw [hp] at h
      exact absurd h (Nat.lt_irrefl i)
    | true =>
      rw [if_pos rfl]
      by_cases hmore : i + 1 < runFrom text p fuel (i + 1)
      · exact ih hmore
      · rw [hp, if_pos rfl] at h
        have hend : runFrom text p fuel (i + 1) = i + 1 := by omega
        rw [hend]
        exact hp

theorem runEnd_any {i : Nat} (h : holdsAt text isWordChar (runEnd text kind.accepts i) = false) :
    runEnd text WordClass.any.accepts i = runEnd text kind.accepts i :=
  runFrom_eq_of_stop (fun _ => isWordChar_of_accepts) h

/-- No word goes on behind a word of a class that ends at a boundary. -/
theorem holdsAt_of_isBoundary {i : Nat} (hlt : i < runEnd text kind.accepts i)
    (h : isBoundary text (runEnd text kind.accepts i) = true) :
    holdsAt text isWordChar (runEnd text kind.accepts i) = false := by
  have hlast : holdsAt text isWordChar (runEnd text kind.accepts i - 1) = true :=
    holdsAt_mono (fun _ => isWordChar_of_accepts) (holdsAt_of_lt_runFrom hlt)
  have hpos : decide (0 < runEnd text kind.accepts i) = true :=
    decide_eq_true (Nat.lt_of_le_of_lt (Nat.zero_le i) hlt)
  unfold isBoundary at h
  rw [hpos, Bool.true_and, hlast] at h
  simpa using h

theorem lastWord?_any {i j : Nat} (h : lastWord? text kind i = some j) :
    lastWord? text .any i = some j := by
  unfold lastWord? at h ⊢
  obtain ⟨hword, hj⟩ := Option.ite_none_right_eq_some.mp h
  obtain ⟨hlt, hboundary⟩ := Bool.and_eq_true_iff.mp hword
  rw [runEnd_any (holdsAt_of_isBoundary (of_decide_eq_true hlt) hboundary)]
  exact h

theorem nextWord?_any {i j : Nat} (h : nextWord? text kind i = some j) :
    nextWord? text .any i = some j := by
  unfold nextWord? at h ⊢
  obtain ⟨hword, hj⟩ := Option.ite_none_right_eq_some.mp h
  obtain ⟨-, hblank⟩ := Bool.and_eq_true_iff.mp hword
  rw [runEnd_any (isWordChar_of_isBlank_at hblank)]
  exact h

/-- Words of a class are words of any characters, and end in the same places. -/
theorem Run.any {n i j : Nat} (h : Run text kind n i j) : Run text .any n i j := by
  induction h with
  | last word => exact .last (lastWord?_any word)
  | next word others ih => exact .next (nextWord?_any word) ih

end Run

/-! ## Expressions that match more -/

/-- The second expression matches wherever the first one does. -/
def CoveredBy (r r' : Regex) : Prop :=
  ∀ text i j, r.Matches text i j → r'.Matches text i j

namespace CoveredBy

variable {r r' : Regex} (h : CoveredBy r r')

include h

theorem seq_left (s : Regex) : CoveredBy (.seq r s) (.seq r' s) := by
  rintro text i j ⟨k, hfirst, hsecond⟩
  exact ⟨k, h text i k hfirst, hsecond⟩

theorem seq_right (s : Regex) : CoveredBy (.seq s r) (.seq s r') := by
  rintro text i j ⟨k, hfirst, hsecond⟩
  exact ⟨k, hfirst, h text k j hsecond⟩

theorem alt_left (s : Regex) : CoveredBy (.alt r s) (.alt r' s) :=
  fun text i j => Or.imp_left (h text i j)

theorem alt_right (s : Regex) : CoveredBy (.alt s r) (.alt s r') :=
  fun text i j => Or.imp_right (h text i j)

theorem capture (index : Nat) : CoveredBy (.capture index r) (.capture index r') :=
  h

theorem around (bracket : Bracket) : CoveredBy (bracket.around r) (bracket.around r') := by
  cases bracket with
  | optional => exact fun text i j => Or.imp_left (h text i j)
  | group => exact h

theorem isSome_matchWhole? {text : Array Char} (hmatch : (matchWhole? text r).isSome = true) :
    (matchWhole? text r').isSome = true := by
  rw [Regex.isSome_matchWhole?] at hmatch ⊢
  exact h text 0 text.size hmatch

theorem factored : CoveredBy r.factored r'.factored := by
  intro text i j hmatch
  rw [matches_factored] at hmatch ⊢
  exact h text i j hmatch

end CoveredBy

end Regex

/-! ## Wildcards -/

/-- The second wildcard is wider: it is of the same class or any, asks for no more words at least,
and allows for as many at most, or any number. -/
structure Wildcard.WidenedBy (w w' : Wildcard) : Prop where
  kind : w'.kind = w.kind ∨ w'.kind = .any
  min : w'.min ≤ w.min
  max : ∀ most' ∈ w'.max, ∃ most ∈ w.max, most ≤ most'

namespace Wildcard.WidenedBy

variable {w w' : Wildcard} (h : w.WidenedBy w')

include h

theorem regex :
    Regex.CoveredBy (.words w.kind w.min w.max) (.words w'.kind w'.min w'.max) := by
  rintro text i j ⟨n, hmin, hmax, hrun⟩
  refine ⟨n, Nat.le_trans h.min hmin, fun most' hmost' => ?_, ?_⟩
  · obtain ⟨most, hmost, hle⟩ := h.max most' hmost'
    exact (hmax most hmost).imp_right fun hn => Nat.le_trans hn hle
  · rcases h.kind with hkind | hkind <;> rw [hkind]
    · exact hrun
    · exact hrun.any

/-- What is as wide as can be is not widened, and so only a restricted wildcard counts for less when
it is. -/
theorem score_le : w'.score ≤ w.score := by
  unfold Wildcard.score
  cases hw : w.isRestricted with
  | true =>
    rw [if_pos rfl]
    split <;> decide
  | false =>
    have hw' : w'.isRestricted = false := by
      simp only [isRestricted, Bool.or_eq_false_iff, bne_eq_false_iff_eq,
        Option.isSome_eq_false_iff, Option.isNone_iff_eq_none] at hw ⊢
      obtain ⟨⟨hkind, hmin⟩, hmax⟩ := hw
      refine ⟨⟨h.kind.elim (·.trans hkind) id, ?_⟩, ?_⟩
      · have := h.min
        have := w'.min_pos
        omega
      · refine Option.eq_none_iff_forall_not_mem.mpr fun most' hmost' => ?_
        obtain ⟨most, hmost, -⟩ := h.max most' hmost'
        rw [hmax] at hmost
        cases hmost
    rw [hw']

end Wildcard.WidenedBy

/-! ## Trees with another wildcard -/

mutual

/-- The second part has the wildcard `w'` in one place where the first one has `w`. -/
inductive Node.Replaced (w w' : Wildcard) : Node → Node → Prop
  | wildcard : Node.Replaced w w' (.wildcard w) (.wildcard w')
  | memo {node node'} (inner : Node.Replaced w w' node node') :
      Node.Replaced w w' (.memo node) (.memo node')
  | choice {alternatives alternatives'} (bracket : Bracket)
      (inner : ReplacedInAlternatives w w' alternatives alternatives') :
      Node.Replaced w w' (.choice bracket alternatives) (.choice bracket alternatives')

/-- The second sequence has the wildcard `w'` in one place, at any depth, where the first one has
`w`. -/
inductive Sequence.Replaced (w w' : Wildcard) : List Node → List Node → Prop
  | head {node node'} (inner : Node.Replaced w w' node node') (nodes : List Node) :
      Sequence.Replaced w w' (node :: nodes) (node' :: nodes)
  | tail {nodes nodes'} (node : Node) (inner : Sequence.Replaced w w' nodes nodes') :
      Sequence.Replaced w w' (node :: nodes) (node :: nodes')

inductive ReplacedInAlternatives (w w' : Wildcard) : List (List Node) → List (List Node) → Prop
  | head {alternative alternative'} (inner : Sequence.Replaced w w' alternative alternative')
      (rest : List (List Node)) :
      ReplacedInAlternatives w w' (alternative :: rest) (alternative' :: rest)
  | tail {rest rest'} (alternative : List Node) (inner : ReplacedInAlternatives w w' rest rest') :
      ReplacedInAlternatives w w' (alternative :: rest) (alternative :: rest')

end

section Replaced

variable {w w' : Wildcard}

theorem ReplacedInAlternatives.ne_nil {alternatives alternatives' : List Sequence}
    (h : ReplacedInAlternatives w w' alternatives alternatives') :
    alternatives ≠ [] ∧ alternatives' ≠ [] := by
  cases h <;> exact ⟨List.cons_ne_nil _ _, List.cons_ne_nil _ _⟩

/-! ### Memos -/

mutual

theorem Node.Replaced.memos_eq : ∀ {node node' : Node}, Node.Replaced w w' node node' →
    node'.memos = node.memos
  | _, _, .wildcard => rfl
  | _, _, .memo inner => congrArg (1 + ·) inner.memos_eq
  | _, _, .choice _ inner => inner.memos_eq

theorem Sequence.Replaced.memos_eq : ∀ {nodes nodes' : Sequence},
    Sequence.Replaced w w' nodes nodes' → Sequence.memos nodes' = Sequence.memos nodes
  | _, _, .head inner _ => congrArg (· + _) inner.memos_eq
  | _, _, .tail _ inner => congrArg (_ + ·) inner.memos_eq

theorem ReplacedInAlternatives.memos_eq : ∀ {alternatives alternatives' : List Sequence},
    ReplacedInAlternatives w w' alternatives alternatives' →
      memosInAlternatives alternatives' = memosInAlternatives alternatives
  | _, _, .head inner _ => congrArg (· + _) inner.memos_eq
  | _, _, .tail _ inner => congrArg (_ + ·) inner.memos_eq

end

/-! ### Scores -/

theorem bestScore_cons (alternative : Sequence) {rest : List Sequence} (hne : rest ≠ []) :
    bestScore (alternative :: rest) = max (Sequence.score alternative) (bestScore rest) := by
  rw [bestScore]
  exact hne

mutual

theorem Node.Replaced.score_le (hscore : w'.score ≤ w.score) :
    ∀ {node node' : Node}, Node.Replaced w w' node node' → node'.score ≤ node.score
  | _, _, .wildcard => hscore
  | _, _, .memo inner => inner.score_le hscore
  | _, _, .choice _ inner => inner.score_le hscore

theorem Sequence.Replaced.score_le (hscore : w'.score ≤ w.score) :
    ∀ {nodes nodes' : Sequence}, Sequence.Replaced w w' nodes nodes' →
      Sequence.score nodes' ≤ Sequence.score nodes
  | _, _, .head inner nodes => Int.add_le_add_right (inner.score_le hscore) (Sequence.score nodes)
  | _, _, .tail node inner => Int.add_le_add_left (inner.score_le hscore) node.score

theorem ReplacedInAlternatives.score_le (hscore : w'.score ≤ w.score) :
    ∀ {alternatives alternatives' : List Sequence},
      ReplacedInAlternatives w w' alternatives alternatives' →
        bestScore alternatives' ≤ bestScore alternatives
  | _, _, .head inner [] => inner.score_le hscore
  | _, _, .head inner (next :: rest) => by
    have := inner.score_le hscore
    rw [bestScore_cons _ (List.cons_ne_nil next rest),
      bestScore_cons _ (List.cons_ne_nil next rest)]
    omega
  | _, _, .tail alternative inner => by
    have := inner.score_le hscore
    rw [bestScore_cons _ inner.ne_nil.1, bestScore_cons _ inner.ne_nil.2]
    omega

end

/-! ### Regular expressions -/

section Regex

variable {resolve : Resolver}

mutual

theorem Node.Replaced.exists_regex (hw : w.WidenedBy w') :
    ∀ {node node' : Node}, Node.Replaced w w' node node' →
      ∀ {first : Nat} {r : Regex}, node.regex resolve first = .ok r →
        ∃ r', node'.regex resolve first = .ok r' ∧ Regex.CoveredBy r r'
  | _, _, .wildcard => by
    intro hr
    obtain rfl := Except.ok.inj hr
    exact ⟨_, rfl, hw.regex⟩
  | _, _, .memo inner => by
    intro hr
    obtain ⟨s, hs, rfl⟩ := Node.regex_memo.mp hr
    obtain ⟨s', hs', hcovers⟩ := inner.exists_regex hw hs
    exact ⟨_, Node.regex_memo.mpr ⟨s', hs', rfl⟩, hcovers.capture _⟩
  | _, _, .choice bracket inner => by
    intro hr
    obtain ⟨s, hs, rfl⟩ := Node.regex_choice.mp hr
    obtain ⟨s', hs', hcovers⟩ := inner.exists_regex hw hs
    exact ⟨_, Node.regex_choice.mpr ⟨s', hs', rfl⟩, hcovers.around bracket⟩

theorem Sequence.Replaced.exists_regex (hw : w.WidenedBy w') :
    ∀ {nodes nodes' : Sequence}, Sequence.Replaced w w' nodes nodes' →
      ∀ {first : Nat} {r : Regex}, Sequence.regex resolve first nodes = .ok r →
        ∃ r', Sequence.regex resolve first nodes' = .ok r' ∧ Regex.CoveredBy r r'
  | _, _, .head inner nodes => by
    intro hr
    obtain ⟨one, others, hone, hothers, rfl⟩ := Sequence.regex_cons.mp hr
    obtain ⟨one', hone', hcovers⟩ := inner.exists_regex hw hone
    rw [← inner.memos_eq] at hothers
    exact ⟨_, Sequence.regex_cons.mpr ⟨one', others, hone', hothers, rfl⟩, hcovers.seq_left others⟩
  | _, _, .tail node inner => by
    intro hr
    obtain ⟨one, others, hone, hothers, rfl⟩ := Sequence.regex_cons.mp hr
    obtain ⟨others', hothers', hcovers⟩ := inner.exists_regex hw hothers
    exact ⟨_, Sequence.regex_cons.mpr ⟨one, others', hone, hothers', rfl⟩, hcovers.seq_right one⟩

theorem ReplacedInAlternatives.exists_regex (hw : w.WidenedBy w') :
    ∀ {alternatives alternatives' : List Sequence},
      ReplacedInAlternatives w w' alternatives alternatives' →
        ∀ {first : Nat} {r : Regex}, alternativesRegex resolve first alternatives = .ok r →
          ∃ r', alternativesRegex resolve first alternatives' = .ok r' ∧
            Regex.CoveredBy r r'
  | _, _, .head inner [] => fun hr => inner.exists_regex hw hr
  | _, _, .head inner (next :: rest) => by
    intro hr
    obtain ⟨one, others, hone, hothers, rfl⟩ :=
      (alternativesRegex_cons (List.cons_ne_nil next rest)).mp hr
    obtain ⟨one', hone', hcovers⟩ := inner.exists_regex hw hone
    rw [← inner.memos_eq] at hothers
    exact ⟨_, (alternativesRegex_cons (List.cons_ne_nil next rest)).mpr
      ⟨one', others, hone', hothers, rfl⟩, hcovers.alt_left others⟩
  | _, _, .tail alternative inner => by
    intro hr
    obtain ⟨one, others, hone, hothers, rfl⟩ := (alternativesRegex_cons inner.ne_nil.1).mp hr
    obtain ⟨others', hothers', hcovers⟩ := inner.exists_regex hw hothers
    exact ⟨_, (alternativesRegex_cons inner.ne_nil.2).mpr
      ⟨one, others', hone, hothers', rfl⟩, hcovers.alt_right one⟩

end

end Regex

end Replaced

/-! ## Trees with a wider wildcard -/

/-- A tree in which a wildcard was replaced by a wider one has no greater score, and its regular
expression matches every text that the one of the original matches, under all variables. If there is
a matcher for the original, then the one for the new tree matches as much, unless its expression is
refused. -/
theorem widening_monotone [SizeLimit] {w w' : Wildcard} (hw : w.WidenedBy w')
    {tree tree' : Sequence} (h : Sequence.Replaced w w' tree tree') :
    Sequence.score tree' ≤ Sequence.score tree ∧
    ∀ b : Bindings,
      (∀ r, tree.regexWith b = .ok r → ∃ r', tree'.regexWith b = .ok r' ∧
        ∀ text, (Regex.matchWhole? text r).isSome = true →
          (Regex.matchWhole? text r').isSome = true) ∧
      ∀ r, tree.compile b = .ok r → ∃ s', tree'.regexWith b = .ok s' ∧
        (SizeLimit.refuses s' = true → tree'.compile b = .error .oversized) ∧
        (SizeLimit.refuses s' = false → ∃ r', tree'.compile b = .ok r' ∧
          ∀ text, (Regex.matchWhole? text r).isSome = true →
            (Regex.matchWhole? text r').isSome = true) := by
  refine ⟨h.score_le hw.score_le, fun b => ⟨fun r hr => ?_, fun r hr => ?_⟩⟩
  · obtain ⟨r', hr', hcovers⟩ := h.exists_regex hw hr
    exact ⟨r', hr', fun text => hcovers.isSome_matchWhole?⟩
  · obtain ⟨s, hs, -, rfl⟩ := Sequence.compile_eq_ok_iff.mp hr
    obtain ⟨s', hs', hcovers⟩ := h.exists_regex hw hs
    refine ⟨s', hs', Sequence.compile_of_refuses hs', fun hbuilds => ?_⟩
    exact ⟨s'.factored, Sequence.compile_eq_ok_iff.mpr ⟨s', hs', hbuilds, rfl⟩,
      fun text => hcovers.factored.isSome_matchWhole?⟩

section Example

attribute [local instance] SizeLimit.byWeight

/-- Two numbers are wanted inside a bracket that is remembered, and then any words. -/
theorem widening_monotone_turn :
    let tree : Wildcard → Sequence := fun w =>
      [.words ["turn"], .space, .memo (.choice .group [[.words ["left"]], [.wildcard w]])]
    let w := Wildcard.clamp .digits 2 (some 2)
    let w' := Wildcard.clamp .any 1 none
    parse? .full "turn _(left|#2)" = .ok (tree w) ∧
      Sequence.score (tree w') ≤ Sequence.score (tree w) ∧
      ∃ r', (tree w').compile {} = .ok r' ∧
        (Regex.matchWhole? "turn 1 2".toList.toArray r').isSome = true := by
  intro tree w w'
  have hw : w.WidenedBy w' := ⟨.inr rfl, by decide, fun most' h => by cases h⟩
  have h : Sequence.Replaced w w' (tree w) (tree w') :=
    .tail _ (.tail _ (.head (.memo (.choice .group (.tail _ (.head (.head .wildcard _) _)))) _))
  obtain ⟨hscore, hmatch⟩ := widening_monotone hw h
  have hr := Sequence.compile_eq_ok_iff.mpr
    ⟨_, (rfl : (tree w).regexWith {} = .ok _), SizeLimit.builds _ (by decide), rfl⟩
  obtain ⟨s', hs', -, hbuilt⟩ := (hmatch {}).2 _ hr
  have hbuilds : SizeLimit.refuses s' = false := by
    cases hs'
    exact SizeLimit.builds _ (by decide)
  obtain ⟨r', hr', hcovers⟩ := hbuilt hbuilds
  exact ⟨rfl, hscore, r', hr', hcovers _ (by decide +kernel)⟩

end Example

end Repartee.Pattern
