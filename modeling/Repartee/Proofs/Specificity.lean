import Repartee.Proofs.Pattern.Flat
import Repartee.Proofs.Pattern.Recognition
import Repartee.Proofs.Pattern.Restriction
import Repartee.Proofs.Ranking

/-!
# Literal patterns come first

The score of a pattern without brackets and variables can be compared with the words that it stands
for: a literal word is one word of the text and counts ten, while a wildcard takes one word at least
and counts less than nothing. So the score is ten for each word of the text at most, and exactly
that if there are no wildcards (`Sequence.score_eq_of_mem_language`), and less if there is one
(`Sequence.score_lt_of_mem_language`).

Of two rules of the same weight that match a message, the one with the literal pattern is therefore
ahead of the one with wildcards (`literal_outranks`). With brackets this fails, since a bracket
counts as its best alternative whether or not the text takes that one.
-/

namespace Repartee.Pattern

open Repartee.Text

/-! ## Scores and words -/

section Scores

variable {value : VariableKind → String → Language String}

/-- A part of words alone counts what the words count that it stands for. -/
theorem Node.score_eq_of_mem_language {node : Node} (hwords : node.kinds ⊆ [.word])
    {us : List String} (hus : us ∈ node.language value) : node.score = 10 * us.length := by
  cases node with
  | words ws =>
    obtain rfl : us = ws := hus
    exact Int.mul_comm _ _
  | space =>
    obtain rfl : us = [] := hus
    rfl
  | choice bracket alternatives =>
    have := hwords List.mem_cons_self
    cases bracket <;> simp [Bracket.kind] at this
  | _ => exact absurd (hwords List.mem_cons_self) (by decide)

theorem Wildcard.score_neg (w : Wildcard) : w.score < 0 := by
  unfold Wildcard.score
  split <;> decide

/-- A wildcard takes a word, for which it does not count. -/
theorem Node.score_lt_of_mem_language : ∀ (node : Node), node.isFlat = true →
    .wildcard ∈ node.kinds → ∀ {us : List String}, us ∈ node.language value →
      node.score < 10 * us.length
  | .wildcard w => by
    intro _ _ us _
    have hneg := w.score_neg
    rw [Node.score]
    omega
  | .words _ => by
    intro _ hmem
    simp [Node.kinds] at hmem
  | .space => by
    intro _ hmem
    simp [Node.kinds] at hmem
  | .memo node => by
    intro flat hmem us hus
    have hinner : .wildcard ∈ node.kinds := by simpa [Node.kinds] using hmem
    exact node.score_lt_of_mem_language flat hinner hus
  | .reference _ _ => fun flat => Bool.noConfusion flat
  | .choice _ _ => fun flat => Bool.noConfusion flat

/-- No part of a flat pattern counts more than the words that it stands for. -/
theorem Node.score_le_of_mem_language : ∀ (node : Node), node.isFlat = true →
    ∀ {us : List String}, us ∈ node.language value → node.score ≤ 10 * us.length
  | .wildcard _ => fun flat _ hus =>
    Int.le_of_lt (Node.score_lt_of_mem_language _ flat List.mem_cons_self hus)
  | .words _ => fun _ _ hus =>
    Int.le_of_eq (Node.score_eq_of_mem_language (List.Subset.refl _) hus)
  | .space => fun _ _ hus =>
    Int.le_of_eq (Node.score_eq_of_mem_language (List.nil_subset _) hus)
  | .memo node => fun flat _ hus => node.score_le_of_mem_language flat hus
  | .reference _ _ => fun flat => Bool.noConfusion flat
  | .choice _ _ => fun flat => Bool.noConfusion flat

namespace Sequence

variable {nodes : Sequence}

theorem score_eq_of_mem_language (hwords : kinds nodes ⊆ [.word]) {us : List String}
    (hus : us ∈ language value nodes) : score nodes = 10 * us.length := by
  induction nodes generalizing us with
  | nil =>
    obtain rfl : us = [] := hus
    rfl
  | cons node nodes ih =>
    obtain ⟨hnode, hnodes⟩ := List.append_subset.mp hwords
    obtain ⟨vs, hvs, vs', hvs', rfl⟩ := Language.mem_mul.mp hus
    have hscore := node.score_eq_of_mem_language hnode hvs
    have hrest := ih hnodes hvs'
    rw [score, List.length_append]
    omega

theorem score_le_of_mem_language (flat : isFlat nodes = true) {us : List String}
    (hus : us ∈ language value nodes) : score nodes ≤ 10 * us.length := by
  induction nodes generalizing us with
  | nil =>
    obtain rfl : us = [] := hus
    exact Int.le_refl 0
  | cons node nodes ih =>
    obtain ⟨hnode, hnodes⟩ := Bool.and_eq_true_iff.mp flat
    obtain ⟨vs, hvs, vs', hvs', rfl⟩ := Language.mem_mul.mp hus
    have hscore := node.score_le_of_mem_language hnode hvs
    have hrest := ih hnodes hvs'
    rw [score, List.length_append]
    omega

theorem score_lt_of_mem_language (flat : isFlat nodes = true) (hwildcard : .wildcard ∈ kinds nodes)
    {us : List String} (hus : us ∈ language value nodes) : score nodes < 10 * us.length := by
  induction nodes generalizing us with
  | nil => cases hwildcard
  | cons node nodes ih =>
    obtain ⟨hnode, hnodes⟩ := Bool.and_eq_true_iff.mp flat
    obtain ⟨vs, hvs, vs', hvs', rfl⟩ := Language.mem_mul.mp hus
    have hscore := node.score_le_of_mem_language hnode hvs
    have hrest := score_le_of_mem_language hnodes hvs'
    rw [score, List.length_append]
    -- the wildcard is in the first part or behind it, and there the bound is not reached
    rcases List.mem_append.mp hwildcard with hmem | hmem
    · have := node.score_lt_of_mem_language hnode hmem hvs
      omega
    · have := ih hnodes hmem hvs'
      omega

end Sequence

end Scores

/-! ## Patterns that match -/

/-- The words of a text that a pattern matches are in the language of its tree. -/
theorem mem_language_of_isMatch [SizeLimit] {raw : String} {build now : Bindings} {p : Pattern}
    (h : Pattern.ofText? raw build = .ok p) {tree : Sequence} (htree : p.tree? = some tree)
    {ws : List String} (hws : ∀ w ∈ ws, IsNormalWord w) (hne : ws ≠ [])
    (hmatch : p.isMatch now (unwords ws) = true) :
    ws ∈ Sequence.language (bindingsFor p build now).language tree := by
  obtain ⟨captures, hcaptures⟩ := Option.isSome_iff_exists.mp hmatch
  rcases exists_compile_of_captures? h hcaptures with
    ⟨hnone, -⟩ | ⟨tree', r, htree', hread, hcompile, hregex⟩
  · rw [htree] at hnone
    cases hnone
  · obtain rfl := Option.some.inj (htree'.symm.trans htree)
    refine (matchWhole?_compile_iff hread hcompile hws fun hnil => absurd hnil hne).mp ?_
    obtain ⟨marks, hmarks, -⟩ := Option.map_eq_some_iff.mp hregex
    exact Option.isSome_iff_exists.mpr ⟨marks, hmarks⟩

/-- Of two patterns that match the same words, one literal and one with a wildcard but without
brackets and variables, the literal one has ten for each word and the other one less. So a rule with
the literal pattern is greater than a rule of the same weight with the other one, whatever their
patterns for the reply before the message: it stands in front of it in every sorted topic, and while
it matches a message, no search ends at the other one. -/
theorem literal_outranks [SizeLimit] {raw raw' : String} {build build' now now' : Bindings}
    {p q : Pattern} (hp : Pattern.ofText? raw build = .ok p)
    (hq : Pattern.ofText? raw' build' = .ok q)
    {literal wild : Sequence} (hliteral : p.tree? = some literal) (hwild : q.tree? = some wild)
    (words : Sequence.kinds literal ⊆ [.word]) (flat : Sequence.isFlat wild = true)
    (wildcard : .wildcard ∈ Sequence.kinds wild) {ws : List String}
    (hws : ∀ w ∈ ws, IsNormalWord w) (hne : ws ≠ [])
    (hmatch : p.isMatch now (unwords ws) = true) (hmatch' : q.isMatch now' (unwords ws) = true) :
    q.score < p.score ∧ p.score = 10 * ws.length ∧
      ∀ r s : Rule, r.pattern = p → s.pattern = q → r.weight = s.weight →
        r.compare s = .gt ∧
        ∀ t : Topic, t.Built → r ∈ t.rules → s ∈ t.rules →
          ([r, s].Sublist t.sort.sorted ∧ ¬ [s, r].Sublist t.sort.sorted) ∧
          ∀ message replies b, r.Matches message replies b → ∀ tried found,
            t.sort.search message replies b ≠ (tried, some (s, found)) := by
  have hscore : p.score = 10 * ws.length := by
    rw [Pattern.score, hliteral]
    exact Sequence.score_eq_of_mem_language words
      (mem_language_of_isMatch hp hliteral hws hne hmatch)
  have hscore' : q.score < 10 * ws.length := by
    rw [Pattern.score, hwild]
    exact Sequence.score_lt_of_mem_language flat wildcard
      (mem_language_of_isMatch hq hwild hws hne hmatch')
  have hlt : q.score < p.score := by rwa [hscore]
  refine ⟨hlt, hscore, fun r s hr hs hweight => ?_⟩
  have hscores : s.pattern.score < r.pattern.score := by rwa [hr, hs]
  have hrank := Rule.rank_lt_of_score_lt hweight hscores
  refine ⟨Rule.compare_eq_gt_of_score_lt hweight hscores, fun t ht hmem hmem' => ?_⟩
  exact ⟨ht.sublist_sorted hmem hmem' hrank, fun message replies b => ht.search_ne hmem hrank⟩

section Example

attribute [local instance] SizeLimit.byWeight

/-- The rule with the wildcard is registered first, and is tried after the other one. -/
theorem literal_outranks_greeting :
    let p := Pattern.ready "hello there" [.words ["hello", "there"]]
      (.seq (.seq (.literal "hello there") .boundary) .empty)
    let q := Pattern.ready "_* there"
      [.memo (.wildcard (.clamp .any 1 none)), .space, .words ["there"]]
      (.seq (.capture 0 (.words .any 1 none))
        (.seq .blank (.seq (.seq (.literal "there") .boundary) .empty)))
    let r : Rule := ⟨"greeting", p, .anything, 1, .say "Hi!"⟩
    let s : Rule := ⟨"other", q, .anything, 1, .say "Where?"⟩
    q.score < p.score ∧ p.score = 20 ∧ r.compare s = .gt ∧
      [r, s].Sublist ((({ name := "greetings" } : Topic).insert s).insert r).sort.sorted ∧
      ∀ found, (((({ name := "greetings" } : Topic).insert s).insert r).sort.search
        (.plain "Hello there!") [] {}).2 ≠ some (s, found) := by
  intro p q r s
  have hp : Pattern.ofText? "hello there" {} = .ok p := rfl
  have hq : Pattern.ofText? "_* there" {} = .ok q := rfl
  have hws : ∀ w ∈ ["hello", "there"], IsNormalWord w := by
    intro w hw
    simp only [List.mem_cons, List.not_mem_nil, or_false] at hw
    rcases hw with rfl | rfl <;> exact ⟨by decide, List.all_eq_true.mp rfl⟩
  have hmatch : p.isMatch {} (unwords ["hello", "there"]) = true := by decide +kernel
  have hmatch' : q.isMatch {} (unwords ["hello", "there"]) = true := by decide +kernel
  obtain ⟨hscore, hten, hrules⟩ := @literal_outranks _ _ _ {} {} {} {} p q hp hq
    [.words ["hello", "there"]] [.memo (.wildcard (.clamp .any 1 none)), .space, .words ["there"]]
    rfl rfl (by decide) rfl (by decide) ["hello", "there"] hws (by decide) hmatch hmatch'
  obtain ⟨hgreater, htopic⟩ := hrules r s rfl rfl rfl
  obtain ⟨⟨hfront, -⟩, hsearch⟩ := htopic _ (.insert (.insert (.new "greetings") s) r)
    (.tail _ (.head _)) (.head _)
  refine ⟨hscore, hten, hgreater, hfront, fun found hend => ?_⟩
  have hmatches : r.Matches (.plain "Hello there!") [] {} :=
    (r.isSome_match?_iff _ _ _).mp (by decide +kernel)
  exact hsearch _ _ _ hmatches _ found (Prod.ext rfl hend)

end Example

end Repartee.Pattern
