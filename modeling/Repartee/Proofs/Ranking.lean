import Mathlib.Data.List.Sigma
import Mathlib.Data.Prod.Lex
import Repartee.Topic

/-!
# Which rule is tried first

Rules are ranked by weight, score and score of the previous pattern, one after the other
(`Rule.rank`), and of rules of the same rank the one registered first is ahead (`Rule.Ahead`).
However a topic came about, sorting it leaves its rules in this order (`sorted_sort`).

So a search finds the matching rule that is ahead of all others that match, after as many rules as
are ahead of it (`Topic.search_of_exists`). A rule of a lower rank stands behind one of a higher
rank (`Topic.Built.sublist_sorted`), and is not found while that one matches.
-/

namespace Repartee

/-! ## Ranks -/

theorem isGE_then (a b : Ordering) :
    (a.then b).isGE = true ↔ a = .gt ∨ (a = .eq ∧ b.isGE = true) := by
  cases a <;> simp [Ordering.then, Ordering.isGE]

theorem isGE_compare_int (m n : Int) : (compare m n).isGE = true ↔ n ≤ m := by
  rw [Ordering.isGE_iff_eq_gt_or_eq_eq, compare_gt_iff_gt, compare_eq_iff_eq, @eq_comm _ m]
  exact le_iff_lt_or_eq.symm

namespace Rule

/-- The weight, the score of the pattern for the message, and that of the one for the reply before
it, compared in this order. -/
def rank (r : Rule) : ℤ ×ₗ ℤ ×ₗ ℤ :=
  toLex (r.weight, toLex (r.pattern.score, r.previous.score))

theorem isGE_compare_iff (r s : Rule) : (r.compare s).isGE = true ↔ s.rank ≤ r.rank := by
  unfold compare rank
  rw [isGE_then, isGE_then, isGE_compare_int, Prod.Lex.toLex_le_toLex, Prod.Lex.toLex_le_toLex,
    compare_gt_iff_gt, compare_eq_iff_eq, compare_gt_iff_gt, compare_eq_iff_eq,
    @eq_comm _ r.weight, @eq_comm _ r.pattern.score]

theorem compare_eq_gt_of_score_lt {r s : Rule} (hweight : r.weight = s.weight)
    (hscore : s.pattern.score < r.pattern.score) : r.compare s = .gt := by
  rw [compare, hweight, compare_eq_iff_eq.mpr rfl, compare_gt_iff_gt.mpr hscore]
  rfl

theorem rank_lt_of_score_lt {r s : Rule} (hweight : r.weight = s.weight)
    (hscore : s.pattern.score < r.pattern.score) : s.rank < r.rank :=
  Prod.Lex.toLex_lt_toLex.mpr
    (.inr ⟨hweight.symm, Prod.Lex.toLex_lt_toLex.mpr (.inl hscore)⟩)

/-- Of two rules with the places at which they were registered, the first one is tried before the
second one. -/
def Ahead (x y : Rule × Nat) : Prop :=
  y.1.rank < x.1.rank ∨ (y.1.rank = x.1.rank ∧ x.2 < y.2)

instance (x y : Rule × Nat) : Decidable (Ahead x y) :=
  inferInstanceAs (Decidable (_ ∨ _))

/-- The pattern for the message matches it, and the one for the reply before it, if there is one,
matches the newest reply. -/
def Matches [Pattern.SizeLimit] (r : Rule) (message : Target) (replies : List Target)
    (b : Pattern.Bindings) : Prop :=
  r.pattern.isMatch b message.normalized = true ∧
    (r.previous.isPresent = true →
      ∃ last, replies.head? = some last ∧ r.previous.isMatch b last.normalized = true)

theorem isSome_match?_iff [Pattern.SizeLimit] (r : Rule) (message : Target) (replies : List Target)
    (b : Pattern.Bindings) :
    (r.match? message replies b).isSome = true ↔ r.Matches message replies b := by
  unfold match? matchNormal? Matches Pattern.isMatch
  cases r.pattern.captures? b message.normalized with
  | none => simp
  | some captures =>
    cases r.previous.isPresent with
    | false => simp
    | true =>
      cases replies.head? with
      | none => simp
      | some last => simp [Option.isSome_bind]

theorem match?_eq_none [Pattern.SizeLimit] {r : Rule} {message : Target} {replies : List Target}
    {b : Pattern.Bindings} (h : ¬ r.Matches message replies b) :
    r.match? message replies b = none := by
  refine Option.not_isSome_iff_eq_none.mp fun hsome => h ?_
  exact (isSome_match?_iff r message replies b).mp hsome

theorem ahead_irrefl (x : Rule × Nat) : ¬ Ahead x x := by
  rintro (h | ⟨-, h⟩)
  · exact lt_irrefl _ h
  · exact lt_irrefl _ h

theorem ahead_asymm {x y : Rule × Nat} (h : Ahead x y) : ¬ Ahead y x := by
  rintro (h' | ⟨heq, h'⟩) <;> rcases h with h | ⟨heq', h⟩
  · exact lt_asymm h h'
  · exact absurd heq' (ne_of_gt h')
  · exact absurd heq (ne_of_gt h)
  · exact lt_asymm h h'

end Rule

/-! ## Sorted rules -/

namespace Topic

open Rule

/-- The sorted rules with the places at which they were registered are each ahead of those behind
them. -/
theorem exists_ranked (rules : List Rule) :
    ∃ ranked : List (Rule × Nat), byRank rules = ranked.map Prod.fst ∧
      ranked.Perm rules.zipIdx ∧ ranked.Pairwise Ahead := by
  have trans : ∀ q r s : Rule, (q.compare r).isGE = true → (r.compare s).isGE = true →
      (q.compare s).isGE = true := by
    intro q r s hqr hrs
    rw [isGE_compare_iff] at *
    exact le_trans hrs hqr
  have total : ∀ r s : Rule, ((r.compare s).isGE || (s.compare r).isGE) = true := by
    intro r s
    rw [Bool.or_eq_true, isGE_compare_iff, isGE_compare_iff]
    exact le_total s.rank r.rank
  let le := List.zipIdxLE fun r s : Rule => (r.compare s).isGE
  have hperm : (rules.zipIdx.mergeSort le).Perm rules.zipIdx := List.mergeSort_perm _ _
  refine ⟨rules.zipIdx.mergeSort le, List.mergeSort_zipIdx.symm, hperm, ?_⟩
  have hsorted : (rules.zipIdx.mergeSort le).Pairwise fun x y => le x y = true :=
    List.pairwise_mergeSort (List.zipIdxLE_trans trans) (List.zipIdxLE_total total) _
  have hplaces : (rules.zipIdx.mergeSort le).Pairwise fun x y => x.2 ≠ y.2 := by
    have hnodup := (hperm.map Prod.snd).nodup_iff.mpr (List.nodup_zipIdx_map_snd rules)
    exact List.pairwise_map.mp hnodup
  refine (hsorted.and hplaces).imp ?_
  rintro x y ⟨hle, hne⟩
  simp only [le, List.zipIdxLE, isGE_compare_iff] at hle
  split at hle
  · rename_i hxy
    split at hle
    · rename_i hyx
      have hlt := lt_of_le_of_ne (of_decide_eq_true hle) hne
      exact .inr ⟨le_antisymm hxy hyx, hlt⟩
    · rename_i hyx
      exact .inl (lt_of_not_ge hyx)
  · cases hle

theorem pairwise_byRank (rules : List Rule) :
    (byRank rules).Pairwise fun r s => s.rank ≤ r.rank := by
  obtain ⟨ranked, hrank, -, hahead⟩ := exists_ranked rules
  rw [hrank, List.pairwise_map]
  refine hahead.imp ?_
  rintro x y (hlt | ⟨heq, -⟩)
  · exact le_of_lt hlt
  · exact le_of_eq heq

/-- Of two members of a list, one is in front of the other. -/
theorem sublist_or_sublist {α : Type} {l : List α} {x y : α} (hx : x ∈ l) (hy : y ∈ l)
    (hne : x ≠ y) : [x, y].Sublist l ∨ [y, x].Sublist l := by
  obtain ⟨front, back, rfl⟩ := List.append_of_mem hx
  rw [List.mem_append, List.mem_cons] at hy
  rcases hy with hy | rfl | hy
  · right
    exact (List.singleton_sublist.mpr hy).append (.cons_cons x (List.nil_sublist back))
  · exact absurd rfl hne
  · left
    exact (List.Sublist.cons_cons x (List.singleton_sublist.mpr hy)).trans
      (List.sublist_append_right front _)

/-! ## The first rule that matches -/

section FirstMatch

variable [Pattern.SizeLimit] {message : Target} {normalized : String} {replies : List Target}
  {b : Pattern.Bindings}

theorem firstMatch_of_none {rules : List Rule}
    (h : ∀ r ∈ rules, r.matchNormal? message normalized replies b = none) :
    firstMatch message normalized replies b rules = (rules.length, none) := by
  induction rules with
  | nil => rfl
  | cons r rules ih =>
    obtain ⟨hr, hrules⟩ := List.forall_mem_cons.mp h
    simp only [firstMatch, hr, ih hrules, List.length_cons]

theorem firstMatch_append {front back : List Rule} {r : Rule} {found : Match}
    (hfront : ∀ s ∈ front, s.matchNormal? message normalized replies b = none)
    (hr : r.matchNormal? message normalized replies b = some found) :
    firstMatch message normalized replies b (front ++ r :: back) =
      (front.length + 1, some (r, found)) := by
  induction front with
  | nil => simp [firstMatch, hr]
  | cons s front ih =>
    obtain ⟨hs, hfront⟩ := List.forall_mem_cons.mp hfront
    simp only [List.cons_append, firstMatch, hs, ih hfront, List.length_cons]

end FirstMatch

/-- How many of the rules are ahead of this one. -/
def countAhead (rules : List Rule) (x : Rule × Nat) : Nat :=
  rules.zipIdx.countP fun y => Ahead y x

/-- The rule registered at this place matches, and it is ahead of all others that do. -/
structure Chosen [Pattern.SizeLimit] (t : Topic) (message : Target) (replies : List Target)
    (b : Pattern.Bindings) (r : Rule) (i : Nat) (found : Match) : Prop where
  registered : t.rules[i]? = some r
  matched : r.match? message replies b = some found
  ahead : ∀ s j, t.rules[j]? = some s → j ≠ i → s.Matches message replies b → Ahead (r, i) (s, j)

theorem countP_ahead {front back : List (Rule × Nat)} {x : Rule × Nat}
    (h : (front ++ x :: back).Pairwise Ahead) :
    (front ++ x :: back).countP (fun y => Ahead y x) = front.length := by
  obtain ⟨-, hback, hfront⟩ := List.pairwise_append.mp h
  have hbehind := (List.pairwise_cons.mp hback).1
  rw [List.countP_append, List.countP_cons_of_neg (by simpa using ahead_irrefl x)]
  have hall : front.countP (fun y => Ahead y x) = front.length :=
    List.countP_eq_length.mpr fun y hy => decide_eq_true (hfront y hy x List.mem_cons_self)
  have hnone : back.countP (fun y => Ahead y x) = 0 :=
    List.countP_eq_zero.mpr fun y hy => by simpa using ahead_asymm (hbehind y hy)
  rw [hall, hnone, Nat.add_zero]

/-- Where sorted rules are searched, the one that is found is ahead of all others that match, and as
many have been tried in vain as are ahead of it. -/
theorem search_of_exists [Pattern.SizeLimit] {t : Topic} (hsorted : t.sorted = byRank t.rules)
    {message : Target} {replies : List Target} {b : Pattern.Bindings}
    (h : ∃ r ∈ t.rules, r.Matches message replies b) :
    ∃ r i found, t.Chosen message replies b r i found ∧
      t.search message replies b = (countAhead t.rules (r, i) + 1, some (r, found)) := by
  obtain ⟨ranked, hrank, hperm, hahead⟩ := exists_ranked t.rules
  have hmem : ∀ s j, (s, j) ∈ ranked ↔ t.rules[j]? = some s := fun s j => by
    rw [hperm.mem_iff, List.mem_zipIdx_iff_getElem?]
  -- The first of the ranked rules that matches is found.
  obtain ⟨x, hx⟩ : ∃ x, ranked.find? (fun y => (y.1.match? message replies b).isSome) = some x := by
    obtain ⟨r, hr, hmatches⟩ := h
    obtain ⟨j, hj⟩ := List.mem_iff_getElem?.mp hr
    have hsome := (isSome_match?_iff r message replies b).mpr hmatches
    exact Option.isSome_iff_exists.mp (List.find?_isSome.mpr ⟨(r, j), (hmem r j).mpr hj, hsome⟩)
  obtain ⟨hmatch, front, back, hsplit, hfront⟩ := List.find?_eq_some_iff_append.mp hx
  obtain ⟨r, i⟩ := x
  obtain ⟨found, hfound⟩ := Option.isSome_iff_exists.mp hmatch
  rw [hsplit] at hahead
  obtain ⟨-, hback, -⟩ := List.pairwise_append.mp hahead
  have hbehind := (List.pairwise_cons.mp hback).1
  refine ⟨r, i, found, ⟨?_, hfound, ?_⟩, ?_⟩
  · rw [← hmem, hsplit]
    exact List.mem_append_right front List.mem_cons_self
  · intro s j hj hne hs
    rw [← hmem, hsplit, List.mem_append, List.mem_cons] at hj
    rcases hj with hj | heq | hj
    · have := hfront _ hj
      rw [(isSome_match?_iff s message replies b).mpr hs] at this
      cases this
    · exact absurd (Prod.mk.inj heq).2 hne
    · exact hbehind _ hj
  · have hcount : countAhead t.rules (r, i) = front.length := by
      rw [countAhead, ← hperm.countP_eq, hsplit, countP_ahead hahead]
    have hpast : ∀ s ∈ front.map Prod.fst,
        s.matchNormal? message message.normalized replies b = none := by
      intro s hs
      obtain ⟨y, hy, rfl⟩ := List.mem_map.mp hs
      have hnone : y.1.match? message replies b = none := by simpa using hfront y hy
      exact hnone
    rw [search, hsorted, hrank, hsplit, hcount, List.map_append, List.map_cons,
      firstMatch_append hpast hfound, List.length_map]

theorem search_of_none [Pattern.SizeLimit] {t : Topic} (hsorted : t.sorted = byRank t.rules)
    {message : Target} {replies : List Target} {b : Pattern.Bindings}
    (h : ∀ r ∈ t.rules, ¬ r.Matches message replies b) :
    t.search message replies b = (t.rules.length, none) := by
  have hperm : (byRank t.rules).Perm t.rules := List.mergeSort_perm _ _
  rw [search, hsorted, firstMatch_of_none fun r hr => match?_eq_none (h r (hperm.mem_iff.mp hr)),
    hperm.length_eq]

/-! ## Topics -/

/-- A topic as it comes about: rules and substitutions are added and the rules are sorted, in any
order and any number of times. -/
inductive Built : Topic → Prop
  | new (name : String) : Built { name }
  | insert {t} (before : Built t) (r : Rule) : Built (t.insert r)
  | addSubstitution {t} (before : Built t) (s : Substitution) : Built (t.addSubstitution s)
  | sort {t} (before : Built t) : Built t.sort

/-- While no rule arrives, the order of the last sorting is the right one. -/
theorem Built.sorted_eq {t : Topic} (h : Built t) (hs : t.isSorted = true) :
    t.sorted = byRank t.rules := by
  induction h with
  | new name => simp [byRank]
  | @insert t before r ih =>
    unfold Topic.insert at hs ⊢
    split at hs
    · rename_i hkey
      rw [if_pos hkey]
      exact ih hs
    · cases hs
  | addSubstitution before s ih => exact ih hs
  | @sort t before ih =>
    unfold Topic.sort at hs ⊢
    split at hs
    · rename_i hsorted
      rw [if_pos hsorted]
      exact ih hsorted
    · rename_i hsorted
      rw [if_neg hsorted]

theorem foldl_addSubstitution (t : Topic) (substitutions : List Substitution) :
    substitutions.foldl addSubstitution t =
      { t with substitutions := t.substitutions ++ substitutions } := by
  induction substitutions generalizing t with
  | nil => rw [List.append_nil, List.foldl_nil]
  | cons s substitutions ih =>
    rw [List.foldl_cons, ih]
    simp [addSubstitution]

theorem isSorted_sort (t : Topic) : t.sort.isSorted = true := by
  unfold sort
  split
  · assumption
  · rfl

@[simp] theorem name_sort (t : Topic) : t.sort.name = t.name := by
  unfold sort
  split <;> rfl

@[simp] theorem rules_sort (t : Topic) : t.sort.rules = t.rules := by
  unfold sort
  split <;> rfl

@[simp] theorem substitutions_sort (t : Topic) : t.sort.substitutions = t.substitutions := by
  unfold sort
  split <;> rfl

theorem sort_sort (t : Topic) : t.sort.sort = t.sort := by
  rw [sort, if_pos (isSorted_sort t)]

/-- However a topic came about, sorting it leaves its rules ranked. -/
theorem Built.sorted_sort {t : Topic} (h : Built t) : t.sort.sorted = byRank t.sort.rules :=
  h.sort.sorted_eq (isSorted_sort t)

/-- Nothing of a sorted topic depends on how it came about but its name, its rules and its
substitutions. -/
theorem Built.sort_eq {t : Topic} (h : Built t) :
    t.sort = ⟨t.name, t.rules, byRank t.rules, true, t.substitutions⟩ :=
  calc t.sort = ⟨t.sort.name, t.sort.rules, t.sort.sorted, t.sort.isSorted,
        t.sort.substitutions⟩ := rfl
    _ = _ := by
      rw [h.sorted_sort, isSorted_sort, name_sort, rules_sort, substitutions_sort]

/-! ## Rules of different ranks -/

section Ranks

variable {t : Topic} {r s : Rule}

/-- In a sorted topic, the rule of the higher rank is in front, and not behind as well. -/
theorem Built.sublist_sorted (h : t.Built) (hr : r ∈ t.rules) (hs : s ∈ t.rules)
    (hlt : s.rank < r.rank) : [r, s].Sublist t.sort.sorted ∧ ¬ [s, r].Sublist t.sort.sorted := by
  have hperm : (byRank t.rules).Perm t.rules := List.mergeSort_perm _ _
  have hbehind : ¬ [s, r].Sublist (byRank t.rules) := fun hsub =>
    not_le_of_gt hlt (List.pairwise_iff_forall_sublist.mp (pairwise_byRank t.rules) hsub)
  have hne : r ≠ s := by
    rintro rfl
    exact lt_irrefl _ hlt
  rw [h.sorted_sort, rules_sort]
  exact ⟨(sublist_or_sublist (hperm.mem_iff.mpr hr) (hperm.mem_iff.mpr hs) hne).resolve_right
    hbehind, hbehind⟩

/-- While a rule matches, no search ends at one of a lower rank. -/
theorem Built.search_ne [Pattern.SizeLimit] (h : t.Built) (hr : r ∈ t.rules) (hlt : s.rank < r.rank)
    {message : Target} {replies : List Target} {b : Pattern.Bindings}
    (hmatch : r.Matches message replies b) (tried : Nat) (found : Match) :
    t.sort.search message replies b ≠ (tried, some (s, found)) := by
  have hmem : r ∈ t.sort.rules := by rwa [rules_sort]
  obtain ⟨q, i, found', hchosen, hsearch⟩ := search_of_exists h.sorted_sort ⟨r, hmem, hmatch⟩
  intro hend
  rw [hsearch] at hend
  cases hend
  obtain ⟨j, hj⟩ := List.mem_iff_getElem?.mp hmem
  have hne : j ≠ i := by
    rintro rfl
    obtain rfl := Option.some.inj (hj.symm.trans hchosen.registered)
    exact lt_irrefl _ hlt
  rcases hchosen.ahead r j hj hne hmatch with hahead | ⟨heq, -⟩
  · exact lt_asymm hlt hahead
  · exact ne_of_gt hlt heq

end Ranks

end Topic
end Repartee
