import Repartee.Pattern.Regex.Match

/-!
# What a regular expression matches

`Regex.Matches` says between which two places of a text an expression matches, form by form and
without any preference. The two directions of the matcher are right by it: `Regex.viable` yields the
places from which a match leads into the given set (`has_viable`), and `Regex.walk` takes one of
these matches whenever there is any (`matches_of_walk_eq_some`, `isSome_walk`), for a run of words
the shortest one (`exists_least_run_of_wordsEnd?`). So a whole text is matched exactly if the
expression matches from its first place to its last one (`isSome_matchWhole?`). What is remembered
on the way are matches of the expressions in the groups (`exists_captured_of_walk`).
-/

namespace Repartee.Pattern.Regex

open Repartee.Unicode

variable {text : Array Char}

/-- So many words of the class stand between the two places, all but the last one with a white space
character behind them. -/
inductive Run (text : Array Char) (kind : WordClass) : Nat → Nat → Nat → Prop
  | last {i j} (word : lastWord? text kind i = some j) : Run text kind 1 i j
  | next {n i j k} (word : nextWord? text kind i = some j) (others : Run text kind n j k) :
      Run text kind (n + 1) i k

/-- The expression matches from the first place to the second one. -/
def Matches (text : Array Char) : Regex → Nat → Nat → Prop
  | empty, i, j => j = i
  | literal s, i, j => literalAt text s.toList i = true ∧ j = i + s.length
  | boundary, i, j => isBoundary text i = true ∧ j = i
  | blank, i, j => (holdsAt text isBlank i = true ∧ j = i + 1) ∨ j = i
  | words kind min max, i, j =>
    ∃ n, min ≤ n ∧ (∀ most ∈ max, n ≤ 1 ∨ n ≤ most) ∧ Run text kind n i j
  | seq first second, i, k => ∃ j, first.Matches text i j ∧ second.Matches text j k
  | alt first second, i, j => first.Matches text i j ∨ second.Matches text i j
  | optional inner, i, j => inner.Matches text i j ∨ j = i
  | group inner, i, j => inner.Matches text i j
  | capture _ inner, i, j => inner.Matches text i j

/-! ## Form by form -/

section Forms

variable {first second inner : Regex} {goal : Places} {i j k : Nat}

theorem matches_empty : empty.Matches text i j ↔ j = i := Iff.rfl

theorem matches_literal {s : String} : (literal s).Matches text i j ↔
    literalAt text s.toList i = true ∧ j = i + s.length := Iff.rfl

theorem matches_boundary : boundary.Matches text i j ↔ isBoundary text i = true ∧ j = i := Iff.rfl

theorem matches_blank :
    blank.Matches text i j ↔ (holdsAt text isBlank i = true ∧ j = i + 1) ∨ j = i := Iff.rfl

theorem matches_seq : (seq first second).Matches text i k ↔
    ∃ j, first.Matches text i j ∧ second.Matches text j k := Iff.rfl

theorem matches_alt : (alt first second).Matches text i j ↔
    first.Matches text i j ∨ second.Matches text i j := Iff.rfl

theorem matches_optional : (optional inner).Matches text i j ↔ inner.Matches text i j ∨ j = i :=
  Iff.rfl

theorem matches_group : (group inner).Matches text i j ↔ inner.Matches text i j := Iff.rfl

theorem matches_capture {index : Nat} :
    (capture index inner).Matches text i j ↔ inner.Matches text i j := Iff.rfl

theorem walk_empty : walk text empty goal i = if goal.has i then some (i, []) else none := rfl

theorem walk_literal {s : String} : walk text (literal s) goal i =
    if literalAt text s.toList i && goal.has (i + s.length) then some (i + s.length, [])
    else none := rfl

theorem walk_boundary : walk text boundary goal i =
    if isBoundary text i && goal.has i then some (i, []) else none := rfl

theorem walk_blank : walk text blank goal i =
    if holdsAt text isBlank i && goal.has (i + 1) then some (i + 1, [])
    else if goal.has i then some (i, []) else none := rfl

theorem walk_words {kind : WordClass} {min : Nat} {max : Option Nat} :
    walk text (words kind min max) goal i =
      (wordsFrom? text kind min max goal i).map fun j => (j, []) := rfl

theorem walk_alt : walk text (alt first second) goal i =
    (walk text first goal i).or (walk text second goal i) := rfl

theorem walk_optional : walk text (optional inner) goal i =
    (walk text inner goal i).or (if goal.has i then some (i, []) else none) := rfl

end Forms

/-! ## Runs of words -/

theorem lt_of_lastWord? {kind : WordClass} {i j : Nat} (h : lastWord? text kind i = some j) :
    i < j := by
  unfold lastWord? at h
  simp only [Option.ite_none_right_eq_some, Bool.and_eq_true, decide_eq_true_eq] at h
  obtain ⟨⟨hlt, -⟩, hj⟩ := h
  exact Option.some.inj hj ▸ hlt

theorem lt_of_nextWord? {kind : WordClass} {i j : Nat} (h : nextWord? text kind i = some j) :
    i < j := by
  unfold nextWord? at h
  simp only [Option.ite_none_right_eq_some, Bool.and_eq_true, decide_eq_true_eq] at h
  obtain ⟨⟨hlt, -⟩, hj⟩ := h
  exact Option.some.inj hj ▸ Nat.lt_succ_of_lt hlt

theorem Run.add_le {kind : WordClass} {n i j : Nat} (h : Run text kind n i j) : i + n ≤ j := by
  induction h with
  | last word => exact lt_of_lastWord? word
  | next word others ih =>
    have := lt_of_nextWord? word
    omega

theorem Run.pos {kind : WordClass} {n i j : Nat} (h : Run text kind n i j) : 1 ≤ n := by
  cases h with
  | last word => exact Nat.le_refl 1
  | next word others => exact Nat.le_add_left 1 _

section Words

variable {kind : WordClass} {goal : Places}

/-- The end that is found is in the set, and no run with fewer words has one that is. -/
theorem exists_least_run_of_wordsEnd? {fuel min : Nat} {max : Option Nat} {i j : Nat}
    (h : wordsEnd? text kind goal fuel min max i = some j) :
    goal.has j = true ∧ ∃ n, min ≤ n ∧ (∀ most ∈ max, n ≤ 1 ∨ n ≤ most) ∧
      Run text kind n i j ∧ ∀ m k, min ≤ m → (∀ most ∈ max, m ≤ 1 ∨ m ≤ most) →
        Run text kind m i k → goal.has k = true → n ≤ m := by
  induction fuel generalizing min max i with
  | zero => cases h
  | succ fuel ih =>
    unfold wordsEnd? at h
    rcases Option.or_eq_some_iff.mp h with hhere | ⟨hnone, hthere⟩
    · obtain ⟨hmin, hlast⟩ := Option.ite_none_right_eq_some.mp hhere
      obtain ⟨hword, hgoal⟩ := Option.filter_eq_some_iff.mp hlast
      exact ⟨hgoal, 1, hmin, fun most _ => .inl (Nat.le_refl 1), .last hword,
        fun m k _ _ hrun _ => hrun.pos⟩
    · obtain ⟨hmax, hnext⟩ := Option.ite_none_left_eq_some.mp hthere
      obtain ⟨l, hword, hrest⟩ := Option.bind_eq_some_iff.mp hnext
      obtain ⟨hgoal, n, hmin, hmost, hrun, hleast⟩ := ih hrest
      refine ⟨hgoal, n + 1, by omega, ?_, .next hword hrun, ?_⟩
      · rintro most rfl
        have := hmost (most - 1) rfl
        have htwo : ¬ most ≤ 1 := by simpa using hmax
        omega
      · intro m k hminm hmostm hrunm hgoalk
        cases hrunm with
        | last hword' =>
          -- a single word that does had been taken
          rw [if_pos hminm, hword', Option.filter_some, if_pos hgoalk] at hnone
          cases hnone
        | @next m _ _ _ hword' others =>
          cases hword.symm.trans hword'
          have hpos := others.pos
          refine Nat.succ_le_succ (hleast m k (by omega) ?_ others hgoalk)
          intro most hm
          obtain ⟨most, hmost', rfl⟩ := Option.map_eq_some_iff.mp hm
          have := hmostm most hmost'
          omega

theorem run_of_wordsEnd?_eq_some {fuel min : Nat} {max : Option Nat} {i j : Nat}
    (h : wordsEnd? text kind goal fuel min max i = some j) :
    goal.has j = true ∧ ∃ n, min ≤ n ∧ (∀ most ∈ max, n ≤ 1 ∨ n ≤ most) ∧
      Run text kind n i j := by
  obtain ⟨hgoal, n, hmin, hmost, hrun, -⟩ := exists_least_run_of_wordsEnd? h
  exact ⟨hgoal, n, hmin, hmost, hrun⟩

theorem isSome_wordsEnd? {fuel n min : Nat} {max : Option Nat} {i j : Nat}
    (hrun : Run text kind n i j) (hmin : min ≤ n) (hmost : ∀ most ∈ max, n ≤ 1 ∨ n ≤ most)
    (hgoal : goal.has j = true) (hfuel : n ≤ fuel) :
    (wordsEnd? text kind goal fuel min max i).isSome = true := by
  induction hrun generalizing fuel min max with
  | last hword =>
    obtain ⟨fuel, rfl⟩ := Nat.exists_eq_add_of_le' hfuel
    unfold wordsEnd?
    simp [hmin, hword, hgoal]
  | @next n i k j hword others ih =>
    obtain ⟨fuel, rfl⟩ := Nat.exists_eq_add_of_le' (Nat.le_trans (Nat.le_add_left 1 n) hfuel)
    have hpos := others.pos
    unfold wordsEnd?
    rw [Option.isSome_or, Bool.or_eq_true]
    right
    have hmax : max.any (· ≤ 1) = false := by
      cases max with
      | none => rfl
      | some most =>
        have := hmost most rfl
        simp only [Option.any_some, decide_eq_false_iff_not]
        omega
    rw [hmax, if_neg Bool.false_ne_true, hword, Option.bind_some]
    refine ih (by omega) ?_ hgoal (by omega)
    intro most hm
    obtain ⟨m, hm', rfl⟩ := Option.map_eq_some_iff.mp hm
    have := hmost m hm'
    omega

end Words

/-! ## Places from which the set can be reached -/

theorem Matches.le {r : Regex} {i j : Nat} (h : r.Matches text i j) : i ≤ j := by
  induction r generalizing i j with
  | empty => exact Nat.le_of_eq (Eq.symm h)
  | literal s =>
    obtain ⟨-, rfl⟩ := h
    exact Nat.le_add_right i _
  | boundary => exact Nat.le_of_eq h.2.symm
  | blank =>
    rcases h with ⟨-, rfl⟩ | rfl
    · exact Nat.le_succ i
    · exact Nat.le_refl j
  | words kind min max =>
    obtain ⟨n, -, -, hrun⟩ := h
    exact Nat.le_trans (Nat.le_add_right i n) hrun.add_le
  | seq first second ihFirst ihSecond =>
    obtain ⟨k, hfirst, hsecond⟩ := h
    exact Nat.le_trans (ihFirst hfirst) (ihSecond hsecond)
  | alt first second ihFirst ihSecond =>
    rcases h with h | h
    · exact ihFirst h
    · exact ihSecond h
  | optional inner ih =>
    rcases h with h | rfl
    · exact ih h
    · exact Nat.le_refl j
  | group inner ih => exact ih h
  | capture index inner ih => exact ih h

/-- All places of the set are places of the text. -/
def Within (text : Array Char) (goal : Places) : Prop :=
  ∀ j, goal.has j = true → j ≤ text.size

theorem has_tabulate_iff {r : Regex} {goal : Places} (hgoal : Within text goal) {p : Nat → Bool}
    (key : ∀ i, p i = true ↔ ∃ j, r.Matches text i j ∧ goal.has j = true) (i : Nat) :
    (Places.tabulate text.size p).has i = true ↔ ∃ j, r.Matches text i j ∧ goal.has j = true := by
  rw [Places.has_tabulate, Bool.and_eq_true, decide_eq_true_eq, key]
  constructor
  · exact And.right
  · rintro ⟨j, hmatch, hhas⟩
    exact ⟨Nat.le_trans hmatch.le (hgoal j hhas), j, hmatch, hhas⟩

theorem within_of_matches {r : Regex} {goal starts : Places} (hgoal : Within text goal)
    (key : ∀ i, starts.has i = true → ∃ j, r.Matches text i j ∧ goal.has j = true) :
    Within text starts := by
  intro i hi
  obtain ⟨j, hmatch, hhas⟩ := key i hi
  exact Nat.le_trans hmatch.le (hgoal j hhas)

/-- The expression can start exactly where a match leads into the set. -/
theorem has_viable (r : Regex) {goal : Places} (hgoal : Within text goal) (i : Nat) :
    (viable text r goal).has i = true ↔ ∃ j, r.Matches text i j ∧ goal.has j = true := by
  induction r generalizing goal i with
  | empty =>
    simp only [matches_empty, exists_eq_left]
    rfl
  | literal s =>
    refine has_tabulate_iff hgoal (fun i => ?_) i
    simp [matches_literal, and_assoc]
  | boundary =>
    refine has_tabulate_iff hgoal (fun i => ?_) i
    simp [matches_boundary, and_assoc]
  | blank =>
    refine has_tabulate_iff hgoal (fun i => ?_) i
    simp [matches_blank, or_and_right, exists_or, and_assoc]
  | words kind min max =>
    refine has_tabulate_iff hgoal (fun i => ?_) i
    constructor
    · intro h
      obtain ⟨j, hj⟩ := Option.isSome_iff_exists.mp h
      obtain ⟨hhas, hrun⟩ := run_of_wordsEnd?_eq_some hj
      exact ⟨j, hrun, hhas⟩
    · rintro ⟨j, ⟨n, hmin, hmax, hrun⟩, hhas⟩
      have := hgoal j hhas
      have := hrun.add_le
      exact isSome_wordsEnd? hrun hmin hmax hhas (by omega)
  | seq first second ihFirst ihSecond =>
    have hsecond := within_of_matches hgoal fun j => (ihSecond hgoal j).mp
    refine (ihFirst hsecond i).trans ?_
    constructor
    · rintro ⟨j, hj, hvia⟩
      obtain ⟨k, hk, hhas⟩ := (ihSecond hgoal j).mp hvia
      exact ⟨k, ⟨j, hj, hk⟩, hhas⟩
    · rintro ⟨k, ⟨j, hj, hk⟩, hhas⟩
      exact ⟨j, hj, (ihSecond hgoal j).mpr ⟨k, hk, hhas⟩⟩
  | alt first second ihFirst ihSecond =>
    refine has_tabulate_iff hgoal (fun i => ?_) i
    rw [Bool.or_eq_true, ihFirst hgoal, ihSecond hgoal]
    simp only [matches_alt, or_and_right, exists_or]
  | optional inner ih =>
    refine has_tabulate_iff hgoal (fun i => ?_) i
    rw [Bool.or_eq_true, ih hgoal]
    simp only [matches_optional, or_and_right, exists_or, exists_eq_left]
  | group inner ih => exact ih hgoal i
  | capture index inner ih => exact ih hgoal i

theorem within_viable (r : Regex) {goal : Places} (hgoal : Within text goal) :
    Within text (viable text r goal) :=
  within_of_matches hgoal fun i => (has_viable r hgoal i).mp

/-! ## The preferred way -/

theorem walk_seq_eq_some {first second : Regex} {goal : Places} {i k : Nat} {marks : List Mark} :
    walk text (.seq first second) goal i = some (k, marks) ↔
      ∃ j before after, walk text first (viable text second goal) i = some (j, before) ∧
        walk text second goal j = some (k, after) ∧ marks = before ++ after := by
  constructor
  · intro h
    obtain ⟨⟨j, before⟩, hfirst, hrest⟩ := Option.bind_eq_some_iff.mp h
    obtain ⟨⟨l, after⟩, hsecond, heq⟩ := Option.bind_eq_some_iff.mp hrest
    cases heq
    exact ⟨j, before, after, hfirst, hsecond, rfl⟩
  · rintro ⟨j, before, after, hfirst, hsecond, rfl⟩
    exact Option.bind_eq_some_iff.mpr
      ⟨(j, before), hfirst, Option.bind_eq_some_iff.mpr ⟨(k, after), hsecond, rfl⟩⟩

theorem walk_capture_eq_some {index : Nat} {inner : Regex} {goal : Places} {i j : Nat}
    {marks : List Mark} : walk text (.capture index inner) goal i = some (j, marks) ↔
      ∃ inside, walk text inner goal i = some (j, inside) ∧ marks = (index, i, j) :: inside := by
  constructor
  · intro h
    obtain ⟨⟨k, inside⟩, hinner, heq⟩ := Option.bind_eq_some_iff.mp h
    cases heq
    exact ⟨inside, hinner, rfl⟩
  · rintro ⟨inside, hinner, rfl⟩
    exact Option.bind_eq_some_iff.mpr ⟨(j, inside), hinner, rfl⟩

/-- The preferred way is a match that leads into the set. -/
theorem matches_of_walk_eq_some {r : Regex} {goal : Places} {i j : Nat} {marks : List Mark}
    (h : walk text r goal i = some (j, marks)) : r.Matches text i j ∧ goal.has j = true := by
  induction r generalizing goal i j marks with
  | empty =>
    obtain ⟨hhas, heq⟩ := Option.ite_none_right_eq_some.mp h
    cases heq
    exact ⟨rfl, hhas⟩
  | literal s =>
    obtain ⟨hboth, heq⟩ := Option.ite_none_right_eq_some.mp h
    obtain ⟨hat, hhas⟩ := Bool.and_eq_true_iff.mp hboth
    cases heq
    exact ⟨⟨hat, rfl⟩, hhas⟩
  | boundary =>
    obtain ⟨hboth, heq⟩ := Option.ite_none_right_eq_some.mp h
    obtain ⟨hat, hhas⟩ := Bool.and_eq_true_iff.mp hboth
    cases heq
    exact ⟨⟨hat, rfl⟩, hhas⟩
  | blank =>
    rw [walk_blank] at h
    split at h
    · rename_i hboth
      obtain ⟨hat, hhas⟩ := Bool.and_eq_true_iff.mp hboth
      cases h
      exact ⟨.inl ⟨hat, rfl⟩, hhas⟩
    · obtain ⟨hhas, heq⟩ := Option.ite_none_right_eq_some.mp h
      cases heq
      exact ⟨.inr rfl, hhas⟩
  | words kind min max =>
    obtain ⟨k, hk, heq⟩ := Option.map_eq_some_iff.mp h
    cases heq
    obtain ⟨hhas, hrun⟩ := run_of_wordsEnd?_eq_some hk
    exact ⟨hrun, hhas⟩
  | seq first second ihFirst ihSecond =>
    obtain ⟨k, before, after, hfirst, hsecond, rfl⟩ := walk_seq_eq_some.mp h
    obtain ⟨hmatch, hhas⟩ := ihSecond hsecond
    exact ⟨⟨k, (ihFirst hfirst).1, hmatch⟩, hhas⟩
  | alt first second ihFirst ihSecond =>
    rcases Option.or_eq_some_iff.mp h with h | ⟨-, h⟩
    · exact ⟨.inl (ihFirst h).1, (ihFirst h).2⟩
    · exact ⟨.inr (ihSecond h).1, (ihSecond h).2⟩
  | optional inner ih =>
    rcases Option.or_eq_some_iff.mp h with h | ⟨-, h⟩
    · exact ⟨.inl (ih h).1, (ih h).2⟩
    · obtain ⟨hhas, heq⟩ := Option.ite_none_right_eq_some.mp h
      cases heq
      exact ⟨.inr rfl, hhas⟩
  | group inner ih => exact ih h
  | capture index inner ih =>
    obtain ⟨inside, hinner, rfl⟩ := walk_capture_eq_some.mp h
    exact ih hinner

/-- What the preferred way remembers are matches of the expressions in its groups. -/
theorem exists_captured_of_walk {r : Regex} {goal : Places} {i j : Nat} {marks : List Mark}
    (h : walk text r goal i = some (j, marks)) :
    ∀ m ∈ marks, ∃ inner, (m.1, inner) ∈ r.captured ∧ inner.Matches text m.2.1 m.2.2 := by
  induction r generalizing goal i j marks with
  | empty | literal | boundary =>
    obtain ⟨-, heq⟩ := Option.ite_none_right_eq_some.mp h
    cases heq
    exact List.forall_mem_nil _
  | blank =>
    rw [walk_blank] at h
    split at h
    · cases h
      exact List.forall_mem_nil _
    · obtain ⟨-, heq⟩ := Option.ite_none_right_eq_some.mp h
      cases heq
      exact List.forall_mem_nil _
  | words kind min max =>
    obtain ⟨k, -, heq⟩ := Option.map_eq_some_iff.mp h
    cases heq
    exact List.forall_mem_nil _
  | seq first second ihFirst ihSecond =>
    obtain ⟨k, before, after, hfirst, hsecond, rfl⟩ := walk_seq_eq_some.mp h
    intro m hm
    rcases List.mem_append.mp hm with hm | hm
    · exact (ihFirst hfirst m hm).imp fun _ => And.imp_left (List.mem_append_left _)
    · exact (ihSecond hsecond m hm).imp fun _ => And.imp_left (List.mem_append_right _)
  | alt first second ihFirst ihSecond =>
    intro m hm
    rcases Option.or_eq_some_iff.mp h with h | ⟨-, h⟩
    · exact (ihFirst h m hm).imp fun _ => And.imp_left (List.mem_append_left _)
    · exact (ihSecond h m hm).imp fun _ => And.imp_left (List.mem_append_right _)
  | optional inner ih =>
    rcases Option.or_eq_some_iff.mp h with h | ⟨-, h⟩
    · exact ih h
    · obtain ⟨-, heq⟩ := Option.ite_none_right_eq_some.mp h
      cases heq
      exact List.forall_mem_nil _
  | group inner ih => exact ih h
  | capture index inner ih =>
    obtain ⟨inside, hinner, rfl⟩ := walk_capture_eq_some.mp h
    intro m hm
    rcases List.mem_cons.mp hm with rfl | hm
    · exact ⟨inner, List.mem_cons_self, (matches_of_walk_eq_some hinner).1⟩
    · exact (ih hinner m hm).imp fun _ => And.imp_left (List.mem_cons_of_mem _)

/-- Where there are no groups, nothing is remembered. -/
theorem eq_nil_of_walk {r : Regex} (h : r.captured = []) {goal : Places} {i j : Nat}
    {marks : List Mark} (hwalk : walk text r goal i = some (j, marks)) : marks = [] := by
  refine List.eq_nil_iff_forall_not_mem.mpr fun m hm => ?_
  obtain ⟨inner, hinner, -⟩ := exists_captured_of_walk hwalk m hm
  rw [h] at hinner
  cases hinner

theorem isSome_walk {r : Regex} {goal : Places} (hgoal : Within text goal) {i j : Nat}
    (h : r.Matches text i j) (hhas : goal.has j = true) : (walk text r goal i).isSome = true := by
  induction r generalizing goal i j with
  | empty =>
    obtain rfl := h
    simp [walk_empty, hhas]
  | literal s =>
    obtain ⟨hat, rfl⟩ := h
    simp [walk_literal, hat, hhas]
  | boundary =>
    obtain ⟨hat, rfl⟩ := h
    simp [walk_boundary, hat, hhas]
  | blank =>
    rw [walk_blank]
    split
    · rfl
    · rename_i hboth
      rcases h with ⟨hat, rfl⟩ | rfl
      · exact absurd (Bool.and_eq_true_iff.mpr ⟨hat, hhas⟩) hboth
      · rw [if_pos hhas]
        rfl
  | words kind min max =>
    obtain ⟨n, hmin, hmax, hrun⟩ := h
    have := hgoal j hhas
    have := hrun.add_le
    rw [walk_words, Option.isSome_map]
    exact isSome_wordsEnd? hrun hmin hmax hhas (by omega)
  | seq first second ihFirst ihSecond =>
    obtain ⟨k, hfirst, hsecond⟩ := h
    have hk := (has_viable second hgoal k).mpr ⟨j, hsecond, hhas⟩
    obtain ⟨⟨k', before⟩, hwalk⟩ :=
      Option.isSome_iff_exists.mp (ihFirst (within_viable second hgoal) hfirst hk)
    obtain ⟨j', hsecond', hhas'⟩ :=
      (has_viable second hgoal k').mp (matches_of_walk_eq_some hwalk).2
    obtain ⟨⟨l, after⟩, hwalk'⟩ := Option.isSome_iff_exists.mp (ihSecond hgoal hsecond' hhas')
    exact Option.isSome_iff_exists.mpr
      ⟨_, walk_seq_eq_some.mpr ⟨k', before, after, hwalk, hwalk', rfl⟩⟩
  | alt first second ihFirst ihSecond =>
    rw [walk_alt, Option.isSome_or, Bool.or_eq_true]
    rcases h with h | h
    · exact .inl (ihFirst hgoal h hhas)
    · exact .inr (ihSecond hgoal h hhas)
  | optional inner ih =>
    rw [walk_optional, Option.isSome_or, Bool.or_eq_true]
    rcases h with h | rfl
    · exact .inl (ih hgoal h hhas)
    · exact .inr (by rw [if_pos hhas]; rfl)
  | group inner ih => exact ih hgoal h hhas
  | capture index inner ih =>
    obtain ⟨⟨k, inside⟩, hwalk⟩ := Option.isSome_iff_exists.mp (ih hgoal h hhas)
    exact Option.isSome_iff_exists.mpr ⟨_, walk_capture_eq_some.mpr ⟨inside, hwalk, rfl⟩⟩

theorem has_tabulate_size {size j : Nat} :
    (Places.tabulate size (· == size)).has j = true ↔ j = size := by
  rw [Places.has_tabulate, Bool.and_eq_true, decide_eq_true_eq, beq_iff_eq]
  omega

theorem within_tabulate_size : Within text (Places.tabulate text.size (· == text.size)) :=
  fun _ hj => Nat.le_of_eq (has_tabulate_size.mp hj)

/-- A whole text is matched exactly if the expression matches from its beginning to its end. -/
theorem isSome_matchWhole? (r : Regex) :
    (matchWhole? text r).isSome = true ↔ r.Matches text 0 text.size := by
  unfold matchWhole?
  rw [Option.isSome_map]
  constructor
  · intro h
    obtain ⟨⟨j, marks⟩, hwalk⟩ := Option.isSome_iff_exists.mp h
    obtain ⟨hmatch, hhas⟩ := matches_of_walk_eq_some hwalk
    obtain rfl := has_tabulate_size.mp hhas
    exact hmatch
  · intro h
    exact isSome_walk within_tabulate_size h (has_tabulate_size.mpr rfl)

end Repartee.Pattern.Regex
