import Repartee.Proofs.Pattern.Language
import Repartee.Proofs.Pattern.Regex.Standing

/-!
# Where memos begin and end

In a text of words, the way that the matcher takes keeps to what an expression ensures
(`holds_of_walk`): white space may be left out only where there is none, since whatever can go on
from a place with white space can go on behind it as well (`skipsBlanks_viable`). So a memo begins
where a word begins, or at the end of the text (`holds_of_matchWhole?`), and the words that it takes
in from there on are words of the text (`Place.split_of_settled`).
-/

namespace Repartee.Pattern

open Repartee.Unicode Repartee.Text Regex

/-- The place in the text of these words is of this standing. -/
def Standing.Holds (ws : List String) : Standing → Nat → Prop
  | settled, i => (∃ done, Place ws done i) ∧ holdsAt (textOf ws) isBlank i = false
  | between, i => ∃ done, Place ws done i
  | inside, i => isBoundary (textOf ws) i = true → ∃ done, Place ws done i

theorem Standing.Holds.place {ws : List String} {s : Standing} {i : Nat} (h : s.Holds ws i)
    (hs : s ≠ .inside) : ∃ done, Place ws done i := by
  cases s with
  | settled => exact h.1
  | between => exact h
  | inside => exact absurd rfl hs

theorem Standing.Holds.bounded {ws : List String} {s : Standing} {i : Nat} (h : s.Holds ws i)
    (hboundary : isBoundary (textOf ws) i = true) : s.bounded.Holds ws i := by
  cases s with
  | settled => exact h
  | between => exact h
  | inside => exact h hboundary

namespace Regex

section Normal

variable {ws : List String} (hws : ∀ w ∈ ws, IsNormalWord w)

include hws

/-! ## White space -/

/-- White space in the text has words on both sides. -/
theorem exists_of_isBlank {i : Nat} (h : holdsAt (textOf ws) isBlank i = true) :
    ∃ done todo, ws = done ++ todo ∧ done ≠ [] ∧ todo ≠ [] ∧ i = (unwords done).toList.length := by
  unfold holdsAt at h
  rw [Option.any_eq_true] at h
  obtain ⟨c, hget, hc⟩ := h
  rw [textOf, List.getElem?_toArray] at hget
  obtain ⟨hi, rfl⟩ := List.getElem?_eq_some_iff.mp hget
  have hcut := (List.take_append_drop i (unwords ws).toList).symm
  rw [List.drop_eq_getElem_cons hi] at hcut
  obtain ⟨done, todo, hws, hdone, htodo, hfront⟩ := exists_of_toList_unwords hws hc hcut
  refine ⟨done, todo, hws, hdone, htodo, ?_⟩
  rw [hfront, List.length_take, Nat.min_eq_left (Nat.le_of_lt hi)]

theorem isBoundary_of_isBlank {i : Nat} (h : holdsAt (textOf ws) isBlank i = true) :
    isBoundary (textOf ws) (i + 1) = true := by
  obtain ⟨done, todo, hsplit, hdone, htodo, rfl⟩ := exists_of_isBlank hws h
  have hne : ws ≠ [] := by simp [hsplit, hdone]
  have := isBoundary_of_place hws hne (.start hsplit htodo)
  rwa [length_ahead hdone] at this

theorem isBlank_behind_blank {i : Nat} (h : holdsAt (textOf ws) isBlank i = true) :
    holdsAt (textOf ws) isBlank (i + 1) = false := by
  obtain ⟨done, todo, hsplit, hdone, htodo, rfl⟩ := exists_of_isBlank hws h
  rw [← length_ahead hdone]
  exact isBlank_start hws hsplit htodo

/-- Where there is white space, an expression matches nothing, or matches behind it as well. -/
theorem matches_behind_blank {r : Regex} {Q : Standing → Prop} {s : Standing} (h : r.Ensures Q s)
    {i j : Nat} (hblank : holdsAt (textOf ws) isBlank i = true)
    (hmatch : r.Matches (textOf ws) i j) :
    (j = i ∧ r.Matches (textOf ws) (i + 1) (i + 1)) ∨ r.Matches (textOf ws) (i + 1) j := by
  induction r generalizing Q s j with
  | empty => exact .inl ⟨hmatch, rfl⟩
  | literal text =>
    obtain ⟨-, ⟨us, hne, hus, rfl⟩, -⟩ := h
    obtain ⟨done, todo, hsplit, hdone, -, rfl⟩ := exists_of_isBlank hws hblank
    have := hmatch.1
    rw [hsplit, Faithful.literalAt_stop hne hus fun hnil => absurd hnil hdone] at this
    cases this
  | boundary => exact .inl ⟨hmatch.2, isBoundary_of_isBlank hws hblank, rfl⟩
  | blank =>
    rcases hmatch with ⟨-, rfl⟩ | rfl
    · exact .inr (.inr rfl)
    · exact .inl ⟨rfl, .inr rfl⟩
  | words kind min max =>
    obtain ⟨n, -, -, hrun⟩ := hmatch
    obtain ⟨done, todo, rfl, hdone, -, rfl⟩ := exists_of_isBlank hws hblank
    have hsome : done = [] → todo = [] := fun hnil => absurd hnil hdone
    cases hrun with
    | last hword => rw [lastWord?_stop hsome] at hword; cases hword
    | next hword others => rw [nextWord?_stop hsome] at hword; cases hword
  | seq first second ihFirst ihSecond =>
    -- Only if the first one matches nothing does the second one start at the white space.
    obtain ⟨k, hfirst, hsecond⟩ := hmatch
    change first.Ensures (second.Ensures Q) s at h
    obtain ⟨s', hs'⟩ := exists_of_ensures h
    rcases ihFirst h hfirst with ⟨rfl, hfirst'⟩ | hfirst'
    · rcases ihSecond hs' hsecond with ⟨rfl, hsecond'⟩ | hsecond'
      · exact .inl ⟨rfl, _, hfirst', hsecond'⟩
      · exact .inr ⟨_, hfirst', hsecond'⟩
    · exact .inr ⟨k, hfirst', hsecond⟩
  | alt first second ihFirst ihSecond =>
    rcases hmatch with hmatch | hmatch
    · exact (ihFirst h.1 hmatch).imp (And.imp_right .inl) .inl
    · exact (ihSecond h.2 hmatch).imp (And.imp_right .inr) .inr
  | optional inner ih =>
    rcases hmatch with hmatch | rfl
    · exact (ih h.1 hmatch).imp (And.imp_right .inl) .inl
    · exact .inl ⟨rfl, .inr rfl⟩
  | group inner ih => exact ih h hmatch
  | capture index inner ih => exact ih h.2 hmatch

/-- Where it is good to arrive at white space, it is good to arrive behind it. -/
def SkipsBlanks (ws : List String) (goal : Places) : Prop :=
  ∀ i, holdsAt (textOf ws) isBlank i = true → goal.has i = true → goal.has (i + 1) = true

theorem skipsBlanks_viable {r : Regex} {Q : Standing → Prop} {s : Standing} (h : r.Ensures Q s)
    {goal : Places} (within : Within (textOf ws) goal) (skips : SkipsBlanks ws goal) :
    SkipsBlanks ws (viable (textOf ws) r goal) := by
  intro i hblank hhas
  obtain ⟨j, hmatch, hgoal⟩ := (has_viable r within i).mp hhas
  refine (has_viable r within (i + 1)).mpr ?_
  rcases matches_behind_blank hws h hblank hmatch with ⟨rfl, hmatch'⟩ | hmatch'
  · exact ⟨j + 1, hmatch', skips j hblank hgoal⟩
  · exact ⟨j, hmatch', hgoal⟩

/-! ## The way of the matcher -/

/-- Literal words have arrived where a word ends if there is a boundary behind them. -/
theorem holds_inside_of_literalAt {us : List String} (hne : us ≠ [])
    (hus : ∀ u ∈ us, Grammar.Word u.toList) {done : List String} {i : Nat}
    (hplace : Place ws done i)
    (hat : literalAt (textOf ws) (unwords us).toList i = true) :
    Standing.inside.Holds ws (i + (unwords us).length) := by
  intro hboundary
  obtain ⟨us', -, hplace'⟩ := (Faithful.literal hws hne hus).sound hplace
    ⟨_, ⟨hat, rfl⟩, hboundary, rfl⟩
  exact ⟨_, hplace'⟩

/-- Where white space may be, the way goes on behind it, whether there was any or not. -/
theorem holds_settled_of_walk_blank {goal : Places} (skips : SkipsBlanks ws goal)
    {done : List String} {i j : Nat} (hplace : Place ws done i) {marks : List Mark}
    (hwalk : walk (textOf ws) .blank goal i = some (j, marks)) :
    Standing.settled.Holds ws j ∧ marks = [] := by
  rw [walk_blank] at hwalk
  split at hwalk
  · rename_i hboth
    obtain ⟨hblank, -⟩ := Bool.and_eq_true_iff.mp hboth
    cases hwalk
    exact ⟨⟨⟨done, place_of_isBlank hws hplace hblank⟩, isBlank_behind_blank hws hblank⟩, rfl⟩
  · -- White space that is there would have been taken, as it leads into the set as well.
    rename_i hboth
    obtain ⟨hhas, heq⟩ := Option.ite_none_right_eq_some.mp hwalk
    cases heq
    refine ⟨⟨⟨done, hplace⟩, Bool.eq_false_iff.mpr fun hblank => ?_⟩, rfl⟩
    exact hboth (Bool.and_eq_true_iff.mpr ⟨hblank, skips i hblank hhas⟩)

/-- The way of the matcher keeps to what the expression ensures, and every memo on it begins at a
settled place. -/
theorem holds_of_walk {r : Regex} {Q : Standing → Prop} {s : Standing} (h : r.Ensures Q s)
    {goal : Places} (within : Within (textOf ws) goal) (skips : SkipsBlanks ws goal) {i j : Nat}
    {marks : List Mark} (hs : s.Holds ws i)
    (hwalk : walk (textOf ws) r goal i = some (j, marks)) :
    (∃ s', Q s' ∧ s'.Holds ws j) ∧ ∀ m ∈ marks, Standing.settled.Holds ws m.2.1 := by
  induction r generalizing Q s goal i j marks with
  | empty =>
    obtain ⟨-, heq⟩ := Option.ite_none_right_eq_some.mp hwalk
    cases heq
    exact ⟨⟨s, h, hs⟩, List.forall_mem_nil _⟩
  | literal text =>
    obtain ⟨hinside, ⟨us, hne, hus, rfl⟩, hQ⟩ := h
    obtain ⟨hboth, heq⟩ := Option.ite_none_right_eq_some.mp hwalk
    obtain ⟨hat, -⟩ := Bool.and_eq_true_iff.mp hboth
    cases heq
    obtain ⟨done, hplace⟩ := hs.place hinside
    exact ⟨⟨.inside, hQ, holds_inside_of_literalAt hws hne hus hplace hat⟩, List.forall_mem_nil _⟩
  | boundary =>
    obtain ⟨hboth, heq⟩ := Option.ite_none_right_eq_some.mp hwalk
    obtain ⟨hat, -⟩ := Bool.and_eq_true_iff.mp hboth
    cases heq
    exact ⟨⟨_, h, hs.bounded hat⟩, List.forall_mem_nil _⟩
  | blank =>
    obtain ⟨done, hplace⟩ := hs.place h.1
    obtain ⟨hholds, rfl⟩ := holds_settled_of_walk_blank hws skips hplace hwalk
    exact ⟨⟨.settled, h.2, hholds⟩, List.forall_mem_nil _⟩
  | words kind min max =>
    obtain ⟨k, hk, heq⟩ := Option.map_eq_some_iff.mp hwalk
    cases heq
    obtain ⟨-, n, -, -, hrun⟩ := run_of_wordsEnd?_eq_some hk
    obtain ⟨done, hplace⟩ := hs.place h.1
    obtain ⟨us, -, -, hplace'⟩ := place_of_run hws hrun hplace
    exact ⟨⟨.between, h.2, _, hplace'⟩, List.forall_mem_nil _⟩
  | seq first second ihFirst ihSecond =>
    obtain ⟨k, before, after, hfirst, hsecond, rfl⟩ := walk_seq_eq_some.mp hwalk
    change first.Ensures (second.Ensures Q) s at h
    obtain ⟨s₀, hs₀⟩ := exists_of_ensures h
    obtain ⟨⟨s', hs', hholds⟩, hbefore⟩ := ihFirst h (within_viable second within)
      (skipsBlanks_viable hws hs₀ within skips) hs hfirst
    obtain ⟨hlast, hafter⟩ := ihSecond hs' within skips hholds hsecond
    exact ⟨hlast, List.forall_mem_append.mpr ⟨hbefore, hafter⟩⟩
  | alt first second ihFirst ihSecond =>
    rcases Option.or_eq_some_iff.mp hwalk with hwalk | ⟨-, hwalk⟩
    · exact ihFirst h.1 within skips hs hwalk
    · exact ihSecond h.2 within skips hs hwalk
  | optional inner ih =>
    rcases Option.or_eq_some_iff.mp hwalk with hwalk | ⟨-, hwalk⟩
    · exact ih h.1 within skips hs hwalk
    · obtain ⟨-, heq⟩ := Option.ite_none_right_eq_some.mp hwalk
      cases heq
      exact ⟨⟨s, h.2, hs⟩, List.forall_mem_nil _⟩
  | group inner ih => exact ih h within skips hs hwalk
  | capture index inner ih =>
    obtain ⟨rfl, h⟩ := h
    obtain ⟨inside, hinner, rfl⟩ := walk_capture_eq_some.mp hwalk
    obtain ⟨hlast, hmarks⟩ := ih h within skips hs hinner
    exact ⟨hlast, List.forall_mem_cons.mpr ⟨hs, hmarks⟩⟩

theorem holds_settled_zero : Standing.settled.Holds ws 0 := by
  refine ⟨⟨[], place_zero ws⟩, ?_⟩
  cases ws with
  | nil => rfl
  | cons w ws => exact isBlank_start hws (List.nil_append _).symm (List.cons_ne_nil w ws)

/-- When a whole text is matched, every memo begins at a settled place. -/
theorem holds_of_matchWhole? {r : Regex} {Q : Standing → Prop} (h : r.Ensures Q .settled)
    {marks : List Mark} (hmarks : matchWhole? (textOf ws) r = some marks) :
    ∀ m ∈ marks, Standing.settled.Holds ws m.2.1 := by
  obtain ⟨⟨j, marks⟩, hwalk, rfl⟩ := Option.map_eq_some_iff.mp hmarks
  have skips : SkipsBlanks ws (Places.tabulate (textOf ws).size (· == (textOf ws).size)) := by
    intro i hblank hhas
    obtain rfl := has_tabulate_size.mp hhas
    simp [holdsAt] at hblank
  exact (holds_of_walk hws h within_tabulate_size skips (holds_settled_zero hws) hwalk).2

end Normal

/-! ## What a memo takes in -/

section Places

variable {ws done us : List String} {i j : Nat}

theorem Place.exists_split (h : Place ws done i) : ∃ todo, ws = done ++ todo := by
  cases h with
  | start split more => exact ⟨_, split⟩
  | stop split some => exact ⟨_, split⟩

/-- Words lie between the places that have them in front of them and those that have not. -/
theorem Place.lt (hws : ∀ w ∈ ws, IsNormalWord w) (hi : Place ws done i)
    (hj : Place ws (done ++ us) j) (hne : us ≠ []) : i < j := by
  have hlower : i ≤ (ahead done).length := by
    cases hi with
    | start => exact Nat.le_refl _
    | stop split some =>
      by_cases hdone : done = []
      · simp [hdone, unwords, ahead]
      · rw [length_ahead hdone]
        exact Nat.le_succ _
  have hupper : (unwords (done ++ us)).toList.length ≤ j := by
    cases hj with
    | start =>
      rw [length_ahead (List.append_ne_nil_of_right_ne_nil done hne)]
      exact Nat.le_succ _
    | stop => exact Nat.le_refl _
  have hpos : 0 < (unwords us).toList.length := by
    obtain ⟨todo, hsplit⟩ := hj.exists_split
    have := isWordChar_head?_unwords (fun u hu => hws u (by simp [hsplit, hu])) hne
    cases hlist : (unwords us).toList with
    | nil =>
      rw [hlist] at this
      cases this
    | cons c cs => exact Nat.succ_pos _
  rw [length_unwords_append done hne] at hupper
  omega

/-- There is no white space behind the last word alone. -/
theorem eq_nil_of_stop {todo : List String} (split : ws = done ++ todo)
    (some : done = [] → todo = [])
    (h : holdsAt (textOf ws) isBlank (unwords done).toList.length = false) : todo = [] := by
  subst split
  exact Decidable.not_not.mp fun hne => Bool.eq_false_iff.mp h ((isBlank_stop_iff some).mpr hne)

variable (hi : Place ws done i) (hblank : holdsAt (textOf ws) isBlank i = false)

include hi hblank

theorem Place.unique_of_settled (hj : Place ws done j) (hle : i ≤ j) : i = j := by
  cases hi with
  | start split more =>
    cases hj with
    | start => rfl
    | stop split' some =>
      by_cases hdone : done = []
      · subst hdone
        rfl
      · rw [length_ahead hdone] at hle
        omega
  | stop split some =>
    obtain rfl := eq_nil_of_stop split some hblank
    cases hj with
    | start split' more => exact absurd (List.append_cancel_left (split'.symm.trans split)) more
    | stop => rfl

/-- Words that a memo takes in from a settled place on are words of the text, with the white space
behind them at most. -/
theorem Place.split_of_settled (hj : Place ws (done ++ us) j) (hne : us ≠ []) :
    i = (ahead done).length ∧ ∃ todo, ws = done ++ us ++ todo ∧
      (j = (unwords (done ++ us)).toList.length ∨ todo ≠ [] ∧ j = (ahead (done ++ us)).length) := by
  have hstart : i = (ahead done).length := by
    cases hi with
    | start => rfl
    | stop split some =>
      obtain rfl := eq_nil_of_stop split some hblank
      obtain ⟨rest, hrest⟩ := hj.exists_split
      rw [List.append_assoc] at hrest
      have hnil := List.append_cancel_left (split.symm.trans hrest)
      exact absurd (List.append_eq_nil_iff.mp hnil.symm).1 hne
  cases hj with
  | start split more => exact ⟨hstart, _, split, .inr ⟨more, rfl⟩⟩
  | stop split some => exact ⟨hstart, _, split, .inl rfl⟩

end Places

end Regex
end Repartee.Pattern
