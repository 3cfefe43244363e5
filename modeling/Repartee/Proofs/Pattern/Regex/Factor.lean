import Repartee.Pattern.Regex.Factor
import Repartee.Proofs.Pattern.Regex.Matches

/-!
# Common beginnings do not change what matches

Putting the common beginning of alternatives in front of them leaves the matches as they are
(`matches_sharedChoice`), wherever in an expression that happens (`matches_factored`).
-/

namespace Repartee.Pattern.Regex

variable {text : Array Char}

theorem matches_sequence_append (rs ss : List Regex) (i k : Nat) :
    (sequence (rs ++ ss)).Matches text i k ↔
      ∃ j, (sequence rs).Matches text i j ∧ (sequence ss).Matches text j k := by
  induction rs generalizing i with
  | nil => simp [sequence, matches_empty]
  | cons r rs ih =>
    rw [List.cons_append]
    simp only [sequence, matches_seq, ih]
    constructor
    · rintro ⟨l, hr, j, hrs, hss⟩
      exact ⟨j, ⟨l, hr, hrs⟩, hss⟩
    · rintro ⟨j, ⟨l, hr, hrs⟩, hss⟩
      exact ⟨l, hr, j, hrs, hss⟩

theorem matches_parts (r : Regex) (i j : Nat) :
    (sequence r.parts).Matches text i j ↔ r.Matches text i j := by
  induction r generalizing i j with
  | empty => exact Iff.rfl
  | seq first second ihFirst ihSecond =>
    rw [parts, matches_sequence_append]
    simp only [ihFirst, ihSecond, matches_seq]
  | _ => simp [parts, sequence, matches_seq, matches_empty]

theorem matches_choice {rs : List Regex} (hne : rs ≠ []) (i j : Nat) :
    (choice rs).Matches text i j ↔ ∃ r ∈ rs, r.Matches text i j := by
  induction rs with
  | nil => exact absurd rfl hne
  | cons r rs ih =>
    cases rs with
    | nil => simp [choice]
    | cons s rest =>
      simp only [choice, matches_alt, ih (List.cons_ne_nil s rest), List.mem_cons,
        or_and_right, exists_or, exists_eq_left]

/-- The common beginning and what is left of one of the alternatives match as that alternative. -/
theorem matches_sharedChoice {rs : List Regex} (hne : rs ≠ []) (i j : Nat) :
    (sharedChoice rs).Matches text i j ↔ ∃ r ∈ rs, r.Matches text i j := by
  match rs with
  | [] => exact absurd rfl hne
  | [r] => simp [sharedChoice]
  | r :: s :: rest =>
    have hcut : ∀ t ∈ r :: s :: rest, ∀ k, t.Matches text i k ↔
        ∃ l, (sequence (commonFront ((r :: s :: rest).map parts))).Matches text i l ∧
          (sequence (t.parts.drop (commonFront ((r :: s :: rest).map parts)).length)).Matches
            text l k := by
      intro t ht k
      rw [← matches_sequence_append, commonFront_append_drop ht, matches_parts]
    unfold sharedChoice
    rw [matches_seq]
    constructor
    · rintro ⟨l, hfront, hchoice⟩
      obtain ⟨u, hu, hback⟩ := (matches_choice (by simp) l j).mp hchoice
      obtain ⟨t, ht, rfl⟩ := List.mem_map.mp hu
      exact ⟨t, ht, (hcut t ht j).mpr ⟨l, hfront, hback⟩⟩
    · rintro ⟨t, ht, hmatch⟩
      obtain ⟨l, hfront, hback⟩ := (hcut t ht j).mp hmatch
      refine ⟨l, hfront, (matches_choice (by simp) l j).mpr ⟨_, List.mem_map_of_mem ht, hback⟩⟩

theorem alternatives_ne_nil (r : Regex) : r.alternatives ≠ [] := by
  induction r with
  | alt first second ihFirst ihSecond => simp [alternatives, ihFirst]
  | _ => simp [alternatives]

theorem matches_alternatives (r : Regex) (i j : Nat) :
    (∃ s ∈ r.alternatives, s.Matches text i j) ↔ r.Matches text i j := by
  induction r generalizing i j with
  | alt first second ihFirst ihSecond =>
    simp only [alternatives, List.mem_append, or_and_right, exists_or, ihFirst, ihSecond,
      matches_alt]
  | seq first second ihFirst ihSecond =>
    simp only [alternatives, List.mem_singleton, exists_eq_left, matches_seq,
      matches_sharedChoice (alternatives_ne_nil _), ihFirst, ihSecond]
  | optional inner ih =>
    simp only [alternatives, List.mem_singleton, exists_eq_left, matches_optional,
      matches_sharedChoice (alternatives_ne_nil _), ih]
  | group inner ih =>
    simp only [alternatives, List.mem_singleton, exists_eq_left, matches_group,
      matches_sharedChoice (alternatives_ne_nil _), ih]
  | capture index inner ih =>
    simp only [alternatives, List.mem_singleton, exists_eq_left, matches_capture,
      matches_sharedChoice (alternatives_ne_nil _), ih]
  | _ => simp [alternatives]

theorem matches_factored (r : Regex) (i j : Nat) :
    r.factored.Matches text i j ↔ r.Matches text i j := by
  rw [factored, matches_sharedChoice (alternatives_ne_nil r), matches_alternatives]

end Repartee.Pattern.Regex
