import Repartee.Proofs.Target
import Repartee.Proofs.Text.Layout

/-!
# Normalizing twice

A word that is made of word characters in lowercase is left alone by normalization
(`normalWords_of_settled`), and normalization yields no other words (`settled_of_mem_normalWords`).
So the normal form of a normal form is the same text, and each of its words comes from itself. The
case of a text makes no difference to its normal form, since lowercasing a text lowercases its words
(`normalWords_lower`).
-/

namespace Repartee

open Repartee.Text Repartee.Unicode

namespace Text

/-- A normal text is laid out as its words. -/
theorem spaced_unwords {ws : List String}
    (h : ∀ w ∈ ws, w ≠ "" ∧ ∀ c ∈ w.toList, isBlank c = false) :
    Spaced (unwords ws).toList (ws.map String.toList) := by
  induction ws with
  | nil => exact .nil
  | cons w ws ih =>
    obtain ⟨⟨hne, hblank⟩, hws⟩ := List.forall_mem_cons.mp h
    have hlist : w.toList ≠ [] := fun hnil => hne (String.toList_eq_nil_iff.mp hnil)
    rw [toList_unwords_cons]
    refine .word hlist hblank (fun c hc => isBlank_of_head?_behind hc) ?_
    cases ws with
    | nil => exact .nil
    | cons v vs => exact .blank isBlank_space (ih hws)

theorem words_unwords {ws : List String}
    (h : ∀ w ∈ ws, w ≠ "" ∧ ∀ c ∈ w.toList, isBlank c = false) : words (unwords ws) = ws := by
  rw [words, (spaced_unwords h).splitChars_eq, List.map_map]
  exact (List.map_congr_left fun w _ => String.ofList_toList).trans (List.map_id ws)

theorem keepWordChars_of_isNormalWord {w : String} (h : IsNormalWord w) : keepWordChars w = w := by
  rw [keepWordChars, List.filter_eq_self.mpr h.wordChars, String.ofList_toList]

end Text

/-! ## Words that are normal already -/

/-- Normal words are in lowercase. -/
theorem settled_of_mem_normalWords {chunk w : String} (h : w ∈ normalWords chunk) :
    Settled w.toList := by
  obtain ⟨word, -, rfl⟩ := List.mem_map.mp (List.mem_filter.mp h).1
  intro c hc
  rw [keepWordChars, String.toList_ofList] at hc
  exact settled_lower word c (List.mem_filter.mp hc).1

theorem normalWords_of_settled {w : String} (h : IsNormalWord w) (settled : Settled w.toList) :
    normalWords w = [w] := by
  rw [normalWords, words_of_not_isBlank h.nonempty h.isBlank, List.map_singleton,
    lower_of_settled settled, keepWordChars_of_isNormalWord h]
  simpa using h.nonempty

theorem normalWords_lower (text : String) : normalWords (lower text) = normalWords text := by
  have hagain : ∀ w : String, keepWordChars (lower (lower w)) = keepWordChars (lower w) :=
    fun w => congrArg keepWordChars (lower_of_settled (settled_lower w))
  rw [normalWords, words_lower, List.map_map, normalWords]
  exact congrArg _ (List.map_congr_left fun w _ => hagain w)

namespace Target

/-- The words of a normal form are normal words in lowercase. -/
theorem settled_of_ofText? {text : String} {substitutions : List Substitution} {t : Target}
    (h : ofText? text substitutions = .ok t) : ∀ w ∈ t.tokens.flatten, Settled w.toList := by
  obtain ⟨-, rfl⟩ := ofText?_eq_ok_iff.mp h
  intro w hw
  obtain ⟨tokens, htokens, hw⟩ := List.mem_flatten.mp hw
  obtain ⟨chunks, -, rfl⟩ := List.mem_map.mp htokens
  obtain ⟨chunk, -, hw⟩ := List.mem_flatMap.mp hw
  exact settled_of_mem_normalWords hw

theorem plain_normalized {text : String} {substitutions : List Substitution} {t : Target}
    (h : ofText? text substitutions = .ok t) :
    plain t.normalized =
      ⟨t.normalized, t.tokens.flatten, t.tokens.flatten.map fun w => [w]⟩ := by
  have hnormal := (aligned_of_ofText? h).isNormalWord
  have hwords : words t.normalized = t.tokens.flatten :=
    words_unwords fun w hw => ⟨(hnormal w hw).nonempty, (hnormal w hw).isBlank⟩
  rw [plain, hwords]
  exact congrArg _ (List.map_congr_left fun w hw =>
    normalWords_of_settled (hnormal w hw) (settled_of_ofText? h w hw))

/-- Normalizing a normal form changes nothing, and leads every word of it to itself. A text and its
lowercase form have the same normal form. -/
theorem normalization_idempotent :
    (∀ {text substitutions t}, ofText? text substitutions = .ok t →
      (plain t.normalized).normalized = t.normalized ∧
      (plain t.normalized).rawWords = t.tokens.flatten ∧
      (plain t.normalized).tokens = t.tokens.flatten.map fun w => [w]) ∧
    ∀ text, (plain (lower text)).normalized = (plain text).normalized := by
  refine ⟨fun {text substitutions t} h => ?_, fun text => ?_⟩
  · have hsingle : (t.tokens.flatten.map fun w => [w]).flatten = t.tokens.flatten := by
      rw [← List.flatMap_def, List.flatMap_singleton']
    rw [plain_normalized h]
    exact ⟨congrArg unwords hsingle, rfl, rfl⟩
  · rw [normalized_plain, normalized_plain, normalWords_lower]

/-- The first sigma at the end of the second word is a final one because the mark behind it ends the
word, and it keeps that form when the mark is left out. -/
theorem normalization_idempotent_sigma :
    let expand : Substitution := ⟨"contractions", fun _ lists =>
      lists.map fun ws => ws.map fun w => if w = "I'm" then "I am" else w⟩
    ∃ t, ofText? "I'm ΟΔΟΣ!Σ :)" [expand] = .ok t ∧ t.normalized = "i am οδοςσ" ∧
      (plain t.normalized).normalized = t.normalized ∧
      (plain t.normalized).tokens = [["i"], ["am"], ["οδοςσ"]] := by
  intro expand
  have hread : ofText? "I'm ΟΔΟΣ!Σ :)" [expand] = .ok ⟨"I'm ΟΔΟΣ!Σ :)",
    ["I'm", "ΟΔΟΣ!Σ", ":)"], [["i", "am"], ["οδοςσ"], []]⟩ := rfl
  obtain ⟨hnormalized, -, htokens⟩ := normalization_idempotent.1 hread
  exact ⟨_, hread, rfl, hnormalized, htokens⟩

end Target
end Repartee
