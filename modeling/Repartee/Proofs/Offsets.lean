import Mathlib.Data.List.Infix
import Repartee.Proofs.Target

/-!
# The normal form and the places of raw words in it

The normal form is one text of words for all raw words together, while the places of raw words in it
are counted up raw word by raw word. That both agree is `Target.LinesUp`, which holds of every
target (`linesUp`): the place of a raw word is where a word begins that has all tokens of the raw
words before it ahead (`getElem?_offsetsFrom`), so its tokens stand there, and raw words without
tokens take up no place.
-/

namespace Repartee

open Repartee.Text Repartee.Unicode

namespace Text

/-! ## Texts of normal words -/

section Normal

variable {ws : List String} (hws : ∀ w ∈ ws, IsNormalWord w)

include hws

theorem head?_unwords_ne_space : (unwords ws).toList.head? ≠ some ' ' := by
  intro hspace
  by_cases hne : ws = []
  · rw [hne] at hspace
    cases hspace
  · have hword := isWordChar_head?_unwords hws hne
    rw [hspace] at hword
    exact absurd hword (by decide)

theorem getLast?_unwords_ne_space : (unwords ws).toList.getLast? ≠ some ' ' := by
  intro hspace
  by_cases hne : ws = []
  · rw [hne] at hspace
    cases hspace
  · obtain ⟨c, hlast, hc⟩ :=
      isBlank_getLast?_unwords (fun w hw => ⟨(hws w hw).nonempty, (hws w hw).isBlank⟩) hne
    obtain rfl := Option.some.inj (hspace.symm.trans hlast)
    exact absurd hc (by decide)

/-- What stands before white space are whole words, and these do not end with white space. -/
theorem unwords_single_space : ¬ [' ', ' '] <:+: (unwords ws).toList := by
  rintro ⟨front, back, hsplit⟩
  have hsecond : (unwords ws).toList = (front ++ [' ']) ++ ' ' :: back := by simp [← hsplit]
  obtain ⟨done, todo, rfl, -, -, hdone⟩ := exists_of_toList_unwords hws isBlank_space hsecond
  refine getLast?_unwords_ne_space (fun w hw => hws w (List.mem_append_left todo hw)) ?_
  rw [hdone, List.getLast?_append, List.getLast?_singleton, Option.some_or]

end Normal

/-- Joining the words of each list, and then what comes of the lists that are not empty. -/
theorem unwords_map_unwords (lists : List (List String)) :
    unwords ((lists.filter fun ws => !ws.isEmpty).map unwords) = unwords lists.flatten := by
  induction lists with
  | nil => rfl
  | cons ws lists ih =>
    by_cases hws : ws = []
    · rw [hws, List.filter_cons_of_neg (by simp), ih, List.flatten_cons, List.nil_append]
    rw [List.filter_cons_of_pos (by simpa using hws), List.map_cons, List.flatten_cons]
    -- Both sides put a space behind the first words only if there are words left.
    by_cases hrest : lists.flatten = []
    · have hnone : (lists.filter fun ws => !ws.isEmpty) = [] :=
        List.filter_eq_nil_iff.mpr fun l hl => by simp [List.flatten_eq_nil_iff.mp hrest l hl]
      rw [hnone, hrest, List.append_nil]
      exact String.intercalate_singleton
    · have hsome : (lists.filter fun ws => !ws.isEmpty).map unwords ≠ [] := by
        intro hnil
        refine hrest (List.flatten_eq_nil_iff.mpr fun l hl => ?_)
        simpa using List.filter_eq_nil_iff.mp (List.map_eq_nil_iff.mp hnil) l hl
      rw [unwords_append hws hrest, ← ih]
      exact unwords_append (List.cons_ne_nil (unwords ws) []) hsome

end Text

namespace Target

/-- The normal form and the places of raw words in it agree. -/
structure LinesUp (t : Target) : Prop where
  /-- There is a list of tokens for each raw word. -/
  length_tokens : t.tokens.length = t.rawWords.length
  normal : ∀ tokens ∈ t.tokens, ∀ w ∈ tokens, w ≠ "" ∧ ∀ c ∈ w.toList, isWordChar c = true
  /-- All tokens in order, with single spaces between them. -/
  joined : t.normalized = unwords t.tokens.flatten
  /-- The same, put together from the tokens of each raw word. -/
  joined_by_word :
    t.normalized = unwords ((t.tokens.filter fun tokens => !tokens.isEmpty).map unwords)
  begins : t.normalized.toList.head? ≠ some ' '
  ends : t.normalized.toList.getLast? ≠ some ' '
  single : ¬ [' ', ' '] <:+: t.normalized.toList
  length_offsets : t.wordOffsets.length = t.rawWords.length
  ordered : t.wordOffsets.Pairwise (· ≤ ·)
  /-- What stands at the place of a raw word with tokens are these tokens. -/
  reads : ∀ (i : Nat) tokens offset, t.tokens[i]? = some tokens → tokens ≠ [] →
    t.wordOffsets[i]? = some offset →
      slice t.normalized offset (offset + (unwords tokens).utf8ByteSize) = unwords tokens
  /-- Raw words without tokens have the place of the next raw word with tokens. -/
  next : ∀ (i j : Nat) tokens, i ≤ j → (∀ k, i ≤ k → k < j → t.tokens[k]? = some []) →
    t.tokens[j]? = some tokens → tokens ≠ [] →
      ∃ offset, t.wordOffsets[i]? = some offset ∧ t.wordOffsets[j]? = some offset

/-! ## Places -/

theorem length_offsetsFrom (offset : Nat) (lists : List (List String)) :
    (offsetsFrom offset lists).length = lists.length := by
  induction lists generalizing offset with
  | nil => rfl
  | cons tokens rest ih => rw [offsetsFrom, List.length_cons, ih, List.length_cons]

/-- The tokens of a raw word begin where a word does that has those of all raw words before it
ahead. -/
theorem getElem?_offsetsFrom (offset : Nat) {lists : List (List String)} {i : Nat}
    (h : i < lists.length) :
    (offsetsFrom offset lists)[i]? = some (offset + wordStart (lists.take i).flatten) := by
  induction lists generalizing offset i with
  | nil => simp at h
  | cons tokens rest ih =>
    rw [offsetsFrom_cons]
    cases i with
    | zero => rfl
    | succ i =>
      rw [List.getElem?_cons_succ, ih _ (Nat.lt_of_succ_lt_succ h), List.take_succ_cons,
        List.flatten_cons, wordStart_append, Nat.add_assoc]

theorem getElem?_wordOffsets {t : Target} {i : Nat} (h : i < t.tokens.length) :
    t.wordOffsets[i]? = some (wordStart (t.tokens.take i).flatten) := by
  rw [wordOffsets, getElem?_offsetsFrom 0 h, Nat.zero_add]

theorem slice_wordOffsets {t : Target} {i offset : Nat} {tokens : List String}
    (htokens : t.tokens[i]? = some tokens) (hne : tokens ≠ [])
    (hoffset : t.wordOffsets[i]? = some offset) :
    slice t.normalized offset (offset + (unwords tokens).utf8ByteSize) = unwords tokens := by
  have hi := (List.getElem?_eq_some_iff.mp htokens).1
  obtain rfl := Option.some.inj ((getElem?_wordOffsets hi).symm.trans hoffset)
  have hall : t.tokens.flatten =
      (t.tokens.take i).flatten ++ tokens ++ (t.tokens.drop (i + 1)).flatten := by
    have := congrArg List.flatten (List.take_append_drop (i + 1) t.tokens)
    rw [List.take_add_one, htokens] at this
    simpa using this.symm
  have hsize : (unwords tokens).utf8ByteSize = wordStop tokens := utf8ByteSize_eq _
  rw [normalized, hall, hsize, ← wordStop_append _ hne, slice_words _ _ hne]

/-- Raw words without tokens take up no place. -/
theorem flatten_take_eq {lists : List (List String)} {i j : Nat} (hij : i ≤ j)
    (h : ∀ k, i ≤ k → k < j → lists[k]? = some []) :
    (lists.take i).flatten = (lists.take j).flatten := by
  have hbetween : ((lists.take j).drop i).flatten = [] := by
    refine List.flatten_eq_nil_iff.mpr fun ws hws => ?_
    obtain ⟨n, hn⟩ := List.mem_iff_getElem?.mp hws
    rw [List.getElem?_drop, List.getElem?_take] at hn
    obtain ⟨hlt, hget⟩ := Option.ite_none_right_eq_some.mp hn
    exact Option.some.inj (hget.symm.trans (h (i + n) (Nat.le_add_right i n) hlt))
  rw [← take_append_drop_take hij lists, List.flatten_append, hbetween, List.append_nil]

theorem Aligned.linesUp {t : Target} (h : t.Aligned) : t.LinesUp where
  length_tokens := h.length_eq.symm
  normal := fun tokens htokens w hw =>
    ⟨(h.normal tokens htokens w hw).nonempty, (h.normal tokens htokens w hw).wordChars⟩
  joined := rfl
  joined_by_word := (unwords_map_unwords t.tokens).symm
  begins := head?_unwords_ne_space h.isNormalWord
  ends := getLast?_unwords_ne_space h.isNormalWord
  single := unwords_single_space h.isNormalWord
  length_offsets := (length_offsetsFrom 0 t.tokens).trans h.length_eq.symm
  ordered := by
    rw [h.wordOffsets_eq, List.pairwise_map]
    exact pairwise_placedFrom 0 _
  reads := fun i tokens offset => slice_wordOffsets
  next := by
    intro i j tokens hij hnone htokens _
    have hj := (List.getElem?_eq_some_iff.mp htokens).1
    refine ⟨_, getElem?_wordOffsets (Nat.lt_of_le_of_lt hij hj), ?_⟩
    rw [getElem?_wordOffsets hj, flatten_take_eq hij hnone]

/-- Whatever was done to the words of a text before, its normal form consists of the tokens of its
raw words, and each raw word with tokens has the place where they stand. -/
theorem normalized_lines_up {text : String} {t : Target}
    (h : t = plain text ∨ ∃ substitutions, ofText? text substitutions = .ok t) : t.LinesUp := by
  rcases h with rfl | ⟨substitutions, h⟩
  · exact (aligned_of_ofText? (plain_eq text)).linesUp
  · exact (aligned_of_ofText? h).linesUp

/-- The contraction has two tokens, the marks have none, and an accented letter takes two bytes. -/
theorem normalized_lines_up_accent :
    let expand : Substitution := ⟨"contractions", fun _ lists =>
      lists.map fun ws => ws.map fun w => if w = "I'm" then "i am" else w⟩
    ∃ t, ofText? "- I'm :) déjà vu!" [expand] = .ok t ∧ t.normalized = "i am déjà vu" ∧
      t.wordOffsets = [0, 0, 5, 5, 12] ∧ t.LinesUp := by
  intro expand
  have hread : ofText? "- I'm :) déjà vu!" [expand] = .ok ⟨"- I'm :) déjà vu!",
    ["-", "I'm", ":)", "déjà", "vu!"], [[], ["i", "am"], [], ["déjà"], ["vu"]]⟩ := rfl
  exact ⟨_, hread, rfl, rfl, normalized_lines_up (.inr ⟨_, hread⟩)⟩

end Target
end Repartee
