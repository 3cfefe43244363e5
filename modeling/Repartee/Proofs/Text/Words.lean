import Mathlib.Data.List.TakeWhile
import Repartee.Proofs.Unicode.Classes
import Repartee.Text.Words

/-!
# Texts of words

A normal text is a list of normal words with single spaces between them. It is cut at a word into
what is ahead of the word and the rest (`toList_unwords_ahead`), and behind a word into the words so
far and what is behind them (`toList_unwords_behind`).

Which words a normal text begins with is seen from its characters: a stretch that ends where a word
ends is made of whole words (`eq_append_of_unwords_append`).
-/

namespace Repartee.Text

open Repartee.Unicode

/-- A word as it is in a normal text: some word characters, and nothing else. -/
structure IsNormalWord (w : String) : Prop where
  nonempty : w ≠ ""
  wordChars : ∀ c ∈ w.toList, isWordChar c = true

theorem IsNormalWord.toList_ne_nil {w : String} (h : IsNormalWord w) : w.toList ≠ [] :=
  fun hnil => h.nonempty (String.toList_eq_nil_iff.mp hnil)

theorem IsNormalWord.isBlank {w : String} (h : IsNormalWord w) :
    ∀ c ∈ w.toList, isBlank c = false :=
  fun c hc => isBlank_of_isWordChar (h.wordChars c hc)

/-! ## Joining words -/

/-- What comes behind a word when these words follow it. -/
def behind : List String → List Char
  | [] => []
  | w :: ws => ' ' :: (unwords (w :: ws)).toList

/-- What comes ahead of a word when these words precede it. -/
def ahead : List String → List Char
  | [] => []
  | w :: ws => (unwords (w :: ws)).toList ++ [' ']

theorem toList_unwords_cons (w : String) (ws : List String) :
    (unwords (w :: ws)).toList = w.toList ++ behind ws := by
  cases ws with
  | nil => simp [unwords, behind]
  | cons v vs =>
    rw [unwords, String.intercalate_cons_cons]
    simp [unwords, behind]

theorem unwords_eq_empty_iff {ws : List String} (h : ∀ w ∈ ws, w ≠ "") :
    unwords ws = "" ↔ ws = [] := by
  constructor
  · intro hempty
    cases ws with
    | nil => rfl
    | cons w ws =>
      have hlist := String.toList_eq_nil_iff.mpr hempty
      rw [toList_unwords_cons] at hlist
      exact absurd (String.toList_eq_nil_iff.mp (List.append_eq_nil_iff.mp hlist).1)
        (h w List.mem_cons_self)
  · rintro rfl
    rfl

theorem unwords_append {us vs : List String} (hus : us ≠ []) (hvs : vs ≠ []) :
    unwords (us ++ vs) = unwords us ++ " " ++ unwords vs :=
  String.intercalate_append_of_ne_nil hus hvs

theorem ahead_eq_append {ws : List String} (hne : ws ≠ []) :
    ahead ws = (unwords ws).toList ++ [' '] := by
  obtain ⟨w, ws, rfl⟩ := List.exists_cons_of_ne_nil hne
  rfl

theorem toList_unwords_ahead (us : List String) {vs : List String} (hne : vs ≠ []) :
    (unwords (us ++ vs)).toList = ahead us ++ (unwords vs).toList := by
  cases us with
  | nil => rfl
  | cons u us =>
    rw [unwords_append (List.cons_ne_nil u us) hne]
    simp [ahead]

theorem toList_unwords_behind {us vs : List String} (h : us = [] → vs = []) :
    (unwords (us ++ vs)).toList = (unwords us).toList ++ behind vs := by
  cases vs with
  | nil => simp [behind]
  | cons v vs =>
    have hus : us ≠ [] := fun hnil => List.cons_ne_nil v vs (h hnil)
    rw [unwords_append hus (List.cons_ne_nil v vs)]
    simp [behind]

theorem ahead_append (us vs : List String) : ahead (us ++ vs) = ahead us ++ ahead vs := by
  by_cases hvs : vs = []
  · subst hvs
    simp [ahead]
  · rw [ahead_eq_append (List.append_ne_nil_of_right_ne_nil us hvs), toList_unwords_ahead us hvs,
      ahead_eq_append hvs, List.append_assoc]

theorem isWordChar_head?_behind (ws : List String) :
    (behind ws).head?.any isWordChar = false := by
  cases ws with
  | nil => rfl
  | cons w ws => exact isWordChar_of_isBlank isBlank_space

theorem isWordChar_head?_unwords {ws : List String} (hws : ∀ w ∈ ws, IsNormalWord w)
    (hne : ws ≠ []) : (unwords ws).toList.head?.any isWordChar = true := by
  obtain ⟨w, ws, rfl⟩ := List.exists_cons_of_ne_nil hne
  have hw := hws w List.mem_cons_self
  obtain ⟨c, cs, hcs⟩ := List.exists_cons_of_ne_nil hw.toList_ne_nil
  rw [toList_unwords_cons, hcs]
  exact hw.wordChars c (hcs ▸ List.mem_cons_self)

theorem isWordChar_or_isBlank_of_mem_unwords {ws : List String} (hws : ∀ w ∈ ws, IsNormalWord w) :
    ∀ c ∈ (unwords ws).toList, isWordChar c = true ∨ isBlank c = true := by
  induction ws with
  | nil => exact fun c hc => absurd hc List.not_mem_nil
  | cons w ws ih =>
    intro c hc
    rw [toList_unwords_cons, List.mem_append] at hc
    rcases hc with hc | hc
    · exact .inl ((hws w List.mem_cons_self).wordChars c hc)
    · cases ws with
      | nil => cases hc
      | cons v vs =>
        rcases List.mem_cons.mp hc with rfl | hc
        · exact .inr isBlank_space
        · exact ih (fun u hu => hws u (List.mem_cons_of_mem w hu)) c hc

theorem isBlank_getLast?_unwords {ws : List String}
    (hws : ∀ w ∈ ws, w ≠ "" ∧ ∀ c ∈ w.toList, isBlank c = false) (hne : ws ≠ []) :
    ∃ c, (unwords ws).toList.getLast? = some c ∧ isBlank c = false := by
  obtain ⟨front, w, rfl⟩ := List.eq_nil_or_concat ws |>.resolve_left hne
  rw [List.concat_eq_append] at hws ⊢
  obtain ⟨hw, hblank⟩ := hws w (by simp)
  have hlist : w.toList ≠ [] := fun hnil => hw (String.toList_eq_nil_iff.mp hnil)
  refine ⟨w.toList.getLast hlist, ?_, hblank _ (List.getLast_mem hlist)⟩
  rw [toList_unwords_ahead front (List.cons_ne_nil w []), toList_unwords_cons, behind,
    List.append_nil, List.getLast?_append, List.getLast?_eq_some_getLast hlist, Option.some_or]

/-- White space in a normal text stands between two of its words. -/
theorem exists_of_toList_unwords {ws : List String} {front back : List Char} {c : Char}
    (hws : ∀ w ∈ ws, IsNormalWord w) (hc : isBlank c = true)
    (h : (unwords ws).toList = front ++ c :: back) :
    ∃ done todo, ws = done ++ todo ∧ done ≠ [] ∧ todo ≠ [] ∧ (unwords done).toList = front := by
  induction ws generalizing front with
  | nil => simp [unwords] at h
  | cons w ws ih =>
    obtain ⟨hw, hws⟩ := List.forall_mem_cons.mp hws
    rw [toList_unwords_cons] at h
    obtain ⟨as, rfl, hbehind⟩ : ∃ as, front = w.toList ++ as ∧ behind ws = as ++ c :: back := by
      rcases List.append_eq_append_iff.mp h with hfront | ⟨bs, hword, hback⟩
      · exact hfront
      · cases bs with
        | nil => exact ⟨[], by simp [hword], hback.symm⟩
        | cons b bs =>
          obtain ⟨rfl, -⟩ := List.cons.inj hback
          rw [hw.isBlank c (by simp [hword])] at hc
          cases hc
    cases ws with
    | nil => simp [behind] at hbehind
    | cons v vs =>
      cases as with
      | nil => exact ⟨[w], v :: vs, rfl, by simp, by simp, by simp [unwords]⟩
      | cons a as =>
        obtain ⟨rfl, hrest⟩ := List.cons.inj hbehind
        obtain ⟨done, todo, hsplit, hdone, htodo, rfl⟩ := ih hws hrest
        refine ⟨w :: done, todo, by rw [hsplit]; rfl, by simp, htodo, ?_⟩
        obtain ⟨d, ds, rfl⟩ := List.exists_cons_of_ne_nil hdone
        exact toList_unwords_cons w (d :: ds)

/-! ## Splitting at white space -/

theorem eq_false_of_mem_splitOnP {p : Char → Bool} {cs word : List Char}
    (h : word ∈ cs.splitOnP p) : ∀ c ∈ word, p c = false := by
  induction cs generalizing word with
  | nil =>
    rw [List.splitOnP_nil, List.mem_singleton] at h
    simp [h]
  | cons d cs ih =>
    rw [List.splitOnP_cons_eq_if_modifyHead] at h
    split at h
    · rcases List.mem_cons.mp h with rfl | h
      · simp
      · exact ih h
    · rename_i hd
      obtain ⟨first, rest, hsplit⟩ := List.exists_cons_of_ne_nil (List.splitOnP_ne_nil p cs)
      rw [hsplit] at h ih
      rcases List.mem_cons.mp h with rfl | h
      · rw [List.forall_mem_cons]
        exact ⟨by simpa using hd, ih List.mem_cons_self⟩
      · exact ih (List.mem_cons_of_mem first h)

/-- The words of a text are not empty, and there is no white space in them. -/
theorem ne_empty_of_mem_words {s w : String} (h : w ∈ words s) :
    w ≠ "" ∧ ∀ c ∈ w.toList, isBlank c = false := by
  obtain ⟨cs, hcs, rfl⟩ := List.mem_map.mp h
  obtain ⟨hmem, hne⟩ := List.mem_filter.mp hcs
  rw [String.toList_ofList]
  refine ⟨?_, eq_false_of_mem_splitOnP hmem⟩
  rintro hempty
  rw [String.ofList_eq_empty_iff.mp hempty] at hne
  cases hne

/-- A text without white space is a single word. -/
theorem words_of_not_isBlank {w : String} (hne : w ≠ "")
    (hblank : ∀ c ∈ w.toList, isBlank c = false) : words w = [w] := by
  have hlist : w.toList ≠ [] := fun hnil => hne (String.toList_eq_nil_iff.mp hnil)
  have hsplit : w.toList.splitOnP isBlank = [w.toList] :=
    List.splitOnP_eq_singleton fun c hc => by simp [hblank c hc]
  simp [words, splitChars, hsplit, hlist]

theorem isEmpty_trim_iff {s : String} :
    (trim s).isEmpty = true ↔ ∀ c ∈ s.toList, isBlank c = true := by
  have hfront : (trim s).isEmpty = true ↔ ∀ c ∈ s.toList.dropWhile isBlank, isBlank c = true := by
    rw [String.isEmpty_iff, trim, String.ofList_eq_empty_iff, List.reverse_eq_nil_iff,
      List.dropWhile_eq_nil_iff]
    simp only [List.mem_reverse]
  rw [hfront]
  constructor
  · intro h c hc
    rw [← List.takeWhile_append_dropWhile (p := isBlank) (l := s.toList)] at hc
    exact (List.mem_append.mp hc).elim List.mem_takeWhile_imp (h c)
  · exact fun h c hc => h c ((List.dropWhile_sublist _).subset hc)

/-! ## Finding words -/

/-- Two texts that begin with a word and go on with something else begin with the same word. -/
theorem word_eq_of_append_eq {cs ds x y : List Char} (h : cs ++ x = ds ++ y)
    (hcs : ∀ c ∈ cs, isBlank c = false) (hds : ∀ c ∈ ds, isWordChar c = true)
    (hx : x.head?.any isWordChar = false) (hy : ∀ c, y.head? = some c → isBlank c = true) :
    cs = ds ∧ x = y := by
  rcases List.append_eq_append_iff.mp h with ⟨as, rfl, rfl⟩ | ⟨as, rfl, rfl⟩
  · cases as with
    | nil => simp
    | cons a as =>
      have := hds a (by simp)
      rw [List.cons_append, List.head?_cons, Option.any_some, this] at hx
      cases hx
  · cases as with
    | nil => simp
    | cons a as =>
      have := hy a rfl
      rw [hcs a (by simp)] at this
      cases this

theorem isBlank_of_head?_behind {ws : List String} {c : Char} (h : (behind ws).head? = some c) :
    isBlank c = true := by
  cases ws with
  | nil => cases h
  | cons w ws =>
    obtain rfl := Option.some.inj h
    exact isBlank_space

/-- Words at the beginning of a normal text that end where a word ends are its first words. -/
theorem eq_append_of_unwords_append {us ws : List String} {x : List Char} (hne : us ≠ [])
    (hus : ∀ u ∈ us, u ≠ "" ∧ ∀ c ∈ u.toList, isBlank c = false)
    (hws : ∀ w ∈ ws, IsNormalWord w) (hx : x.head?.any isWordChar = false)
    (h : (unwords us).toList ++ x = (unwords ws).toList) : ∃ rest, ws = us ++ rest := by
  induction us generalizing ws with
  | nil => exact absurd rfl hne
  | cons u us ih =>
    obtain ⟨hu, hblank⟩ := hus u List.mem_cons_self
    cases ws with
    | nil =>
      rw [toList_unwords_cons, List.append_assoc] at h
      exact absurd (String.toList_eq_nil_iff.mp (List.append_eq_nil_iff.mp h).1) hu
    | cons w ws =>
      rw [toList_unwords_cons, toList_unwords_cons, List.append_assoc] at h
      have hx' : (behind us ++ x).head?.any isWordChar = false := by
        cases us with
        | nil => exact hx
        | cons v vs => exact isWordChar_of_isBlank isBlank_space
      obtain ⟨hword, hrest⟩ := word_eq_of_append_eq h hblank
        (hws w List.mem_cons_self).wordChars hx' fun c hc => isBlank_of_head?_behind hc
      obtain rfl := String.toList_injective hword
      cases us with
      | nil => exact ⟨ws, rfl⟩
      | cons v vs =>
        cases ws with
        | nil => cases hrest
        | cons w ws =>
          obtain ⟨rest, hrest⟩ := ih (List.cons_ne_nil v vs)
            (fun a ha => hus a (List.mem_cons_of_mem _ ha))
            (fun a ha => hws a (List.mem_cons_of_mem _ ha)) (List.cons.inj hrest).2
          exact ⟨rest, by rw [hrest]; rfl⟩

end Repartee.Text
