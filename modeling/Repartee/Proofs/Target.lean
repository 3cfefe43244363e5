import Mathlib.Data.List.TakeWhile
import Repartee.Proofs.Substitutions
import Repartee.Proofs.Text.Stretches

/-!
# From the normal form back to the raw words

The tokens of a raw word begin behind those of all raw words before it (`mem_placedFrom_iff`), and
these places never decrease. So the two searches of `rawSpan` come down to keeping the raw words
whose tokens begin within the span or at its end (`rawSpan_eq`). Hence a span from the first token
of a raw word to a token of another one yields all raw words from the one to the other
(`rawSpan_inverts_normalization`), and a span yields nothing exactly if no tokens begin there
(`rawSpan_eq_empty_iff`).
-/

namespace Repartee

open Repartee.Text Repartee.Unicode

/-! ## What a target is made of -/

theorem isNormalWord_of_mem_normalWords {chunk w : String} (h : w ∈ normalWords chunk) :
    IsNormalWord w := by
  obtain ⟨hmem, hne⟩ := List.mem_filter.mp h
  obtain ⟨word, -, rfl⟩ := List.mem_map.mp hmem
  refine ⟨fun hempty => ?_, fun c hc => ?_⟩
  · rw [hempty] at hne
    cases hne
  · rw [keepWordChars, String.toList_ofList] at hc
    exact (List.mem_filter.mp hc).2

/-- A word without white space has one normal word or none. -/
theorem length_normalWords_le {w : String} (hne : w ≠ "")
    (hblank : ∀ c ∈ w.toList, isBlank c = false) : (normalWords w).length ≤ 1 := by
  rw [normalWords, words_of_not_isBlank hne hblank]
  exact List.length_filter_le _ _

namespace Target

/-- The raw words of a target, its tokens, and that they belong together. -/
structure Aligned (t : Target) : Prop where
  length_eq : t.rawWords.length = t.tokens.length
  rawWord_ne : ∀ w ∈ t.rawWords, w ≠ ""
  normal : ∀ tokens ∈ t.tokens, ∀ w ∈ tokens, IsNormalWord w

theorem plain_eq (text : String) : ofText? text [] = .ok (plain text) := by
  simp [ofText?, applySubstitutions, plain, pure, Except.pure, bind, Except.bind]

/-- Without substitutions, the words of the normal form are those of the text as a whole. -/
theorem flatten_tokens_plain (text : String) : (plain text).tokens.flatten = normalWords text := by
  have hword : ∀ w ∈ words text, normalWords w =
      [keepWordChars (lower w)].filter fun word => !word.isEmpty := by
    intro w hw
    obtain ⟨hne, hblank⟩ := ne_empty_of_mem_words hw
    rw [normalWords, words_of_not_isBlank hne hblank]
    rfl
  rw [plain, List.map_congr_left hword, normalWords]
  induction words text with
  | nil => rfl
  | cons w ws ih =>
    rw [List.map_cons, List.flatten_cons, ih, ← List.filter_append]
    rfl

theorem normalized_plain (text : String) :
    (plain text).normalized = unwords (normalWords text) := by
  rw [normalized, flatten_tokens_plain]

theorem aligned_of_ofText? {text : String} {substitutions : List Substitution} {t : Target}
    (h : ofText? text substitutions = .ok t) : t.Aligned := by
  obtain ⟨hstep, rfl⟩ := ofText?_eq_ok_iff.mp h
  refine ⟨?_, fun w hw => (ne_empty_of_mem_words hw).1, ?_⟩
  · rw [List.length_map, hstep.length_eq]
  · intro tokens htokens w hw
    obtain ⟨chunks, -, rfl⟩ := List.mem_map.mp htokens
    obtain ⟨chunk, -, hw⟩ := List.mem_flatMap.mp hw
    exact isNormalWord_of_mem_normalWords hw

/-- The words of the normal form. -/
theorem Aligned.isNormalWord {t : Target} (h : t.Aligned) :
    ∀ w ∈ t.tokens.flatten, IsNormalWord w := by
  intro w hw
  obtain ⟨tokens, htokens, hw⟩ := List.mem_flatten.mp hw
  exact h.normal tokens htokens w hw

/-! ## Where tokens begin -/

/-- Raw words and their tokens, each with the place where the tokens begin, the first of which is
`offset`. -/
def placedFrom (offset : Nat) : List (String × List String) → List (Nat × String × List String)
  | [] => []
  | w :: rest => (offset, w) :: placedFrom (offset + wordStart w.2) rest

def placed (t : Target) : List (Nat × String × List String) :=
  placedFrom 0 (t.rawWords.zip t.tokens)

theorem map_snd_placedFrom (offset : Nat) (ws : List (String × List String)) :
    (placedFrom offset ws).map Prod.snd = ws := by
  induction ws generalizing offset with
  | nil => rfl
  | cons w rest ih => rw [placedFrom, List.map_cons, ih]

theorem offsetsFrom_cons (offset : Nat) (tokens : List String) (rest : List (List String)) :
    offsetsFrom offset (tokens :: rest) =
      offset :: offsetsFrom (offset + wordStart tokens) rest := by
  cases tokens with
  | nil => rfl
  | cons token tokens =>
    rw [offsetsFrom, wordStart_eq (List.cons_ne_nil token tokens), wordStop, utf8ByteSize_eq]
    rfl

theorem offsetsFrom_eq (offset : Nat) (ws : List (String × List String)) :
    offsetsFrom offset (ws.map Prod.snd) = (placedFrom offset ws).map Prod.fst := by
  induction ws generalizing offset with
  | nil => rfl
  | cons w rest ih => rw [List.map_cons, offsetsFrom_cons, ih, placedFrom, List.map_cons]

theorem Aligned.map_snd_zip {t : Target} (h : t.Aligned) :
    (t.rawWords.zip t.tokens).map Prod.snd = t.tokens :=
  List.map_snd_zip (Nat.le_of_eq h.length_eq.symm)

theorem Aligned.wordOffsets_eq {t : Target} (h : t.Aligned) :
    t.wordOffsets = t.placed.map Prod.fst := by
  rw [wordOffsets, placed, ← offsetsFrom_eq, h.map_snd_zip]

/-- The tokens of a raw word begin behind those of all raw words before it. -/
theorem mem_placedFrom_iff {offset : Nat} {ws : List (String × List String)}
    {p : Nat × String × List String} :
    p ∈ placedFrom offset ws ↔ ∃ front back, ws = front ++ p.2 :: back ∧
      p.1 = offset + wordStart (front.flatMap Prod.snd) := by
  induction ws generalizing offset with
  | nil => simp [placedFrom]
  | cons w rest ih =>
    rw [placedFrom, List.mem_cons, ih]
    constructor
    · rintro (rfl | ⟨front, back, rfl, hp⟩)
      · exact ⟨[], rest, rfl, rfl⟩
      · refine ⟨w :: front, back, rfl, ?_⟩
        rw [hp, List.flatMap_cons, wordStart_append, Nat.add_assoc]
    · rintro ⟨front, back, hsplit, hp⟩
      cases front with
      | nil =>
        obtain ⟨rfl, rfl⟩ := List.cons.inj hsplit
        exact .inl (Prod.ext hp rfl)
      | cons v front =>
        obtain ⟨rfl, rfl⟩ := List.cons.inj hsplit
        rw [List.flatMap_cons, wordStart_append, ← Nat.add_assoc] at hp
        exact .inr ⟨front, back, rfl, hp⟩

theorem placedFrom_append (offset : Nat) (front back : List (String × List String)) :
    placedFrom offset (front ++ back) =
      placedFrom offset front ++ placedFrom (offset + wordStart (front.flatMap Prod.snd)) back := by
  induction front generalizing offset with
  | nil => rfl
  | cons w front ih =>
    rw [List.cons_append, placedFrom, ih, placedFrom, List.flatMap_cons, wordStart_append,
      Nat.add_assoc]
    rfl

theorem le_of_mem_placedFrom {offset : Nat} {ws : List (String × List String)}
    {p : Nat × String × List String} (h : p ∈ placedFrom offset ws) : offset ≤ p.1 := by
  obtain ⟨front, back, -, hp⟩ := mem_placedFrom_iff.mp h
  omega

theorem mem_placedFrom_le {offset : Nat} {ws : List (String × List String)}
    {p : Nat × String × List String} (h : p ∈ placedFrom offset ws) :
    p.1 ≤ offset + wordStart (ws.flatMap Prod.snd) := by
  obtain ⟨front, back, rfl, hp⟩ := mem_placedFrom_iff.mp h
  rw [List.flatMap_append, wordStart_append]
  omega

theorem pairwise_placedFrom (offset : Nat) (ws : List (String × List String)) :
    (placedFrom offset ws).Pairwise fun p q => p.1 ≤ q.1 := by
  induction ws generalizing offset with
  | nil => exact List.Pairwise.nil
  | cons w rest ih =>
    refine List.pairwise_cons.mpr ⟨fun q hq => ?_, ih _⟩
    exact Nat.le_trans (Nat.le_add_right offset _) (le_of_mem_placedFrom hq)

/-! ## The two searches -/

/-- What stands between the two searches in entries that are in order: those within the bounds. -/
theorem drop_take_takeWhile {α : Type} {ps : List (Nat × α)}
    (ordered : ps.Pairwise fun p q => p.1 ≤ q.1) (start stop : Nat) :
    (ps.take (ps.takeWhile fun p => p.1 ≤ stop).length).drop
        (ps.takeWhile fun p => p.1 < start).length =
      ps.filter fun p => start ≤ p.1 ∧ p.1 ≤ stop := by
  induction ps with
  | nil => rfl
  | cons p ps ih =>
    obtain ⟨hp, hps⟩ := List.pairwise_cons.mp ordered
    replace ih := ih hps
    by_cases hstop : p.1 ≤ stop
    · by_cases hstart : p.1 < start
      · simp [hstop, hstart, ih]
      · have hnone : ps.takeWhile (fun q => q.1 < start) = [] := by
          refine List.takeWhile_eq_nil_iff.mpr fun hpos => ?_
          have := hp _ (List.getElem_mem hpos)
          simp
          omega
        rw [hnone, List.length_nil, List.drop_zero] at ih
        simp [hstop, hstart, Nat.not_lt.mp hstart, ih]
    · -- all entries from here on lie behind the upper bound
      have hnone : (p :: ps).filter (fun q => start ≤ q.1 ∧ q.1 ≤ stop) = [] := by
        refine List.filter_eq_nil_iff.mpr (List.forall_mem_cons.mpr ⟨by simp [hstop], ?_⟩)
        intro q hq
        have := hp q hq
        simp
        omega
      rw [hnone]
      simp [hstop]

/-- The raw words whose tokens begin within the span, but for those without tokens at the front. -/
theorem rawSpan_eq {t : Target} (h : t.Aligned) (start stop : Nat) :
    t.rawSpan start stop = unwords (((t.placed.filter fun p => start ≤ p.1 ∧ p.1 ≤ stop).dropWhile
      fun p => p.2.2.isEmpty).map fun p => p.2.1) := by
  have hzip : t.rawWords.zip t.tokens = t.placed.map Prod.snd := (map_snd_placedFrom 0 _).symm
  have hwithin := drop_take_takeWhile (pairwise_placedFrom 0 (t.rawWords.zip t.tokens)) start stop
  unfold rawSpan
  simp only [h.wordOffsets_eq, hzip, List.takeWhile_map, List.length_map, ← List.map_take,
    ← List.map_drop, List.dropWhile_map, List.map_map]
  rw [← placed] at hwithin
  exact congrArg (fun ps => unwords ((ps.dropWhile fun p => p.2.2.isEmpty).map fun p => p.2.1))
    hwithin

/-! ## Spans that begin and end with tokens -/

/-- The raw words before a place that are within a span from there on have no tokens. -/
theorem eq_nil_of_mem_front {front : List (String × List String)} {p : Nat × String × List String}
    (hp : p ∈ placedFrom 0 front) (hstart : wordStart (front.flatMap Prod.snd) ≤ p.1) :
    p.2.2 = [] := by
  obtain ⟨before, after, rfl, hplace⟩ := mem_placedFrom_iff.mp hp
  rw [List.flatMap_append, List.flatMap_cons, wordStart_append, wordStart_append] at hstart
  refine Decidable.byContradiction fun hne => ?_
  have := wordStart_eq hne
  omega

theorem filter_placedFrom {front middle back : List (String × List String)} {start stop : Nat}
    (hstart : start = wordStart (front.flatMap Prod.snd))
    (hlast : ∀ p ∈ placedFrom start middle, p.1 ≤ stop)
    (hback : stop < wordStart ((front ++ middle).flatMap Prod.snd)) :
    (placedFrom 0 (front ++ middle ++ back)).filter (fun p => start ≤ p.1 ∧ p.1 ≤ stop) =
      (placedFrom 0 front).filter (fun p => start ≤ p.1 ∧ p.1 ≤ stop) ++
        placedFrom start middle := by
  have hmiddle : (placedFrom start middle).filter (fun p => start ≤ p.1 ∧ p.1 ≤ stop) =
      placedFrom start middle :=
    List.filter_eq_self.mpr fun p hp => decide_eq_true ⟨le_of_mem_placedFrom hp, hlast p hp⟩
  have hnone : (placedFrom (wordStart ((front ++ middle).flatMap Prod.snd)) back).filter
      (fun p => start ≤ p.1 ∧ p.1 ≤ stop) = [] := by
    refine List.filter_eq_nil_iff.mpr fun p hp => ?_
    have := le_of_mem_placedFrom hp
    simp
    omega
  rw [placedFrom_append, placedFrom_append, Nat.zero_add, Nat.zero_add, ← hstart,
    List.filter_append, List.filter_append, hmiddle, hnone, List.append_nil]

/-- The raw words between the first token of `middle` and the tokens `us` of the one behind it. -/
theorem rawSpan_of_split {t : Target} (h : t.Aligned)
    {front middle back : List (String × List String)} {raw : String} {us vs : List String}
    (split : t.rawWords.zip t.tokens = front ++ (middle ++ [(raw, us ++ vs)]) ++ back)
    (hfirst : ∀ w ∈ (middle ++ [(raw, us ++ vs)]).head?, w.2 ≠ []) (hus : us ≠ []) :
    t.rawSpan (wordStart (front.flatMap Prod.snd))
        (wordStop ((front ++ middle).flatMap Prod.snd ++ us)) =
      unwords ((middle ++ [(raw, us ++ vs)]).map Prod.fst) := by
  generalize hstart : wordStart (front.flatMap Prod.snd) = start
  generalize hstop : wordStop ((front ++ middle).flatMap Prod.snd ++ us) = stop
  rw [wordStop_append _ hus, List.flatMap_append, wordStart_append, hstart] at hstop
  have hlast : ∀ p ∈ placedFrom start (middle ++ [(raw, us ++ vs)]), p.1 ≤ stop := by
    intro p hp
    have hle : p.1 ≤ start + wordStart (middle.flatMap Prod.snd) := by
      rw [placedFrom_append] at hp
      rcases List.mem_append.mp hp with hp | hp
      · exact mem_placedFrom_le hp
      · obtain rfl := List.mem_singleton.mp hp
        exact Nat.le_refl _
    omega
  have hback : stop < wordStart ((front ++ (middle ++ [(raw, us ++ vs)])).flatMap Prod.snd) := by
    have := wordStart_eq hus
    simp only [List.flatMap_append, List.flatMap_singleton, wordStart_append, hstart]
    omega
  have hties : ∀ p ∈ (placedFrom 0 front).filter (fun p => start ≤ p.1 ∧ p.1 ≤ stop),
      p.2.2.isEmpty = true := by
    intro p hp
    obtain ⟨hmem, hwithin⟩ := List.mem_filter.mp hp
    rw [eq_nil_of_mem_front hmem (hstart ▸ (of_decide_eq_true hwithin).1)]
    rfl
  have hmiddle : (placedFrom start (middle ++ [(raw, us ++ vs)])).dropWhile
      (fun p => p.2.2.isEmpty) = placedFrom start (middle ++ [(raw, us ++ vs)]) := by
    generalize middle ++ [(raw, us ++ vs)] = ws at hfirst
    cases ws with
    | nil => rfl
    | cons w rest =>
      refine List.dropWhile_cons_of_neg ?_
      simpa using hfirst w rfl
  rw [rawSpan_eq h, placed, split, filter_placedFrom hstart.symm hlast hback,
    List.dropWhile_append_of_pos hties, hmiddle, ← Function.comp_def Prod.fst Prod.snd,
    ← List.map_map, map_snd_placedFrom]

section Between

variable {α : Type} {l : List α} {i j : Nat} {x : α}

theorem drop_take_add_one (hij : i ≤ j) (hj : l[j]? = some x) :
    (l.take (j + 1)).drop i = (l.take j).drop i ++ [x] := by
  have := (List.getElem?_eq_some_iff.mp hj).1
  rw [List.take_add_one, hj, Option.toList_some,
    List.drop_append_of_le_length (by rw [List.length_take]; omega)]

/-- A list in three parts, the second one from the element `i` to the element `j`. -/
theorem eq_append_between (hij : i ≤ j) (hj : l[j]? = some x) :
    l = l.take i ++ ((l.take j).drop i ++ [x]) ++ l.drop (j + 1) := by
  rw [← drop_take_add_one hij hj, take_append_drop_take (by omega), List.take_append_drop]

end Between

/-- The bytes from the first token of the raw word `i` to the end of some token of the raw word
`j`, which is the last one of `us`. -/
inductive Spans (t : Target) (i j : Nat) : Nat → Nat → Prop
  | mk {w : String} {ws us vs : List String} (ordered : i ≤ j)
      (first : t.tokens[i]? = some (w :: ws)) (last : t.tokens[j]? = some (us ++ vs))
      (some : us ≠ []) :
      Spans t i j (wordStart (t.tokens.take i).flatten) (wordStop ((t.tokens.take j).flatten ++ us))

theorem rawSpan_of_spans {t : Target} (h : t.Aligned) {i j start stop : Nat}
    (hspan : t.Spans i j start stop) :
    t.rawSpan start stop = unwords ((t.rawWords.take (j + 1)).drop i) := by
  obtain @⟨w, ws, us, vs, hij, hi, hj, hus⟩ := hspan
  have hlength := h.length_eq
  generalize hpairs : t.rawWords.zip t.tokens = pairs
  have hraw : pairs.map Prod.fst = t.rawWords := hpairs ▸ List.map_fst_zip (Nat.le_of_eq hlength)
  have htokens : pairs.map Prod.snd = t.tokens :=
    hpairs ▸ List.map_snd_zip (Nat.le_of_eq hlength.symm)
  rw [← htokens, List.getElem?_map] at hi hj
  obtain ⟨⟨raw, _⟩, hfirst, rfl⟩ := Option.map_eq_some_iff.mp hi
  obtain ⟨⟨raw', _⟩, hlast, rfl⟩ := Option.map_eq_some_iff.mp hj
  have hmiddle := drop_take_add_one hij hlast
  have hsplit := hpairs.trans (eq_append_between hij hlast)
  have hspan := rawSpan_of_split h hsplit (fun w' hw' => ?_) hus
  · rwa [take_append_drop_take hij, ← hmiddle, List.flatMap_def, List.flatMap_def, List.map_take,
      List.map_take, List.map_drop, List.map_take, htokens, hraw] at hspan
  · rw [← hmiddle, List.head?_drop, List.getElem?_take_of_lt (by omega), hfirst] at hw'
    obtain rfl := Option.some.inj hw'
    exact List.cons_ne_nil w ws

/-- What stands between such bytes are tokens of the raw words from `i` to `j`. -/
theorem slice_of_spans {t : Target} {i j start stop : Nat} (h : t.Spans i j start stop) :
    ∃ us, us ≠ [] ∧ us <+: ((t.tokens.take (j + 1)).drop i).flatten ∧
      slice t.normalized start stop = unwords us := by
  obtain @⟨w, ws, us, vs, hij, hi, hj, hus⟩ := h
  have hne : ((t.tokens.take j).drop i).flatten ++ us ≠ [] :=
    List.append_ne_nil_of_right_ne_nil _ hus
  refine ⟨((t.tokens.take j).drop i).flatten ++ us, hne, ⟨vs, ?_⟩, ?_⟩
  · rw [drop_take_add_one hij hj]
    simp
  · have hall : t.tokens.flatten = (t.tokens.take i).flatten ++
        (((t.tokens.take j).drop i).flatten ++ us) ++ (vs ++ (t.tokens.drop (j + 1)).flatten) := by
      have := congrArg List.flatten (eq_append_between hij hj)
      simpa using this
    have hbefore : (t.tokens.take j).flatten ++ us =
        (t.tokens.take i).flatten ++ (((t.tokens.take j).drop i).flatten ++ us) := by
      rw [← List.append_assoc, ← List.flatten_append, take_append_drop_take hij]
    rw [normalized, hall, hbefore, slice_words _ _ hne]

/-! ## Targets without substitutions -/

theorem exists_index_of_flatten {lists : List (List String)} {done rest : List String} {w : String}
    (hone : ∀ l ∈ lists, l.length ≤ 1) (h : lists.flatten = done ++ w :: rest) :
    ∃ i, lists[i]? = some [w] ∧ (lists.take i).flatten = done := by
  induction lists generalizing done with
  | nil => simp at h
  | cons l lists ih =>
    obtain ⟨hl, hlists⟩ := List.forall_mem_cons.mp hone
    match l, done with
    | [], done =>
      obtain ⟨i, hi, htake⟩ := ih hlists h
      exact ⟨i + 1, hi, htake⟩
    | [x], [] =>
      obtain ⟨rfl, -⟩ := List.cons.inj h
      exact ⟨0, rfl, rfl⟩
    | [x], y :: done =>
      obtain ⟨rfl, hrest⟩ := List.cons.inj h
      obtain ⟨i, hi, htake⟩ := ih hlists hrest
      exact ⟨i + 1, hi, by rw [List.take_succ_cons, List.flatten_cons, htake]; rfl⟩
    | x :: y :: l, _ => simp at hl

theorem length_tokens_plain (text : String) : ∀ l ∈ (plain text).tokens, l.length ≤ 1 := by
  intro l hl
  obtain ⟨w, hw, rfl⟩ := List.mem_map.mp hl
  obtain ⟨hne, hblank⟩ := ne_empty_of_mem_words hw
  exact length_normalWords_le hne hblank

/-- Without substitutions, every run of whole words goes from a raw word to a raw word. -/
theorem exists_spans_plain {text : String} {done us todo : List String}
    (h : (plain text).tokens.flatten = done ++ us ++ todo) (hne : us ≠ []) :
    ∃ i j, (plain text).Spans i j (wordStart done) (wordStop (done ++ us)) := by
  have hone := length_tokens_plain text
  obtain ⟨init, v, hlast⟩ := (List.eq_nil_or_concat us).resolve_left hne
  obtain ⟨u, us', hfirst⟩ := List.exists_cons_of_ne_nil hne
  have hall : (plain text).tokens.flatten = done ++ u :: (us' ++ todo) := by
    rw [h, hfirst]
    simp
  obtain ⟨i, hi, hdone⟩ := exists_index_of_flatten hone hall
  -- The last word is looked for among the tokens that are left.
  have hrest : ((plain text).tokens.drop i).flatten = init ++ v :: todo := by
    have := congrArg List.flatten (List.take_append_drop i (plain text).tokens)
    rw [List.flatten_append, hdone, h, hlast, List.append_assoc] at this
    simpa using List.append_cancel_left this
  obtain ⟨k, hk, hinit⟩ := exists_index_of_flatten
    (fun l hl => hone l (List.mem_of_mem_drop hl)) hrest
  refine ⟨i, i + k, ?_⟩
  have hk : (plain text).tokens[i + k]? = some ([v] ++ []) := List.getElem?_drop.symm.trans hk
  have := Spans.mk (Nat.le_add_right i k) hi hk (List.cons_ne_nil v [])
  rwa [List.take_add, List.flatten_append, hdone, hinit, List.append_assoc,
    ← List.concat_eq_append, ← hlast] at this

/-- A span from the first token of a raw word to a token of another one leads back to all raw words
from the one to the other, and without substitutions every run of whole words is such a span. -/
theorem rawSpan_inverts_normalization {text : String} {t : Target}
    (h : t = plain text ∨ ∃ substitutions, ofText? text substitutions = .ok t) :
    (∀ {i j start stop}, t.Spans i j start stop →
      t.rawSpan start stop = unwords ((t.rawWords.take (j + 1)).drop i) ∧
      ∃ us, us ≠ [] ∧ us <+: ((t.tokens.take (j + 1)).drop i).flatten ∧
        slice t.normalized start stop = unwords us) ∧
    (t = plain text → ∀ {done us todo}, t.tokens.flatten = done ++ us ++ todo → us ≠ [] →
      ∃ i j, t.Spans i j (wordStart done) (wordStop (done ++ us))) := by
  have aligned : t.Aligned := by
    rcases h with rfl | ⟨substitutions, h⟩
    · exact aligned_of_ofText? (plain_eq text)
    · exact aligned_of_ofText? h
  refine ⟨fun hspan => ⟨rawSpan_of_spans aligned hspan, slice_of_spans hspan⟩, ?_⟩
  rintro rfl done us todo hall hne
  exact exists_spans_plain hall hne

/-- The contraction has two tokens, and the second raw word within the span has none. -/
theorem rawSpan_inverts_normalization_contraction :
    let expand : Substitution := ⟨"contractions", fun _ lists =>
      lists.map fun ws => ws.map fun w => if w = "I'm" then "i am" else w⟩
    ∃ t, ofText? "- I'm :) tired today!" [expand] = .ok t ∧ t.normalized = "i am tired today" ∧
      t.rawSpan 0 10 = "I'm :) tired" := by
  intro expand
  have hread : ofText? "- I'm :) tired today!" [expand] = .ok ⟨"- I'm :) tired today!",
    ["-", "I'm", ":)", "tired", "today!"], [[], ["i", "am"], [], ["tired"], ["today"]]⟩ := rfl
  refine ⟨_, hread, rfl, ?_⟩
  have ordered : 1 ≤ 3 := by decide
  have last : [[], ["i", "am"], [], ["tired"], ["today"]][3]? = some (["tired"] ++ []) := rfl
  exact ((rawSpan_inverts_normalization (.inr ⟨_, hread⟩)).1
    (.mk ordered rfl last (List.cons_ne_nil "tired" []))).1

/-! ## Spans without raw words -/

/-- The tokens of a raw word begin at one of the bytes from `start` to `stop`. -/
def BeginsWithin (t : Target) (start stop : Nat) : Prop :=
  ∃ front w ws back, t.tokens = front ++ (w :: ws) :: back ∧
    start ≤ wordStart front.flatten ∧ wordStart front.flatten ≤ stop

theorem exists_mem_placed_iff {t : Target} (h : t.Aligned) {start stop : Nat} :
    (∃ p ∈ t.placed, p.2.2 ≠ [] ∧ start ≤ p.1 ∧ p.1 ≤ stop) ↔ t.BeginsWithin start stop := by
  have htokens := h.map_snd_zip
  constructor
  · rintro ⟨⟨place, raw, tokens⟩, hp, hne, hstart, hstop⟩
    obtain ⟨front, back, split, hplace⟩ := mem_placedFrom_iff.mp hp
    obtain ⟨w, ws, rfl⟩ := List.exists_cons_of_ne_nil hne
    simp only [Nat.zero_add, List.flatMap_def] at hplace hstart hstop split
    refine ⟨front.map Prod.snd, w, ws, back.map Prod.snd, ?_, hplace ▸ hstart, hplace ▸ hstop⟩
    rw [← htokens, split, List.map_append, List.map_cons]
  · rintro ⟨front, w, ws, back, split, hstart, hstop⟩
    rw [← htokens] at split
    obtain ⟨front, rest, hzip, rfl, hrest⟩ := List.map_eq_append_iff.mp split
    obtain ⟨⟨raw, tokens⟩, back, rfl, rfl, rfl⟩ := List.map_eq_cons_iff.mp hrest
    rw [← List.flatMap_def] at hstart hstop
    exact ⟨(wordStart (front.flatMap Prod.snd), raw, w :: ws),
      mem_placedFrom_iff.mpr ⟨front, back, hzip, (Nat.zero_add _).symm⟩, List.cons_ne_nil w ws,
      hstart, hstop⟩

/-- A span comes from no raw words exactly if the tokens of none of them begin in it or at its
end. -/
theorem rawSpan_eq_empty_iff {t : Target} (h : t.Aligned) {start stop : Nat} :
    t.rawSpan start stop = "" ↔ ¬ t.BeginsWithin start stop := by
  have hraw : ∀ p ∈ t.placed, p.2.1 ≠ "" := by
    intro p hp
    have hmem : p.2 ∈ t.rawWords.zip t.tokens := by
      rw [← map_snd_placedFrom 0 (t.rawWords.zip t.tokens)]
      exact List.mem_map_of_mem hp
    exact h.rawWord_ne _ (List.of_mem_zip hmem).1
  rw [rawSpan_eq h, unwords_eq_empty_iff, List.map_eq_nil_iff, List.dropWhile_eq_nil_iff,
    ← exists_mem_placed_iff h]
  · simp only [List.mem_filter, decide_eq_true_eq, List.isEmpty_iff, and_imp]
    constructor
    · rintro hall ⟨p, hp, hne, hstart, hstop⟩
      exact hne (hall p hp hstart hstop)
    · intro hnone p hp hstart hstop
      exact Decidable.byContradiction fun hne => hnone ⟨p, hp, hne, hstart, hstop⟩
  · intro raw hmem
    obtain ⟨p, hp, rfl⟩ := List.mem_map.mp hmem
    exact hraw p (List.mem_filter.mp ((List.dropWhile_sublist _).subset hp)).1

end Target
end Repartee
