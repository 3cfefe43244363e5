import Repartee.Proofs.Pattern.Regex.Matches
import Repartee.Proofs.Text.Words

/-!
# Places between words

In a normal text the matcher only ever comes to places where a word begins or ends. `Place` names
such a place by the words in front of it. This module says what the matcher finds there: boundaries
everywhere (`isBoundary_of_place`), white space behind every word but the last one, and runs of
words exactly where the words are of the class (`stop_of_run`, `run_of_acceptsWord`).
-/

namespace Repartee.Pattern.Regex

open Repartee.Unicode Repartee.Text

/-! ## A text cut in two -/

section Cut

variable (front back : List Char)

theorem holdsAt_cut (p : Char → Bool) :
    holdsAt (front ++ back).toArray p front.length = back.head?.any p := by
  unfold holdsAt
  rw [List.getElem?_toArray, List.getElem?_append_right (Nat.le_refl _), Nat.sub_self,
    ← List.head?_eq_getElem?]

theorem isBoundary_cut :
    isBoundary (front ++ back).toArray front.length =
      (front.getLast?.any isWordChar != back.head?.any isWordChar) := by
  unfold isBoundary
  rw [holdsAt_cut]
  congr 1
  obtain rfl | ⟨cs, c, rfl⟩ := List.eq_nil_or_concat front
  · rfl
  · have := holdsAt_cut cs (c :: back) isWordChar
    simpa [List.append_assoc] using this

theorem literalAt_cut (cs : List Char) :
    literalAt (front ++ back).toArray cs front.length = true ↔ ∃ rest, back = cs ++ rest := by
  induction cs generalizing front back with
  | nil => simp [literalAt]
  | cons c cs ih =>
    unfold literalAt
    rw [Bool.and_eq_true, beq_iff_eq, List.getElem?_toArray,
      List.getElem?_append_right (Nat.le_refl _), Nat.sub_self]
    cases back with
    | nil => simp
    | cons b bs =>
      have := ih (front ++ [b]) bs
      rw [List.append_assoc, List.singleton_append, List.length_append, List.length_singleton]
        at this
      rw [this]
      simp only [List.getElem?_cons_zero, Option.some.injEq, List.cons_append, List.cons.injEq]
      constructor
      · rintro ⟨rfl, rest, rfl⟩
        exact ⟨rest, rfl, rfl⟩
      · rintro ⟨rest, rfl, rfl⟩
        exact ⟨rfl, rest, rfl⟩

theorem runFrom_cut (p : Char → Bool) {fuel : Nat} (h : back.length ≤ fuel) :
    runFrom (front ++ back).toArray p fuel front.length =
      front.length + (back.takeWhile p).length := by
  induction fuel generalizing front back with
  | zero =>
    obtain rfl := List.length_eq_zero_iff.mp (Nat.le_zero.mp h)
    rfl
  | succ fuel ih =>
    unfold runFrom
    rw [holdsAt_cut]
    cases back with
    | nil => rfl
    | cons b bs =>
      rw [List.head?_cons, Option.any_some]
      cases hb : p b with
      | false => simp [List.takeWhile, hb]
      | true =>
        have := ih (front ++ [b]) bs (by simpa using h)
        rw [List.append_assoc, List.singleton_append, List.length_append, List.length_singleton]
          at this
        rw [if_pos rfl, this, List.takeWhile_cons_of_pos hb, List.length_cons]
        omega

theorem runEnd_cut (p : Char → Bool) :
    runEnd (front ++ back).toArray p front.length = front.length + (back.takeWhile p).length := by
  unfold runEnd
  refine runFrom_cut front back p ?_
  simp

end Cut

/-! ## Places -/

/-- The characters of the text made of these words. -/
def textOf (ws : List String) : Array Char :=
  (unwords ws).toList.toArray

/-- A place in the text of these words with `done` in front of it, at the beginning of the next word
or behind the last one of them. -/
inductive Place (ws done : List String) : Nat → Prop
  | start {todo} (split : ws = done ++ todo) (more : todo ≠ []) :
      Place ws done (ahead done).length
  | stop {todo} (split : ws = done ++ todo) (some : done = [] → todo = []) :
      Place ws done (unwords done).toList.length

theorem textOf_ahead (done : List String) {todo : List String} (more : todo ≠ []) :
    textOf (done ++ todo) = (ahead done ++ (unwords todo).toList).toArray := by
  rw [textOf, toList_unwords_ahead done more]

theorem textOf_behind {done todo : List String} (some : done = [] → todo = []) :
    textOf (done ++ todo) = ((unwords done).toList ++ behind todo).toArray := by
  rw [textOf, toList_unwords_behind some]

theorem place_zero (ws : List String) : Place ws [] 0 := by
  cases ws with
  | nil => exact .stop (List.append_nil []).symm fun _ => rfl
  | cons w ws => exact .start (List.nil_append (w :: ws)).symm (List.cons_ne_nil w ws)

/-- The last place of a text has all words in front of it, and no other place is the last one. -/
theorem eq_of_place_size {ws done : List String} (hws : ∀ w ∈ ws, IsNormalWord w)
    (h : Place ws done (textOf ws).size) : done = ws := by
  generalize hsize : (textOf ws).size = i at h
  cases h with
  | @start todo split more =>
    subst split
    rw [textOf_ahead done more] at hsize
    have hempty : (unwords todo).toList = [] := by
      refine List.length_eq_zero_iff.mp ?_
      simpa using hsize
    have hword := isWordChar_head?_unwords
      (fun w hw => hws w (List.mem_append_right done hw)) more
    rw [hempty] at hword
    cases hword
  | @stop todo split some =>
    subst split
    rw [textOf_behind some] at hsize
    cases todo with
    | nil => exact (List.append_nil done).symm
    | cons w todo => simp [behind] at hsize

theorem length_ahead {done : List String} (hne : done ≠ []) :
    (ahead done).length = (unwords done).toList.length + 1 := by
  rw [ahead_eq_append hne, List.length_append, List.length_singleton]

theorem length_unwords_append (done : List String) {us : List String} (hne : us ≠ []) :
    (unwords (done ++ us)).toList.length = (ahead done).length + (unwords us).toList.length := by
  rw [toList_unwords_ahead done hne, List.length_append]

section Normal

variable {ws done todo : List String} (hws : ∀ w ∈ ws, IsNormalWord w)

include hws

theorem isBoundary_of_place (hne : ws ≠ []) {i : Nat} (h : Place ws done i) :
    isBoundary (textOf ws) i = true := by
  cases h with
  | @start todo split more =>
    subst split
    rw [textOf_ahead done more, isBoundary_cut,
      isWordChar_head?_unwords (fun w hw => hws w (List.mem_append_right done hw)) more]
    cases done with
    | nil => rfl
    | cons w done => simp [ahead, isWordChar_of_isBlank isBlank_space]
  | @stop todo split some =>
    subst split
    have hdone : done ≠ [] := by
      rintro rfl
      exact hne (some rfl)
    obtain ⟨c, hc, hblank⟩ := isBlank_getLast?_unwords
      (fun w hw => ⟨(hws w (List.mem_append_left todo hw)).nonempty,
        (hws w (List.mem_append_left todo hw)).isBlank⟩) hdone
    have hmem := isWordChar_or_isBlank_of_mem_unwords
      (fun w hw => hws w (List.mem_append_left todo hw)) c (List.mem_of_getLast? hc)
    have hword : isWordChar c = true :=
      hmem.resolve_right (by rw [hblank]; exact Bool.false_ne_true)
    rw [textOf_behind some, isBoundary_cut, isWordChar_head?_behind, hc, Option.any_some, hword]
    rfl

theorem isBlank_start (split : ws = done ++ todo) (more : todo ≠ []) :
    holdsAt (textOf ws) isBlank (ahead done).length = false := by
  subst split
  have hword := isWordChar_head?_unwords (fun w hw => hws w (List.mem_append_right done hw)) more
  rw [textOf_ahead done more, holdsAt_cut]
  cases hhead : (unwords todo).toList.head? with
  | none => rfl
  | some c =>
    rw [hhead, Option.any_some] at hword
    exact isBlank_of_isWordChar hword

/-- A place where there is white space has words on both sides, and the next word begins behind
it. -/
theorem place_of_isBlank {i : Nat} (h : Place ws done i)
    (hblank : holdsAt (textOf ws) isBlank i = true) : Place ws done (i + 1) := by
  cases h with
  | @start todo split more =>
    rw [isBlank_start hws split more] at hblank
    cases hblank
  | @stop todo split some =>
    subst split
    rw [textOf_behind some, holdsAt_cut] at hblank
    cases todo with
    | nil => cases hblank
    | cons w todo =>
      have hdone : done ≠ [] := fun hnil => List.cons_ne_nil w todo (some hnil)
      rw [← length_ahead hdone]
      exact .start rfl (List.cons_ne_nil w todo)

/-! ## Words of a class -/

/-- The word is of the class: all of its characters are. -/
def AcceptsWord (kind : WordClass) (w : String) : Prop :=
  ∀ c ∈ w.toList, kind.accepts c = true

omit hws in
theorem isWordChar_of_accepts {kind : WordClass} {c : Char} (h : kind.accepts c = true) :
    isWordChar c = true := by
  cases kind with
  | any => exact h
  | letters => exact isWordChar_of_isLetter h
  | digits => exact isWordChar_of_isDecimal h

omit hws in
theorem takeWhile_accepts_behind (kind : WordClass) (ws : List String) :
    (behind ws).takeWhile kind.accepts = [] := by
  cases ws with
  | nil => rfl
  | cons w ws =>
    refine List.takeWhile_cons_of_neg fun h => ?_
    have := isWordChar_of_isBlank isBlank_space
    rw [isWordChar_of_accepts h] at this
    cases this

omit hws in
theorem runEnd_stop (kind : WordClass) (some : done = [] → todo = []) :
    runEnd (textOf (done ++ todo)) kind.accepts (unwords done).toList.length =
      (unwords done).toList.length := by
  rw [textOf_behind some, runEnd_cut, takeWhile_accepts_behind]
  rfl

omit hws in
theorem runEnd_of_acceptsWord {kind : WordClass} {w : String} (h : AcceptsWord kind w)
    (done todo : List String) :
    runEnd (textOf (done ++ w :: todo)) kind.accepts (ahead done).length =
      (unwords (done ++ [w])).toList.length := by
  rw [textOf_ahead done (List.cons_ne_nil w todo), runEnd_cut, toList_unwords_cons,
    List.takeWhile_append_of_pos h, takeWhile_accepts_behind,
    length_unwords_append done (List.cons_ne_nil w []), toList_unwords_cons]
  rfl

/-- A word that is not of the class is not taken up to its end. -/
theorem runEnd_of_not_acceptsWord {kind : WordClass} {w : String} (h : ¬ AcceptsWord kind w)
    (split : ws = done ++ w :: todo) {j : Nat}
    (hj : runEnd (textOf ws) kind.accepts (ahead done).length = j) (hlt : (ahead done).length < j) :
    isBoundary (textOf ws) j = false ∧ holdsAt (textOf ws) isBlank j = false := by
  subst split
  have hw := hws w (List.mem_append_right done List.mem_cons_self)
  -- The word goes on with a character that is not of the class.
  obtain ⟨c, hfind⟩ : ∃ c, w.toList.find? (fun c => !kind.accepts c) = some c := by
    rw [← Option.isSome_iff_exists, List.find?_isSome]
    simpa [AcceptsWord] using h
  obtain ⟨hc, cs, ds, hword, hcs⟩ := List.find?_eq_some_iff_append.mp hfind
  replace hc : ¬ kind.accepts c = true := by simpa using hc
  replace hcs : ∀ d ∈ cs, kind.accepts d = true := by simpa using hcs
  have hcw : isWordChar c = true := hw.wordChars c (by rw [hword]; simp)
  have hcut : ahead done ++ (unwords (w :: todo)).toList =
      (ahead done ++ cs) ++ (c :: (ds ++ behind todo)) := by
    rw [toList_unwords_cons, hword]
    simp
  rw [textOf_ahead done (List.cons_ne_nil w todo)] at hj ⊢
  have hlen : j = (ahead done ++ cs).length := by
    rw [← hj, runEnd_cut, toList_unwords_cons, hword, List.append_assoc,
      List.takeWhile_append_of_pos hcs, List.cons_append, List.takeWhile_cons_of_neg hc,
      List.append_nil, List.length_append]
  obtain rfl | ⟨front, d, rfl⟩ := List.eq_nil_or_concat cs
  · rw [List.append_nil] at hlen
    omega
  rw [List.concat_eq_append] at *
  have hd := isWordChar_of_accepts (hcs d (by simp))
  rw [hcut, hlen, isBoundary_cut, holdsAt_cut]
  simp [hd, hcw, isBlank_of_isWordChar hcw]

omit hws in
theorem isBlank_stop_iff (some : done = [] → todo = []) :
    holdsAt (textOf (done ++ todo)) isBlank (unwords done).toList.length = true ↔ todo ≠ [] := by
  rw [textOf_behind some, holdsAt_cut]
  cases todo with
  | nil => simp [behind]
  | cons w todo => simp [behind, isBlank_space]

/-- There is no white space before the place where a word ends. -/
theorem isBlank_before_stop (split : ws = done ++ todo) (hne : done ≠ []) :
    holdsAt (textOf ws) isBlank ((unwords done).toList.length - 1) = false := by
  have hdone : ∀ w ∈ done, IsNormalWord w := fun w hw => hws w (by simp [split, hw])
  obtain ⟨c, hc, hblank⟩ := isBlank_getLast?_unwords
    (fun w hw => ⟨(hdone w hw).nonempty, (hdone w hw).isBlank⟩) hne
  have hlt : (unwords done).toList.length - 1 < (unwords done).toList.length := by
    have := List.length_pos_of_mem (List.mem_of_getLast? hc)
    omega
  rw [split, textOf_behind fun hnil => absurd hnil hne, holdsAt, List.getElem?_toArray,
    List.getElem?_append_left hlt, ← List.getLast?_eq_getElem?, hc, Option.any_some, hblank]

theorem length_ahead_lt {w : String} (split : ws = done ++ w :: todo) :
    (ahead done).length < (unwords (done ++ [w])).toList.length := by
  have hw := hws w (by simp [split])
  have hpos := List.length_pos_iff.mpr hw.toList_ne_nil
  rw [length_unwords_append done (List.cons_ne_nil w []), toList_unwords_cons, List.length_append]
  omega

theorem nextWord?_start {kind : WordClass} {w : String} (split : ws = done ++ w :: todo)
    {j : Nat} : nextWord? (textOf ws) kind (ahead done).length = some j ↔
      AcceptsWord kind w ∧ todo ≠ [] ∧ j = (ahead (done ++ [w])).length := by
  unfold nextWord?
  simp only [Option.ite_none_right_eq_some, Bool.and_eq_true, decide_eq_true_eq]
  by_cases hkind : AcceptsWord kind w
  · have hlt := length_ahead_lt hws split
    have hend := runEnd_of_acceptsWord hkind done todo
    have hblank : holdsAt (textOf (done ++ [w] ++ todo)) isBlank _ = true ↔ todo ≠ [] :=
      isBlank_stop_iff (by simp)
    rw [List.append_assoc, List.singleton_append] at hblank
    have hne : done ++ [w] ≠ [] := by simp
    subst split
    rw [hend, hblank, length_ahead hne, Option.some.injEq]
    constructor
    · rintro ⟨⟨-, hmore⟩, rfl⟩
      exact ⟨hkind, hmore, rfl⟩
    · rintro ⟨-, hmore, rfl⟩
      exact ⟨⟨hlt, hmore⟩, rfl⟩
  · constructor
    · rintro ⟨⟨hlt, hblank⟩, -⟩
      rw [(runEnd_of_not_acceptsWord hws hkind split rfl hlt).2] at hblank
      cases hblank
    · exact fun h => absurd h.1 hkind

theorem lastWord?_start {kind : WordClass} {w : String} (split : ws = done ++ w :: todo)
    {j : Nat} : lastWord? (textOf ws) kind (ahead done).length = some j ↔
      AcceptsWord kind w ∧ j = (unwords (done ++ [w])).toList.length := by
  unfold lastWord?
  simp only [Option.ite_none_right_eq_some, Bool.and_eq_true, decide_eq_true_eq]
  by_cases hkind : AcceptsWord kind w
  · have hlt := length_ahead_lt hws split
    have hend := runEnd_of_acceptsWord hkind done todo
    have hplace : Place ws (done ++ [w]) (unwords (done ++ [w])).toList.length :=
      .stop (show ws = done ++ [w] ++ todo by simp [split]) (by simp)
    have hboundary := isBoundary_of_place hws (by simp [split]) hplace
    subst split
    rw [hend, Option.some.injEq]
    constructor
    · rintro ⟨-, rfl⟩
      exact ⟨hkind, rfl⟩
    · rintro ⟨-, rfl⟩
      exact ⟨⟨hlt, hboundary⟩, rfl⟩
  · constructor
    · rintro ⟨⟨hlt, hboundary⟩, -⟩
      rw [(runEnd_of_not_acceptsWord hws hkind split rfl hlt).1] at hboundary
      cases hboundary
    · exact fun h => absurd h.1 hkind

omit hws in
theorem nextWord?_stop {kind : WordClass} (some : done = [] → todo = []) :
    nextWord? (textOf (done ++ todo)) kind (unwords done).toList.length = none := by
  unfold nextWord?
  rw [runEnd_stop kind some]
  simp

omit hws in
theorem lastWord?_stop {kind : WordClass} (some : done = [] → todo = []) :
    lastWord? (textOf (done ++ todo)) kind (unwords done).toList.length = none := by
  unfold lastWord?
  rw [runEnd_stop kind some]
  simp

omit hws in
/-- A run starts where a word begins. -/
theorem start_of_run {kind : WordClass} {n i j : Nat} (hrun : Run (textOf ws) kind n i j)
    (hplace : Place ws done i) : i = (ahead done).length := by
  cases hplace with
  | start => rfl
  | stop split some =>
    subst split
    cases hrun with
    | last word => rw [lastWord?_stop some] at word; cases word
    | next word others => rw [nextWord?_stop some] at word; cases word

/-- A run that starts at a place is one of the next words, which are of the class, and it ends where
the last one of them ends. -/
theorem stop_of_run {kind : WordClass} {n i j : Nat} (hrun : Run (textOf ws) kind n i j) :
    ∀ {done}, Place ws done i → ∃ us todo, us.length = n ∧ (∀ u ∈ us, AcceptsWord kind u) ∧
      ws = done ++ us ++ todo ∧ j = (unwords (done ++ us)).toList.length := by
  induction hrun with
  | @last i j word =>
    intro done hplace
    cases hplace with
    | @start todo split more =>
      obtain ⟨w, todo, rfl⟩ := List.exists_cons_of_ne_nil more
      obtain ⟨hkind, rfl⟩ := (lastWord?_start hws split).mp word
      exact ⟨[w], todo, rfl, List.forall_mem_singleton.mpr hkind, by simp [split], rfl⟩
    | @stop todo split some =>
      rw [split, lastWord?_stop some] at word
      cases word
  | @next n i j k word others ih =>
    intro done hplace
    cases hplace with
    | @start todo split more =>
      obtain ⟨w, todo, rfl⟩ := List.exists_cons_of_ne_nil more
      obtain ⟨hkind, hmore, rfl⟩ := (nextWord?_start hws split).mp word
      obtain ⟨us, todo', hlength, hus, hsplit, rfl⟩ :=
        ih (.start (show ws = done ++ [w] ++ todo by simp [split]) hmore)
      refine ⟨w :: us, todo', by rw [List.length_cons, hlength],
        List.forall_mem_cons.mpr ⟨hkind, hus⟩, by simp [hsplit], by simp⟩
    | @stop todo split some =>
      rw [split, nextWord?_stop some] at word
      cases word

theorem place_of_run {kind : WordClass} {n i j : Nat} (hrun : Run (textOf ws) kind n i j)
    {done : List String} (hplace : Place ws done i) :
    ∃ us, us.length = n ∧ (∀ u ∈ us, AcceptsWord kind u) ∧ Place ws (done ++ us) j := by
  obtain ⟨us, todo, hlength, hus, hsplit, rfl⟩ := stop_of_run hws hrun hplace
  refine ⟨us, hlength, hus, .stop hsplit fun hnil => ?_⟩
  obtain rfl := (List.append_eq_nil_iff.mp hnil).2
  exact absurd hrun.pos (by rw [← hlength]; decide)

theorem run_of_acceptsWord {kind : WordClass} {us : List String} (hne : us ≠ [])
    (hkind : ∀ u ∈ us, AcceptsWord kind u) : ∀ {done todo}, ws = done ++ us ++ todo →
      Run (textOf ws) kind us.length (ahead done).length (unwords (done ++ us)).toList.length := by
  induction us with
  | nil => exact absurd rfl hne
  | cons u us ih =>
    intro done todo split
    obtain ⟨hu, hus⟩ := List.forall_mem_cons.mp hkind
    cases us with
    | nil =>
      have hword : ws = done ++ u :: todo := by simp [split]
      exact .last ((lastWord?_start hws hword).mpr ⟨hu, rfl⟩)
    | cons v vs =>
      have hword : ws = done ++ u :: (v :: vs ++ todo) := by simp [split]
      have hnext := (nextWord?_start hws hword).mpr ⟨hu, List.cons_ne_nil _ _, rfl⟩
      have hrest := ih (List.cons_ne_nil v vs) hus
        (show ws = done ++ [u] ++ v :: vs ++ todo by simp [split])
      rw [List.append_assoc, List.singleton_append] at hrest
      exact .next hnext hrest

end Normal

end Repartee.Pattern.Regex
