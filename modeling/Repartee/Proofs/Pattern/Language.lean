import Mathlib.Computability.Language
import Repartee.Pattern.Compile
import Repartee.Proofs.Pattern.Places
import Repartee.Proofs.Pattern.Shape

/-!
# The words that a tree stands for

Every part of a pattern stands for a language of words, which says nothing of characters and places.
`Faithful` relates a regular expression to such a language, over the places of one normal text: from
a place, the expression matches to the place behind words of the language, and to no other ones.
Empty matches may start anywhere, all others from the beginning of a word to the end of one.

The regular expression of a tree is faithful to its language (`Sequence.Shaped.faithful`), provided
that those of its references are.
-/

namespace Repartee.Pattern

open Repartee.Unicode Repartee.Text

/-! ## Languages -/

/-- Between the least and the most number of words, all of the class. -/
def Wildcard.language (w : Wildcard) : Language String :=
  {ws | w.min ≤ ws.length ∧ (∀ most ∈ w.max, ws.length ≤ most) ∧
    ∀ u ∈ ws, ∀ c ∈ u.toList, w.kind.accepts c = true}

/-- A single word is never too many. -/
theorem Wildcard.le_most {w : Wildcard} {n : Nat} (h : ∀ most ∈ w.max, n ≤ 1 ∨ n ≤ most) :
    ∀ most ∈ w.max, n ≤ most := by
  intro most hmost
  have := w.min_pos
  have := w.min_le_max most hmost
  rcases h most hmost with h | h <;> omega

/-- Brackets around alternatives with this language. -/
def Bracket.language : Bracket → Language String → Language String
  | optional, L => L + 1
  | group, L => L

mutual

/-- The lists of words that a part stands for, where references stand for these. -/
def Node.language (value : VariableKind → String → Language String) : Node → Language String
  | .wildcard w => w.language
  | .words us => {us}
  | .space => 1
  | .memo node => node.language value
  | .reference kind name => value kind name
  | .choice bracket alternatives => bracket.language (alternativesLanguage value alternatives)

/-- The lists of words that a sequence stands for. -/
def Sequence.language (value : VariableKind → String → Language String) :
    List Node → Language String
  | [] => 1
  | node :: nodes => node.language value * Sequence.language value nodes

/-- The lists of words that one of the alternatives stands for. -/
def alternativesLanguage (value : VariableKind → String → Language String) :
    List (List Node) → Language String
  | [] => 0
  | alternative :: rest => Sequence.language value alternative + alternativesLanguage value rest

end

/-- A reference stands for the words of its variable's value, read as a simple pattern. -/
def Bindings.language (b : Bindings) (kind : VariableKind) (name : String) : Language String :=
  {ws | ∃ content tree, b.lookup kind name = some (.text content) ∧
    parse? .simple content = .ok tree ∧ ws ∈ Sequence.language (fun _ _ => 0) tree}

/-! ## Faithful expressions -/

namespace Regex

/-- The expression matches in the text of these words what the language holds. -/
structure Faithful (ws : List String) (r : Regex) (L : Language String) : Prop where
  sound : ∀ {done i j}, Place ws done i → r.Matches (textOf ws) i j →
    ∃ us, us ∈ L ∧ Place ws (done ++ us) j
  complete_nil : [] ∈ L → ∀ {done i}, Place ws done i → r.Matches (textOf ws) i i
  complete : ∀ {us done todo}, us ∈ L → us ≠ [] → ws = done ++ us ++ todo →
    r.Matches (textOf ws) (ahead done).length (unwords (done ++ us)).toList.length

namespace Faithful

variable {ws : List String} {r s : Regex} {L M : Language String}

theorem group (h : Faithful ws r L) : Faithful ws (.group r) L :=
  ⟨h.sound, h.complete_nil, h.complete⟩

theorem capture (index : Nat) (h : Faithful ws r L) : Faithful ws (.capture index r) L :=
  ⟨h.sound, h.complete_nil, h.complete⟩

theorem alt (h : Faithful ws r L) (h' : Faithful ws s M) : Faithful ws (.alt r s) (L + M) where
  sound := by
    intro done i j hplace hmatch
    rcases hmatch with hmatch | hmatch
    · obtain ⟨us, hus, hplace'⟩ := h.sound hplace hmatch
      exact ⟨us, .inl hus, hplace'⟩
    · obtain ⟨us, hus, hplace'⟩ := h'.sound hplace hmatch
      exact ⟨us, .inr hus, hplace'⟩
  complete_nil := by
    intro hnil done i hplace
    rcases hnil with hnil | hnil
    · exact .inl (h.complete_nil hnil hplace)
    · exact .inr (h'.complete_nil hnil hplace)
  complete := by
    intro us done todo hus hne split
    rcases hus with hus | hus
    · exact .inl (h.complete hus hne split)
    · exact .inr (h'.complete hus hne split)

theorem optional (h : Faithful ws r L) : Faithful ws (.optional r) (L + 1) where
  sound := by
    intro done i j hplace hmatch
    rcases hmatch with hmatch | rfl
    · obtain ⟨us, hus, hplace'⟩ := h.sound hplace hmatch
      exact ⟨us, .inl hus, hplace'⟩
    · exact ⟨[], .inr rfl, by rwa [List.append_nil]⟩
  complete_nil := fun _ _ _ _ => .inr rfl
  complete := by
    intro us done todo hus hne split
    rcases hus with hus | hus
    · exact .inl (h.complete hus hne split)
    · exact absurd hus hne

theorem seq_empty (h : Faithful ws r L) : Faithful ws (.seq r .empty) (L * 1) := by
  rw [mul_one]
  refine ⟨?_, ?_, ?_⟩
  · rintro done i j hplace ⟨k, hmatch, rfl⟩
    exact h.sound hplace hmatch
  · exact fun hnil done i hplace => ⟨i, h.complete_nil hnil hplace, rfl⟩
  · exact fun hus hne split => ⟨_, h.complete hus hne split, rfl⟩

variable (hws : ∀ w ∈ ws, IsNormalWord w)

include hws

/-- White space between two expressions is there exactly if both of them match words. -/
theorem seq_blank (h : Faithful ws r L) (h' : Faithful ws s M) :
    Faithful ws (.seq r (.seq .blank s)) (L * (1 * M)) := by
  rw [one_mul]
  refine ⟨?_, ?_, ?_⟩
  · rintro done i j hplace ⟨k, hfirst, l, hblank, hsecond⟩
    obtain ⟨us, hus, hplace⟩ := h.sound hplace hfirst
    have hplace' : Place ws (done ++ us) l := by
      rcases hblank with ⟨hblank, rfl⟩ | rfl
      · exact place_of_isBlank hws hplace hblank
      · exact hplace
    obtain ⟨vs, hvs, hplace'⟩ := h'.sound hplace' hsecond
    refine ⟨us ++ vs, Language.append_mem_mul hus hvs, ?_⟩
    rwa [← List.append_assoc]
  · intro hnil done i hplace
    obtain ⟨us, hus, vs, hvs, heq⟩ := Language.mem_mul.mp hnil
    obtain ⟨rfl, rfl⟩ := List.append_eq_nil_iff.mp heq
    exact ⟨i, h.complete_nil hus hplace, i, .inr rfl, h'.complete_nil hvs hplace⟩
  · intro both done todo hboth hne split
    obtain ⟨us, hus, vs, hvs, rfl⟩ := Language.mem_mul.mp hboth
    -- Either half may be empty: the other one then matches alone, with no white space beside it.
    by_cases hu : us = []
    · subst hu
      rw [List.nil_append] at hne split ⊢
      have hplace : Place ws done (ahead done).length := by
        rw [List.append_assoc] at split
        exact .start split (List.append_ne_nil_of_left_ne_nil hne todo)
      exact ⟨_, h.complete_nil hus hplace, _, .inr rfl, h'.complete hvs hne split⟩
    · have hfirst := h.complete hus hu (show ws = done ++ us ++ (vs ++ todo) by simp [split])
      by_cases hv : vs = []
      · subst hv
        rw [List.append_nil] at hne split ⊢
        have hplace : Place ws (done ++ us) (unwords (done ++ us)).toList.length :=
          .stop split fun hnil => absurd (List.append_eq_nil_iff.mp hnil).2 hu
        exact ⟨_, hfirst, _, .inr rfl, h'.complete_nil hvs hplace⟩
      · have hdone : done ++ us ≠ [] := List.append_ne_nil_of_right_ne_nil done hu
        have hsplit : ws = done ++ us ++ vs ++ todo := by simp [split]
        have hsecond := h'.complete hvs hv hsplit
        have hspace : holdsAt (textOf ws) isBlank (unwords (done ++ us)).toList.length = true := by
          rw [hsplit, List.append_assoc (done ++ us)]
          exact (isBlank_stop_iff fun hnil => absurd hnil hdone).mpr
            (List.append_ne_nil_of_left_ne_nil hv todo)
        rw [length_ahead hdone, List.append_assoc] at hsecond
        exact ⟨_, hfirst, _, .inl ⟨hspace, rfl⟩, hsecond⟩

/-- A boundary behind an expression holds wherever words begin or end, if there are any. -/
theorem seq_boundary (hne : ws ≠ []) (h : Faithful ws r L) :
    Faithful ws (.seq r .boundary) L where
  sound := by
    rintro done i j hplace ⟨k, hmatch, -, rfl⟩
    exact h.sound hplace hmatch
  complete_nil := fun hnil done i hplace =>
    ⟨i, h.complete_nil hnil hplace, isBoundary_of_place hws hne hplace, rfl⟩
  complete := by
    intro us done todo hus hus' split
    have hplace : Place ws (done ++ us) (unwords (done ++ us)).toList.length :=
      .stop split fun hnil => absurd (List.append_eq_nil_iff.mp hnil).2 hus'
    exact ⟨_, h.complete hus hus' split, isBoundary_of_place hws hne hplace, rfl⟩

theorem words (w : Wildcard) : Faithful ws (.words w.kind w.min w.max) w.language where
  sound := by
    rintro done i j hplace ⟨n, hmin, hmax, hrun⟩
    obtain ⟨us, rfl, hus, hplace'⟩ := place_of_run hws hrun hplace
    exact ⟨us, ⟨hmin, Wildcard.le_most hmax, hus⟩, hplace'⟩
  complete_nil := by
    rintro ⟨hmin, -, -⟩
    exact absurd (Nat.le_trans w.min_pos hmin) (by decide)
  complete := by
    rintro us done todo ⟨hmin, hmax, hus⟩ hne split
    exact ⟨us.length, hmin, fun most hmost => .inr (hmax most hmost),
      run_of_acceptsWord hws hne hus split⟩

omit hws in
theorem ne_empty_of_word {u : String} (h : Grammar.Word u.toList) :
    u ≠ "" ∧ ∀ c ∈ u.toList, isBlank c = false :=
  ⟨fun hempty => h.ne_nil (String.toList_eq_nil_iff.mpr hempty), h.isBlank⟩

/-- A boundary behind literal words makes them whole words of the text. -/
theorem append_of_literalAt {us done todo : List String} (hne : us ≠ [])
    (hus : ∀ u ∈ us, Grammar.Word u.toList) (split : ws = done ++ todo) (more : todo ≠ [])
    (hat : literalAt (textOf ws) (unwords us).toList (ahead done).length = true)
    (hboundary : isBoundary (textOf ws) ((ahead done).length + (unwords us).toList.length) = true) :
    ∃ rest, todo = us ++ rest := by
  subst split
  rw [textOf_ahead done more] at hat hboundary
  obtain ⟨rest, hrest⟩ := (literalAt_cut _ _ _).mp hat
  rw [hrest, ← List.append_assoc, ← List.length_append, isBoundary_cut] at hboundary
  have hnormal : ∀ w ∈ todo, IsNormalWord w := fun w hw => hws w (List.mem_append_right done hw)
  obtain ⟨c, hlast, hblank⟩ :=
    isBlank_getLast?_unwords (fun u hu => ne_empty_of_word (hus u hu)) hne
  have hc : isWordChar c = true := by
    have hmem : c ∈ (unwords todo).toList := by
      rw [hrest]
      exact List.mem_append_left rest (List.mem_of_getLast? hlast)
    have := isWordChar_or_isBlank_of_mem_unwords hnormal c hmem
    rw [hblank] at this
    exact this.resolve_right Bool.false_ne_true
  rw [List.getLast?_append, hlast, Option.some_or, Option.any_some, hc] at hboundary
  have hhead : rest.head?.any isWordChar = false := by simpa using hboundary
  exact eq_append_of_unwords_append hne (fun u hu => ne_empty_of_word (hus u hu)) hnormal hhead
    hrest.symm

omit hws in
theorem literalAt_stop {us done todo : List String} (hne : us ≠ [])
    (hus : ∀ u ∈ us, Grammar.Word u.toList) (some : done = [] → todo = []) :
    literalAt (textOf (done ++ todo)) (unwords us).toList (unwords done).toList.length = false := by
  refine Bool.eq_false_iff.mpr fun hat => ?_
  rw [textOf_behind some] at hat
  obtain ⟨rest, hrest⟩ := (literalAt_cut _ _ _).mp hat
  obtain ⟨u, us, rfl⟩ := List.exists_cons_of_ne_nil hne
  obtain ⟨hu, hblank⟩ := ne_empty_of_word (hus u List.mem_cons_self)
  obtain ⟨c, cs, hcs⟩ := List.exists_cons_of_ne_nil (mt String.toList_eq_nil_iff.mp hu)
  have hhead : (behind todo).head? = .some c := by
    rw [hrest, toList_unwords_cons, hcs]
    rfl
  have := hblank c (hcs ▸ List.mem_cons_self)
  rw [isBlank_of_head?_behind hhead] at this
  cases this

/-- Literal words are matched by themselves, up to where the last one of them ends. -/
theorem stop_of_literal {us done : List String} (hne : us ≠ [])
    (hus : ∀ u ∈ us, Grammar.Word u.toList) {i : Nat} (hplace : Place ws done i)
    (hat : literalAt (textOf ws) (unwords us).toList i = true)
    (hboundary : isBoundary (textOf ws) (i + (unwords us).length) = true) :
    ∃ todo, ws = done ++ us ++ todo ∧
      i + (unwords us).length = (unwords (done ++ us)).toList.length := by
  rw [← String.length_toList] at *
  cases hplace with
  | @start todo split more =>
    obtain ⟨rest, rfl⟩ := append_of_literalAt hws hne hus split more hat hboundary
    exact ⟨rest, by simp [split], (length_unwords_append done hne).symm⟩
  | @stop todo split some =>
    rw [split, literalAt_stop hne hus some] at hat
    cases hat

theorem literal {us : List String} (hne : us ≠ []) (hus : ∀ u ∈ us, Grammar.Word u.toList) :
    Faithful ws (.seq (.literal (unwords us)) .boundary) {us} where
  sound := by
    rintro done i j hplace ⟨k, ⟨hat, rfl⟩, hboundary, rfl⟩
    obtain ⟨todo, hsplit, hstop⟩ := stop_of_literal hws hne hus hplace hat hboundary
    rw [hstop]
    exact ⟨us, rfl, .stop hsplit fun hnil => absurd (List.append_eq_nil_iff.mp hnil).2 hne⟩
  complete_nil := fun hnil => absurd hnil.symm hne
  complete := by
    rintro us' done todo rfl - split
    have hplace : Place ws (done ++ us') (unwords (done ++ us')).toList.length :=
      .stop split fun hnil => absurd (List.append_eq_nil_iff.mp hnil).2 hne
    have hwords : ws ≠ [] := by simp [split, hne]
    refine ⟨_, ⟨?_, ?_⟩, isBoundary_of_place hws hwords hplace, rfl⟩
    · rw [split, List.append_assoc, textOf_ahead done (List.append_ne_nil_of_left_ne_nil hne todo),
        literalAt_cut, toList_unwords_behind fun hnil => absurd hnil hne]
      exact ⟨_, rfl⟩
    · rw [← String.length_toList, length_unwords_append done hne]

end Faithful
end Regex

/-! ## Trees -/

section Trees

open Regex

variable {ws : List String} {resolve : Resolver} {value : VariableKind → String → Language String}

theorem faithful_alternatives {alternatives : List Sequence} (hne : alternatives ≠ [])
    (h : ∀ alternative ∈ alternatives, ∀ first r, Sequence.regex resolve first alternative = .ok r →
      Faithful ws r (Sequence.language value alternative)) {first : Nat} {r : Regex}
    (hr : alternativesRegex resolve first alternatives = .ok r) :
    Faithful ws r (alternativesLanguage value alternatives) := by
  induction alternatives generalizing first r with
  | nil => exact absurd rfl hne
  | cons alternative rest ih =>
    obtain ⟨hhead, hrest⟩ := List.forall_mem_cons.mp h
    cases rest with
    | nil =>
      rw [alternativesLanguage, alternativesLanguage, add_zero]
      exact hhead first r hr
    | cons next rest =>
      obtain ⟨one, others, hone, hothers, rfl⟩ :=
        (alternativesRegex_cons (List.cons_ne_nil next rest)).mp hr
      rw [alternativesLanguage]
      exact (hhead first one hone).alt (ih (List.cons_ne_nil next rest) hrest hothers)

theorem mem_referencesInAlternatives {alternatives : List Sequence} {alternative : Sequence}
    (h : alternative ∈ alternatives) :
    ∀ x ∈ Sequence.references alternative, x ∈ referencesInAlternatives alternatives := by
  induction h with
  | head rest => exact fun x hx => List.mem_append_left _ hx
  | tail other h ih => exact fun x hx => List.mem_append_right _ (ih x hx)

variable (hws : ∀ w ∈ ws, IsNormalWord w)

/-- What a reference is resolved to is faithful to its value. -/
def FaithfulReferences (ws : List String) (resolve : Resolver)
    (value : VariableKind → String → Language String) (names : List (VariableKind × String)) :
    Prop :=
  ∀ x ∈ names, ∀ r, resolve x.1 x.2 = .ok r → Faithful ws r (value x.1 x.2)

include hws

mutual

/-- The expression of a part is faithful to its language. -/
theorem Node.Shaped.faithful : ∀ {node : Node}, node.Shaped →
    FaithfulReferences ws resolve value node.references →
      ∀ {first r}, node.regex resolve first = .ok r → Faithful ws r (node.language value)
  | _, .wildcard w => by
    intro hrefs first r hr
    obtain rfl := Except.ok.inj hr
    exact Faithful.words hws w
  | _, .words hne each => by
    intro hrefs first r hr
    obtain rfl := Except.ok.inj hr
    exact Faithful.literal hws hne each
  | _, .reference kind name => by
    intro hrefs first r hr
    exact hrefs (kind, name) List.mem_cons_self r hr
  | _, .memo inner => by
    intro hrefs first r hr
    obtain ⟨s, hs, rfl⟩ := Node.regex_memo.mp hr
    exact (inner.faithful hrefs hs).capture first
  | _, .choice bracket hne each => by
    intro hrefs first r hr
    obtain ⟨s, hs, rfl⟩ := Node.regex_choice.mp hr
    have hinner := faithful_alternatives hne
      (fun alternative ha first r hr => (each alternative ha).faithful
        (fun x hx => hrefs x (mem_referencesInAlternatives ha x hx)) hr) hs
    cases bracket with
    | optional => exact hinner.optional
    | group => exact hinner.group

theorem Sequence.Shaped.faithful : ∀ {nodes : Sequence}, Sequence.Shaped nodes →
    FaithfulReferences ws resolve value (Sequence.references nodes) →
      ∀ {first r}, Sequence.regex resolve first nodes = .ok r →
        Faithful ws r (Sequence.language value nodes)
  | _, .last head => by
    intro hrefs first r hr
    obtain ⟨one, hone, rfl⟩ := Sequence.regex_last.mp hr
    exact (head.faithful (fun x hx => hrefs x (List.mem_append_left _ hx)) hone).seq_empty
  | _, .next head tail => by
    intro hrefs first r hr
    obtain ⟨one, rest, hone, hrest, rfl⟩ := Sequence.regex_next.mp hr
    have hhead := head.faithful (fun x hx => hrefs x (List.mem_append_left _ hx)) hone
    have htail := tail.faithful
      (fun x hx => hrefs x (List.mem_append_right _ (List.mem_append_right _ hx))) hrest
    exact hhead.seq_blank hws htail

end

end Trees

end Repartee.Pattern
