import Repartee.Proofs.Except
import Repartee.Target

/-!
# Substitutions in a row

Substitutions run one after the other, each on what the one before it returned
(`Substitution.chain`). A text can be prepared if after each of them there is a list of words for
each raw word (`Substitution.InStep`). Otherwise the first one behind which there is not is what the
failure names, whatever comes behind it: it does not help if a later one mends the number of lists.
-/

namespace Repartee

open Repartee.Text

namespace Substitution

/-- What the substitutions make of the words, one after the other. -/
def chain (text : String) (lists : List (List String)) (ss : List Substitution) :
    List (List String) :=
  ss.foldl (fun lists s => s.apply text lists) lists

/-- There are as many lists as expected to begin with, and after each of the substitutions. -/
def InStep (text : String) (expected : Nat) (lists : List (List String)) (ss : List Substitution) :
    Prop :=
  ∀ done, done <+: ss → (chain text lists done).length = expected

section

variable {text : String} {expected : Nat} {lists : List (List String)} {s : Substitution}
  {ss : List Substitution}

theorem inStep_nil : InStep text expected lists [] ↔ lists.length = expected := by
  simp [InStep, chain]

theorem inStep_cons : InStep text expected lists (s :: ss) ↔
    lists.length = expected ∧ InStep text expected (s.apply text lists) ss := by
  constructor
  · exact fun h => ⟨h [] (List.nil_prefix), fun done hdone =>
      h (s :: done) (List.cons_prefix_cons.mpr ⟨rfl, hdone⟩)⟩
  · rintro ⟨hlength, hrest⟩ done hdone
    rcases List.prefix_cons_iff.mp hdone with rfl | ⟨front, rfl, hfront⟩
    · exact hlength
    · exact hrest front hfront

theorem InStep.length_eq (h : InStep text expected lists ss) :
    (chain text lists ss).length = expected :=
  h ss List.prefix_rfl

end

/-- The substitutions `done` keep step, but `s` behind them returns `found` lists instead of as many
as expected. -/
structure BreaksStep (text : String) (expected : Nat) (lists : List (List String))
    (done : List Substitution) (s : Substitution) (found : Nat) : Prop where
  before : InStep text expected lists done
  found_eq : found = (s.apply text (chain text lists done)).length
  found_ne : found ≠ expected

end Substitution

open Substitution

section Apply

variable {text : String} {expected : Nat} {lists lists' : List (List String)}
  {ss : List Substitution} {e : Error}

theorem applySubstitutions_of_eq {s : Substitution} (h : (s.apply text lists).length = expected) :
    applySubstitutions text expected (s :: ss) lists =
      applySubstitutions text expected ss (s.apply text lists) :=
  if_pos h

theorem applySubstitutions_of_ne {s : Substitution} (h : (s.apply text lists).length ≠ expected) :
    applySubstitutions text expected (s :: ss) lists =
      .error (.substitution s.name expected (s.apply text lists).length) :=
  if_neg h

theorem applySubstitutions_eq_ok_iff (hlength : lists.length = expected) :
    applySubstitutions text expected ss lists = .ok lists' ↔
      InStep text expected lists ss ∧ lists' = chain text lists ss := by
  induction ss generalizing lists with
  | nil =>
    rw [inStep_nil, and_iff_right hlength]
    exact ⟨fun h => (Except.ok.inj h).symm, fun h => congrArg Except.ok h.symm⟩
  | cons s ss ih =>
    rw [inStep_cons, and_iff_right hlength]
    by_cases hstep : (s.apply text lists).length = expected
    · rw [applySubstitutions_of_eq hstep]
      exact ih hstep
    · rw [applySubstitutions_of_ne hstep]
      constructor
      · intro h
        cases h
      · rintro ⟨hrest, -⟩
        exact absurd (hrest [] List.nil_prefix) hstep

theorem applySubstitutions_eq_error_iff (hlength : lists.length = expected) :
    applySubstitutions text expected ss lists = .error e ↔ ∃ done s later found,
      ss = done ++ s :: later ∧ BreaksStep text expected lists done s found ∧
        e = .substitution s.name expected found := by
  induction ss generalizing lists with
  | nil =>
    constructor
    · intro h
      cases h
    · rintro ⟨done, s, later, found, hsplit, -⟩
      cases done <;> cases hsplit
  | cons s ss ih =>
    by_cases hstep : (s.apply text lists).length = expected
    · rw [applySubstitutions_of_eq hstep, ih hstep]
      constructor
      · rintro ⟨done, s', later, found, rfl, ⟨before, rfl, hne⟩, rfl⟩
        exact ⟨s :: done, s', later, _, rfl, ⟨inStep_cons.mpr ⟨hlength, before⟩, rfl, hne⟩, rfl⟩
      · rintro ⟨done, s', later, found, hsplit, ⟨before, rfl, hne⟩, rfl⟩
        cases done with
        | nil =>
          obtain ⟨rfl, rfl⟩ := List.cons.inj hsplit
          exact absurd hstep hne
        | cons d done =>
          obtain ⟨rfl, rfl⟩ := List.cons.inj hsplit
          exact ⟨done, s', later, _, rfl, ⟨(inStep_cons.mp before).2, rfl, hne⟩, rfl⟩
    · rw [applySubstitutions_of_ne hstep]
      constructor
      · intro h
        cases h
        exact ⟨[], s, ss, _, rfl, ⟨inStep_nil.mpr hlength, rfl, hstep⟩, rfl⟩
      · rintro ⟨done, s', later, found, hsplit, ⟨before, rfl, hne⟩, rfl⟩
        cases done with
        | nil =>
          obtain ⟨rfl, rfl⟩ := List.cons.inj hsplit
          rfl
        | cons d done =>
          obtain ⟨rfl, rfl⟩ := List.cons.inj hsplit
          exact absurd ((inStep_cons.mp before).2 [] List.nil_prefix) hstep

end Apply

namespace Target

variable {text : String} {ss : List Substitution} {t : Target} {e : Error}

/-- The lists that substitutions begin with, one for each raw word. -/
def rawLists (text : String) : List (List String) :=
  (words text).map fun w => [w]

theorem length_rawLists (text : String) : (rawLists text).length = (words text).length :=
  List.length_map _

/-- A text can be prepared if the substitutions keep step with its words. -/
theorem ofText?_eq_ok_iff : ofText? text ss = .ok t ↔
    InStep text (words text).length (rawLists text) ss ∧
      t = ⟨text, words text,
        (chain text (rawLists text) ss).map fun chunks => chunks.flatMap normalWords⟩ := by
  unfold ofText?
  rw [Except.bind_pure_eq_ok_iff]
  constructor
  · rintro ⟨lists, hlists, rfl⟩
    obtain ⟨hstep, rfl⟩ := (applySubstitutions_eq_ok_iff (length_rawLists text)).mp hlists
    exact ⟨hstep, rfl⟩
  · rintro ⟨hstep, rfl⟩
    exact ⟨_, (applySubstitutions_eq_ok_iff (length_rawLists text)).mpr ⟨hstep, rfl⟩, rfl⟩

/-- A text cannot be prepared if one of the substitutions breaks step, and the first one that does
is the failure. -/
theorem ofText?_eq_error_iff : ofText? text ss = .error e ↔ ∃ done s later found,
    ss = done ++ s :: later ∧ BreaksStep text (words text).length (rawLists text) done s found ∧
      e = .substitution s.name (words text).length found := by
  rw [← applySubstitutions_eq_error_iff (length_rawLists text)]
  constructor
  · intro h
    rcases Except.bind_eq_error_iff.mp h with hlists | ⟨lists, -, h⟩
    · exact hlists
    · cases h
  · exact fun h => Except.bind_eq_error_iff.mpr (.inl h)

end Target
end Repartee
