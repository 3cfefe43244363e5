import Repartee.Proofs.Pattern.Grammar
import Repartee.Proofs.Pattern.Regex.Factor

/-!
# What an expression keeps to

Not every expression respects words: a literal ends inside a word unless a boundary follows it, and
a run of words may begin there. `Regex.Ensures` is a weakest precondition that excludes this. It
speaks of the standing of places alone (`Standing`), not of a text: from a place of this standing,
the expression leads to places with the postcondition, no word is begun inside another one, and
every memo begins at a settled place.

It is conjunctive (`ensures_forall`), and so putting common beginnings of alternatives in front
leaves it as it is (`ensures_factored`).
-/

namespace Repartee.Pattern

open Repartee.Text

/-- What is known of a place in a text of words. -/
inductive Standing where
  /-- A word begins there, or the text ends. -/
  | settled
  /-- A word begins or ends there. -/
  | between
  /-- A word begins or ends there if there is a boundary at all. -/
  | inside
  deriving DecidableEq

/-- The standing behind a boundary. -/
def Standing.bounded : Standing → Standing
  | settled => settled
  | between | inside => between

namespace Regex

/-- From a place of this standing, the expression leads to places with the postcondition and
respects words on its way. -/
def Ensures : Regex → (Standing → Prop) → Standing → Prop
  | empty, Q, s => Q s
  | literal text, Q, s =>
    s ≠ .inside ∧ (∃ us, us ≠ [] ∧ (∀ u ∈ us, Grammar.Word u.toList) ∧ text = unwords us) ∧
      Q .inside
  | boundary, Q, s => Q s.bounded
  | blank, Q, s => s ≠ .inside ∧ Q .settled
  | words _ _ _, Q, s => s ≠ .inside ∧ Q .between
  | seq first second, Q, s => first.Ensures (second.Ensures Q) s
  | alt first second, Q, s => first.Ensures Q s ∧ second.Ensures Q s
  | optional inner, Q, s => inner.Ensures Q s ∧ Q s
  | group inner, Q, s => inner.Ensures Q s
  | capture _ inner, Q, s => s = .settled ∧ inner.Ensures Q s

variable {Q : Standing → Prop} {s : Standing}

/-- An expression leads somewhere. -/
theorem exists_of_ensures {r : Regex} (h : r.Ensures Q s) : ∃ s', Q s' := by
  induction r generalizing Q s with
  | empty => exact ⟨s, h⟩
  | literal text => exact ⟨_, h.2.2⟩
  | boundary => exact ⟨_, h⟩
  | blank => exact ⟨_, h.2⟩
  | words kind min max => exact ⟨_, h.2⟩
  | seq first second ihFirst ihSecond =>
    obtain ⟨s', hs'⟩ := ihFirst h
    exact ihSecond hs'
  | alt first second ihFirst ihSecond => exact ihFirst h.1
  | optional inner ih => exact ⟨s, h.2⟩
  | group inner ih => exact ih h
  | capture index inner ih => exact ih h.2

theorem ensures_forall {ι : Type} [Nonempty ι] {P : ι → Standing → Prop} (r : Regex) :
    r.Ensures (fun s => ∀ x, P x s) s ↔ ∀ x, r.Ensures (P x) s := by
  induction r generalizing P s with
  | seq first second ihFirst ihSecond =>
    have hsecond : second.Ensures (fun s => ∀ x, P x s) = fun s => ∀ x, second.Ensures (P x) s :=
      funext fun s => propext ihSecond
    rw [Ensures, hsecond]
    exact ihFirst
  | empty => exact Iff.rfl
  | boundary => exact Iff.rfl
  | group inner ih => exact ih
  | _ => simp [Ensures, forall_and, *]

/-! ## Common beginnings -/

theorem ensures_sequence_append (rs ss : List Regex) :
    (sequence (rs ++ ss)).Ensures Q = (sequence rs).Ensures ((sequence ss).Ensures Q) := by
  induction rs with
  | nil => rfl
  | cons r rs ih => exact congrArg r.Ensures ih

theorem ensures_parts (r : Regex) : (sequence r.parts).Ensures Q = r.Ensures Q := by
  induction r generalizing Q with
  | seq first second ihFirst ihSecond =>
    rw [parts, ensures_sequence_append, ihFirst, ihSecond]
    rfl
  | _ => rfl

theorem ensures_choice {rs : List Regex} (hne : rs ≠ []) :
    (choice rs).Ensures Q s ↔ ∀ r ∈ rs, r.Ensures Q s := by
  induction rs with
  | nil => exact absurd rfl hne
  | cons r rs ih =>
    cases rs with
    | nil => simp [choice]
    | cons next rest =>
      rw [List.forall_mem_cons, ← ih (List.cons_ne_nil next rest)]
      exact Iff.rfl

theorem ensures_sharedChoice {rs : List Regex} (hne : rs ≠ []) :
    (sharedChoice rs).Ensures Q s ↔ ∀ r ∈ rs, r.Ensures Q s := by
  match rs with
  | [] => exact absurd rfl hne
  | [r] => simp [sharedChoice]
  | r :: next :: rest =>
    let front := commonFront ((r :: next :: rest).map parts)
    let back (t : Regex) : Regex := sequence (t.parts.drop front.length)
    have hcut : ∀ t ∈ r :: next :: rest,
        t.Ensures Q = (sequence front).Ensures ((back t).Ensures Q) := by
      intro t ht
      rw [← ensures_sequence_append, commonFront_append_drop ht, ensures_parts]
    have hback : (choice ((r :: next :: rest).map back)).Ensures Q =
        fun s => ∀ t : { t // t ∈ r :: next :: rest }, (back t).Ensures Q s := by
      funext s
      rw [ensures_choice (by simp), List.forall_mem_map, Subtype.forall]
    have : Nonempty { t // t ∈ r :: next :: rest } := ⟨r, List.mem_cons_self⟩
    show (sequence front).Ensures ((choice ((r :: next :: rest).map back)).Ensures Q) s ↔ _
    rw [hback, ensures_forall, Subtype.forall]
    exact forall₂_congr fun t ht => by rw [hcut t ht]

theorem ensures_alternatives (r : Regex) :
    (∀ t ∈ r.alternatives, t.Ensures Q s) ↔ r.Ensures Q s := by
  induction r generalizing Q s with
  | alt first second ihFirst ihSecond =>
    rw [alternatives, List.forall_mem_append, ihFirst, ihSecond, Ensures]
  | seq first second ihFirst ihSecond =>
    have hsecond : (sharedChoice second.alternatives).Ensures Q = second.Ensures Q := by
      funext s
      rw [ensures_sharedChoice (alternatives_ne_nil _), ihSecond]
    rw [alternatives, List.forall_mem_singleton, Ensures, hsecond,
      ensures_sharedChoice (alternatives_ne_nil _), ihFirst, Ensures]
  | optional inner ih | group inner ih | capture index inner ih =>
    simp only [alternatives, List.forall_mem_singleton, Ensures,
      ensures_sharedChoice (alternatives_ne_nil _), ih]
  | _ => simp [alternatives]

theorem ensures_factored {r : Regex} : r.factored.Ensures Q s ↔ r.Ensures Q s := by
  rw [factored, ensures_sharedChoice (alternatives_ne_nil r), ensures_alternatives]

end Regex
end Repartee.Pattern
