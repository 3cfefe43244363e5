import Repartee.Proofs.Pattern.Dependence
import Repartee.Proofs.Pattern.Recognition

/-!
# Patterns that wait for their variables

A pattern is matched by the expression to which its tree is compiled with the variables that it was
read with, or, if it is deferred, with the present ones (`captures?_eq_bind`). So it makes no
difference to a match when a pattern was compiled: a compiled pattern matches in the same way under
all variables, and a deferred one as the pattern that its text would be read as at present, or not
at all if this one would be refused or deferred again (`captures?_eq_of_reread`).
-/

namespace Repartee.Pattern

section Read

variable [SizeLimit] {enabled : TokenSet} {raw : String} {build : Bindings} {p : Pattern}

theorem regex?_eq_toOption (h : Pattern.read? enabled raw build = .ok p) {tree : Sequence}
    (htree : p.tree? = some tree) (now : Bindings) :
    p.regex? now = (tree.compile (bindingsFor p build now)).toOption := by
  rcases read?_eq_ok h with rfl | ⟨_, -, ⟨r, rfl, hcompile⟩ | rfl⟩
  · cases htree
  · cases htree
    show some r = (tree.compile build).toOption
    rw [hcompile]
    rfl
  · cases htree
    show (Pattern.deferred raw tree build.alternates).regex? now =
      (tree.compile { now with alternates := build.alternates }).toOption
    unfold Pattern.regex?
    dsimp only
    cases tree.compile { now with alternates := build.alternates } <;> rfl

theorem captures?_eq_bind (h : Pattern.read? enabled raw build = .ok p) {tree : Sequence}
    (htree : p.tree? = some tree) (now : Bindings) (s : String) :
    p.captures? now s = (tree.compile (bindingsFor p build now)).toOption.bind
      fun r => Pattern.regexCaptures? r s.toList := by
  rw [← regex?_eq_toOption h htree]
  cases p with
  | anything => cases htree
  | ready raw tree regex => rfl
  | deferred raw tree alternates => rfl

end Read

variable {raw : String} {alternates : Variables} {build : Bindings} {p : Pattern}

theorem captures?_of_not_isDeferred [SizeLimit] (hready : p.isDeferred = false)
    (now now' : Bindings) (s : String) : p.captures? now s = p.captures? now' s := by
  cases p with
  | anything => rfl
  | ready raw tree regex => rfl
  | deferred raw tree alternates => cases hready

/-- A pattern that was compiled when it was read matches in the same way under all variables. One
that is deferred matches as the pattern that the same text is read as with the present variables; it
matches nothing if that pattern is deferred again or if the text is refused, for whatever reason. -/
theorem captures?_eq_of_reread [SizeLimit]
    (h : Pattern.ofText? raw { build with alternates } = .ok p) :
    (p.isDeferred = false → ∀ now now' s, p.captures? now s = p.captures? now' s) ∧
      (p.isDeferred = true → ∀ now s,
        (∀ q, Pattern.ofText? raw { now with alternates } = .ok q → q.isDeferred = false →
          ∀ later, p.captures? now s = q.captures? later s) ∧
        (∀ q, Pattern.ofText? raw { now with alternates } = .ok q → q.isDeferred = true →
          p.captures? now s = none) ∧
        (∀ e, Pattern.ofText? raw { now with alternates } = .error e →
          p.captures? now s = none)) := by
  refine ⟨captures?_of_not_isDeferred, fun hdeferred now s => ?_⟩
  obtain rfl | ⟨tree, htree, hread⟩ := tree?_of_read? h
  · cases hdeferred
  have hp : p.captures? now s = (tree.compile { now with alternates }).toOption.bind
      fun r => Pattern.regexCaptures? r s.toList := by
    rw [captures?_eq_bind h htree, bindingsFor, if_pos hdeferred]
  have hreread := read?_eq (b := { now with alternates }) hread
  -- reading the text anew and matching the pattern go by the same compilation
  cases hcompile : tree.compile { now with alternates } with
  | ok r =>
    rw [hcompile] at hp hreread
    refine ⟨fun q hq hready later => ?_, fun q hq hagain => ?_, fun e he => ?_⟩
    · cases hreread.symm.trans hq
      exact hp
    · cases hreread.symm.trans hq
      cases hagain
    · cases hreread.symm.trans he
  | error e =>
    rw [hcompile] at hp hreread
    refine ⟨fun q hq hready => ?_, fun q hq hagain => hp, fun e he => hp⟩
    dsimp only at hreread
    split at hreread
    · cases hreread.symm.trans hq
      cases hready
    · cases hreread.symm.trans hq

section Example

attribute [local instance] SizeLimit.byWeight

/-- The name of the user is not known when the pattern is read. It matches with a name that is,
and it matches nothing without a name, or with one that is no text. -/
theorem captures?_eq_of_reread_name :
    ∃ p, Pattern.ofText? "is my name %u:name" {} = .ok p ∧ p.isDeferred = true ∧
      p.captures? { user := Table.empty.insert "name" (.text "Fred") } "is my name fred" =
        some [] ∧
      p.captures? {} "is my name fred" = none ∧
      p.captures? { user := Table.empty.insert "name" (.whole 3) } "is my name 3" = none := by
  have h : Pattern.ofText? "is my name %u:name" {} = .ok (.deferred "is my name %u:name"
      [.words ["is", "my", "name"], .space, .reference .user "name"] ∅) := rfl
  obtain ⟨q, hq, hready⟩ : ∃ q, Pattern.ofText? "is my name %u:name"
      { user := Table.empty.insert "name" (.text "Fred") } = .ok q ∧ q.isDeferred = false :=
    ⟨_, rfl, rfl⟩
  have hthen := (@captures?_eq_of_reread _ ∅ {} _ _ h).2 rfl
  refine ⟨_, h, rfl, ?_, ?_, ?_⟩
  · rw [(hthen _ _).1 q hq hready {}]
    cases hq
    rfl
  · exact (hthen _ _).2.1 _ h rfl
  · exact (hthen _ _).2.2 _ rfl

end Example

end Repartee.Pattern
