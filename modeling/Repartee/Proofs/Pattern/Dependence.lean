import Repartee.Proofs.Pattern.Canonical

/-!
# What a pattern depends on

What a tree comes to as a regular expression depends on the variables that it refers to and on no
others (`Sequence.compile_congr`). So a text is read as the same pattern wherever the variables that
it refers to have the same values (`ofText?_congr`), and patterns of the same canonical text match
in the same way if they were read with the same values of these variables (`captures?_congr`).
-/

namespace Repartee.Pattern

/-! ## Regular expressions -/

section Regex

variable {resolve resolve' : Resolver}

mutual

theorem Node.regex_congr : ∀ (node : Node) (first : Nat),
    (∀ x ∈ node.references, resolve x.1 x.2 = resolve' x.1 x.2) →
      node.regex resolve first = node.regex resolve' first
  | .wildcard w, first => fun _ => rfl
  | .words us, first => fun _ => rfl
  | .space, first => fun _ => rfl
  | .reference kind name, first => fun h => h (kind, name) List.mem_cons_self
  | .memo node, first => by
    intro h
    rw [Node.regex, Node.regex, node.regex_congr (first + 1) h]
  | .choice bracket alternatives, first => by
    intro h
    rw [Node.regex, Node.regex, alternativesRegex_congr alternatives first h]

theorem Sequence.regex_congr : ∀ (nodes : List Node) (first : Nat),
    (∀ x ∈ Sequence.references nodes, resolve x.1 x.2 = resolve' x.1 x.2) →
      Sequence.regex resolve first nodes = Sequence.regex resolve' first nodes
  | [], first => fun _ => rfl
  | node :: nodes, first => by
    intro h
    rw [Sequence.regex, Sequence.regex,
      node.regex_congr first fun x hx => h x (List.mem_append_left _ hx),
      Sequence.regex_congr nodes (first + node.memos) fun x hx =>
        h x (List.mem_append_right _ hx)]

theorem alternativesRegex_congr : ∀ (alternatives : List (List Node)) (first : Nat),
    (∀ x ∈ referencesInAlternatives alternatives, resolve x.1 x.2 = resolve' x.1 x.2) →
      alternativesRegex resolve first alternatives = alternativesRegex resolve' first alternatives
  | [], first => fun _ => rfl
  | [alternative], first => fun h =>
    Sequence.regex_congr alternative first fun x hx => h x (List.mem_append_left _ hx)
  | alternative :: next :: rest, first => by
    intro h
    have hone := Sequence.regex_congr alternative first fun x hx => h x (List.mem_append_left _ hx)
    have hothers := alternativesRegex_congr (next :: rest) (first + Sequence.memos alternative)
      fun x hx => h x (List.mem_append_right _ hx)
    show (do
      let one ← Sequence.regex resolve first alternative
      let others ← alternativesRegex resolve (first + Sequence.memos alternative) (next :: rest)
      return Regex.alt one others) = _
    rw [hone, hothers]
    rfl

end

end Regex

variable [SizeLimit]

/-- The variables have the same values in both tables. -/
def Bindings.Agree (b b' : Bindings) (xs : List (VariableKind × String)) : Prop :=
  ∀ x ∈ xs, b.lookup x.1 x.2 = b'.lookup x.1 x.2

theorem Sequence.compile_congr {b b' : Bindings} {tree : Sequence}
    (h : b.Agree b' (Sequence.references tree)) : tree.compile b = tree.compile b' := by
  have hresolve : ∀ x ∈ Sequence.references tree, b.resolve x.1 x.2 = b'.resolve x.1 x.2 := by
    intro x hx
    unfold Bindings.resolve
    rw [h x hx]
  unfold Sequence.compile Sequence.regexWith
  rw [Sequence.regex_congr tree 0 hresolve]

/-! ## Patterns -/

/-- The variables that a text refers to, if it can be read as a pattern. -/
def referencesOf (raw : String) : List (VariableKind × String) :=
  ((parse? .full raw).toOption.map Sequence.references).getD []

/-- The variables that a pattern refers to. -/
def references (p : Pattern) : List (VariableKind × String) :=
  (p.tree?.map Sequence.references).getD []

theorem read?_eq {enabled : TokenSet} {raw : String} {tree : Sequence} {b : Bindings}
    (hread : parse? enabled raw = .ok tree) : Pattern.read? enabled raw b =
    match tree.compile b with
    | .ok regex => .ok (.ready raw tree regex)
    | .error e =>
      if e.missingVariable? = some .user then .ok (.deferred raw tree b.alternates)
      else .error e := by
  have hne : ¬raw.isEmpty = true := by
    intro hempty
    rw [String.isEmpty_iff.mp hempty, parse?_empty] at hread
    cases hread
  unfold Pattern.read?
  rw [if_neg hne, hread]
  rfl

theorem ofText?_congr {raw : String} {b b' : Bindings} (h : b.Agree b' (referencesOf raw))
    (alternates : b.alternates = b'.alternates) :
    Pattern.ofText? raw b = Pattern.ofText? raw b' := by
  unfold referencesOf at h
  cases hread : parse? .full raw with
  | error e =>
    unfold Pattern.ofText? Pattern.read?
    rw [hread]
    rfl
  | ok tree =>
    rw [hread] at h
    unfold Pattern.ofText?
    rw [read?_eq hread, read?_eq hread, Sequence.compile_congr h, alternates]

theorem isDeferred_iff_of_read? {enabled : TokenSet} {raw : String} {b : Bindings} {p : Pattern}
    (h : Pattern.read? enabled raw b = .ok p) {tree : Sequence} (htree : p.tree? = some tree) :
    p.isDeferred = true ↔ ∃ e, tree.compile b = .error e := by
  unfold Pattern.read? at h
  split at h
  · cases h
    cases htree
  · obtain ⟨tree', -, h⟩ := Except.bind_eq_ok_iff.mp h
    split at h
    · rename_i r hcompile
      cases h
      cases htree
      constructor
      · intro h
        cases h
      · rintro ⟨e, he⟩
        cases hcompile.symm.trans he
    · rename_i e hcompile
      split at h
      · cases h
        cases htree
        exact ⟨fun _ => ⟨e, hcompile⟩, fun _ => rfl⟩
      · cases h

/-- Patterns of the same canonical text match in the same way, if the variables that they refer to
had the same values when they were read. -/
theorem captures?_congr {raw raw' : String} {b b' : Bindings} {p p' : Pattern}
    (h : Pattern.ofText? raw b = .ok p) (h' : Pattern.ofText? raw' b' = .ok p')
    (hcanonical : p.canonical = p'.canonical) (hagree : b.Agree b' p.references)
    (now : Bindings) (s : String) : p.captures? now s = p'.captures? now s := by
  have htree := tree?_eq_of_canonical_eq h h' hcanonical
  have hdeferred := @isDeferred_iff_of_read? _ _ _ _ _ h
  have hdeferred' := @isDeferred_iff_of_read? _ _ _ _ _ h'
  rcases read?_eq_ok h with rfl | ⟨tree, -, ⟨r, rfl, hcompile⟩ | rfl⟩
  all_goals rcases read?_eq_ok h' with rfl | ⟨tree', -, ⟨r', rfl, hcompile'⟩ | rfl⟩
  all_goals cases htree
  · rfl
  · -- both are compiled, with the same values
    cases hcompile.symm.trans ((Sequence.compile_congr hagree).trans hcompile')
    rfl
  · obtain ⟨e, he⟩ := (hdeferred' rfl).mp rfl
    cases hcompile.symm.trans ((Sequence.compile_congr hagree).trans he)
  · obtain ⟨e, he⟩ := (hdeferred rfl).mp rfl
    cases he.symm.trans ((Sequence.compile_congr hagree).trans hcompile')
  · -- both are compiled anew, with alternates of the same values
    have hcompile : Sequence.compile { now with alternates := b.alternates } tree =
        Sequence.compile { now with alternates := b'.alternates } tree := by
      refine Sequence.compile_congr fun x hx => ?_
      obtain ⟨kind, name⟩ := x
      cases kind with
      | alternate => exact hagree (.alternate, name) hx
      | bot => rfl
      | user => rfl
    simp only [Pattern.captures?, Pattern.regex?, hcompile]

end Repartee.Pattern
