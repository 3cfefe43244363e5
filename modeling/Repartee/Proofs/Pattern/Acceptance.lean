import Repartee.Proofs.Except
import Repartee.Proofs.Pattern.Dependence

/-!
# When a pattern is accepted

A tree comes to a regular expression of a limited weight, unless one of its references fails to
(`Sequence.fine_regex`), and a light one is not refused. So a text is accepted as a pattern if it
can be read as a light tree all references of which are to variables of the user, for which a
pattern waits, or to alternates with light values (`exists_ofText?`). Whether a text can be read as
such a tree is found out from its characters alone (`checkText`).
-/

namespace Repartee.Pattern

open Text

/-! ## What trees weigh -/

mutual

/-- The most that the expression of the part weighs if what its references stand for weighs `value`
at most. -/
def Node.weight (value : Nat) : Node → Nat
  | .wildcard w => (Regex.words w.kind w.min w.max).weight
  | .words ws => (Regex.seq (.literal (unwords ws)) .boundary).weight
  | .space => Regex.blank.weight
  | .memo node => node.weight value + 64
  | .reference _ _ => value
  | .choice _ alternatives => weightOfAlternatives value alternatives + 64

def Sequence.weight (value : Nat) : List Node → Nat
  | [] => 0
  | node :: nodes => node.weight value + Sequence.weight value nodes + 32

def weightOfAlternatives (value : Nat) : List (List Node) → Nat
  | [] => 0
  | alternative :: rest => Sequence.weight value alternative + weightOfAlternatives value rest + 32

end

/-- The regular expression weighs no more than this, or the error is as expected. -/
inductive Fine (bound : Nat) (expected : Error → Prop) : Except Error Regex → Prop
  | ok {r} (light : r.weight ≤ bound) : Fine bound expected (.ok r)
  | error {e} (known : expected e) : Fine bound expected (.error e)

section Fine

variable {value bound : Nat} {expected : Error → Prop} {resolve : Resolver}

theorem Fine.mono {bound' : Nat} {expected' : Error → Prop} {x : Except Error Regex}
    (hx : Fine bound expected x) (hbound : bound ≤ bound') (h : ∀ e, expected e → expected' e) :
    Fine bound' expected' x := by
  cases hx with
  | ok light => exact .ok (light.trans hbound)
  | error known => exact .error (h _ known)

theorem Fine.bind {bound' : Nat} {x : Except Error Regex} {f : Regex → Except Error Regex}
    (hx : Fine bound expected x) (hf : ∀ r, r.weight ≤ bound → Fine bound' expected (f r)) :
    Fine bound' expected (x >>= f) := by
  cases hx with
  | ok light => exact hf _ light
  | error known => exact .error known

mutual

theorem Node.fine_regex : ∀ (node : Node) (first : Nat),
    (∀ x ∈ node.references, Fine value expected (resolve x.1 x.2)) →
      Fine (node.weight value) expected (node.regex resolve first)
  | .wildcard w, first => fun _ => .ok le_rfl
  | .words us, first => fun _ => .ok le_rfl
  | .space, first => fun _ => .ok le_rfl
  | .reference kind name, first => fun h => h (kind, name) List.mem_cons_self
  | .memo node, first => fun h =>
    (node.fine_regex (first + 1) h).bind fun _ hr => .ok (Nat.add_le_add_right hr 64)
  | .choice bracket alternatives, first => fun h =>
    (fine_alternativesRegex alternatives first h).bind fun _ hr => by
      cases bracket <;> exact .ok (Nat.add_le_add_right hr 64)

theorem Sequence.fine_regex : ∀ (nodes : List Node) (first : Nat),
    (∀ x ∈ Sequence.references nodes, Fine value expected (resolve x.1 x.2)) →
      Fine (Sequence.weight value nodes) expected (Sequence.regex resolve first nodes)
  | [], first => fun _ => .ok le_rfl
  | node :: nodes, first => by
    intro h
    obtain ⟨hnode, hnodes⟩ := List.forall_mem_append.mp h
    refine (node.fine_regex first hnode).bind fun one hone => ?_
    refine (Sequence.fine_regex nodes _ hnodes).bind fun others hothers => ?_
    exact .ok (Nat.add_le_add_right (Nat.add_le_add hone hothers) 32)

theorem fine_alternativesRegex : ∀ (alternatives : List (List Node)) (first : Nat),
    (∀ x ∈ referencesInAlternatives alternatives, Fine value expected (resolve x.1 x.2)) →
      Fine (weightOfAlternatives value alternatives) expected
        (alternativesRegex resolve first alternatives)
  | [], first => fun _ => .ok le_rfl
  | [alternative], first => by
    intro h
    have halternative := Sequence.fine_regex alternative first (List.forall_mem_append.mp h).1
    exact halternative.mono (Nat.le_add_right _ (0 + 32)) fun _ => id
  | alternative :: next :: rest, first => by
    intro h
    obtain ⟨hfirst, hothers⟩ := List.forall_mem_append.mp h
    refine (Sequence.fine_regex alternative first hfirst).bind fun one hone => ?_
    refine (fine_alternativesRegex (next :: rest) _ hothers).bind fun others hothers => ?_
    exact .ok (Nat.add_le_add_right (Nat.add_le_add hone hothers) 32)

end

end Fine

theorem Sequence.compile_of_fine [SizeLimit] {tree : Sequence} {b : Bindings} {bound : Nat}
    {expected : Error → Prop} (h : Fine bound expected (tree.regexWith b))
    (light : 2 * bound ≤ sizeLimit) :
    (∃ r, tree.compile b = .ok r) ∨ ∃ e, tree.compile b = .error e ∧ expected e := by
  unfold compile
  generalize tree.regexWith b = result at h
  cases h with
  | error known => exact .inr ⟨_, rfl, known⟩
  | @ok r hr =>
    have hbuilds : SizeLimit.refuses r = false := SizeLimit.builds r (by omega)
    refine .inl ⟨r.factored, Except.bind_eq_ok_iff.mpr ⟨r, rfl, ?_⟩⟩
    rw [hbuilds]

/-! ## Alternates -/

/-- The most that the value of an alternate may weigh. -/
def valueWeight : Nat := 1048576

/-- A simple tree may be the value of an alternate, with the boundary behind it. -/
def Sequence.isLight (tree : Sequence) : Bool :=
  Nat.ble (Sequence.weight 0 tree + 64) valueWeight

section Simple

variable {raw : String} {tree : Sequence} (hread : parse? .simple raw = .ok tree)

include hread

/-- A simple tree refers to nothing. -/
theorem fine_regex_simple (resolve : Resolver) (first : Nat) :
    Fine (Sequence.weight 0 tree) (fun _ => False) (Sequence.regex resolve first tree) := by
  refine Sequence.fine_regex tree first fun x hx => ?_
  rw [references_of_parse? (by decide) hread] at hx
  exact (List.not_mem_nil hx).elim

variable (light : Sequence.isLight tree = true)

include light

theorem exists_simple? [SizeLimit] : ∃ p, Pattern.simple? raw = .ok p ∧ p.tree? = some tree := by
  have hlight : 2 * Sequence.weight 0 tree ≤ sizeLimit := by
    have := Nat.le_of_ble_eq_true light
    unfold valueWeight at this
    unfold sizeLimit
    omega
  rcases Sequence.compile_of_fine (fine_regex_simple hread (Bindings.resolve {}) 0) hlight with
    ⟨r, hcompile⟩ | ⟨_, _, hfalse⟩
  · refine ⟨.ready raw tree r, ?_, rfl⟩
    rw [Pattern.simple?, read?_eq hread, hcompile]
  · exact hfalse.elim

/-- The canonical text of a simple tree can be put into a variable. -/
theorem fine_valueRegex? :
    Fine valueWeight (fun _ => False) (valueRegex? (Sequence.canonical tree)) := by
  unfold valueRegex?
  rw [parse?_canonical hread]
  refine (fine_regex_simple hread noVariables 0).bind fun r hr => .ok ?_
  calc (Regex.seq r .boundary).weight
    _ = r.weight + 64 := rfl
    _ ≤ Sequence.weight 0 tree + 64 := Nat.add_le_add_right hr 64
    _ ≤ valueWeight := Nat.le_of_ble_eq_true light

end Simple

/-! ## Patterns -/

/-- The references are to variables of the user and to alternates of these names. -/
def Sequence.refersTo (names : List String) (tree : Sequence) : Bool :=
  (Sequence.references tree).all fun x =>
    match x.1 with
    | .alternate => names.contains x.2
    | .bot => false
    | .user => true

/-- The references are as they should be, and the expression stays light if the alternates among
them have light values. -/
def Sequence.isUsable (names : List String) (tree : Sequence) : Bool :=
  -- the comparison stands last, where its numbers are literals when the check is evaluated
  Sequence.refersTo names tree && Nat.ble (2 * Sequence.weight valueWeight tree) sizeLimit

section Usable

variable {names : List String} {tree : Sequence}

theorem Sequence.isUsable_iff : isUsable names tree = true ↔
    (∀ x ∈ Sequence.references tree, x.1 = .user ∨ x.1 = .alternate ∧ x.2 ∈ names) ∧
      2 * Sequence.weight valueWeight tree ≤ sizeLimit := by
  unfold isUsable refersTo
  rw [Bool.and_eq_true, Nat.ble_eq, List.all_eq_true]
  refine and_congr_left fun _ => forall₂_congr fun x _ => ?_
  obtain ⟨kind, name⟩ := x
  cases kind <;> simp

/-- A text is accepted as a pattern if its references are to alternates with usable values, or to
variables of the user. -/
theorem exists_ofText? [SizeLimit] {raw : String} (hread : parse? .full raw = .ok tree)
    (husable : Sequence.isUsable names tree = true) {b : Bindings} (huser : b.user = ∅)
    (halternates : ∀ name ∈ names, Fine valueWeight (fun _ => False) (b.resolve .alternate name)) :
    ∃ p, Pattern.ofText? raw b = .ok p ∧ p.tree? = some tree := by
  obtain ⟨hreferences, light⟩ := Sequence.isUsable_iff.mp husable
  have hfine : Fine (Sequence.weight valueWeight tree) (fun e => e.missingVariable? = some .user)
      (tree.regexWith b) := by
    refine Sequence.fine_regex tree 0 fun x hx => ?_
    obtain ⟨kind, name⟩ := x
    rcases hreferences _ hx with hkind | ⟨hkind, hname⟩
    · -- nothing is known of the user when the pattern is read, which is what it waits for
      cases hkind
      have hmissing : b.resolve .user name = .error (.variableNotFound .user name) := by
        unfold Bindings.resolve Bindings.lookup
        rw [huser]
        rfl
      show Fine _ _ (b.resolve .user name)
      rw [hmissing]
      exact .error rfl
    · cases hkind
      exact (halternates name hname).mono le_rfl fun _ => False.elim
  rw [Pattern.ofText?, read?_eq hread]
  rcases Sequence.compile_of_fine hfine light with ⟨r, hcompile⟩ | ⟨e, hcompile, hmissing⟩
  · rw [hcompile]
    exact ⟨.ready raw tree r, rfl, rfl⟩
  · rw [hcompile]
    exact ⟨.deferred raw tree b.alternates, if_pos hmissing, rfl⟩

end Usable

/-! ## Reading characters -/

theorem parse?_ofList (enabled : TokenSet) (cs : List Char) : parse? enabled (String.ofList cs) =
    Sequence.ofTokens? (tokensAfter enabled 0 (lowerChars cs)) := by
  unfold parse? Token.scan lower
  rw [String.toList_ofList, String.toList_ofList]

/-- The characters can be read as a tree with the property. -/
def checkText (enabled : TokenSet) (ok : Sequence → Bool) (cs : List Char) : Bool :=
  match Sequence.ofTokens? (tokensAfter enabled 0 (lowerChars cs)) with
  | .ok tree => ok tree
  | .error _ => false

theorem exists_of_checkText {enabled : TokenSet} {ok : Sequence → Bool} {cs : List Char}
    (h : checkText enabled ok cs = true) :
    ∃ tree, parse? enabled (String.ofList cs) = .ok tree ∧ ok tree = true := by
  unfold checkText at h
  rw [parse?_ofList]
  split at h
  · rename_i tree hread
    exact ⟨tree, hread, h⟩
  · cases h

end Repartee.Pattern
