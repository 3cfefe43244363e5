import Repartee.Proofs.Pattern.Marks
import Repartee.Proofs.Pattern.Memos

/-!
# What memos are put before

The groups of a regular expression that are remembered are those of the parts that memo markers
stand before, in the same order (`Sequence.forall₂_captured`). And since white space separates every
part from its neighbours, the expression of a tree respects words
(`Sequence.Shaped.respectsWords`). So the places that the matcher remembers for a memo are those of
a match of the part behind the marker, and this match begins at a settled place
(`exists_target_of_mem_marks`).
-/

namespace Repartee.Pattern

open Repartee.Unicode Repartee.Text Regex

mutual

/-- The parts that memo markers stand before, in the order of the numbers of the memos. -/
def Node.memoTargets : Node → List Node
  | .memo node => node :: node.memoTargets
  | .choice _ alternatives => memoTargetsInAlternatives alternatives
  | .wildcard _ | .words _ | .space | .reference _ _ => []

def Sequence.memoTargets : List Node → List Node
  | [] => []
  | node :: nodes => node.memoTargets ++ Sequence.memoTargets nodes

def memoTargetsInAlternatives : List (List Node) → List Node
  | [] => []
  | alternative :: rest => Sequence.memoTargets alternative ++ memoTargetsInAlternatives rest

end

/-! ## Number and shape -/

section Shape

mutual

theorem Node.length_memoTargets : ∀ node : Node, node.memoTargets.length = node.memos
  | .wildcard _ | .words _ | .space | .reference _ _ => rfl
  | .memo node => by
    rw [Node.memoTargets, List.length_cons, node.length_memoTargets, Node.memos, Nat.add_comm]
  | .choice _ alternatives => length_memoTargetsInAlternatives alternatives

theorem Sequence.length_memoTargets : ∀ nodes : List Node,
    (Sequence.memoTargets nodes).length = Sequence.memos nodes
  | [] => rfl
  | node :: nodes => by
    rw [Sequence.memoTargets, List.length_append, node.length_memoTargets,
      Sequence.length_memoTargets nodes, Sequence.memos]

theorem length_memoTargetsInAlternatives : ∀ alternatives : List (List Node),
    (memoTargetsInAlternatives alternatives).length = memosInAlternatives alternatives
  | [] => rfl
  | alternative :: rest => by
    rw [memoTargetsInAlternatives, List.length_append, Sequence.length_memoTargets alternative,
      length_memoTargetsInAlternatives rest, memosInAlternatives]

end

theorem mem_memoTargetsInAlternatives {alternatives : List Sequence} {target : Node} :
    target ∈ memoTargetsInAlternatives alternatives ↔
      ∃ alternative ∈ alternatives, target ∈ Sequence.memoTargets alternative := by
  induction alternatives with
  | nil => simp [memoTargetsInAlternatives]
  | cons alternative rest ih => simp [memoTargetsInAlternatives, ih]

mutual

theorem Node.Shaped.of_mem_memoTargets : ∀ {node : Node}, node.Shaped →
    ∀ target ∈ node.memoTargets, target.Shaped
  | _, .wildcard w => fun _ h => absurd h List.not_mem_nil
  | _, .words _ _ => fun _ h => absurd h List.not_mem_nil
  | _, .reference _ _ => fun _ h => absurd h List.not_mem_nil
  | _, .memo inner => List.forall_mem_cons.mpr ⟨inner, inner.of_mem_memoTargets⟩
  | _, .choice bracket hne each => by
    intro target h
    obtain ⟨alternative, ha, h⟩ := mem_memoTargetsInAlternatives.mp h
    exact (each alternative ha).of_mem_memoTargets target h

theorem Sequence.Shaped.of_mem_memoTargets : ∀ {nodes : Sequence}, Sequence.Shaped nodes →
    ∀ target ∈ Sequence.memoTargets nodes, target.Shaped
  | _, .last head => List.forall_mem_append.mpr
      ⟨head.of_mem_memoTargets, fun _ h => absurd h List.not_mem_nil⟩
  | _, .next head tail => List.forall_mem_append.mpr
      ⟨head.of_mem_memoTargets, tail.of_mem_memoTargets⟩

end

end Shape

/-! ## Groups -/

section Groups

variable {resolve : Resolver}

/-- The numbered group is that of a memo before this part. -/
def IsGroupOf (resolve : Resolver) (group : Nat × Regex) (target : Node) : Prop :=
  target.regex resolve (group.1 + 1) = .ok group.2

mutual

theorem Node.forall₂_captured
    (hresolve : ∀ kind name r, resolve kind name = .ok r → r.captured = []) :
    ∀ (node : Node) (first : Nat) (r : Regex), node.regex resolve first = .ok r →
      List.Forall₂ (IsGroupOf resolve) r.captured node.memoTargets
  | .wildcard w, first, r => fun h => by cases h; exact .nil
  | .words us, first, r => fun h => by cases h; exact .nil
  | .space, first, r => fun h => by cases h; exact .nil
  | .reference kind name, first, r => fun h => by
    rw [hresolve kind name r h]
    exact .nil
  | .memo node, first, r => by
    intro h
    obtain ⟨inner, hinner, rfl⟩ := Node.regex_memo.mp h
    exact .cons hinner (node.forall₂_captured hresolve (first + 1) inner hinner)
  | .choice bracket alternatives, first, r => by
    intro h
    obtain ⟨inner, hinner, rfl⟩ := Node.regex_choice.mp h
    have := forall₂_captured_alternatives hresolve alternatives first inner hinner
    cases bracket <;> exact this

theorem Sequence.forall₂_captured
    (hresolve : ∀ kind name r, resolve kind name = .ok r → r.captured = []) :
    ∀ (nodes : List Node) (first : Nat) (r : Regex), Sequence.regex resolve first nodes = .ok r →
      List.Forall₂ (IsGroupOf resolve) r.captured (Sequence.memoTargets nodes)
  | [], first, r => fun h => by cases h; exact .nil
  | node :: nodes, first, r => by
    intro h
    obtain ⟨one, others, hone, hothers, rfl⟩ := Sequence.regex_cons.mp h
    exact List.rel_append (node.forall₂_captured hresolve first one hone)
      (Sequence.forall₂_captured hresolve nodes (first + node.memos) others hothers)

theorem forall₂_captured_alternatives
    (hresolve : ∀ kind name r, resolve kind name = .ok r → r.captured = []) :
    ∀ (alternatives : List (List Node)) (first : Nat) (r : Regex),
      alternativesRegex resolve first alternatives = .ok r →
        List.Forall₂ (IsGroupOf resolve) r.captured (memoTargetsInAlternatives alternatives)
  | [], first, r => fun h => by cases h; exact .nil
  | [alternative], first, r => fun h => by
    have := Sequence.forall₂_captured hresolve alternative first r h
    rwa [memoTargetsInAlternatives, memoTargetsInAlternatives, List.append_nil]
  | alternative :: next :: rest, first, r => by
    intro h
    obtain ⟨one, others, hone, hothers, rfl⟩ :=
      (alternativesRegex_cons (List.cons_ne_nil next rest)).mp h
    exact List.rel_append (Sequence.forall₂_captured hresolve alternative first one hone)
      (forall₂_captured_alternatives hresolve (next :: rest) _ others hothers)

end

theorem captured_resolve (b : Bindings) (kind : VariableKind) (name : String) (r : Regex)
    (h : b.resolve kind name = .ok r) : r.captured = [] := by
  have := captureIndices_resolve b kind name r h
  rwa [← map_fst_captured, List.map_eq_nil_iff] at this

/-- The memo of a numbered group is the one with this number. -/
theorem exists_target_of_mem_captured {b : Bindings} {tree : Sequence} {r : Regex}
    (h : tree.regexWith b = .ok r) {group : Nat × Regex} (hmem : group ∈ r.captured) :
    ∃ target, (Sequence.memoTargets tree)[group.1]? = some target ∧
      IsGroupOf b.resolve group target := by
  have hgroups := Sequence.forall₂_captured (captured_resolve b) tree 0 r h
  have hnumbers := Sequence.captureIndices_regex (captureIndices_resolve b) tree 0 r h
  rw [← map_fst_captured] at hnumbers
  obtain ⟨k, hk, rfl⟩ := List.getElem_of_mem hmem
  have hk' : k < (Sequence.memoTargets tree).length := hgroups.length_eq ▸ hk
  have hindex : r.captured[k].1 = k := by
    have := List.getElem_of_eq hnumbers (by rwa [List.length_map] : k < (r.captured.map _).length)
    rw [List.getElem_map, List.getElem_range'] at this
    omega
  refine ⟨(Sequence.memoTargets tree)[k], ?_, hgroups.get hk hk'⟩
  rw [hindex, List.getElem?_eq_getElem hk']

end Groups

/-! ## Respect for words -/

/-- From a settled place, the expression leads to places where words begin or end. -/
def RespectsWords (r : Regex) : Prop :=
  ∀ {Q : Standing → Prop}, Q .settled → Q .between → r.Ensures Q .settled

section RespectsWords

variable {resolve : Resolver}

theorem respectsWords_alternatives {alternatives : List Sequence} (hne : alternatives ≠ [])
    (h : ∀ alternative ∈ alternatives, ∀ first r,
      Sequence.regex resolve first alternative = .ok r → RespectsWords r) {first : Nat} {r : Regex}
    (hr : alternativesRegex resolve first alternatives = .ok r) : RespectsWords r := by
  induction alternatives generalizing first r with
  | nil => exact absurd rfl hne
  | cons alternative rest ih =>
    obtain ⟨hhead, hrest⟩ := List.forall_mem_cons.mp h
    cases rest with
    | nil => exact hhead first r hr
    | cons next rest =>
      obtain ⟨one, others, hone, hothers, rfl⟩ :=
        (alternativesRegex_cons (List.cons_ne_nil next rest)).mp hr
      exact fun hsettled hbetween => ⟨hhead first one hone hsettled hbetween,
        ih (List.cons_ne_nil next rest) hrest hothers hsettled hbetween⟩

mutual

theorem Node.Shaped.respectsWords
    (hresolve : ∀ kind name r, resolve kind name = .ok r → RespectsWords r) :
    ∀ {node : Node}, node.Shaped →
      ∀ {first r}, node.regex resolve first = .ok r → RespectsWords r
  | _, .wildcard w => by
    intro hr Q hsettled hbetween
    obtain rfl := Except.ok.inj hr
    exact ⟨by decide, hbetween⟩
  | _, .words hne each => by
    intro hr Q hsettled hbetween
    obtain rfl := Except.ok.inj hr
    exact ⟨by decide, ⟨_, hne, each, rfl⟩, hbetween⟩
  | _, .reference kind name => fun hr => hresolve kind name _ hr
  | _, .memo inner => by
    intro hr Q hsettled hbetween
    obtain ⟨s, hs, rfl⟩ := Node.regex_memo.mp hr
    exact ⟨rfl, inner.respectsWords hresolve hs hsettled hbetween⟩
  | _, .choice bracket hne each => by
    intro hr Q hsettled hbetween
    obtain ⟨s, hs, rfl⟩ := Node.regex_choice.mp hr
    have hinner := respectsWords_alternatives hne
      (fun alternative ha first r hr => (each alternative ha).respectsWords hresolve hr) hs
      hsettled hbetween
    cases bracket with
    | optional => exact ⟨hinner, hsettled⟩
    | group => exact hinner

theorem Sequence.Shaped.respectsWords
    (hresolve : ∀ kind name r, resolve kind name = .ok r → RespectsWords r) :
    ∀ {nodes : Sequence}, Sequence.Shaped nodes →
      ∀ {first r}, Sequence.regex resolve first nodes = .ok r → RespectsWords r
  | _, .last head => by
    intro hr Q hsettled hbetween
    obtain ⟨one, hone, rfl⟩ := Sequence.regex_last.mp hr
    exact head.respectsWords hresolve hone hsettled hbetween
  | _, .next head tail => by
    intro hr Q hsettled hbetween
    obtain ⟨one, rest, hone, hrest, rfl⟩ := Sequence.regex_next.mp hr
    -- The white space settles the place again, wherever the part before it has led to.
    have htail := tail.respectsWords hresolve hrest hsettled hbetween
    exact head.respectsWords hresolve hone ⟨by decide, htail⟩ ⟨by decide, htail⟩

end

end RespectsWords

theorem respectsWords_resolve (b : Bindings) (kind : VariableKind) (name : String) (r : Regex)
    (h : b.resolve kind name = .ok r) : RespectsWords r := by
  obtain ⟨content, tree, s, -, hread, hs, rfl⟩ := exists_value_of_resolve h
  have hvalue : RespectsWords s :=
    (shaped_of_parse? hread).respectsWords (fun _ _ _ h => by cases h) hs
  intro Q hsettled hbetween
  exact hvalue (Q := boundary.Ensures Q) hsettled hbetween

/-! ## What the matcher remembers -/

/-- What the matcher remembers for a memo is a match of the part behind its marker, from a settled
place on. -/
theorem exists_target_of_mem_marks [SizeLimit] {ws : List String} (hws : ∀ w ∈ ws, IsNormalWord w)
    {enabled : TokenSet} {text : String} {tree : Sequence} (hread : parse? enabled text = .ok tree)
    {b : Bindings} {r : Regex} (hcompile : tree.compile b = .ok r) {marks : List Mark}
    (hmarks : matchWhole? (textOf ws) r = some marks) {m : Mark} (hm : m ∈ marks) :
    ∃ target s, (Sequence.memoTargets tree)[m.1]? = some target ∧
      target.regex b.resolve (m.1 + 1) = .ok s ∧ s.Matches (textOf ws) m.2.1 m.2.2 ∧
      Standing.settled.Holds ws m.2.1 := by
  obtain ⟨whole, hwhole, -, rfl⟩ := Sequence.compile_eq_ok_iff.mp hcompile
  have hensures : whole.factored.Ensures (fun _ => True) .settled :=
    ensures_factored.mpr ((shaped_of_parse? hread).respectsWords (respectsWords_resolve b) hwhole
      trivial trivial)
  have hsettled := holds_of_matchWhole? hws hensures hmarks m hm
  obtain ⟨⟨j, marks⟩, hwalk, rfl⟩ := Option.map_eq_some_iff.mp hmarks
  obtain ⟨inner, hinner, hmatch⟩ := exists_captured_of_walk hwalk m hm
  rw [captured_factored] at hinner
  obtain ⟨⟨index, s⟩, hgroup, heq⟩ := List.mem_map.mp hinner
  cases heq
  obtain ⟨target, htarget, hregex⟩ := exists_target_of_mem_captured hwhole hgroup
  exact ⟨target, s, htarget, hregex, (matches_factored s _ _).mp hmatch, hsettled⟩

end Repartee.Pattern
