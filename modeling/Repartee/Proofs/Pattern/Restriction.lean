import Repartee.Proofs.Pattern.Soundness

/-!
# Sets of tokens

Which kinds of tokens are enabled decides which texts are read, and not what they are read as. A
derivation uses the kinds that its tree shows (`Sequence.kinds`), and kinds that only stand between
parts or around them. So it is one under any other set that has these
(`Grammar.Derives.of_kinds`), and no kind that is enabled besides takes text away from them.

It follows that a text is read in the same way under a larger set, and under a smaller one if its
tree needs nothing else (`parse?_of_kinds`). The texts of simple patterns are the ones whose tree
has no wildcards, memos and variables.
-/

namespace Repartee.Pattern

open Grammar

/-- A token of this kind makes a part of the tree. The others stand between parts or around them,
and a tree does not tell in all cases whether they were there. -/
def TokenKind.makesPart : TokenKind → Bool
  | .wildcard | .memo | .word | .reference | .optional | .group => true
  | .space | .terminator | .pipe | .invalid => false

mutual

/-- The kinds of tokens that make the part and what is inside it. -/
def Node.kinds : Node → List TokenKind
  | .wildcard _ => [.wildcard]
  | .words _ => [.word]
  | .space => []
  | .memo node => .memo :: node.kinds
  | .reference _ _ => [.reference]
  | .choice bracket alternatives => bracket.kind :: kindsInAlternatives alternatives

/-- The kinds of tokens that make the parts of the sequence, at any depth. -/
def Sequence.kinds : List Node → List TokenKind
  | [] => []
  | node :: nodes => node.kinds ++ Sequence.kinds nodes

def kindsInAlternatives : List (List Node) → List TokenKind
  | [] => []
  | alternative :: rest => Sequence.kinds alternative ++ kindsInAlternatives rest

end

section Kinds

variable {kind : TokenKind}

theorem Sequence.mem_kinds_consItem {first : Node} {nodes : Sequence} :
    kind ∈ kinds (consItem first nodes) ↔ kind ∈ first.kinds ∨ kind ∈ kinds nodes := by
  unfold consItem
  split
  · simp [kinds]
  · simp [kinds, Node.kinds]
  · simp [kinds, Node.kinds]

theorem Sequence.mem_kinds_ofItems {items : List Node} :
    kind ∈ kinds (ofItems items) ↔ ∃ item ∈ items, kind ∈ item.kinds := by
  induction items with
  | nil => simp [ofItems, kinds]
  | cons first items ih => simp [ofItems, mem_kinds_consItem, ih]

theorem mem_kindsInAlternatives {alternatives : List Sequence} :
    kind ∈ kindsInAlternatives alternatives ↔
      ∃ alternative ∈ alternatives, kind ∈ Sequence.kinds alternative := by
  induction alternatives with
  | nil => simp [kindsInAlternatives]
  | cons alternative rest ih => simp [kindsInAlternatives, ih]

end Kinds

namespace Grammar

/-! ## A derivation under another set -/

section Transfer

variable {S T : TokenSet} {kinds : List TokenKind}
  (h : ∀ kind ∈ S, (kind.makesPart = true → kind ∈ kinds) → kind ∈ T)

include h

theorem Blanks.of_kinds {cs : List Char} (blanks : Blanks S cs) : Blanks T cs :=
  ⟨blanks.blank, fun hne => h .space (blanks.enabled hne) Bool.noConfusion⟩

mutual

theorem Item.of_kinds : ∀ {depth : Nat} {cs : List Char} {item : Node},
    Item S depth cs item → item.kinds ⊆ kinds → Item T depth cs item
  | _, _, _, .word kind word => by
    intro hkinds
    exact .word (h .word kind fun _ => hkinds List.mem_cons_self) word
  | _, _, _, .wildcard kind words counts => by
    intro hkinds
    exact .wildcard (h .wildcard kind fun _ => hkinds List.mem_cons_self) words counts
  | _, _, _, .reference kind table name => by
    intro hkinds
    exact .reference (h .reference kind fun _ => hkinds List.mem_cons_self) table name
  | _, _, _, .memo kind target item => by
    intro hkinds
    obtain ⟨hmark, hinner⟩ := List.cons_subset.mp hkinds
    exact .memo (h .memo kind fun _ => hmark) target (item.of_kinds hinner)
  | _, _, _, .choice bracket kind closing inner => by
    intro hkinds
    obtain ⟨hopener, hinner⟩ := List.cons_subset.mp hkinds
    exact .choice bracket (h bracket.kind kind fun _ => hopener)
      (h .terminator closing Bool.noConfusion) (inner.of_kinds fun alternative hm kind hkind =>
        hinner (mem_kindsInAlternatives.mpr ⟨alternative, hm, hkind⟩))

theorem Items.of_kinds : ∀ {depth : Nat} {cs : List Char} {items : List Node},
    Items S depth cs items → (∀ item ∈ items, item.kinds ⊆ kinds) → Items T depth cs items
  | _, _, _, .first front head => by
    intro hkinds
    rw [List.forall_mem_singleton] at hkinds
    exact .first (front.of_kinds h) (head.of_kinds hkinds)
  | _, _, _, .next before between apart last => by
    intro hkinds
    rw [List.forall_mem_append, List.forall_mem_singleton] at hkinds
    exact .next (before.of_kinds hkinds.1) (between.of_kinds h) apart (last.of_kinds hkinds.2)

/-- A derivation is one under any set that has the kinds of its tree, and those that make no
parts. -/
theorem Derives.of_kinds : ∀ {depth : Nat} {cs : List Char} {tree : Sequence},
    Derives S depth cs tree → Sequence.kinds tree ⊆ kinds → Derives T depth cs tree
  | _, _, _, .mk inner back => by
    intro hkinds
    exact .mk (inner.of_kinds fun item hm kind hkind =>
      hkinds (Sequence.mem_kinds_ofItems.mpr ⟨item, hm, hkind⟩)) (back.of_kinds h)

theorem Alternatives.of_kinds : ∀ {depth : Nat} {cs : List Char} {alternatives : List Sequence},
    Alternatives S depth cs alternatives →
      (∀ alternative ∈ alternatives, Sequence.kinds alternative ⊆ kinds) →
      Alternatives T depth cs alternatives
  | _, _, _, .first head => by
    intro hkinds
    rw [List.forall_mem_singleton] at hkinds
    exact .first (head.of_kinds hkinds)
  | _, _, _, .next before bar last => by
    intro hkinds
    rw [List.forall_mem_append, List.forall_mem_singleton] at hkinds
    exact .next (before.of_kinds hkinds.1) (h .pipe bar Bool.noConfusion)
      (last.of_kinds hkinds.2)

end

end Transfer

/-! ## What a tree shows was enabled -/

variable {enabled : TokenSet}

mutual

theorem Item.kinds_subset : ∀ {depth : Nat} {cs : List Char} {item : Node},
    Item enabled depth cs item → item.kinds ⊆ enabled
  | _, _, _, .word kind _ => List.cons_subset.mpr ⟨kind, List.nil_subset _⟩
  | _, _, _, .wildcard kind _ _ => List.cons_subset.mpr ⟨kind, List.nil_subset _⟩
  | _, _, _, .reference kind _ _ => List.cons_subset.mpr ⟨kind, List.nil_subset _⟩
  | _, _, _, .memo kind _ item => List.cons_subset.mpr ⟨kind, item.kinds_subset⟩
  | _, _, _, .choice _ kind _ inner => by
    refine List.cons_subset.mpr ⟨kind, fun kind hkind => ?_⟩
    obtain ⟨alternative, hm, hkind⟩ := mem_kindsInAlternatives.mp hkind
    exact inner.kinds_subset alternative hm hkind

theorem Items.kinds_subset : ∀ {depth : Nat} {cs : List Char} {items : List Node},
    Items enabled depth cs items → ∀ item ∈ items, item.kinds ⊆ enabled
  | _, _, _, .first _ head => by
    rw [List.forall_mem_singleton]
    exact head.kinds_subset
  | _, _, _, .next before _ _ last => by
    rw [List.forall_mem_append, List.forall_mem_singleton]
    exact ⟨before.kinds_subset, last.kinds_subset⟩

theorem Derives.kinds_subset : ∀ {depth : Nat} {cs : List Char} {tree : Sequence},
    Derives enabled depth cs tree → Sequence.kinds tree ⊆ enabled
  | _, _, _, .mk inner _ => by
    intro kind hkind
    obtain ⟨item, hm, hkind⟩ := Sequence.mem_kinds_ofItems.mp hkind
    exact inner.kinds_subset item hm hkind

theorem Alternatives.kinds_subset : ∀ {depth : Nat} {cs : List Char}
    {alternatives : List Sequence}, Alternatives enabled depth cs alternatives →
      ∀ alternative ∈ alternatives, Sequence.kinds alternative ⊆ enabled
  | _, _, _, .first head => by
    rw [List.forall_mem_singleton]
    exact head.kinds_subset
  | _, _, _, .next before _ last => by
    rw [List.forall_mem_append, List.forall_mem_singleton]
    exact ⟨before.kinds_subset, last.kinds_subset⟩

end

end Grammar

/-! ## Reading under another set -/

section Reading

variable {S T : TokenSet} {text : String} {tree : Sequence}

theorem kinds_subset_of_parse? (h : parse? S text = .ok tree) : Sequence.kinds tree ⊆ S :=
  (derives_of_parse? h).kinds_subset

/-- A text is read in the same way under a set that has the kinds of its tree, and those that make
no parts. -/
theorem parse?_of_kinds (h : parse? S text = .ok tree)
    (hkinds : ∀ kind ∈ S, (kind.makesPart = true → kind ∈ Sequence.kinds tree) → kind ∈ T) :
    parse? T text = .ok tree :=
  parse?_of_derives ((derives_of_parse? h).of_kinds hkinds (List.Subset.refl _))

theorem parse?_of_subset (hsub : S ⊆ T) (h : parse? S text = .ok tree) :
    parse? T text = .ok tree :=
  parse?_of_kinds h fun _ hkind _ => hsub hkind

/-- Simple patterns do without wildcards, memos and references, and without nothing else. -/
theorem TokenSet.mem_simple_of_mem_full {kind : TokenKind} (h : kind ∈ TokenSet.full)
    (hkind : kind ≠ .wildcard ∧ kind ≠ .memo ∧ kind ≠ .reference) : kind ∈ TokenSet.simple := by
  revert kind
  decide

theorem parse?_simple (h : parse? .full text = .ok tree)
    (hkinds : .wildcard ∉ Sequence.kinds tree ∧ .memo ∉ Sequence.kinds tree ∧
      .reference ∉ Sequence.kinds tree) :
    parse? .simple text = .ok tree := by
  obtain ⟨hwildcard, hmemo, hreference⟩ := hkinds
  refine parse?_of_kinds h fun kind hfull hkind => TokenSet.mem_simple_of_mem_full hfull ?_
  refine ⟨?_, ?_, ?_⟩
  · rintro rfl
    exact hwildcard (hkind rfl)
  · rintro rfl
    exact hmemo (hkind rfl)
  · rintro rfl
    exact hreference (hkind rfl)

end Reading

/-- A smaller set of tokens rejects more and reads nothing differently. The texts that are read as
simple patterns are exactly those that are read as patterns with no wildcard, no memo and no
variable at any depth, and the tree is the same. -/
theorem restriction_only_rejects :
    (∀ S T : TokenSet, S ⊆ T → ∀ text tree, parse? S text = .ok tree →
      parse? T text = .ok tree) ∧
    ∀ text tree, parse? .simple text = .ok tree ↔
      parse? .full text = .ok tree ∧ .wildcard ∉ Sequence.kinds tree ∧
        .memo ∉ Sequence.kinds tree ∧ .reference ∉ Sequence.kinds tree := by
  refine ⟨fun S T hsub text tree => parse?_of_subset hsub, fun text tree => ⟨fun h => ?_, ?_⟩⟩
  · have hsimple := kinds_subset_of_parse? h
    have habsent : ∀ kind ∉ TokenSet.simple, kind ∉ Sequence.kinds tree :=
      fun kind hkind hm => hkind (hsimple hm)
    exact ⟨parse?_of_subset (by decide) h, habsent _ (by decide), habsent _ (by decide),
      habsent _ (by decide)⟩
  · rintro ⟨h, hkinds⟩
    exact parse?_simple h hkinds

/-- The hyphen belongs to the word although wildcards and memos are looked for as well, and the
white space at the ends does not hinder. -/
theorem restriction_only_rejects_valve :
    parse? .full " (Shut-off|main) valve " =
        .ok [.choice .group [[.words ["shut-off"]], [.words ["main"]]], .space,
          .words ["valve"]] ∧
      parse? .simple " (Shut-off|main) valve " = parse? .full " (Shut-off|main) valve " := by
  obtain ⟨larger, simple⟩ := restriction_only_rejects
  have h : parse? .simple " (Shut-off|main) valve " =
      .ok [.choice .group [[.words ["shut-off"]], [.words ["main"]]], .space,
        .words ["valve"]] := by rfl
  have hfull := larger .simple .full (by decide) _ _ h
  have hsimple := (simple _ _).mpr ⟨hfull, by decide, by decide, by decide⟩
  exact ⟨hfull, hsimple.trans hfull.symm⟩

end Repartee.Pattern
