import Repartee.Proofs.Pattern.Shape

/-!
# The parts of a tree

What can be relied on in every tree that was read, wherever one looks in it. `Sequence.parts` lists
all parts at any depth, `Sequence.nesting` is how deep memo markers and brackets are inside each
other, and `Sequence.WellSpaced` is how the parts of one sequence lie to each other. The sequences
of a tree are its root and the alternatives of its brackets, so the conditions on a bracket
(`Node.WellFormed`) reach all of them.

The conditions hold of the items of a derivation (`Grammar.Item.wellFormed`), and making items into
a sequence keeps them (`Sequence.wellSpaced_ofItems` and `Sequence.wellFormed_ofItems`).
-/

namespace Repartee.Pattern

open Grammar

mutual

/-- The part itself and all parts inside it. -/
def Node.parts : Node → List Node
  | .wildcard w => [.wildcard w]
  | .words us => [.words us]
  | .space => [.space]
  | .reference kind name => [.reference kind name]
  | .memo node => .memo node :: node.parts
  | .choice bracket alternatives =>
    .choice bracket alternatives :: partsInAlternatives alternatives

/-- The parts of the sequence, at any depth. -/
def Sequence.parts : List Node → List Node
  | [] => []
  | node :: nodes => node.parts ++ Sequence.parts nodes

def partsInAlternatives : List (List Node) → List Node
  | [] => []
  | alternative :: rest => Sequence.parts alternative ++ partsInAlternatives rest

end

mutual

/-- How many memo markers and brackets are inside each other, this one included. -/
def Node.nesting : Node → Nat
  | .wildcard _ | .words _ | .space | .reference _ _ => 0
  | .memo node => node.nesting + 1
  | .choice _ alternatives => nestingInAlternatives alternatives + 1

def Sequence.nesting : List Node → Nat
  | [] => 0
  | node :: nodes => max node.nesting (Sequence.nesting nodes)

def nestingInAlternatives : List (List Node) → Nat
  | [] => 0
  | alternative :: rest => max (Sequence.nesting alternative) (nestingInAlternatives rest)

end

/-- White space and other parts in turn, the latter at both ends, and nowhere literal words that
only white space divides. -/
structure Sequence.WellSpaced (nodes : Sequence) : Prop where
  nonempty : nodes ≠ []
  begins : nodes.head? ≠ some .space
  ends : nodes.getLast? ≠ some .space
  alternates : nodes.IsChain fun node next => node = .space ↔ next ≠ .space
  merged : ∀ us vs, ¬ [.words us, .space, .words vs] <:+: nodes

/-- What holds of every part by itself. As for wildcards, their counts can be lowered by one, and
they are numbers of 32 bits. -/
def Node.WellFormed : Node → Prop
  | .wildcard w => 1 ≤ w.min ∧ (∀ most ∈ w.max, w.min ≤ most) ∧ w.IsWritable
  | .words us => us ≠ [] ∧ ∀ u ∈ us, Word u.toList
  | .memo node => node.isTarget = true
  | .choice _ alternatives =>
    alternatives ≠ [] ∧ ∀ alternative ∈ alternatives, Sequence.WellSpaced alternative
  | .space | .reference _ _ => True

theorem mem_partsInAlternatives {alternatives : List Sequence} {part : Node} :
    part ∈ partsInAlternatives alternatives ↔
      ∃ alternative ∈ alternatives, part ∈ Sequence.parts alternative := by
  induction alternatives with
  | nil => simp [partsInAlternatives]
  | cons alternative rest ih => simp [partsInAlternatives, ih]

theorem nestingInAlternatives_le_iff {alternatives : List Sequence} {depth : Nat} :
    nestingInAlternatives alternatives ≤ depth ↔
      ∀ alternative ∈ alternatives, Sequence.nesting alternative ≤ depth := by
  induction alternatives with
  | nil => simp [nestingInAlternatives]
  | cons alternative rest ih =>
    rw [nestingInAlternatives, Nat.max_le, ih, List.forall_mem_cons]

/-! ## The spacing of items -/

namespace Sequence

variable {first node : Node} {nodes : Sequence} {us vs : List String}

theorem wellSpaced_singleton (h : node ≠ .space) : WellSpaced [node] where
  nonempty := List.cons_ne_nil node []
  begins := by simpa using h
  ends := by simpa using h
  alternates := .singleton node
  merged := fun us vs hinfix => absurd hinfix.length_le (by simp)

/-- A sequence that begins with words may begin with others. -/
theorem WellSpaced.replace_words (h : WellSpaced (.words vs :: nodes)) :
    WellSpaced (.words us :: nodes) := by
  obtain ⟨-, -, ends, alternates, merged⟩ := h
  refine ⟨List.cons_ne_nil _ _, by simp, ?_, ?_, ?_⟩
  · cases nodes with
    | nil => simp
    | cons next nodes => simpa using ends
  · cases nodes with
    | nil => exact .singleton _
    | cons next nodes =>
      obtain ⟨hnext, hrest⟩ := List.isChain_cons_cons.mp alternates
      exact .cons_cons (by simpa using hnext) hrest
  · intro ws ws' hinfix
    rcases List.infix_cons_iff.mp hinfix with hfront | hinfix
    · obtain ⟨-, hfront⟩ := List.cons_prefix_cons.mp hfront
      exact merged vs ws' (List.cons_prefix_cons.mpr ⟨rfl, hfront⟩).isInfix
    · exact merged ws ws' (List.infix_cons hinfix)

theorem WellSpaced.cons (hfirst : first ≠ .space) (apart : (first.isWords && node.isWords) = false)
    (h : WellSpaced (node :: nodes)) : WellSpaced (first :: .space :: node :: nodes) := by
  obtain ⟨-, begins, ends, alternates, merged⟩ := h
  have hnode : node ≠ .space := by simpa using begins
  refine ⟨List.cons_ne_nil _ _, by simpa using hfirst, by simpa using ends, ?_, ?_⟩
  · exact .cons_cons (by simp [hfirst]) (.cons_cons (by simp [hnode]) alternates)
  · -- Words around the new white space are excluded by `apart`, all others were there before.
    intro us vs hinfix
    rcases List.infix_cons_iff.mp hinfix with hfront | hinfix
    · obtain ⟨rfl, hbehind⟩ := List.cons_prefix_cons.mp hfront
      obtain ⟨rfl, -⟩ := List.cons_prefix_cons.mp (List.cons_prefix_cons.mp hbehind).2
      cases apart
    · rcases List.infix_cons_iff.mp hinfix with hfront | hinfix
      · exact absurd (List.cons_prefix_cons.mp hfront).1 Node.noConfusion
      · exact merged us vs hinfix

theorem wellSpaced_consItem (hfirst : first ≠ .space) (h : WellSpaced nodes) :
    WellSpaced (consItem first nodes) := by
  obtain ⟨node, nodes, rfl⟩ := List.exists_cons_of_ne_nil h.nonempty
  cases hmerge : first.isWords && node.isWords with
  | false =>
    rw [consItem_apart hmerge]
    exact h.cons hfirst hmerge
  | true =>
    obtain ⟨hfirst', hnode⟩ := Bool.and_eq_true_iff.mp hmerge
    obtain ⟨us, rfl⟩ := exists_words_of_isWords hfirst'
    obtain ⟨vs, rfl⟩ := exists_words_of_isWords hnode
    exact h.replace_words

theorem wellSpaced_ofItems {items : List Node} (hne : items ≠ [])
    (h : ∀ item ∈ items, item ≠ .space) : WellSpaced (ofItems items) := by
  induction items with
  | nil => exact absurd rfl hne
  | cons first items ih =>
    obtain ⟨hfirst, hrest⟩ := List.forall_mem_cons.mp h
    cases items with
    | nil => exact wellSpaced_singleton hfirst
    | cons second items =>
      exact wellSpaced_consItem hfirst (ih (List.cons_ne_nil second items) hrest)

end Sequence

/-! ## The parts of items -/

/-- All parts are well-formed, and nested to at most the given depth. -/
structure Node.Sound (depth : Nat) (node : Node) : Prop where
  parts : ∀ part ∈ node.parts, part.WellFormed
  nesting : node.nesting ≤ depth

/-- The sequence is well-spaced, and so are those in its parts, which are well-formed and nested to
at most the given depth. -/
structure Sequence.Sound (depth : Nat) (nodes : Sequence) : Prop where
  spaced : WellSpaced nodes
  parts : ∀ part ∈ parts nodes, part.WellFormed
  nesting : nesting nodes ≤ depth

theorem Node.Sound.words_append {depth : Nat} {us vs : List String}
    (h : (Node.words us).Sound depth) (h' : (Node.words vs).Sound depth) :
    (Node.words (us ++ vs)).Sound depth := by
  obtain ⟨some, each⟩ := h.parts (.words us) (List.mem_singleton_self _)
  obtain ⟨-, each'⟩ := h'.parts (.words vs) (List.mem_singleton_self _)
  refine ⟨List.forall_mem_singleton.mpr ⟨?_, ?_⟩, Nat.zero_le depth⟩
  · exact List.append_ne_nil_of_left_ne_nil some vs
  · exact List.forall_mem_append.mpr ⟨each, each'⟩

theorem Sequence.Separated.sound {depth : Nat} {nodes : Sequence}
    (h : Separated (Node.Sound depth) nodes) :
    (∀ part ∈ parts nodes, part.WellFormed) ∧ nesting nodes ≤ depth := by
  induction h with
  | last head => simpa [parts, nesting] using ⟨head.parts, head.nesting⟩
  | next head tail ih =>
    obtain ⟨hparts, hnesting⟩ := ih
    refine ⟨List.forall_mem_append.mpr ⟨head.parts, ?_⟩, ?_⟩
    · exact List.forall_mem_cons.mpr ⟨trivial, hparts⟩
    · exact Nat.max_le.mpr ⟨head.nesting, Nat.max_le.mpr ⟨Nat.zero_le depth, hnesting⟩⟩

theorem Sequence.sound_ofItems {depth : Nat} {items : List Node} (hne : items ≠ [])
    (hspace : ∀ item ∈ items, item ≠ .space) (h : ∀ item ∈ items, item.Sound depth) :
    Sound depth (ofItems items) := by
  obtain ⟨hparts, hnesting⟩ := (separated_ofItems Node.Sound.words_append hne h).sound
  exact ⟨wellSpaced_ofItems hne hspace, hparts, hnesting⟩

theorem Node.sound_leaf {depth : Nat} {node : Node} (hparts : node.parts = [node])
    (hnesting : node.nesting = 0) (h : node.WellFormed) : node.Sound depth := by
  refine ⟨?_, hnesting ▸ Nat.zero_le depth⟩
  rw [hparts]
  exact List.forall_mem_singleton.mpr h

theorem Node.sound_choice {depth : Nat} {bracket : Bracket} {alternatives : List Sequence}
    (hne : alternatives ≠ []) (h : ∀ alternative ∈ alternatives, Sequence.Sound depth alternative) :
    (Node.choice bracket alternatives).Sound (depth + 1) := by
  refine ⟨List.forall_mem_cons.mpr ⟨⟨hne, fun alternative ha => (h alternative ha).spaced⟩, ?_⟩, ?_⟩
  · intro part hpart
    obtain ⟨alternative, ha, hpart⟩ := mem_partsInAlternatives.mp hpart
    exact (h alternative ha).parts part hpart
  · exact Nat.succ_le_succ
      (nestingInAlternatives_le_iff.mpr fun alternative ha => (h alternative ha).nesting)

/-! ## Trees of derivations -/

namespace Grammar

variable {enabled : TokenSet}

mutual

theorem Item.sound : ∀ {depth : Nat} {cs : List Char} {item : Node},
    Item enabled depth cs item → item.Sound depth
  | _, cs, _, .word _ word => by
    refine Node.sound_leaf rfl rfl ⟨List.cons_ne_nil _ _, ?_⟩
    rw [List.forall_mem_singleton, String.toList_ofList]
    exact word
  | _, _, _, .wildcard _ words counts =>
    Node.sound_leaf rfl rfl
      ⟨Wildcard.min_pos _, Wildcard.min_le_max _, Wildcard.isWritable_clamp words counts⟩
  | _, _, _, .reference _ _ _ => Node.sound_leaf rfl rfl trivial
  | _, _, _, .memo _ target item =>
    ⟨List.forall_mem_cons.mpr ⟨target, item.sound.parts⟩, Nat.succ_le_succ item.sound.nesting⟩
  | _, _, _, .choice bracket _ _ inner => Node.sound_choice inner.ne_nil inner.sound

theorem Items.sound : ∀ {depth : Nat} {cs : List Char} {items : List Node},
    Items enabled depth cs items → ∀ item ∈ items, item.Sound depth
  | _, _, _, .first _ head => by
    rw [List.forall_mem_singleton]
    exact head.sound
  | _, _, _, .next before _ _ last => by
    rw [List.forall_mem_append, List.forall_mem_singleton]
    exact ⟨before.sound, last.sound⟩

theorem Derives.sound : ∀ {depth : Nat} {cs : List Char} {tree : Sequence},
    Derives enabled depth cs tree → Sequence.Sound depth tree
  | _, _, _, .mk inner _ => Sequence.sound_ofItems inner.ne_nil inner.ne_space inner.sound

theorem Alternatives.sound : ∀ {depth : Nat} {cs : List Char} {alternatives : List Sequence},
    Alternatives enabled depth cs alternatives →
      ∀ alternative ∈ alternatives, Sequence.Sound depth alternative
  | _, _, _, .first head => by
    rw [List.forall_mem_singleton]
    exact head.sound
  | _, _, _, .next before _ last => by
    rw [List.forall_mem_append, List.forall_mem_singleton]
    exact ⟨before.sound, last.sound⟩

end

end Grammar

/-! ## What was read -/

/-- In a tree that was read, white space stands between any two other parts of a sequence and
nowhere else, literal words that follow each other are one part, every part is what it has to be,
and memo markers and brackets are inside each other to at most 32. -/
theorem wellFormed_of_parse? {enabled : TokenSet} {text : String} {tree : Sequence}
    (h : parse? enabled text = .ok tree) :
    Sequence.WellSpaced tree ∧ (∀ part ∈ Sequence.parts tree, part.WellFormed) ∧
      Sequence.nesting tree ≤ 32 := by
  obtain ⟨hspaced, hparts, hnesting⟩ := (derives_of_parse? h).sound
  exact ⟨hspaced, hparts, hnesting⟩

/-- The words of the alternative are one part in spite of the white space between them. -/
theorem wellFormed_of_parse?_memo :
    ∃ tree, parse? .full " how  [ is  it | _(*0~5) ]" = .ok tree ∧
      Node.memo (.choice .group [[.wildcard (.clamp .any 0 (some 5))]]) ∈ Sequence.parts tree ∧
      Sequence.WellSpaced tree ∧ (∀ part ∈ Sequence.parts tree, part.WellFormed) ∧
      Sequence.nesting tree = 3 ∧ Sequence.nesting tree ≤ 32 := by
  have h : parse? .full " how  [ is  it | _(*0~5) ]" =
      .ok [.words ["how"], .space, .choice .optional [[.words ["is", "it"]],
        [.memo (.choice .group [[.wildcard (.clamp .any 0 (some 5))]])]]] := rfl
  obtain ⟨hspaced, hparts, hnesting⟩ := wellFormed_of_parse? h
  exact ⟨_, h, by simp [Sequence.parts, Node.parts, partsInAlternatives], hspaced, hparts, rfl,
    hnesting⟩

end Repartee.Pattern
