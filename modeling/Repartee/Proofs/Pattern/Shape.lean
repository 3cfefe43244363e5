import Repartee.Pattern.Basic
import Repartee.Proofs.Pattern.Soundness

/-!
# The shape of trees

A tree that was read has a shape that its type does not ask for: white space stands between any two
other parts of a sequence and nowhere else, there are words in literal words, and alternatives in
brackets (`shaped_of_parse?`). And where references are not enabled, the tree has none
(`references_of_parse?`).

From a tree of this shape, the regular expression is read off part by part: `Sequence.regex_next`
and the equivalences around it say what it is made of.
-/

namespace Repartee.Pattern

open Grammar

mutual

/-- A part other than white space, as it is read. -/
inductive Node.Shaped : Node → Prop
  | wildcard (w : Wildcard) : Node.Shaped (.wildcard w)
  | words {us} (some : us ≠ []) (each : ∀ u ∈ us, Word u.toList) : Node.Shaped (.words us)
  | reference (kind : VariableKind) (name : String) : Node.Shaped (.reference kind name)
  | memo {node} (inner : Node.Shaped node) : Node.Shaped (.memo node)
  | choice (bracket : Bracket) {alternatives} (some : alternatives ≠ [])
      (each : ∀ alternative ∈ alternatives, Sequence.Shaped alternative) :
      Node.Shaped (.choice bracket alternatives)

/-- Parts with white space between neighbours. -/
inductive Sequence.Shaped : List Node → Prop
  | last {node} (head : Node.Shaped node) : Sequence.Shaped [node]
  | next {node nodes} (head : Node.Shaped node) (tail : Sequence.Shaped nodes) :
      Sequence.Shaped (node :: .space :: nodes)

end

/-! ## What an expression is made of -/

section Regex

variable {resolve : Resolver} {first : Nat} {r : Regex}

theorem Node.regex_memo {node : Node} : (Node.memo node).regex resolve first = .ok r ↔
    ∃ s, node.regex resolve (first + 1) = .ok s ∧ r = .capture first s :=
  Except.bind_pure_eq_ok_iff

theorem Node.regex_choice {bracket : Bracket} {alternatives : List Sequence} :
    (Node.choice bracket alternatives).regex resolve first = .ok r ↔
      ∃ s, alternativesRegex resolve first alternatives = .ok s ∧ r = bracket.around s :=
  Except.bind_pure_eq_ok_iff

namespace Sequence

variable {node : Node} {nodes : Sequence}

theorem regex_cons : regex resolve first (node :: nodes) = .ok r ↔
    ∃ one others, node.regex resolve first = .ok one ∧
      regex resolve (first + node.memos) nodes = .ok others ∧ r = .seq one others := by
  rw [regex, Except.bind_eq_ok_iff]
  refine exists_congr fun one => ?_
  rw [Except.bind_pure_eq_ok_iff, exists_and_left]

theorem regex_last : regex resolve first [node] = .ok r ↔
    ∃ one, node.regex resolve first = .ok one ∧ r = .seq one .empty := by
  rw [regex_cons]
  refine exists_congr fun one => ⟨?_, fun ⟨hone, hr⟩ => ⟨.empty, hone, rfl, hr⟩⟩
  rintro ⟨_, hone, hempty, rfl⟩
  obtain rfl := Except.ok.inj hempty
  exact ⟨hone, rfl⟩

theorem regex_next : regex resolve first (node :: .space :: nodes) = .ok r ↔
    ∃ one rest, node.regex resolve first = .ok one ∧
      regex resolve (first + node.memos) nodes = .ok rest ∧ r = .seq one (.seq .blank rest) := by
  constructor
  · intro h
    obtain ⟨one, others, hone, hothers, rfl⟩ := regex_cons.mp h
    obtain ⟨space, rest, hspace, hrest, rfl⟩ := regex_cons.mp hothers
    obtain rfl := Except.ok.inj hspace
    exact ⟨one, rest, hone, hrest, rfl⟩
  · rintro ⟨one, rest, hone, hrest, rfl⟩
    exact regex_cons.mpr ⟨one, _, hone, regex_cons.mpr ⟨.blank, rest, rfl, hrest, rfl⟩, rfl⟩

end Sequence

theorem alternativesRegex_cons {alternative : Sequence} {rest : List Sequence} (hne : rest ≠ []) :
    alternativesRegex resolve first (alternative :: rest) = .ok r ↔
      ∃ one others, Sequence.regex resolve first alternative = .ok one ∧
        alternativesRegex resolve (first + Sequence.memos alternative) rest = .ok others ∧
        r = .alt one others := by
  rw [alternativesRegex, Except.bind_eq_ok_iff]
  · refine exists_congr fun one => ?_
    rw [Except.bind_pure_eq_ok_iff, exists_and_left]
  · exact hne

end Regex

mutual

/-- The variables that a part refers to. -/
def Node.references : Node → List (VariableKind × String)
  | .reference kind name => [(kind, name)]
  | .memo node => node.references
  | .choice _ alternatives => referencesInAlternatives alternatives
  | .wildcard _ | .words _ | .space => []

/-- The variables that a sequence refers to. -/
def Sequence.references : List Node → List (VariableKind × String)
  | [] => []
  | node :: nodes => node.references ++ Sequence.references nodes

/-- The variables that alternatives refer to. -/
def referencesInAlternatives : List (List Node) → List (VariableKind × String)
  | [] => []
  | alternative :: rest => Sequence.references alternative ++ referencesInAlternatives rest

end

/-! ## Sequences of items -/

theorem Node.Shaped.words_append {us vs : List String} (h : (Node.words us).Shaped)
    (h' : (Node.words vs).Shaped) : (Node.words (us ++ vs)).Shaped := by
  cases h with
  | words some each =>
    cases h' with
    | words some' each' =>
      exact .words (List.append_ne_nil_of_left_ne_nil some vs)
        (List.forall_mem_append.mpr ⟨each, each'⟩)

namespace Sequence

/-- Parts with the property, and white space between neighbours. -/
inductive Separated (P : Node → Prop) : List Node → Prop
  | last {node} (head : P node) : Separated P [node]
  | next {node nodes} (head : P node) (tail : Separated P nodes) :
      Separated P (node :: .space :: nodes)

section Separated

variable {P : Node → Prop}
  (merge : ∀ {us vs}, P (.words us) → P (.words vs) → P (.words (us ++ vs)))

include merge

theorem separated_consItem {first : Node} {nodes : Sequence} (hfirst : P first)
    (h : Separated P nodes) : Separated P (consItem first nodes) := by
  unfold consItem
  split
  · exact .last hfirst
  · cases h with
    | last head => exact .last (merge hfirst head)
    | next head tail => exact .next (merge hfirst head) tail
  · exact .next hfirst h

theorem separated_ofItems {items : List Node} (hne : items ≠ []) (h : ∀ item ∈ items, P item) :
    Separated P (ofItems items) := by
  induction items with
  | nil => exact absurd rfl hne
  | cons first items ih =>
    obtain ⟨hfirst, hrest⟩ := List.forall_mem_cons.mp h
    cases items with
    | nil => exact .last hfirst
    | cons second items =>
      exact separated_consItem merge hfirst (ih (List.cons_ne_nil second items) hrest)

end Separated

theorem Separated.shaped {nodes : Sequence} (h : Separated Node.Shaped nodes) : Shaped nodes := by
  induction h with
  | last head => exact .last head
  | next head tail ih => exact .next head ih

theorem references_consItem (first : Node) (nodes : Sequence) :
    references (consItem first nodes) = first.references ++ references nodes := by
  unfold consItem
  split
  · rfl
  · simp [references, Node.references]
  · simp [references, Node.references]

theorem references_ofItems {items : List Node} (h : ∀ item ∈ items, item.references = []) :
    references (ofItems items) = [] := by
  induction items with
  | nil => rfl
  | cons first items ih =>
    obtain ⟨hfirst, hrest⟩ := List.forall_mem_cons.mp h
    rw [ofItems, references_consItem, hfirst, ih hrest]
    rfl

end Sequence

theorem referencesInAlternatives_eq_nil {alternatives : List Sequence}
    (h : ∀ alternative ∈ alternatives, Sequence.references alternative = []) :
    referencesInAlternatives alternatives = [] := by
  induction alternatives with
  | nil => rfl
  | cons alternative rest ih =>
    obtain ⟨hfirst, hrest⟩ := List.forall_mem_cons.mp h
    rw [referencesInAlternatives, hfirst, ih hrest]
    rfl

/-! ## Trees of derivations -/

namespace Grammar

variable {enabled : TokenSet}

theorem Alternatives.ne_nil {depth : Nat} {cs : List Char} {alternatives : List Sequence}
    (h : Alternatives enabled depth cs alternatives) : alternatives ≠ [] := by
  cases h with
  | first head => exact List.cons_ne_nil _ _
  | next before bar last => simp

mutual

theorem Item.shaped : ∀ {depth : Nat} {cs : List Char} {item : Node},
    Item enabled depth cs item → item.Shaped
  | _, _, _, .word kind word => by
    refine .words (List.cons_ne_nil _ _) ?_
    rw [List.forall_mem_singleton, String.toList_ofList]
    exact word
  | _, _, _, .wildcard kind words counts => .wildcard _
  | _, _, _, .reference kind table name => .reference table _
  | _, _, _, .memo kind target item => .memo item.shaped
  | _, _, _, .choice bracket kind closing inner => .choice bracket inner.ne_nil inner.shaped

theorem Items.shaped : ∀ {depth : Nat} {cs : List Char} {items : List Node},
    Items enabled depth cs items → ∀ item ∈ items, item.Shaped
  | _, _, _, .first front head => by
    rw [List.forall_mem_singleton]
    exact head.shaped
  | _, _, _, .next before between apart last => by
    rw [List.forall_mem_append, List.forall_mem_singleton]
    exact ⟨before.shaped, last.shaped⟩

theorem Derives.shaped : ∀ {depth : Nat} {cs : List Char} {tree : Sequence},
    Derives enabled depth cs tree → Sequence.Shaped tree
  | _, _, _, .mk inner _ =>
    (Sequence.separated_ofItems Node.Shaped.words_append inner.ne_nil inner.shaped).shaped

theorem Alternatives.shaped : ∀ {depth : Nat} {cs : List Char} {alternatives : List Sequence},
    Alternatives enabled depth cs alternatives →
      ∀ alternative ∈ alternatives, Sequence.Shaped alternative
  | _, _, _, .first head => by
    rw [List.forall_mem_singleton]
    exact head.shaped
  | _, _, _, .next before bar last => by
    rw [List.forall_mem_append, List.forall_mem_singleton]
    exact ⟨before.shaped, last.shaped⟩

end

mutual

theorem Item.references_eq_nil : ∀ {depth : Nat} {cs : List Char} {item : Node},
    Item enabled depth cs item → .reference ∉ enabled → item.references = []
  | _, _, _, .word kind word => fun _ => rfl
  | _, _, _, .wildcard kind words counts => fun _ => rfl
  | _, _, _, .reference kind table name => fun disabled => absurd kind disabled
  | _, _, _, .memo kind target item => by
    intro disabled
    rw [Node.references]
    exact item.references_eq_nil disabled
  | _, _, _, .choice bracket kind closing inner => by
    intro disabled
    rw [Node.references]
    exact referencesInAlternatives_eq_nil (inner.references_eq_nil disabled)

theorem Items.references_eq_nil : ∀ {depth : Nat} {cs : List Char} {items : List Node},
    Items enabled depth cs items → .reference ∉ enabled → ∀ item ∈ items, item.references = []
  | _, _, _, .first front head => by
    intro disabled
    rw [List.forall_mem_singleton]
    exact head.references_eq_nil disabled
  | _, _, _, .next before between apart last => by
    intro disabled
    rw [List.forall_mem_append, List.forall_mem_singleton]
    exact ⟨before.references_eq_nil disabled, last.references_eq_nil disabled⟩

theorem Derives.references_eq_nil : ∀ {depth : Nat} {cs : List Char} {tree : Sequence},
    Derives enabled depth cs tree → .reference ∉ enabled → Sequence.references tree = []
  | _, _, _, .mk inner _ => by
    intro disabled
    exact Sequence.references_ofItems (inner.references_eq_nil disabled)

theorem Alternatives.references_eq_nil : ∀ {depth : Nat} {cs : List Char}
    {alternatives : List Sequence}, Alternatives enabled depth cs alternatives →
      .reference ∉ enabled → ∀ alternative ∈ alternatives, Sequence.references alternative = []
  | _, _, _, .first head => by
    intro disabled
    rw [List.forall_mem_singleton]
    exact head.references_eq_nil disabled
  | _, _, _, .next before bar last => by
    intro disabled
    rw [List.forall_mem_append, List.forall_mem_singleton]
    exact ⟨before.references_eq_nil disabled, last.references_eq_nil disabled⟩

end

end Grammar

/-! ## What was read -/

theorem shaped_of_parse? {enabled : TokenSet} {text : String} {tree : Sequence}
    (h : parse? enabled text = .ok tree) : Sequence.Shaped tree :=
  (derives_of_parse? h).shaped

theorem references_of_parse? {enabled : TokenSet} (disabled : .reference ∉ enabled) {text : String}
    {tree : Sequence} (h : parse? enabled text = .ok tree) : Sequence.references tree = [] :=
  (derives_of_parse? h).references_eq_nil disabled

variable [SizeLimit]

/-- A pattern that was read is the empty one, or has the tree of its text: it is compiled with the
variables that were known, or deferred with the alternates among them. -/
theorem read?_eq_ok {enabled : TokenSet} {raw : String} {b : Bindings} {p : Pattern}
    (h : Pattern.read? enabled raw b = .ok p) :
    p = .anything ∨ ∃ tree, parse? enabled raw = .ok tree ∧
      ((∃ r, p = .ready raw tree r ∧ tree.compile b = .ok r) ∨
        p = .deferred raw tree b.alternates) := by
  unfold Pattern.read? at h
  split at h
  · exact .inl (Except.ok.inj h).symm
  · obtain ⟨tree, hread, h⟩ := Except.bind_eq_ok_iff.mp h
    refine .inr ⟨tree, hread, ?_⟩
    split at h
    · rename_i r hcompile
      exact .inl ⟨r, (Except.ok.inj h).symm, hcompile⟩
    · split at h
      · exact .inr (Except.ok.inj h).symm
      · cases h

theorem tree?_of_read? {enabled : TokenSet} {raw : String} {b : Bindings} {p : Pattern}
    (h : Pattern.read? enabled raw b = .ok p) :
    p = .anything ∨ ∃ tree, p.tree? = some tree ∧ parse? enabled raw = .ok tree := by
  rcases read?_eq_ok h with rfl | ⟨tree, hread, ⟨r, rfl, -⟩ | rfl⟩
  · exact .inl rfl
  · exact .inr ⟨tree, rfl, hread⟩
  · exact .inr ⟨tree, rfl, hread⟩

end Repartee.Pattern
