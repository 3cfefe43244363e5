import Repartee.Proofs.Pattern.Shape
import Repartee.Proofs.Text.Lower

/-!
# The canonical text of a tree

A tree that was read from a text is read again from its canonical text, under the same set of
tokens. The canonical text of a sequence is that of its items with single spaces between them
(`canonical_ofItems`), which makes it derive the same items (`Grammar.Items.canonical`), and it is
in lowercase already, since it is made of the characters of the original and of a few settled ones
(`Grammar.Derives.settled_canonical`).

So a canonical text stands for one tree only, and patterns can be compared by it.
-/

namespace Repartee.Pattern

open Repartee.Unicode Repartee.Text Grammar

/-! ## Canonical texts of sequences -/

/-- Literal words are one word at least. -/
def Node.isFilled : Node → Bool
  | .words us => !us.isEmpty
  | _ => true

namespace Sequence

theorem canonical_cons (node : Node) (nodes : Sequence) :
    canonical (node :: nodes) = node.canonical ++ canonical nodes := by
  rw [canonical]

theorem canonical_singleton (node : Node) : canonical [node] = node.canonical := by
  rw [canonical_cons, canonical, String.append_empty]

theorem canonical_consItem {first node : Node} (hfirst : first.isFilled = true)
    (hnode : node.isFilled = true) (nodes : Sequence) :
    canonical (consItem first (node :: nodes)) =
      first.canonical ++ " " ++ canonical (node :: nodes) := by
  cases hmerge : first.isWords && node.isWords with
  | false =>
    rw [consItem_apart hmerge, canonical_cons, canonical_cons .space, String.append_assoc]
    rfl
  | true =>
    obtain ⟨hfirst', hnode'⟩ := Bool.and_eq_true_iff.mp hmerge
    obtain ⟨us, rfl⟩ := exists_words_of_isWords hfirst'
    obtain ⟨vs, rfl⟩ := exists_words_of_isWords hnode'
    have hus : us ≠ [] := by simpa [Node.isFilled] using hfirst
    have hvs : vs ≠ [] := by simpa [Node.isFilled] using hnode
    have hmerged : unwords (us ++ vs) = unwords us ++ " " ++ unwords vs :=
      String.intercalate_append_of_ne_nil hus hvs
    rw [consItem, canonical_cons, canonical_cons, Node.canonical, Node.canonical, Node.canonical,
      hmerged]
    simp only [String.append_assoc]

theorem head_consItem {first : Node} (hfirst : first.isFilled = true) (nodes : Sequence) :
    ∃ node rest, consItem first nodes = node :: rest ∧ node.isFilled = true := by
  unfold consItem
  split
  · exact ⟨_, _, rfl, hfirst⟩
  · rename_i us vs nodes
    refine ⟨_, _, rfl, ?_⟩
    have hus : us ≠ [] := by simpa [Node.isFilled] using hfirst
    simp [Node.isFilled, hus]
  · exact ⟨_, _, rfl, hfirst⟩

theorem canonical_ofItems {items : List Node} (h : ∀ item ∈ items, item.isFilled = true) :
    canonical (ofItems items) = unwords (items.map Node.canonical) := by
  induction items with
  | nil => rfl
  | cons first items ih =>
    have hfirst := h first List.mem_cons_self
    have ih := ih fun item hm => h item (List.mem_cons_of_mem _ hm)
    cases items with
    | nil => exact canonical_singleton first
    | cons second items =>
      obtain ⟨node, rest, hrest, hnode⟩ :=
        head_consItem (h second (List.mem_cons_of_mem _ List.mem_cons_self)) (ofItems items)
      have hcons : ofItems (second :: items) = node :: rest := hrest
      rw [ofItems, hcons, canonical_consItem hfirst hnode, ← hcons, ih]
      exact (String.intercalate_cons_cons ..).symm

end Sequence

theorem canonicalAlternatives_eq (alternatives : List Sequence) :
    canonicalAlternatives alternatives =
      String.intercalate "|" (alternatives.map Sequence.canonical) := by
  induction alternatives with
  | nil => rfl
  | cons alternative rest ih =>
    cases rest with
    | nil => rw [canonicalAlternatives]; rfl
    | cons next rest =>
      rw [canonicalAlternatives, ih]
      · exact (String.intercalate_cons_cons ..).symm
      · exact List.cons_ne_nil _ _

namespace Grammar

variable {enabled : TokenSet}

theorem Item.isFilled {depth : Nat} {cs : List Char} {item : Node}
    (h : Item enabled depth cs item) : item.isFilled = true := by
  cases h <;> rfl

theorem Items.isFilled {depth : Nat} {cs : List Char} {items : List Node}
    (h : Items enabled depth cs items) : ∀ item ∈ items, item.isFilled = true := by
  intro item hm
  obtain ⟨ds, hitem⟩ := h.exists_item item hm
  exact hitem.isFilled

theorem blanks_space (h : .space ∈ enabled) : Blanks enabled [' '] := by
  refine ⟨?_, fun _ => h⟩
  intro c hc
  obtain rfl := List.mem_singleton.mp hc
  exact isBlank_space

/-! ## The canonical text derives the tree -/

mutual

theorem Item.canonical : ∀ {depth : Nat} {cs : List Char} {item : Node},
    Item enabled depth cs item → Item enabled depth item.canonical.toList item
  | _, _, _, .word kind word => by
    simp only [Node.canonical, unwords, String.intercalate_singleton, String.toList_ofList]
    exact .word kind word
  | depth, _, _, .wildcard kind words counts => by
    obtain ⟨cs, min, max, hcs, counts', hclamp⟩ :=
      Wildcard.counts_canonical (Wildcard.isWritable_clamp words counts)
    have : Item enabled depth _ _ := Item.wildcard kind words counts'
    rw [Node.canonical, hcs]
    rwa [show Wildcard.clamp words min max = _ from hclamp] at this
  | _, _, _, .reference kind table name => by
    rw [Node.canonical, VariableKind.reference, String.toList_append, String.toList_ofList,
      String.toList_ofList]
    exact .reference kind table name
  | _, _, _, .memo kind target item => by
    rw [Node.canonical, String.toList_append]
    exact .memo kind target item.canonical
  | _, _, _, .choice bracket kind closing inner => by
    rw [Node.canonical, String.toList_append, String.toList_append, String.toList_ofList,
      String.toList_ofList, List.append_assoc]
    exact .choice bracket kind closing inner.canonical

theorem Items.canonical : ∀ {depth : Nat} {cs : List Char} {items : List Node},
    Items enabled depth cs items →
      Items enabled depth (unwords (items.map Node.canonical)).toList items
  | _, _, _, .first _ head => by
    have := Items.first blanks_nil head.canonical
    simpa [unwords] using this
  | _, _, _, .next before between apart last => by
    have := Items.next before.canonical (blanks_space (between.enabled apart))
      (List.cons_ne_nil _ _) last.canonical
    have hne := before.ne_nil
    rw [List.map_append, unwords, String.intercalate_append_of_ne_nil (by simpa) (by simp)]
    simpa [unwords] using this

theorem Derives.canonical : ∀ {depth : Nat} {cs : List Char} {tree : Sequence},
    Derives enabled depth cs tree → Derives enabled depth (Sequence.canonical tree).toList tree
  | _, _, _, .mk inner _ => by
    have := Derives.mk inner.canonical blanks_nil
    rw [Sequence.canonical_ofItems inner.isFilled]
    rwa [List.append_nil] at this

theorem Alternatives.canonical : ∀ {depth : Nat} {cs : List Char} {alternatives : List Sequence},
    Alternatives enabled depth cs alternatives →
      Alternatives enabled depth (canonicalAlternatives alternatives).toList alternatives
  | _, _, _, .first head => by
    rw [canonicalAlternatives]
    exact .first head.canonical
  | _, _, _, .next before bar last => by
    have := Alternatives.next before.canonical bar last.canonical
    have hne := before.ne_nil
    rw [canonicalAlternatives_eq, List.map_append,
      String.intercalate_append_of_ne_nil (by simpa) (by simp), ← canonicalAlternatives_eq]
    simpa using this

end

/-! ## Canonical texts are in lowercase -/

theorem Counts.settled {cs : List Char} {min : Nat} {max : Option Nat} (h : Counts cs min max) :
    Settled cs := by
  have hcount : ∀ {ds n}, Count ds n → Settled ds := fun count c hc =>
    isSettled_of_isDigit (count.digits c hc)
  have htilde : IsSettled '~' := by decide
  cases h with
  | none => exact settled_nil
  | exact count => exact hcount count
  | range => exact settled_cons.mpr ⟨htilde, settled_nil⟩
  | atLeast lower => exact settled_append.mpr ⟨hcount lower, settled_cons.mpr ⟨htilde, settled_nil⟩⟩
  | atMost upper => exact settled_cons.mpr ⟨htilde, hcount upper⟩
  | between lower upper =>
    exact settled_append.mpr ⟨hcount lower, settled_cons.mpr ⟨htilde, hcount upper⟩⟩

mutual

/-- The characters of a canonical text are those of the original, or settled ones. -/
theorem Item.settled_canonical : ∀ {depth : Nat} {cs : List Char} {item : Node},
    Item enabled depth cs item → Settled cs → Settled item.canonical.toList
  | _, _, _, .word kind word => by
    intro hcs
    simpa [Node.canonical, unwords] using hcs
  | _, _, _, .wildcard kind words counts => by
    intro hcs
    obtain ⟨cs, min, max, hcs', counts', -⟩ :=
      Wildcard.counts_canonical (Wildcard.isWritable_clamp words counts)
    rw [Node.canonical, hcs', settled_cons]
    exact ⟨(settled_cons.mp hcs).1, counts'.settled⟩
  | _, _, _, .reference kind table name => by
    intro hcs
    rw [Node.canonical, VariableKind.reference, String.toList_append, String.toList_ofList,
      String.toList_ofList]
    exact hcs
  | _, _, _, .memo kind target item => by
    intro hcs
    obtain ⟨hmark, hcs⟩ := settled_cons.mp hcs
    rw [Node.canonical, String.toList_append, settled_append]
    exact ⟨settled_cons.mpr ⟨hmark, settled_nil⟩, item.settled_canonical hcs⟩
  | _, _, _, .choice bracket kind closing inner => by
    intro hcs
    simp only [settled_cons, settled_append] at hcs
    have := inner.settled_canonical hcs.2.1
    simpa [Node.canonical] using ⟨hcs.1, this, hcs.2.2.1⟩

theorem Items.settled_canonical : ∀ {depth : Nat} {cs : List Char} {items : List Node},
    Items enabled depth cs items → Settled cs →
      Settled (unwords (items.map Node.canonical)).toList
  | _, _, _, .first front head => by
    intro hcs
    have := head.settled_canonical (settled_append.mp hcs).2
    simpa [unwords] using this
  | _, _, _, .next before between apart last => by
    intro hcs
    simp only [settled_append] at hcs
    have hbefore := before.settled_canonical hcs.1.1
    have hlast := last.settled_canonical hcs.2
    have hspace : IsSettled ' ' := by decide
    have hne := before.ne_nil
    rw [List.map_append, unwords, String.intercalate_append_of_ne_nil (by simpa) (by simp)]
    simpa [unwords, hspace, hlast] using hbefore

theorem Derives.settled_canonical : ∀ {depth : Nat} {cs : List Char} {tree : Sequence},
    Derives enabled depth cs tree → Settled cs → Settled (Sequence.canonical tree).toList
  | _, _, _, .mk inner back => by
    intro hcs
    rw [Sequence.canonical_ofItems inner.isFilled]
    exact inner.settled_canonical (settled_append.mp hcs).1

theorem Alternatives.settled_canonical : ∀ {depth : Nat} {cs : List Char}
    {alternatives : List Sequence}, Alternatives enabled depth cs alternatives → Settled cs →
      Settled (canonicalAlternatives alternatives).toList
  | _, _, _, .first head => by
    intro hcs
    rw [canonicalAlternatives]
    exact head.settled_canonical hcs
  | _, _, _, .next before bar last => by
    intro hcs
    simp only [settled_append, settled_cons] at hcs
    have hbefore := before.settled_canonical hcs.1
    have hlast := last.settled_canonical hcs.2.2
    have hne := before.ne_nil
    rw [canonicalAlternatives_eq] at hbefore ⊢
    rw [List.map_append, String.intercalate_append_of_ne_nil (by simpa) (by simp)]
    simpa [hcs.2.1, hlast] using hbefore

end

end Grammar

/-! ## Reading canonical texts -/

/-- A tree that was read from a text is what its canonical text is read as. -/
theorem parse?_canonical {enabled : TokenSet} {text : String} {tree : Sequence}
    (h : parse? enabled text = .ok tree) : parse? enabled (Sequence.canonical tree) = .ok tree := by
  have derives := parse?_eq_ok_iff.mp h
  have settled := derives.settled_canonical (settled_lower text)
  rw [parse?_eq_ok_iff, lower_of_settled settled]
  exact derives.canonical

theorem eq_of_canonical_eq {enabled : TokenSet} {text text' : String} {tree tree' : Sequence}
    (h : parse? enabled text = .ok tree) (h' : parse? enabled text' = .ok tree')
    (hcanonical : Sequence.canonical tree = Sequence.canonical tree') : tree = tree' := by
  have hread := parse?_canonical h
  rw [hcanonical, parse?_canonical h'] at hread
  exact (Except.ok.inj hread).symm

theorem parse?_empty (enabled : TokenSet) : parse? enabled "" = .error .empty :=
  rfl

theorem canonical_ne_empty {enabled : TokenSet} {text : String} {tree : Sequence}
    (h : parse? enabled text = .ok tree) : Sequence.canonical tree ≠ "" := by
  intro hempty
  have hread := parse?_canonical h
  rw [hempty, parse?_empty] at hread
  cases hread

theorem tree?_eq_of_canonical_eq [SizeLimit] {enabled : TokenSet} {raw raw' : String}
    {b b' : Bindings} {p p' : Pattern} (h : Pattern.read? enabled raw b = .ok p)
    (h' : Pattern.read? enabled raw' b' = .ok p') (hcanonical : p.canonical = p'.canonical) :
    p.tree? = p'.tree? := by
  unfold Pattern.canonical at hcanonical
  rcases tree?_of_read? h with rfl | ⟨tree, htree, hread⟩
  · rcases tree?_of_read? h' with rfl | ⟨tree', htree', hread'⟩
    · rfl
    · rw [htree'] at hcanonical
      exact absurd hcanonical.symm (canonical_ne_empty hread')
  · rcases tree?_of_read? h' with rfl | ⟨tree', htree', hread'⟩
    · rw [htree] at hcanonical
      exact absurd hcanonical (canonical_ne_empty hread)
    · rw [htree, htree'] at hcanonical ⊢
      rw [eq_of_canonical_eq hread hread' hcanonical]

/-- The canonical text encodes the tree, whatever the set of tokens: it is read as the same tree
again, so texts with the same canonical text have the same tree, and patterns with the same
canonical text have the same score and the same regular expression under all variables. -/
theorem canonical_faithful [SizeLimit] (enabled : TokenSet) :
    (∀ text tree, parse? enabled text = .ok tree →
      parse? enabled (Sequence.canonical tree) = .ok tree) ∧
    (∀ text text' tree tree', parse? enabled text = .ok tree → parse? enabled text' = .ok tree' →
      Sequence.canonical tree = Sequence.canonical tree' →
      tree = tree' ∧ Sequence.score tree = Sequence.score tree' ∧
        ∀ b, (Sequence.regexWith b tree).map Regex.source =
          (Sequence.regexWith b tree').map Regex.source) ∧
    ∀ raw raw' b b' p p', Pattern.read? enabled raw b = .ok p →
      Pattern.read? enabled raw' b' = .ok p' → p.canonical = p'.canonical →
      p.score = p'.score ∧ ∀ now, p.source? now = p'.source? now := by
  refine ⟨fun text tree => parse?_canonical, ?_, ?_⟩
  · intro text text' tree tree' h h' hcanonical
    obtain rfl := eq_of_canonical_eq h h' hcanonical
    exact ⟨rfl, rfl, fun b => rfl⟩
  · intro raw raw' b b' p p' h h' hcanonical
    have htree := tree?_eq_of_canonical_eq h h' hcanonical
    unfold Pattern.score Pattern.source?
    rw [htree]
    exact ⟨rfl, fun now => rfl⟩

section Example

attribute [local instance] SizeLimit.byWeight

/-- A wildcard for no words is one for a single word, and white space is not counted. -/
theorem canonical_faithful_clamped :
    parse? .full (Sequence.canonical [.wildcard (.clamp .any 0 (some 0))]) =
      .ok [.wildcard (.clamp .any 0 (some 0))] ∧
    Sequence.score [.wildcard (.clamp .any 0 (some 0))] =
      Sequence.score [.wildcard (.clamp .any 1 (some 1))] ∧
    (Pattern.read? .full " *0" {}).map Pattern.score =
      (Pattern.read? .full "*1 " {}).map Pattern.score := by
  obtain ⟨again, trees, patterns⟩ := canonical_faithful .full
  have h : parse? .full " *0" = .ok [.wildcard (.clamp .any 0 (some 0))] := rfl
  have h' : parse? .full "*1 " = .ok [.wildcard (.clamp .any 1 (some 1))] := rfl
  have hp : Pattern.read? .full " *0" {} =
      .ok (.ready " *0" [.wildcard (.clamp .any 0 (some 0))]
        (.seq (.words .any 1 (some 1)) .empty)) := rfl
  have hp' : Pattern.read? .full "*1 " {} =
      .ok (.ready "*1 " [.wildcard (.clamp .any 1 (some 1))]
        (.seq (.words .any 1 (some 1)) .empty)) := rfl
  refine ⟨again _ _ h, (trees _ _ _ _ h h' rfl).2.1, ?_⟩
  rw [hp, hp']
  exact congrArg Except.ok (patterns _ _ _ _ _ _ hp hp' rfl).1

end Example

end Repartee.Pattern
