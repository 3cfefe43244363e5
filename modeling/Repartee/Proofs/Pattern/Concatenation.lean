import Repartee.Proofs.Pattern.Canonical
import Repartee.Proofs.Text.Layout

/-!
# Patterns one after the other

Two patterns with a space between them are one pattern: it has the items of the first one and then
those of the second one. Its tree is `Sequence.join` of theirs, in which words at the end of the
first meet words at the beginning of the second and become one part with them. White space around
the seam does not count, and the text is lowercased as its halves are, since the space keeps a final
sigma where it is (`lower_append_space`).

So canonical texts are put together as the patterns are, and scores are added up
(`concatenation_homomorphic`).
-/

namespace Repartee.Pattern

open Repartee.Text Grammar

/-! ## Trees one after the other -/

namespace Sequence

/-- The sequence with the parts of another one behind it, as though their items were read one after
the other. -/
def join : Sequence → Sequence → Sequence
  | [], later => later
  | [node], later => consItem node later
  | node :: nodes, later => node :: join nodes later

variable {earlier later : Sequence}

theorem join_cons (node : Node) (hne : earlier ≠ []) :
    join (node :: earlier) later = node :: join earlier later := by
  obtain ⟨next, rest, rfl⟩ := List.exists_cons_of_ne_nil hne
  rfl

theorem consItem_words_words (us vs : List String) (nodes : Sequence) :
    consItem (.words us) (consItem (.words vs) nodes) = consItem (.words (us ++ vs)) nodes := by
  cases nodes with
  | nil => rfl
  | cons node nodes =>
    cases node with
    | words ws => simp [consItem]
    | _ => rfl

/-- Parts that are put behind a part do not change whether an item in front becomes one with it. -/
theorem consItem_consItem_apart {first node : Node} (h : (first.isWords && node.isWords) = false)
    (nodes : Sequence) :
    consItem first (consItem node nodes) = first :: .space :: consItem node nodes := by
  cases nodes with
  | nil => exact consItem_apart h _
  | cons next nodes =>
    cases hmerge : node.isWords && next.isWords with
    | false => rw [consItem_apart hmerge, consItem_apart h]
    | true =>
      obtain ⟨hnode, hnext⟩ := Bool.and_eq_true_iff.mp hmerge
      obtain ⟨us, rfl⟩ := exists_words_of_isWords hnode
      obtain ⟨vs, rfl⟩ := exists_words_of_isWords hnext
      exact @consItem_apart first (.words (us ++ vs)) h nodes

theorem join_consItem (first : Node) (hne : earlier ≠ []) :
    join (consItem first earlier) later = consItem first (join earlier later) := by
  obtain ⟨node, nodes, rfl⟩ := List.exists_cons_of_ne_nil hne
  cases hmerge : first.isWords && node.isWords with
  | false =>
    rw [consItem_apart hmerge, join_cons _ (List.cons_ne_nil _ _),
      join_cons _ (List.cons_ne_nil _ _)]
    cases nodes with
    | nil => exact (consItem_consItem_apart hmerge later).symm
    | cons next nodes =>
      rw [join_cons _ (List.cons_ne_nil _ _)]
      exact (consItem_apart hmerge _).symm
  | true =>
    obtain ⟨hfirst, hnode⟩ := Bool.and_eq_true_iff.mp hmerge
    obtain ⟨us, rfl⟩ := exists_words_of_isWords hfirst
    obtain ⟨vs, rfl⟩ := exists_words_of_isWords hnode
    cases nodes with
    | nil => exact (consItem_words_words us vs later).symm
    | cons next nodes => rfl

/-- Items one after the other are the parts of their sequences joined. -/
theorem ofItems_append_eq_join (items items' : List Node) :
    ofItems (items ++ items') = join (ofItems items) (ofItems items') := by
  induction items with
  | nil => rfl
  | cons first items ih =>
    cases items with
    | nil => rfl
    | cons second items =>
      have hjoin := @join_consItem _ (ofItems items') first
        (ofItems_ne_nil (List.cons_ne_nil second items))
      rw [← ih] at hjoin
      exact hjoin.symm

/-! ## Scores -/

theorem score_cons (node : Node) (nodes : Sequence) :
    score (node :: nodes) = node.score + score nodes := by
  rw [score]

theorem score_consItem (first : Node) (nodes : Sequence) :
    score (consItem first nodes) = first.score + score nodes := by
  unfold consItem
  split
  · rfl
  · rw [score_cons, score_cons, Node.score, Node.score, Node.score, List.length_append,
      Int.natCast_add, Int.add_mul, Int.add_assoc]
  · rw [score_cons, score_cons, Node.score, Int.zero_add]

/-- The score of sequences that are joined is the sum of theirs. -/
theorem score_join (earlier later : Sequence) :
    score (join earlier later) = score earlier + score later := by
  induction earlier with
  | nil => simp [join, score]
  | cons node nodes ih =>
    cases nodes with
    | nil => simp [join, score_consItem, score]
    | cons next nodes =>
      rw [join_cons node (List.cons_ne_nil next nodes), score_cons, ih, score_cons node,
        Int.add_assoc]

end Sequence

/-! ## Texts one after the other -/

namespace Grammar

variable {enabled : TokenSet} {depth : Nat}

/-- White space behind the first text and in front of the second one goes into the seam. -/
theorem Items.append {cs between : List Char} {items : List Node}
    (before : Items enabled depth cs items) (seam : Blanks enabled between) (apart : between ≠ []) :
    ∀ {ds : List Char} {items' : List Node}, Items enabled depth ds items' →
      Items enabled depth (cs ++ between ++ ds) (items ++ items')
  | _, _, .first front head => by
    have := Items.next before (blanks_append seam front) (by simp [apart]) head
    simpa using this
  | _, _, .next before' between' apart' last => by
    have := Items.next (before.append seam apart before') between' apart' last
    simpa using this

theorem Derives.append {cs ds : List Char} {tree tree' : Sequence}
    (h : Derives enabled depth cs tree) (hspace : .space ∈ enabled)
    (h' : Derives enabled depth ds tree') :
    Derives enabled depth (cs ++ ' ' :: ds) (tree.join tree') := by
  cases h with
  | mk inner back =>
    cases h' with
    | mk inner' back' =>
      have hitems := inner.append (blanks_append back (blanks_space hspace)) (by simp) inner'
      have := Derives.mk hitems back'
      rw [Sequence.ofItems_append_eq_join] at this
      simpa using this

theorem Derives.canonical_join {cs ds : List Char} {tree tree' : Sequence}
    (h : Derives enabled depth cs tree) (h' : Derives enabled depth ds tree') :
    Sequence.canonical (tree.join tree') =
      Sequence.canonical tree ++ " " ++ Sequence.canonical tree' := by
  cases h with
  | mk inner back =>
    cases h' with
    | mk inner' back' =>
      have hitems := List.forall_mem_append.mpr ⟨inner.isFilled, inner'.isFilled⟩
      rw [← Sequence.ofItems_append_eq_join, Sequence.canonical_ofItems hitems,
        Sequence.canonical_ofItems inner.isFilled, Sequence.canonical_ofItems inner'.isFilled,
        List.map_append, unwords_append]
      · simpa using inner.ne_nil
      · simpa using inner'.ne_nil

end Grammar

section Reading

variable {enabled : TokenSet} {p q : String} {tree tree' : Sequence}

theorem parse?_append_space (hspace : .space ∈ enabled) (h : parse? enabled p = .ok tree)
    (h' : parse? enabled q = .ok tree') :
    parse? enabled (p ++ " " ++ q) = .ok (tree.join tree') := by
  have hseam := (derives_of_parse? h).append hspace (derives_of_parse? h')
  rw [parse?_eq_ok_iff, lower_append_space]
  simpa using hseam

theorem parse?_join (h : parse? .full p = .ok tree) (h' : parse? .full q = .ok tree') :
    parse? .full (p ++ " " ++ q) = .ok (tree.join tree') ∧
      Sequence.canonical (tree.join tree') =
        Sequence.canonical tree ++ " " ++ Sequence.canonical tree' ∧
      Sequence.score (tree.join tree') = Sequence.score tree + Sequence.score tree' :=
  ⟨parse?_append_space (by decide) h h',
    (derives_of_parse? h).canonical_join (derives_of_parse? h'), Sequence.score_join tree tree'⟩

/-- A text that is a word in lowercase is read as that word. -/
theorem parse?_word {word : String} (hkind : .word ∈ enabled) (hword : Word (lower word).toList) :
    parse? enabled word = .ok [.words [lower word]] := by
  have : Derives enabled maxNesting _ _ := .mk (.first blanks_nil (.word hkind hword)) blanks_nil
  rw [parse?_eq_ok_iff]
  simpa [Sequence.ofItems, Sequence.consItem] using this

end Reading

/-- A space puts patterns together: what is read is the one tree joined with the other, the
canonical text has a space in the same place, and the score is the sum of the two. So another
literal word at the end adds what a word counts, whatever it is behind. -/
theorem concatenation_homomorphic :
    (∀ p q tree tree', parse? .full p = .ok tree → parse? .full q = .ok tree' →
      parse? .full (p ++ " " ++ q) = .ok (tree.join tree') ∧
        Sequence.canonical (tree.join tree') =
          Sequence.canonical tree ++ " " ++ Sequence.canonical tree' ∧
        Sequence.score (tree.join tree') = Sequence.score tree + Sequence.score tree') ∧
    ∀ p word tree, parse? .full p = .ok tree → Word (lower word).toList →
      ∃ longer, parse? .full (p ++ " " ++ word) = .ok longer ∧
        Sequence.canonical longer = Sequence.canonical tree ++ " " ++ lower word ∧
        Sequence.score longer = Sequence.score tree + 10 := by
  refine ⟨fun p q tree tree' => parse?_join, fun p word tree h hword => ?_⟩
  obtain ⟨hread, hcanonical, hscore⟩ := parse?_join h (parse?_word (by decide) hword)
  refine ⟨_, hread, ?_, hscore⟩
  rw [hcanonical, Sequence.canonical_singleton, Node.canonical, unwords,
    String.intercalate_singleton]

/-- The sigma at the end of the first text stays a final one, white space on both sides of the seam
is one space, and three words become one part. -/
theorem concatenation_homomorphic_sigma :
    parse? .full "* ΛΟΓΟΣ   ΤΗΣ ΖΩΗΣ" = .ok [.wildcard (.clamp .any 1 none), .space,
      .words ["λογος", "της", "ζωης"]] ∧
    Sequence.score [.wildcard (.clamp .any 1 none), .space, .words ["λογος", "της", "ζωης"]] =
      Sequence.score [.wildcard (.clamp .any 1 none), .space, .words ["λογος"]] +
        Sequence.score [.words ["της", "ζωης"]] ∧
    ∃ longer, parse? .full "* ΛΟΓΟΣ  Α-Ω" = .ok longer ∧ Sequence.score longer = 18 := by
  obtain ⟨joined, appended⟩ := concatenation_homomorphic
  have h : parse? .full "* ΛΟΓΟΣ " = .ok [.wildcard (.clamp .any 1 none), .space,
      .words ["λογος"]] := by rfl
  have h' : parse? .full " ΤΗΣ ΖΩΗΣ" = .ok [.words ["της", "ζωης"]] := by rfl
  have hlower : (lower "Α-Ω").toList = ['α', '-', 'ω'] := by rfl
  have hword : Word (lower "Α-Ω").toList := by
    rw [hlower]
    refine .mk (by decide) (by decide) (List.forall_mem_cons.mpr ⟨.inr rfl, ?_⟩)
    exact List.forall_mem_singleton.mpr (.inl (by decide))
  obtain ⟨hread, -, hscore⟩ := joined _ _ _ _ h h'
  obtain ⟨longer, hlonger, -, hplus⟩ := appended _ "Α-Ω" _ h hword
  exact ⟨hread, hscore, longer, hlonger, hplus⟩

end Repartee.Pattern
