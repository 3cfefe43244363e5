import Repartee.Proofs.Pattern.Grammar

/-!
# Sequences of items

`Sequence.ofItems` builds a sequence from its last item to its first one, while a draft is written
from the front. `Sequence.ofItems_append` says that both come to the same: a further item at the end
is put behind white space, and becomes one part with the words before it if it is a word.
-/

namespace Repartee.Pattern

open Grammar

/-- Literal words. -/
def Node.isWords : Node → Bool
  | .words _ => true
  | _ => false

theorem Grammar.Item.ne_space {enabled : TokenSet} {depth : Nat} {cs : List Char} {item : Node}
    (h : Item enabled depth cs item) : item ≠ .space := by
  cases h <;> exact Node.noConfusion

theorem Grammar.Items.exists_item {enabled : TokenSet} {depth : Nat} {cs : List Char}
    {items : List Node} :
    Items enabled depth cs items → ∀ item ∈ items, ∃ ds, Item enabled depth ds item
  | .first _ head => by
    intro item hm
    obtain rfl := List.mem_singleton.mp hm
    exact ⟨_, head⟩
  | .next before _ _ last => by
    intro item hm
    rcases List.mem_append.mp hm with hm | hm
    · exact before.exists_item item hm
    · obtain rfl := List.mem_singleton.mp hm
      exact ⟨_, last⟩

theorem Grammar.Items.ne_space {enabled : TokenSet} {depth : Nat} {cs : List Char}
    {items : List Node} (h : Items enabled depth cs items) : ∀ item ∈ items, item ≠ .space := by
  intro item hm
  obtain ⟨ds, hitem⟩ := h.exists_item item hm
  exact hitem.ne_space

namespace Sequence

theorem consItem_ne_nil (first : Node) (nodes : Sequence) : consItem first nodes ≠ [] := by
  unfold consItem
  split <;> exact List.cons_ne_nil _ _

theorem ofItems_ne_nil {items : List Node} (hne : items ≠ []) : ofItems items ≠ [] := by
  obtain ⟨first, items, rfl⟩ := List.exists_cons_of_ne_nil hne
  exact consItem_ne_nil first _

theorem consItem_apart {first node : Node} (h : (first.isWords && node.isWords) = false)
    (nodes : Sequence) : consItem first (node :: nodes) = first :: .space :: node :: nodes := by
  cases first <;> cases node <;> first
    | rfl
    | cases h

theorem exists_words_of_isWords {node : Node} (h : node.isWords = true) :
    ∃ us, node = .words us := by
  cases node <;> first
    | exact ⟨_, rfl⟩
    | cases h

/-- The sequence with white space and one more item behind it, as a draft takes them in. -/
def snocItem (nodes : Sequence) (item : Node) : Sequence :=
  (pushNode item (pushNode .space nodes.reverse)).reverse

variable {item : Node} (hitem : item ≠ .space)

include hitem

theorem snocItem_nil : snocItem [] item = [item] := by
  cases item with
  | space => exact absurd rfl hitem
  | _ => rfl

theorem snocItem_cons (node : Node) {nodes : Sequence} (hne : nodes ≠ [])
    (hlast : nodes.getLast? ≠ some .space) :
    snocItem (node :: nodes) item = node :: snocItem nodes item := by
  obtain ⟨front, last, rfl⟩ := List.eq_nil_or_concat nodes |>.resolve_left hne
  have hspace : last ≠ .space := by
    rintro rfl
    simp at hlast
  unfold snocItem
  simp only [List.concat_eq_append, List.reverse_cons, List.reverse_append, List.reverse_nil,
    List.nil_append, List.cons_append]
  cases last with
  | space => exact absurd rfl hspace
  | words us =>
    cases item with
    | space => exact absurd rfl hitem
    | _ => simp [pushNode]
  | _ =>
    cases item with
    | space => exact absurd rfl hitem
    | _ => simp [pushNode]

/-- An item in front and an item behind do not meet, unless there is nothing in between. -/
theorem consItem_snocItem (first : Node) (hfirst : first ≠ .space) {nodes : Sequence}
    (hlast : nodes.getLast? ≠ some .space) :
    consItem first (snocItem nodes item) = snocItem (consItem first nodes) item := by
  match nodes with
  | [] =>
    rw [snocItem_nil hitem]
    cases first <;> cases item <;> first
      | exact absurd rfl hfirst
      | exact absurd rfl hitem
      | rfl
  | [node] =>
    cases node with
    | space => exact absurd rfl hlast
    | words us =>
      cases first <;> cases item <;> first
        | exact absurd rfl hfirst
        | exact absurd rfl hitem
        | simp [snocItem, consItem, pushNode]
    | _ =>
      cases first <;> cases item <;> first
        | exact absurd rfl hfirst
        | exact absurd rfl hitem
        | rfl
  | node :: next :: nodes =>
    have hlast' : (next :: nodes).getLast? ≠ some .space := by
      rwa [List.getLast?_cons_cons] at hlast
    have hne : next :: nodes ≠ [] := List.cons_ne_nil _ _
    rw [snocItem_cons hitem node hne hlast']
    have apart : snocItem (first :: .space :: node :: next :: nodes) item =
        first :: .space :: node :: snocItem (next :: nodes) item := by
      rw [snocItem_cons hitem _ (List.cons_ne_nil _ _) (by simpa using hlast'),
        snocItem_cons hitem _ (List.cons_ne_nil _ _) (by simpa using hlast'),
        snocItem_cons hitem node hne hlast']
    cases hmerge : first.isWords && node.isWords with
    | false => rw [consItem_apart hmerge, consItem_apart hmerge, apart]
    | true =>
      obtain ⟨hfirst, hnode⟩ := Bool.and_eq_true_iff.mp hmerge
      obtain ⟨us, rfl⟩ := exists_words_of_isWords hfirst
      obtain ⟨vs, rfl⟩ := exists_words_of_isWords hnode
      exact (snocItem_cons hitem _ hne hlast').symm

omit hitem in
theorem getLast?_consItem (first : Node) (hfirst : first ≠ .space) {nodes : Sequence}
    (hlast : nodes.getLast? ≠ some .space) : (consItem first nodes).getLast? ≠ some .space := by
  match nodes with
  | [] => simpa [consItem] using hfirst
  | node :: nodes =>
    cases hmerge : first.isWords && node.isWords with
    | false =>
      rw [consItem_apart hmerge, List.getLast?_cons_cons, List.getLast?_cons_cons]
      exact hlast
    | true =>
      obtain ⟨hfirst, hnode⟩ := Bool.and_eq_true_iff.mp hmerge
      obtain ⟨us, rfl⟩ := exists_words_of_isWords hfirst
      obtain ⟨vs, rfl⟩ := exists_words_of_isWords hnode
      cases nodes with
      | nil => simp [consItem]
      | cons next nodes => simpa [consItem, List.getLast?_cons_cons] using hlast

omit hitem in
theorem getLast?_ofItems {items : List Node} (h : ∀ item ∈ items, item ≠ .space) :
    (ofItems items).getLast? ≠ some .space := by
  induction items with
  | nil => simp [ofItems]
  | cons first items ih =>
    exact getLast?_consItem first (h first List.mem_cons_self)
      (ih fun item hm => h item (List.mem_cons_of_mem _ hm))

/-- One more item at the end is put behind white space, or becomes one part with the words there. -/
theorem ofItems_append {items : List Node} (h : ∀ item ∈ items, item ≠ .space) :
    ofItems (items ++ [item]) = snocItem (ofItems items) item := by
  induction items with
  | nil => exact (snocItem_nil hitem).symm
  | cons first items ih =>
    have hrest : ∀ item ∈ items, item ≠ .space := fun item hm => h item (List.mem_cons_of_mem _ hm)
    rw [List.cons_append, ofItems, ih hrest,
      consItem_snocItem hitem first (h first List.mem_cons_self) (getLast?_ofItems hrest)]
    rfl

theorem pushNode_ofItems {items : List Node} (h : ∀ item ∈ items, item ≠ .space) :
    pushNode item (pushNode .space (ofItems items).reverse) =
      (ofItems (items ++ [item])).reverse := by
  rw [ofItems_append hitem h, snocItem, List.reverse_reverse]

end Sequence

/-! ## Closing a sequence -/

theorem closeNodes_reverse {nodes : Sequence} (h : nodes.getLast? ≠ some .space) :
    closeNodes nodes.reverse = nodes := by
  cases hr : nodes.reverse with
  | nil => simpa [closeNodes] using hr.symm
  | cons last front =>
    have hlast : last ≠ .space := by
      rintro rfl
      rw [List.getLast?_eq_head?_reverse, hr] at h
      exact h rfl
    have hback : (last :: front).reverse = nodes := by rw [← hr, List.reverse_reverse]
    cases last with
    | space => exact absurd rfl hlast
    | _ => exact hback

theorem closeNodes_pushNode_space {nodes : Sequence} (h : nodes.getLast? ≠ some .space) :
    closeNodes (pushNode .space nodes.reverse) = nodes := by
  cases hr : nodes.reverse with
  | nil => simpa [pushNode, closeNodes] using hr.symm
  | cons last front =>
    have hlast : last ≠ .space := by
      rintro rfl
      rw [List.getLast?_eq_head?_reverse, hr] at h
      exact h rfl
    have hback : (last :: front).reverse = nodes := by rw [← hr, List.reverse_reverse]
    cases last with
    | space => exact absurd rfl hlast
    | _ => exact hback

end Repartee.Pattern
