import Repartee.Proofs.Pattern.Regex.Matches
import Repartee.Proofs.Pattern.Shape

/-!
# Flat patterns

A pattern without brackets and variables leaves the matcher no choice but how many words each
wildcard takes. Its parts are literal words, wildcards and memos of wildcards, with white space
between neighbours (`inline_of_parse?`). Its expression has no choice in it, so there is no common
beginning to put in front (`factored_of_hasChoice`), and every memo takes part in every match, once
(`map_fst_of_walk`).
-/

namespace Repartee.Pattern

open Grammar

/-! ## Trees -/

/-- There are no brackets and no variables in the part. -/
def Node.isFlat : Node → Bool
  | .wildcard _ | .words _ | .space => true
  | .memo node => node.isFlat
  | .reference _ _ | .choice _ _ => false

/-- There are no brackets and no variables in the sequence. -/
def Sequence.isFlat (nodes : Sequence) : Bool :=
  nodes.all Node.isFlat

namespace Sequence

theorem isFlat_consItem (first : Node) (nodes : Sequence) :
    isFlat (consItem first nodes) = (first.isFlat && isFlat nodes) := by
  unfold consItem
  split <;> simp [isFlat, Node.isFlat]

theorem isFlat_ofItems (items : List Node) : isFlat (ofItems items) = items.all Node.isFlat := by
  induction items with
  | nil => rfl
  | cons first items ih => rw [ofItems, isFlat_consItem, ih, List.all_cons]

end Sequence

/-- A part of a flat pattern other than white space. -/
inductive Node.Inline : Node → Prop
  | words {us} (shaped : (Node.words us).Shaped) : Node.Inline (.words us)
  | wildcard (w : Wildcard) : Node.Inline (.wildcard w)
  | memo (w : Wildcard) : Node.Inline (.memo (.wildcard w))

/-- Parts of a flat pattern with white space between neighbours. -/
abbrev Sequence.Inline : Sequence → Prop :=
  Sequence.Separated Node.Inline

/-- Without brackets and variables, there is nothing but a wildcard to put a marker before. -/
theorem Grammar.Item.inline {enabled : TokenSet} {depth : Nat} {cs : List Char} {item : Node}
    (h : Item enabled depth cs item) (flat : item.isFlat = true) : item.Inline := by
  cases h with
  | word kind word => exact .words (Item.word kind word : Item enabled depth cs _).shaped
  | wildcard => exact .wildcard _
  | reference => cases flat
  | choice => cases flat
  | @memo depth cs node kind target item =>
    cases node with
    | wildcard w => exact .memo w
    | reference => cases flat
    | choice => cases flat
    | _ => cases target

theorem Node.Inline.words_append {us vs : List String} (h : (Node.words us).Inline)
    (h' : (Node.words vs).Inline) : (Node.words (us ++ vs)).Inline := by
  cases h with
  | words shaped =>
    cases h' with
    | words shaped' => exact .words (shaped.words_append shaped')

theorem inline_of_parse? {enabled : TokenSet} {text : String} {tree : Sequence}
    (h : parse? enabled text = .ok tree) (flat : Sequence.isFlat tree = true) :
    Sequence.Inline tree := by
  have hderives := derives_of_parse? h
  generalize (Text.lower text).toList = cs at hderives
  cases hderives with
  | mk inner back =>
    rw [Sequence.isFlat_ofItems, List.all_eq_true] at flat
    refine Sequence.separated_ofItems Node.Inline.words_append inner.ne_nil fun item hitem => ?_
    obtain ⟨ds, hderives⟩ := inner.exists_item item hitem
    exact hderives.inline (flat item hitem)

theorem Node.Inline.shaped {node : Node} (h : node.Inline) : node.Shaped := by
  cases h with
  | words shaped => exact shaped
  | wildcard w => exact .wildcard w
  | memo w => exact .memo (.wildcard w)

theorem Sequence.Inline.shaped {nodes : Sequence} (h : Sequence.Inline nodes) :
    Sequence.Shaped nodes := by
  induction h with
  | last head => exact .last head.shaped
  | next head tail ih => exact .next head.shaped ih

theorem Sequence.Inline.references_eq_nil {nodes : Sequence} (h : Sequence.Inline nodes) :
    Sequence.references nodes = [] := by
  induction h with
  | last head => cases head <;> rfl
  | next head tail ih => cases head <;> exact ih

/-! ## Expressions -/

namespace Regex

/-- There is a choice among alternatives in the expression, one of which may be nothing. -/
def hasChoice : Regex → Bool
  | empty | literal _ | boundary | blank | words _ _ _ => false
  | alt _ _ | optional _ => true
  | seq first second => first.hasChoice || second.hasChoice
  | group inner | capture _ inner => inner.hasChoice

theorem alternatives_of_hasChoice {r : Regex} (h : r.hasChoice = false) : r.alternatives = [r] := by
  induction r with
  | alt | optional => cases h
  | seq first second ihFirst ihSecond =>
    obtain ⟨hfirst, hsecond⟩ := Bool.or_eq_false_iff.mp h
    rw [alternatives, ihFirst hfirst, ihSecond hsecond, sharedChoice, sharedChoice]
  | group inner ih => rw [alternatives, ih h, sharedChoice]
  | capture index inner ih => rw [alternatives, ih h, sharedChoice]
  | _ => rfl

/-- Where there are no alternatives, nothing is put in front of them. -/
theorem factored_of_hasChoice {r : Regex} (h : r.hasChoice = false) : r.factored = r := by
  rw [factored, alternatives_of_hasChoice h, sharedChoice]

/-- Every group is passed through once. -/
theorem map_fst_of_walk {text : Array Char} {r : Regex} (h : r.hasChoice = false) {goal : Places}
    {i j : Nat} {marks : List Mark} (hwalk : walk text r goal i = some (j, marks)) :
    marks.map Prod.fst = r.captureIndices := by
  induction r generalizing goal i j marks with
  | alt | optional => cases h
  | empty | literal | boundary | blank | words =>
    rw [eq_nil_of_walk rfl hwalk]
    rfl
  | seq first second ihFirst ihSecond =>
    obtain ⟨hfirst, hsecond⟩ := Bool.or_eq_false_iff.mp h
    obtain ⟨k, before, after, hone, htwo, rfl⟩ := walk_seq_eq_some.mp hwalk
    rw [List.map_append, ihFirst hfirst hone, ihSecond hsecond htwo, captureIndices]
  | group inner ih => exact ih h hwalk
  | capture index inner ih =>
    obtain ⟨inside, hinner, rfl⟩ := walk_capture_eq_some.mp hwalk
    rw [List.map_cons, ih h hinner, captureIndices]

end Regex

theorem Node.Inline.hasChoice_regex {node : Node} (h : node.Inline) {resolve : Resolver}
    {first : Nat} {r : Regex} (hr : node.regex resolve first = .ok r) : r.hasChoice = false := by
  cases h <;> cases hr <;> rfl

theorem Sequence.Inline.hasChoice_regex {nodes : Sequence} (h : Sequence.Inline nodes)
    {resolve : Resolver} {first : Nat} {r : Regex}
    (hr : Sequence.regex resolve first nodes = .ok r) : r.hasChoice = false := by
  induction h generalizing first r with
  | last head =>
    obtain ⟨one, hone, rfl⟩ := Sequence.regex_last.mp hr
    exact Bool.or_eq_false_iff.mpr ⟨head.hasChoice_regex hone, rfl⟩
  | next head tail ih =>
    obtain ⟨one, rest, hone, hrest, rfl⟩ := Sequence.regex_next.mp hr
    have htail := ih hrest
    exact Bool.or_eq_false_iff.mpr ⟨head.hasChoice_regex hone, htail⟩

/-! ## Captures -/

/-- Marks that are numbered from 0 on are found under their own numbers. -/
theorem find?_of_numbered {marks : List Regex.Mark} {n : Nat}
    (h : marks.map Prod.fst = List.range n) {k : Nat} (hk : k < marks.length) :
    marks.find? (·.1 = k) = some marks[k] := by
  have hnumber : ∀ (l : Nat) (hl : l < marks.length), marks[l].1 = l := by
    intro l hl
    have := List.getElem_of_eq h (by rwa [List.length_map] : l < (marks.map _).length)
    rwa [List.getElem_map, List.getElem_range] at this
  rw [List.find?_eq_some_iff_getElem]
  refine ⟨decide_eq_true (hnumber k hk), k, hk, rfl, fun l hl => ?_⟩
  rw [hnumber l (hl.trans hk), Bool.not_eq_true', decide_eq_false_iff_not]
  exact Nat.ne_of_lt hl

/-- Without choices, every memo remembers the place that the way through its group has left. -/
theorem captures_of_hasChoice {r : Regex} (h : r.hasChoice = false) {n : Nat}
    (numbers : r.captureIndices = List.range n) {cs : List Char} {captures : List Pattern.Capture}
    (hcaptures : Pattern.regexCaptures? r cs = some captures) :
    ∃ j marks, Regex.walk cs.toArray r (.tabulate cs.toArray.size (· == cs.toArray.size)) 0 =
        some (j, marks) ∧
      captures = (marks.map (Pattern.markSpan cs)).mapIdx fun index span => ⟨index, some span⟩ := by
  obtain ⟨marks, hmarks, rfl⟩ := Option.map_eq_some_iff.mp hcaptures
  obtain ⟨⟨j, marks⟩, hwalk, rfl⟩ := Option.map_eq_some_iff.mp hmarks
  refine ⟨j, marks, hwalk, ?_⟩
  have hindices := (Regex.map_fst_of_walk h hwalk).trans numbers
  have hlength : marks.length = n := by
    rw [← List.length_map Prod.fst, hindices, List.length_range]
  rw [numbers, ← hlength]
  refine List.ext_getElem (by simp) fun k hk hk' => ?_
  rw [List.getElem_mapIdx, List.getElem_map, List.getElem_range, List.getElem_map,
    find?_of_numbered hindices, Option.map_some]

end Repartee.Pattern
