import Repartee.Proofs.Except
import Repartee.Proofs.Pattern.Dependence
import Repartee.Proofs.Pattern.Recognition
import Repartee.Proofs.Table
import Repartee.Rule

/-!
# What a match remembers

The memos of a pattern are numbered from left to right, and this is how the places are numbered that
its regular expression remembers (`Sequence.captureIndices_regex`): the value of a variable has no
memos of its own. So a text that matches has a place for every memo (`captures?_indices`), and what
a rule remembers of a message are entries under the keys of its memos and no others
(`Rule.contains_of_matchNormal?`).
-/

namespace Repartee

namespace Pattern

open Grammar

/-! ## Trees without memos -/

namespace Sequence

theorem memos_consItem (first : Node) (nodes : Sequence) :
    memos (consItem first nodes) = first.memos + memos nodes := by
  unfold consItem
  split
  · rfl
  · simp [memos, Node.memos]
  · simp [memos, Node.memos]

theorem memos_ofItems {items : List Node} (h : ∀ item ∈ items, item.memos = 0) :
    memos (ofItems items) = 0 := by
  induction items with
  | nil => rfl
  | cons first items ih =>
    obtain ⟨hfirst, hrest⟩ := List.forall_mem_cons.mp h
    rw [ofItems, memos_consItem, hfirst, ih hrest]

end Sequence

theorem memosInAlternatives_eq_zero {alternatives : List Sequence}
    (h : ∀ alternative ∈ alternatives, Sequence.memos alternative = 0) :
    memosInAlternatives alternatives = 0 := by
  induction alternatives with
  | nil => rfl
  | cons alternative rest ih =>
    obtain ⟨hfirst, hrest⟩ := List.forall_mem_cons.mp h
    rw [memosInAlternatives, hfirst, ih hrest]

namespace Grammar

variable {enabled : TokenSet}

mutual

theorem Item.memos_eq_zero : ∀ {depth : Nat} {cs : List Char} {item : Node},
    Item enabled depth cs item → .memo ∉ enabled → item.memos = 0
  | _, _, _, .word kind word => fun _ => rfl
  | _, _, _, .wildcard kind words counts => fun _ => rfl
  | _, _, _, .reference kind table name => fun _ => rfl
  | _, _, _, .memo kind target item => fun disabled => absurd kind disabled
  | _, _, _, .choice bracket kind closing inner => by
    intro disabled
    rw [Node.memos]
    exact memosInAlternatives_eq_zero (inner.memos_eq_zero disabled)

theorem Items.memos_eq_zero : ∀ {depth : Nat} {cs : List Char} {items : List Node},
    Items enabled depth cs items → .memo ∉ enabled → ∀ item ∈ items, item.memos = 0
  | _, _, _, .first front head => by
    intro disabled
    rw [List.forall_mem_singleton]
    exact head.memos_eq_zero disabled
  | _, _, _, .next before between apart last => by
    intro disabled
    rw [List.forall_mem_append, List.forall_mem_singleton]
    exact ⟨before.memos_eq_zero disabled, last.memos_eq_zero disabled⟩

theorem Derives.memos_eq_zero : ∀ {depth : Nat} {cs : List Char} {tree : Sequence},
    Derives enabled depth cs tree → .memo ∉ enabled → Sequence.memos tree = 0
  | _, _, _, .mk inner _ => by
    intro disabled
    exact Sequence.memos_ofItems (inner.memos_eq_zero disabled)

theorem Alternatives.memos_eq_zero : ∀ {depth : Nat} {cs : List Char}
    {alternatives : List Sequence}, Alternatives enabled depth cs alternatives →
      .memo ∉ enabled → ∀ alternative ∈ alternatives, Sequence.memos alternative = 0
  | _, _, _, .first head => by
    intro disabled
    rw [List.forall_mem_singleton]
    exact head.memos_eq_zero disabled
  | _, _, _, .next before bar last => by
    intro disabled
    rw [List.forall_mem_append, List.forall_mem_singleton]
    exact ⟨before.memos_eq_zero disabled, last.memos_eq_zero disabled⟩

end

end Grammar

theorem memos_of_parse?_simple {text : String} {tree : Sequence}
    (h : parse? .simple text = .ok tree) : Sequence.memos tree = 0 :=
  (derives_of_parse? h).memos_eq_zero (by decide)

/-! ## The numbers of the places -/

section Indices

variable {resolve : Resolver}

mutual

theorem Node.captureIndices_regex
    (hresolve : ∀ kind name r, resolve kind name = .ok r → r.captureIndices = []) :
    ∀ (node : Node) (first : Nat) (r : Regex), node.regex resolve first = .ok r →
      r.captureIndices = List.range' first node.memos
  | .wildcard w, first, r => fun h => by cases h; rfl
  | .words us, first, r => fun h => by cases h; rfl
  | .space, first, r => fun h => by cases h; rfl
  | .reference kind name, first, r => fun h => hresolve kind name r h
  | .memo node, first, r => by
    intro h
    obtain ⟨inner, hinner, rfl⟩ := Node.regex_memo.mp h
    rw [Regex.captureIndices, node.captureIndices_regex hresolve (first + 1) inner hinner,
      Node.memos, Nat.add_comm 1, List.range'_succ]
  | .choice bracket alternatives, first, r => by
    intro h
    obtain ⟨inner, hinner, rfl⟩ := Node.regex_choice.mp h
    rw [Node.memos, ← captureIndices_alternativesRegex hresolve alternatives first inner hinner]
    cases bracket <;> rfl

theorem Sequence.captureIndices_regex
    (hresolve : ∀ kind name r, resolve kind name = .ok r → r.captureIndices = []) :
    ∀ (nodes : List Node) (first : Nat) (r : Regex), Sequence.regex resolve first nodes = .ok r →
      r.captureIndices = List.range' first (Sequence.memos nodes)
  | [], first, r => fun h => by cases h; rfl
  | node :: nodes, first, r => by
    intro h
    obtain ⟨one, others, hone, hothers, rfl⟩ := Sequence.regex_cons.mp h
    rw [Regex.captureIndices, node.captureIndices_regex hresolve first one hone,
      Sequence.captureIndices_regex hresolve nodes (first + node.memos) others hothers,
      Sequence.memos, List.range'_append_1]

theorem captureIndices_alternativesRegex
    (hresolve : ∀ kind name r, resolve kind name = .ok r → r.captureIndices = []) :
    ∀ (alternatives : List (List Node)) (first : Nat) (r : Regex),
      alternativesRegex resolve first alternatives = .ok r →
        r.captureIndices = List.range' first (memosInAlternatives alternatives)
  | [], first, r => fun h => by cases h; rfl
  | [alternative], first, r =>
    Sequence.captureIndices_regex hresolve alternative first r
  | alternative :: next :: rest, first, r => by
    intro h
    obtain ⟨one, others, hone, hothers, rfl⟩ :=
      (alternativesRegex_cons (List.cons_ne_nil next rest)).mp h
    rw [Regex.captureIndices, Sequence.captureIndices_regex hresolve alternative first one hone,
      captureIndices_alternativesRegex hresolve (next :: rest) (first + Sequence.memos alternative)
        others hothers, List.range'_append_1]
    rfl

end

/-- The value of a variable has no memos. -/
theorem captureIndices_resolve (b : Bindings) (kind : VariableKind) (name : String) (r : Regex)
    (h : b.resolve kind name = .ok r) : r.captureIndices = [] := by
  obtain ⟨content, tree, inner, -, hread, hinner, rfl⟩ := exists_value_of_resolve h
  have hnone := Sequence.captureIndices_regex (fun kind name r h => by cases h) tree 0 inner hinner
  rw [Regex.captureIndices, hnone, memos_of_parse?_simple hread]
  rfl

theorem Sequence.captureIndices_compile [SizeLimit] {b : Bindings} {tree : Sequence} {r : Regex}
    (h : tree.compile b = .ok r) : r.captureIndices = List.range (Sequence.memos tree) := by
  obtain ⟨inner, hinner, h⟩ := Except.bind_eq_ok_iff.mp h
  split at h
  · cases h
  · cases h
    rw [Regex.captureIndices_factored,
      Sequence.captureIndices_regex (captureIndices_resolve b) tree 0 inner hinner,
      List.range_eq_range']

end Indices

/-! ## Patterns -/

/-- How many memos there are in the pattern. -/
def memos (p : Pattern) : Nat :=
  (p.tree?.map Sequence.memos).getD 0

/-- How many memos there are in a text, if it can be read as a pattern. -/
def memosOf (raw : String) : Nat :=
  ((parse? .full raw).toOption.map Sequence.memos).getD 0

theorem memos_of_not_isPresent {p : Pattern} (h : p.isPresent = false) : p.memos = 0 := by
  rw [memos, Option.not_isSome_iff_eq_none.mp (Bool.eq_false_iff.mp h)]
  rfl

theorem regexCaptures?_indices {r : Regex} {cs : List Char} {captures : List Capture}
    (h : regexCaptures? r cs = some captures) : captures.map Capture.index = r.captureIndices := by
  obtain ⟨marks, -, rfl⟩ := Option.map_eq_some_iff.mp h
  rw [List.map_map]
  exact List.map_id _

variable [SizeLimit]

theorem eq_empty_of_ofText? {raw : String} {b : Bindings}
    (h : Pattern.ofText? raw b = .ok .anything) : raw = "" := by
  unfold Pattern.ofText? Pattern.read? at h
  split at h
  · rename_i hempty
    exact String.isEmpty_iff.mp hempty
  · obtain ⟨tree, -, h⟩ := Except.bind_eq_ok_iff.mp h
    split at h
    · cases h
    · split at h <;> cases h

theorem memos_of_ofText? {raw : String} {b : Bindings} {p : Pattern}
    (h : Pattern.ofText? raw b = .ok p) : p.memos = memosOf raw := by
  rcases read?_eq_ok h with rfl | ⟨tree, hread, ⟨r, rfl, -⟩ | rfl⟩
  · rw [eq_empty_of_ofText? h]
    rfl
  · rw [memosOf, hread]
    rfl
  · rw [memosOf, hread]
    rfl

/-- A text that matches has a place for every memo. -/
theorem captures?_indices {raw : String} {b : Bindings} {p : Pattern}
    (h : Pattern.ofText? raw b = .ok p) {now : Bindings} {s : String} {captures : List Capture}
    (hcaptures : p.captures? now s = some captures) :
    captures.map Capture.index = List.range p.memos := by
  rcases exists_compile_of_captures? h hcaptures with
    ⟨hnone, rfl⟩ | ⟨tree, r, htree, -, hcompile, hregex⟩
  · rw [memos, hnone]
    rfl
  · rw [memos, htree]
    exact (regexCaptures?_indices hregex).trans (Sequence.captureIndices_compile hcompile)

end Pattern

/-! ## Rules -/

namespace Match

/-- The keys of the two entries for a memo. -/
def memoKeys (mark : String) (index : Nat) : List String :=
  [mark ++ Pattern.captureName index, mark ++ "raw_" ++ Pattern.captureName index]

theorem contains_addCaptures (mark : String) (t : Target) (m : Match)
    (captures : List Pattern.Capture) (key : String) :
    (addCaptures mark t m captures).contains key = true ↔
      m.contains key = true ∨
        key ∈ (captures.map Pattern.Capture.index).flatMap (memoKeys mark) := by
  unfold addCaptures
  induction captures generalizing m with
  | nil => simp
  | cons c captures ih =>
    rw [List.foldl_cons, ih, Table.contains_insert, Table.contains_insert, List.map_cons,
      List.flatMap_cons, List.mem_append]
    simp only [memoKeys, Pattern.Capture.name, List.mem_cons, List.not_mem_nil, or_false]
    tauto

end Match

/-- The keys of what a rule with so many memos in its two patterns remembers. -/
def Match.keysFor (memos previous : Nat) : List String :=
  (List.range memos).flatMap (memoKeys "") ++ (List.range previous).flatMap (memoKeys replyMark)

/-- The keys of what the rule remembers. -/
def Rule.keys (r : Rule) : List String :=
  Match.keysFor r.pattern.memos r.previous.memos

def RuleDefinition.keys (d : RuleDefinition) : List String :=
  Match.keysFor (Pattern.memosOf d.pattern) (Pattern.memosOf d.previous)

namespace Rule

variable [Pattern.SizeLimit] {name : String} {d : RuleDefinition} {alternates bot : Variables}
  {r : Rule}

theorem patterns_of_compile? (h : Rule.compile? name d alternates bot = .ok r) :
    Pattern.ofText? d.pattern { alternates, bot } = .ok r.pattern ∧
      Pattern.ofText? d.previous { alternates, bot } = .ok r.previous := by
  obtain ⟨pattern, hpattern, h⟩ := Except.bind_eq_ok_iff.mp h
  simp only at h
  split at h
  · cases h
  · obtain ⟨previous, hprevious, h⟩ := Except.bind_eq_ok_iff.mp h
    cases h
    exact ⟨Except.mapError_eq_ok_iff.mp hpattern, Except.mapError_eq_ok_iff.mp hprevious⟩

theorem keys_of_compile? (h : Rule.compile? name d alternates bot = .ok r) : r.keys = d.keys := by
  obtain ⟨hpattern, hprevious⟩ := patterns_of_compile? h
  rw [keys, RuleDefinition.keys, Pattern.memos_of_ofText? hpattern,
    Pattern.memos_of_ofText? hprevious]

/-- What a rule remembers are the places in the message, and those in the last reply if the rule has
a pattern for it. -/
theorem exists_captures_of_matchNormal? {message : Target} {normalized : String}
    {replies : List Target} {b : Pattern.Bindings} {found : Match}
    (h : r.matchNormal? message normalized replies b = some found) :
    ∃ captures, r.pattern.captures? b normalized = some captures ∧
      (r.previous.isPresent = false ∧ found = Match.addCaptures "" message ∅ captures ∨
        ∃ last ∈ replies.head?, ∃ captures',
          r.previous.captures? b last.normalized = some captures' ∧
          found = Match.addCaptures Match.replyMark last
            (Match.addCaptures "" message ∅ captures) captures') := by
  obtain ⟨captures, hcaptures, h⟩ := Option.bind_eq_some_iff.mp h
  refine ⟨captures, hcaptures, ?_⟩
  simp only at h
  split at h
  · obtain ⟨last, hlast, h⟩ := Option.bind_eq_some_iff.mp h
    obtain ⟨captures', hcaptures', h⟩ := Option.bind_eq_some_iff.mp h
    exact .inr ⟨last, hlast, captures', hcaptures', (Option.some.inj h).symm⟩
  · rename_i habsent
    exact .inl ⟨Bool.eq_false_iff.mpr habsent, (Option.some.inj h).symm⟩

/-- What a rule remembers are entries under its keys and no others. -/
theorem contains_of_matchNormal? (h : Rule.compile? name d alternates bot = .ok r)
    {message : Target} {normalized : String} {replies : List Target} {b : Pattern.Bindings}
    {found : Match} (hfound : r.matchNormal? message normalized replies b = some found)
    {key : String} : found.contains key = true ↔ key ∈ r.keys := by
  obtain ⟨hpattern, hprevious⟩ := patterns_of_compile? h
  have hnone : ¬(∅ : Match).contains key = true := fun h => by cases h
  obtain ⟨captures, hcaptures, ⟨habsent, rfl⟩ | ⟨last, -, captures', hcaptures', rfl⟩⟩ :=
    exists_captures_of_matchNormal? hfound
  · rw [Match.contains_addCaptures, Pattern.captures?_indices hpattern hcaptures, keys,
      Match.keysFor, Pattern.memos_of_not_isPresent habsent, List.range_zero, List.flatMap_nil,
      List.append_nil, or_iff_right hnone]
  · rw [Match.contains_addCaptures, Match.contains_addCaptures,
      Pattern.captures?_indices hpattern hcaptures,
      Pattern.captures?_indices hprevious hcaptures', keys, Match.keysFor, List.mem_append,
      or_iff_right hnone]

end Rule

end Repartee
