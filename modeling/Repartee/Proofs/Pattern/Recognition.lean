import Repartee.Proofs.Pattern.Language
import Repartee.Proofs.Pattern.Regex.Factor

/-!
# Patterns match their languages

A pattern matches a normal text exactly if the words of the text belong to the language of its tree
(`isMatch_unwords_iff`). A pattern that is compiled anew for every text needs a value that can be
read for every variable that it refers to, or else it matches nothing; and since a boundary is asked
for behind every value, the text without words is left out for patterns with references.
-/

namespace Repartee.Pattern

open Repartee.Unicode Repartee.Text Regex

/-- An expression that is faithful to a language matches the whole text if its words belong to the
language, and else not. -/
theorem Regex.Faithful.matchWhole?_iff {ws : List String} {r : Regex} {L : Language String}
    (hws : ∀ w ∈ ws, IsNormalWord w) (h : Faithful ws r L) :
    (matchWhole? (textOf ws) r.factored).isSome = true ↔ ws ∈ L := by
  rw [isSome_matchWhole?, matches_factored]
  constructor
  · intro hmatch
    obtain ⟨us, hus, hplace⟩ := h.sound (place_zero ws) hmatch
    rw [List.nil_append] at hplace
    rwa [← eq_of_place_size hws hplace]
  · intro hmem
    by_cases hne : ws = []
    · subst hne
      exact h.complete_nil hmem (place_zero [])
    · exact h.complete hmem hne (show ws = [] ++ ws ++ [] by simp)

/-! ## References -/

/-- The variable has a text that can be read as a simple pattern. -/
def Bindings.Resolves (b : Bindings) (x : VariableKind × String) : Prop :=
  ∃ content tree, b.lookup x.1 x.2 = some (.text content) ∧ parse? .simple content = .ok tree

section Exists

variable {resolve : Resolver}

mutual

theorem Node.exists_regex : ∀ (node : Node) (first : Nat),
    (∀ x ∈ node.references, ∃ r, resolve x.1 x.2 = .ok r) →
      ∃ r, node.regex resolve first = .ok r
  | .wildcard w, first => fun _ => ⟨_, rfl⟩
  | .words us, first => fun _ => ⟨_, rfl⟩
  | .space, first => fun _ => ⟨_, rfl⟩
  | .reference kind name, first => fun h => h (kind, name) List.mem_cons_self
  | .memo node, first => by
    intro h
    obtain ⟨r, hr⟩ := node.exists_regex (first + 1) h
    exact ⟨.capture first r, Node.regex_memo.mpr ⟨r, hr, rfl⟩⟩
  | .choice bracket alternatives, first => by
    intro h
    obtain ⟨r, hr⟩ := alternatives_exist_regex alternatives first h
    exact ⟨bracket.around r, Node.regex_choice.mpr ⟨r, hr, rfl⟩⟩

theorem Sequence.exists_regex : ∀ (nodes : List Node) (first : Nat),
    (∀ x ∈ Sequence.references nodes, ∃ r, resolve x.1 x.2 = .ok r) →
      ∃ r, Sequence.regex resolve first nodes = .ok r
  | [], first => fun _ => ⟨_, rfl⟩
  | node :: nodes, first => by
    intro h
    obtain ⟨r, hr⟩ := node.exists_regex first fun x hx => h x (List.mem_append_left _ hx)
    obtain ⟨s, hs⟩ := Sequence.exists_regex nodes (first + node.memos) fun x hx =>
      h x (List.mem_append_right _ hx)
    exact ⟨.seq r s, Sequence.regex_cons.mpr ⟨r, s, hr, hs, rfl⟩⟩

theorem alternatives_exist_regex : ∀ (alternatives : List (List Node)) (first : Nat),
    (∀ x ∈ referencesInAlternatives alternatives, ∃ r, resolve x.1 x.2 = .ok r) →
      ∃ r, alternativesRegex resolve first alternatives = .ok r
  | [], first => fun _ => ⟨_, rfl⟩
  | [alternative], first => fun h =>
    Sequence.exists_regex alternative first fun x hx => h x (List.mem_append_left _ hx)
  | alternative :: next :: rest, first => by
    intro h
    obtain ⟨r, hr⟩ := Sequence.exists_regex alternative first fun x hx =>
      h x (List.mem_append_left _ hx)
    obtain ⟨s, hs⟩ := alternatives_exist_regex (next :: rest)
      (first + Sequence.memos alternative) fun x hx => h x (List.mem_append_right _ hx)
    exact ⟨.alt r s, (alternativesRegex_cons (List.cons_ne_nil next rest)).mpr
      ⟨r, s, hr, hs, rfl⟩⟩

end

end Exists

theorem references_of_simple {text : String} {tree : Sequence}
    (h : parse? .simple text = .ok tree) : Sequence.references tree = [] :=
  references_of_parse? (by decide) h

theorem Bindings.Resolves.exists_resolve {b : Bindings} {x : VariableKind × String}
    (h : b.Resolves x) : ∃ r, b.resolve x.1 x.2 = .ok r := by
  obtain ⟨content, tree, hlookup, hread⟩ := h
  obtain ⟨r, hr⟩ : ∃ r, Sequence.regex noVariables 0 tree = .ok r := by
    refine Sequence.exists_regex tree 0 ?_
    rw [references_of_simple hread]
    exact fun x hx => absurd hx List.not_mem_nil
  refine ⟨.seq r .boundary, ?_⟩
  unfold Bindings.resolve
  rw [hlookup]
  exact Except.mapError_eq_ok_iff.mpr (Except.bind_eq_ok_iff.mpr
    ⟨tree, hread, Except.bind_eq_ok_iff.mpr ⟨r, hr, rfl⟩⟩)

/-- What a reference is resolved to is the expression of its value with a boundary behind it. -/
theorem exists_value_of_resolve {b : Bindings} {kind : VariableKind} {name : String} {r : Regex}
    (h : b.resolve kind name = .ok r) :
    ∃ content tree s, b.lookup kind name = some (.text content) ∧
      parse? .simple content = .ok tree ∧ Sequence.regex noVariables 0 tree = .ok s ∧
      r = .seq s .boundary := by
  unfold Bindings.resolve at h
  split at h
  · cases h
  · rename_i content hlookup
    obtain ⟨tree, hread, h⟩ := Except.bind_eq_ok_iff.mp (Except.mapError_eq_ok_iff.mp h)
    obtain ⟨s, hs, h⟩ := Except.bind_eq_ok_iff.mp h
    exact ⟨content, tree, s, hlookup, hread, hs, (Except.ok.inj h).symm⟩
  · cases h

/-- The value of a variable stands for what the tree of its text stands for. -/
theorem Bindings.language_eq {b : Bindings} {kind : VariableKind} {name content : String}
    {tree : Sequence} (hlookup : b.lookup kind name = some (.text content))
    (hread : parse? .simple content = .ok tree) :
    b.language kind name = Sequence.language (fun _ _ => 0) tree := by
  ext us
  constructor
  · rintro ⟨content', tree', hlookup', hread', hus⟩
    rw [hlookup] at hlookup'
    cases hlookup'
    rw [hread] at hread'
    cases hread'
    exact hus
  · exact fun hus => ⟨content, tree, hlookup, hread, hus⟩

theorem faithful_resolve {ws : List String} (hws : ∀ w ∈ ws, IsNormalWord w) (hne : ws ≠ [])
    {b : Bindings} {kind : VariableKind} {name : String} {r : Regex}
    (h : b.resolve kind name = .ok r) : Faithful ws r (b.language kind name) := by
  obtain ⟨content, tree, s, hlookup, hread, hs, rfl⟩ := exists_value_of_resolve h
  have hrefs : FaithfulReferences ws noVariables (fun _ _ => 0) (Sequence.references tree) := by
    rw [references_of_simple hread]
    exact fun x hx => absurd hx List.not_mem_nil
  rw [Bindings.language_eq hlookup hread]
  exact ((shaped_of_parse? hread).faithful hws hrefs hs).seq_boundary hws hne

/-! ## Patterns -/

section Patterns

variable [SizeLimit]

/-- The variables with which a pattern is matched that was read with those of `build`: the same, if
it was compiled then, and else the present ones with its own alternates. -/
def bindingsFor (p : Pattern) (build now : Bindings) : Bindings :=
  if p.isDeferred then { now with alternates := build.alternates } else build

theorem Sequence.compile_eq_ok_iff {b : Bindings} {tree : Sequence} {r : Regex} :
    tree.compile b = .ok r ↔
      ∃ s, tree.regexWith b = .ok s ∧ SizeLimit.refuses s = false ∧ r = s.factored := by
  unfold Sequence.compile
  rw [Except.bind_eq_ok_iff]
  refine exists_congr fun s => and_congr_right fun _ => ?_
  cases SizeLimit.refuses s with
  | true => simp
  | false => simp [eq_comm]

theorem Sequence.compile_of_refuses {b : Bindings} {tree : Sequence} {r : Regex}
    (hr : tree.regexWith b = .ok r) (hrefuses : SizeLimit.refuses r = true) :
    tree.compile b = .error .oversized := by
  refine Except.bind_eq_error_iff.mpr (.inr ⟨r, hr, ?_⟩)
  rw [hrefuses]

theorem Sequence.exists_compile {b : Bindings} {tree : Sequence}
    (resolves : ∀ x ∈ Sequence.references tree, b.Resolves x)
    (sized : ∀ r, tree.regexWith b = .ok r → SizeLimit.refuses r = false) :
    ∃ r, tree.compile b = .ok r := by
  obtain ⟨s, hs⟩ := Sequence.exists_regex tree 0 fun x hx => (resolves x hx).exists_resolve
  exact ⟨s.factored, Sequence.compile_eq_ok_iff.mpr ⟨s, hs, sized s hs, rfl⟩⟩

/-- A pattern yields places of memos by means of the expression that its tree is compiled to, unless
it is the empty one. -/
theorem exists_compile_of_captures? {raw : String} {build now : Bindings} {p : Pattern}
    (h : Pattern.ofText? raw build = .ok p) {s : String} {captures : List Pattern.Capture}
    (hcaptures : p.captures? now s = some captures) :
    (p.tree? = none ∧ captures = []) ∨
      ∃ tree r, p.tree? = some tree ∧ parse? .full raw = .ok tree ∧
        tree.compile (bindingsFor p build now) = .ok r ∧
        Pattern.regexCaptures? r s.toList = some captures := by
  rcases read?_eq_ok h with rfl | ⟨tree, hread, ⟨r, rfl, hcompile⟩ | rfl⟩
  · exact .inl ⟨rfl, (Option.some.inj hcaptures).symm⟩
  · exact .inr ⟨tree, r, rfl, hread, hcompile, hcaptures⟩
  · obtain ⟨r, hr, hcaptures⟩ := Option.bind_eq_some_iff.mp hcaptures
    simp only [Pattern.regex?] at hr
    split at hr
    · rename_i hcompile
      cases hr
      exact .inr ⟨tree, _, rfl, hread, hcompile, hcaptures⟩
    · cases hr

theorem matchWhole?_compile_iff {enabled : TokenSet} {text : String} {tree : Sequence}
    (hread : parse? enabled text = .ok tree) {b : Bindings} {r : Regex}
    (hcompile : tree.compile b = .ok r) {ws : List String} (hws : ∀ w ∈ ws, IsNormalWord w)
    (some : ws = [] → Sequence.references tree = []) :
    (matchWhole? (textOf ws) r).isSome = true ↔ ws ∈ Sequence.language b.language tree := by
  obtain ⟨s, hs, -, rfl⟩ := Sequence.compile_eq_ok_iff.mp hcompile
  have hrefs : FaithfulReferences ws b.resolve b.language (Sequence.references tree) := by
    intro x hx r hr
    refine faithful_resolve hws ?_ hr
    intro hne
    rw [some hne] at hx
    cases hx
  exact ((shaped_of_parse? hread).faithful hws hrefs hs).matchWhole?_iff hws

theorem isMatch_of_regex? {p : Pattern} {b : Bindings} {r : Regex} (h : p.regex? b = some r)
    (ws : List String) :
    p.isMatch b (unwords ws) = (matchWhole? (textOf ws) r).isSome := by
  unfold Pattern.isMatch Pattern.captures? regexCaptures?
  cases p with
  | anything => cases h
  | ready raw tree regex => rw [h, Option.bind_some, Option.isSome_map]; rfl
  | deferred raw tree alternates => rw [h, Option.bind_some, Option.isSome_map]; rfl

/-- A pattern matches a normal text exactly if the words of the text belong to the language of its
tree. The empty pattern has no tree and matches every text. -/
theorem isMatch_unwords_iff {raw : String} {build : Bindings} {p : Pattern}
    (h : Pattern.ofText? raw build = .ok p) (now : Bindings)
    (resolves : p.isDeferred = true → ∀ tree ∈ p.tree?, ∀ x ∈ Sequence.references tree,
      (bindingsFor p build now).Resolves x)
    (sized : p.isDeferred = true → ∀ tree ∈ p.tree?, ∀ r,
      Sequence.regexWith (bindingsFor p build now) tree = .ok r → SizeLimit.refuses r = false)
    {ws : List String} (hws : ∀ w ∈ ws, IsNormalWord w)
    (some : ws = [] → ∀ tree ∈ p.tree?, Sequence.references tree = []) :
    p.isMatch now (unwords ws) = true ↔
      ∀ tree ∈ p.tree?, ws ∈ Sequence.language (bindingsFor p build now).language tree := by
  rcases read?_eq_ok h with rfl | ⟨tree, hread, ⟨r, rfl, hcompile⟩ | rfl⟩
  · simp [Pattern.isMatch, Pattern.captures?, Pattern.tree?]
  · have hsome := fun hnil => some hnil tree rfl
    rw [isMatch_of_regex? rfl, matchWhole?_compile_iff hread hcompile hws hsome]
    simp [Pattern.tree?, bindingsFor, Pattern.isDeferred]
  · have hsome := fun hnil => some hnil tree rfl
    obtain ⟨r, hcompile⟩ := Sequence.exists_compile (resolves rfl tree rfl) (sized rfl tree rfl)
    have hregex : (Pattern.deferred raw tree build.alternates).regex? now = .some r := by
      have : tree.compile { now with alternates := build.alternates } = .ok r := hcompile
      simp only [Pattern.regex?, this]
    rw [isMatch_of_regex? hregex, matchWhole?_compile_iff hread hcompile hws hsome]
    simp [Pattern.tree?]

end Patterns

section Example

attribute [local instance] SizeLimit.byWeight

/-- The variable of the user is looked up when the pattern is matched, and its two words are in
front of the one that the wildcard takes. -/
theorem isMatch_unwords_iff_deferred :
    (Pattern.deferred "%u:n #" [.reference .user "n", .space, .wildcard (.clamp .digits 1 none)]
      ∅).isMatch { user := Table.empty.insert "n" (.text "Room No") }
        (unwords ["room", "no", "7"]) = true := by
  have hread : Pattern.ofText? "%u:n #" {} = .ok (.deferred "%u:n #"
      [.reference .user "n", .space, .wildcard (.clamp .digits 1 none)] ∅) := rfl
  refine (isMatch_unwords_iff hread _ ?_ ?_ ?_ (fun hnil => absurd hnil (by decide))).mpr ?_
  · rintro - tree ⟨⟩ x hx
    obtain rfl := List.mem_singleton.mp hx
    exact ⟨"Room No", [.words ["room", "no"]], rfl, rfl⟩
  · rintro - tree ⟨⟩ r hr
    have hregex : Sequence.regexWith { user := Table.empty.insert "n" (.text "Room No") }
        [.reference .user "n", .space, .wildcard (.clamp .digits 1 none)] =
          .ok (.seq (.seq (.seq (.seq (.literal "room no") .boundary) .empty) .boundary)
            (.seq .blank (.seq (.words .digits 1 none) .empty))) := rfl
    obtain rfl := Except.ok.inj (hregex.symm.trans hr)
    exact SizeLimit.builds _ (by decide)
  · intro w hw
    simp only [List.mem_cons, List.not_mem_nil, or_false] at hw
    rcases hw with rfl | rfl | rfl <;> exact ⟨by decide, List.all_eq_true.mp rfl⟩
  · rintro tree ⟨⟩
    have hvalue : ["room", "no"] ∈ Sequence.language (fun _ _ => 0) [.words ["room", "no"]] :=
      Language.mem_mul.mpr ⟨["room", "no"], rfl, [], rfl, rfl⟩
    have hdigits : ["7"] ∈ (Wildcard.clamp .digits 1 none).language := by
      refine ⟨by decide, fun most h => absurd h (Option.not_mem_none most), ?_⟩
      exact List.forall_mem_singleton.mpr (List.all_eq_true.mp rfl)
    exact Language.mem_mul.mpr ⟨["room", "no"], ⟨"Room No", _, rfl, rfl, hvalue⟩, ["7"],
      Language.mem_mul.mpr ⟨[], rfl, ["7"],
        Language.mem_mul.mpr ⟨["7"], hdigits, [], rfl, rfl⟩, rfl⟩, rfl⟩

end Example

end Repartee.Pattern
