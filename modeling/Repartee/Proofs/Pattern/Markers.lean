import Repartee.Proofs.Pattern.Deferral
import Repartee.Proofs.Pattern.Targets

/-!
# Memo markers in the canonical text

The memos of a tree are marked in its canonical text, from left to right in the order of their
numbers: right behind each marker stands the part that it was put before (`Derives.marked`). The
proof goes along the grammar, and needs of every piece of the text that it is cut into the same
tokens wherever something follows that ends a token (`Marked.cut`).

So the groups of a compiled pattern are those of the markers in the canonical text, one each, in
this order (`numbersMarkers_of_regex?`).
-/

namespace Repartee.Pattern

open Repartee.Unicode Repartee.Text Grammar

/-! ## Markers among tokens -/

/-- What stands behind each of the memo markers. -/
def behindMarkers : List Token → List (List Token)
  | [] => []
  | t :: ts => if t.kind = .memo then ts :: behindMarkers ts else behindMarkers ts

theorem behindMarkers_append (ts us : List Token) :
    behindMarkers (ts ++ us) = (behindMarkers ts).map (· ++ us) ++ behindMarkers us := by
  induction ts with
  | nil => rfl
  | cons t ts ih =>
    rw [List.cons_append, behindMarkers, behindMarkers, ih]
    split <;> rfl

variable {enabled : TokenSet}

/-- The first tokens are those of the canonical text of the part. -/
def BeginsWith (enabled : TokenSet) (target : Node) (tokens : List Token) : Prop :=
  tokensAfter enabled 0 target.canonical.toList <+: tokens

/-- The text is cut into the same tokens wherever a token may end behind it, and these are the parts
behind its memo markers. -/
structure Marked (enabled : TokenSet) (cs : List Char) (targets : List Node) : Prop where
  cut : ∀ rest, atDelimiter rest = true →
    tokensAfter enabled 0 (cs ++ rest) = tokensAfter enabled 0 cs ++ tokensAfter enabled 0 rest
  markers : List.Forall₂ (BeginsWith enabled) targets (behindMarkers (tokensAfter enabled 0 cs))

theorem marked_nil : Marked enabled [] [] :=
  ⟨fun _ _ => rfl, .nil⟩

/-- Markers with something more behind them. -/
theorem forall₂_beginsWith_append {targets : List Node} {tokens : List (List Token)}
    (h : List.Forall₂ (BeginsWith enabled) targets tokens) (us : List Token) :
    List.Forall₂ (BeginsWith enabled) targets (tokens.map (· ++ us)) := by
  rw [List.forall₂_map_right_iff]
  exact h.imp fun _ _ hprefix => hprefix.trans (List.prefix_append _ us)

theorem Marked.append {cs ds : List Char} {targets targets' : List Node}
    (h : Marked enabled cs targets) (h' : Marked enabled ds targets')
    (apart : ∀ rest, atDelimiter (ds ++ rest) = true) :
    Marked enabled (cs ++ ds) (targets ++ targets') := by
  have hcs : tokensAfter enabled 0 (cs ++ ds) =
      tokensAfter enabled 0 cs ++ tokensAfter enabled 0 ds :=
    h.cut ds (by simpa using apart [])
  refine ⟨fun rest hrest => ?_, ?_⟩
  · rw [List.append_assoc, h.cut _ (apart rest), h'.cut rest hrest, hcs, List.append_assoc]
  · rw [hcs, behindMarkers_append]
    exact List.rel_append (forall₂_beginsWith_append h.markers _) h'.markers

section Token

variable {kind : TokenKind} {lexeme cs : List Char} {targets : List Node}
  (front : ∀ rest, atDelimiter rest = true → Lexes enabled kind lexeme (cs ++ rest))

include front

theorem tokens_behind (rest : List Char) (hrest : atDelimiter rest = true) :
    tokensAfter enabled 0 (lexeme ++ cs ++ rest) =
      ⟨kind, String.ofList lexeme⟩ :: tokensAfter enabled 0 (cs ++ rest) := by
  rw [List.append_assoc, tokens_of_lexes (front rest hrest)]

theorem tokens_front : tokensAfter enabled 0 (lexeme ++ cs) =
    ⟨kind, String.ofList lexeme⟩ :: tokensAfter enabled 0 cs := by
  simpa using tokens_behind front [] rfl

theorem cut_front (h : Marked enabled cs targets) (rest : List Char)
    (hrest : atDelimiter rest = true) :
    tokensAfter enabled 0 (lexeme ++ cs ++ rest) =
      tokensAfter enabled 0 (lexeme ++ cs) ++ tokensAfter enabled 0 rest := by
  rw [tokens_behind front rest hrest, h.cut rest hrest, tokens_front front, List.cons_append]

/-- A token that is no marker in front. -/
theorem Marked.token (h : Marked enabled cs targets) (other : kind ≠ .memo) :
    Marked enabled (lexeme ++ cs) targets := by
  refine ⟨cut_front front h, ?_⟩
  rw [tokens_front front, behindMarkers, if_neg other]
  exact h.markers

end Token

/-- A text that is a single token and no marker. -/
theorem marked_single {kind : TokenKind} {cs : List Char}
    (front : ∀ rest, atDelimiter rest = true → Lexes enabled kind cs rest) (other : kind ≠ .memo) :
    Marked enabled cs [] := by
  have h : Marked enabled (cs ++ []) [] := marked_nil.token front other
  rwa [List.append_nil] at h

/-- A marker in front of a part. -/
theorem Marked.marker {target : Node} {targets : List Node}
    (h : Marked enabled target.canonical.toList targets)
    (front : ∀ rest, Lexes enabled .memo ['_'] (target.canonical.toList ++ rest)) :
    Marked enabled (['_'] ++ target.canonical.toList) (target :: targets) := by
  have hfront : ∀ rest, atDelimiter rest = true →
      Lexes enabled .memo ['_'] (target.canonical.toList ++ rest) := fun rest _ => front rest
  refine ⟨cut_front hfront h, ?_⟩
  rw [tokens_front hfront, behindMarkers, if_pos rfl]
  exact .cons (List.prefix_refl _) h.markers

/-! ## Memos of sequences of items -/

namespace Sequence

theorem memoTargets_consItem (first : Node) (nodes : Sequence) :
    memoTargets (consItem first nodes) = first.memoTargets ++ memoTargets nodes := by
  unfold consItem
  split <;> simp [memoTargets, Node.memoTargets]

theorem memoTargets_ofItems (items : List Node) :
    memoTargets (ofItems items) = items.flatMap Node.memoTargets := by
  induction items with
  | nil => rfl
  | cons first items ih => rw [ofItems, memoTargets_consItem, ih, List.flatMap_cons]

end Sequence

theorem memoTargetsInAlternatives_append (alternatives : List Sequence) (last : Sequence) :
    memoTargetsInAlternatives (alternatives ++ [last]) =
      memoTargetsInAlternatives alternatives ++ Sequence.memoTargets last := by
  induction alternatives with
  | nil => simp [memoTargetsInAlternatives]
  | cons alternative rest ih => simp [memoTargetsInAlternatives, ih]

/-! ## Markers in canonical texts -/

namespace Grammar

mutual

theorem Item.marked : ∀ {depth : Nat} {cs : List Char} {item : Node},
    Item enabled depth cs item → Marked enabled item.canonical.toList item.memoTargets
  | _, _, _, .word kind word => by
    simp only [Node.canonical, unwords, String.intercalate_singleton, String.toList_ofList]
    exact marked_single (fun rest => lexes_word kind word) (by decide)
  | _, _, _, .wildcard kind words counts => by
    obtain ⟨cs, min, max, hcs, counts', -⟩ :=
      Wildcard.counts_canonical (Wildcard.isWritable_clamp words counts)
    rw [Node.canonical, hcs]
    exact marked_single (fun rest => lexes_wildcard kind words counts') (by decide)
  | _, _, _, .reference kind table name => by
    rw [Node.canonical, VariableKind.reference, String.toList_append, String.toList_ofList,
      String.toList_ofList]
    exact marked_single (fun rest => lexes_reference kind table name) (by decide)
  | _, _, _, .memo kind target item => by
    rw [Node.canonical, String.toList_append]
    exact item.marked.marker fun rest =>
      lexes_memo kind (item.canonical.atMemoTarget target rest)
  | _, _, _, .choice bracket kind closing inner => by
    rw [Node.canonical, String.toList_append, String.toList_append, String.toList_ofList,
      String.toList_ofList, List.append_assoc, Node.memoTargets]
    have hcloser : Marked enabled [bracket.closer] [] :=
      marked_single (fun rest => lexes_closer bracket closing) (by decide)
    have hinner := inner.marked.append hcloser fun rest => by cases bracket <;> rfl
    rw [List.append_nil] at hinner
    exact hinner.token (fun rest _ => lexes_opener bracket kind) (by cases bracket <;> decide)

theorem Items.marked : ∀ {depth : Nat} {cs : List Char} {items : List Node},
    Items enabled depth cs items →
      Marked enabled (unwords (items.map Node.canonical)).toList (items.flatMap Node.memoTargets)
  | _, _, _, .first _ head => by
    have := head.marked
    simpa [unwords] using this
  | _, _, _, .next before between apart last => by
    have hspace : Marked enabled ([' '] ++ _) _ := last.marked.token
      (fun rest _ => lexes_space (blanks_space (between.enabled apart)) (List.cons_ne_nil _ _)
        (last.canonical.isBlank_head rest)) (by decide)
    have hall := before.marked.append hspace fun rest => rfl
    have hne := before.ne_nil
    rw [List.map_append, unwords, String.intercalate_append_of_ne_nil (by simpa) (by simp),
      List.flatMap_append]
    simpa [unwords] using hall

theorem Derives.marked : ∀ {depth : Nat} {cs : List Char} {tree : Sequence},
    Derives enabled depth cs tree →
      Marked enabled (Sequence.canonical tree).toList (Sequence.memoTargets tree)
  | _, _, _, .mk inner _ => by
    rw [Sequence.canonical_ofItems inner.isFilled, Sequence.memoTargets_ofItems]
    exact inner.marked

theorem Alternatives.marked : ∀ {depth : Nat} {cs : List Char} {alternatives : List Sequence},
    Alternatives enabled depth cs alternatives →
      Marked enabled (canonicalAlternatives alternatives).toList
        (memoTargetsInAlternatives alternatives)
  | _, _, _, .first head => by
    rw [canonicalAlternatives, memoTargetsInAlternatives, memoTargetsInAlternatives,
      List.append_nil]
    exact head.marked
  | _, _, _, .next before bar last => by
    have hbar : Marked enabled (['|'] ++ _) _ :=
      last.marked.token (fun rest _ => lexes_pipe bar) (by decide)
    have hall := before.marked.append hbar fun rest => rfl
    have hne := before.ne_nil
    rw [canonicalAlternatives_eq, List.map_append,
      String.intercalate_append_of_ne_nil (by simpa) (by simp), ← canonicalAlternatives_eq,
      memoTargetsInAlternatives_append]
    simpa using hall

end

end Grammar

theorem marked_of_parse? {text : String} {tree : Sequence} (h : parse? enabled text = .ok tree) :
    List.Forall₂ (BeginsWith enabled) (Sequence.memoTargets tree)
      (behindMarkers (Token.scan enabled (Sequence.canonical tree))) :=
  (derives_of_parse? h).marked.markers

/-! ## Groups of compiled patterns -/

/-- The numbered group is that of the part with which the tokens begin. -/
def MarksGroup (resolve : Resolver) (group : Nat × Regex) (tokens : List Token) : Prop :=
  ∃ target inner, BeginsWith .full target tokens ∧
    target.regex resolve (group.1 + 1) = .ok inner ∧ group.2 = inner.factored

theorem forall₂_marksGroup {resolve : Resolver} {groups : List (Nat × Regex)}
    {targets : List Node} {tokens : List (List Token)}
    (h : List.Forall₂ (IsGroupOf resolve) groups targets)
    (h' : List.Forall₂ (BeginsWith .full) targets tokens) :
    List.Forall₂ (MarksGroup resolve) (groups.map fun c => (c.1, c.2.factored)) tokens := by
  induction h generalizing tokens with
  | nil =>
    cases h'
    exact .nil
  | cons hgroup _ ih =>
    cases h' with
    | cons hbegins hrest => exact .cons ⟨_, _, hbegins, hgroup, rfl⟩ (ih hrest)

/-- The groups of the expression are numbered from 0 on, one for each memo of the pattern. They are
those of the parts behind the memo markers of the canonical text, from left to right. -/
structure NumbersMarkers (resolve : Resolver) (p : Pattern) (r : Regex) : Prop where
  numbers : r.captureIndices = List.range p.memos
  groups : List.Forall₂ (MarksGroup resolve) r.captured
    (behindMarkers (Token.scan .full p.canonical))

theorem numbersMarkers_of_regex? [SizeLimit] {raw : String} {build now : Bindings} {p : Pattern}
    (h : Pattern.ofText? raw build = .ok p) {r : Regex} (hregex : p.regex? now = some r) :
    NumbersMarkers (bindingsFor p build now).resolve p r := by
  obtain rfl | ⟨tree, htree, hread⟩ := tree?_of_read? h
  · cases hregex
  rw [regex?_eq_toOption h htree] at hregex
  have hcompile : tree.compile (bindingsFor p build now) = .ok r := by
    cases hcompile : tree.compile (bindingsFor p build now) with
    | ok r' => rw [hcompile] at hregex; exact congrArg Except.ok (Option.some.inj hregex)
    | error e => rw [hcompile] at hregex; cases hregex
  refine ⟨?_, ?_⟩
  · rw [Pattern.memos, htree]
    exact Sequence.captureIndices_compile hcompile
  · obtain ⟨whole, hwhole, -, rfl⟩ := Sequence.compile_eq_ok_iff.mp hcompile
    have hgroups := Sequence.forall₂_captured (captured_resolve _) tree 0 whole hwhole
    rw [Regex.captured_factored, Pattern.canonical, htree]
    exact forall₂_marksGroup hgroups (marked_of_parse? hread)

end Repartee.Pattern
