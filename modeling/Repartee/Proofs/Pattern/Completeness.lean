import Repartee.Proofs.Pattern.Items
import Repartee.Proofs.Pattern.Lexing

/-!
# Texts of the grammar are read

A text that derives something is taken in by any draft that has room for it, and what it derives is
put where it belongs: `run_item`, `run_items`, `run_derives` and `run_alternatives` say so for a
text with anything behind it that may follow there. They go by induction on the derivation. The
levels that a derivation needs have to fit into those that the draft has left.
-/

namespace Repartee.Pattern

open Repartee.Unicode Repartee.Text Grammar

namespace Draft

/-- Takes in the tokens of a text, one after the other. -/
def run (enabled : TokenSet) (d : Draft) (cs : List Char) : Except Error Draft :=
  (tokensAfter enabled 0 cs).foldlM step d

variable {enabled : TokenSet}

theorem run_lexes {kind : TokenKind} {lexeme rest : List Char}
    (h : Lexes enabled kind lexeme rest) (d : Draft) :
    run enabled d (lexeme ++ rest) =
      (d.step ⟨kind, String.ofList lexeme⟩).bind fun d => run enabled d rest := by
  unfold run
  rw [tokens_of_lexes h, List.foldlM_cons]
  rfl

theorem run_step {kind : TokenKind} {lexeme rest : List Char} {d d' : Draft}
    (h : Lexes enabled kind lexeme rest) (hstep : d.step ⟨kind, String.ofList lexeme⟩ = .ok d') :
    run enabled d (lexeme ++ rest) = run enabled d' rest := by
  rw [run_lexes h, hstep]
  rfl

/-- The innermost open construct takes any number of parts. -/
def takesParts : List Layer → Bool
  | ⟨.memo, _⟩ :: _ => false
  | _ => true

theorem place_of_takesParts {layers : List Layer} (h : takesParts layers = true) (node : Node)
    (current : List Node) : place node current layers = ⟨pushNode node current, layers⟩ := by
  unfold place
  split
  · cases h
  · rfl

theorem openLayer_of_lt {d : Draft} (h : d.layers.length < maxNesting) (opening : Opening) :
    d.openLayer opening = .ok ⟨[], ⟨opening, d.current⟩ :: d.layers⟩ := by
  unfold openLayer
  rw [if_neg (Nat.not_le.mpr h)]

theorem closeAlternative_of_ne_nil {current : List Node} (h : closeNodes current ≠ [])
    (alternatives : List Sequence) :
    closeAlternative current alternatives = .ok (closeNodes current :: alternatives) := by
  unfold closeAlternative
  split
  · rename_i hnil
    exact absurd hnil h
  · rename_i hcons
    rw [hcons]

theorem readReference_ofList (table : VariableKind) {cs : List Char} (h : Name cs) :
    readReference (String.ofList ('%' :: table.letter :: ':' :: cs)) =
      .ok (.reference table (String.ofList cs)) := by
  obtain ⟨first, rest⟩ := h
  simp [readReference, VariableKind.ofLetter?_letter]

end Draft

/-! ## First characters -/

theorem isDelimiter_of_isWordChar {c : Char} (h : isWordChar c = true) :
    isDelimiter c = false := by
  cases hd : isDelimiter c with
  | false => rfl
  | true =>
    rw [isWordChar_of_isDelimiter hd] at h
    cases h

theorem Grammar.Item.head {enabled : TokenSet} {depth : Nat} {cs : List Char} {item : Node}
    (h : Item enabled depth cs item) : ∃ c ds, cs = c :: ds ∧ isDelimiter c = false := by
  cases h with
  | word _ word =>
    obtain ⟨first, -, -⟩ := word
    exact ⟨_, _, rfl, isDelimiter_of_isWordChar first⟩
  | wildcard _ words _ => exact ⟨_, _, rfl, by cases words <;> decide⟩
  | reference _ _ _ => exact ⟨_, _, rfl, by decide⟩
  | memo _ _ _ => exact ⟨_, _, rfl, by decide⟩
  | choice bracket _ _ _ => exact ⟨_, _, rfl, by cases bracket <;> decide⟩

theorem isBlank_of_isDelimiter {c : Char} (h : isDelimiter c = false) : isBlank c = false := by
  simp only [isDelimiter, Bool.or_eq_false_iff] at h
  exact h.2

theorem Grammar.Item.isBlank_head {enabled : TokenSet} {depth : Nat} {cs : List Char}
    {item : Node} (h : Item enabled depth cs item) (rest : List Char) :
    ∀ c ∈ (cs ++ rest).head?, isBlank c = false := by
  obtain ⟨c, ds, rfl, hc⟩ := h.head
  intro d hd
  obtain rfl : c = d := Option.some.inj hd
  exact isBlank_of_isDelimiter hc

theorem Grammar.Item.atMemoTarget {enabled : TokenSet} {depth : Nat} {cs : List Char}
    {item : Node} (h : Item enabled depth cs item) (target : item.isTarget = true)
    (rest : List Char) : atMemoTarget (cs ++ rest) = true := by
  cases h with
  | word _ _ => cases target
  | wildcard _ words _ => cases words <;> rfl
  | reference _ _ _ => rfl
  | memo _ _ _ => cases target
  | choice bracket _ _ _ => cases bracket <;> rfl

theorem atDelimiter_blanks {enabled : TokenSet} {blanks : List Char} (h : Blanks enabled blanks)
    (hne : blanks ≠ []) (rest : List Char) : atDelimiter (blanks ++ rest) = true := by
  obtain ⟨c, cs, rfl⟩ := List.exists_cons_of_ne_nil hne
  have hblank : isBlank c = true := h.blank c List.mem_cons_self
  simp [atDelimiter, hblank]

theorem Grammar.Items.ne_nil {enabled : TokenSet} {depth : Nat} {cs : List Char}
    {items : List Node} (h : Items enabled depth cs items) : items ≠ [] := by
  cases h <;> simp

theorem Grammar.Items.ofItems_ne_nil {enabled : TokenSet} {depth : Nat} {cs : List Char}
    {items : List Node} (h : Items enabled depth cs items) : Sequence.ofItems items ≠ [] :=
  Sequence.ofItems_ne_nil h.ne_nil

theorem Grammar.Items.getLast? {enabled : TokenSet} {depth : Nat} {cs : List Char}
    {items : List Node} (h : Items enabled depth cs items) :
    (Sequence.ofItems items).getLast? ≠ some .space :=
  Sequence.getLast?_ofItems h.ne_space

/-! ## Derived texts are taken in -/

namespace Draft

variable {enabled : TokenSet}

theorem step_opener (bracket : Bracket) {d : Draft} (h : d.layers.length < maxNesting) :
    d.step ⟨bracket.kind, String.ofList [bracket.opener]⟩ =
      .ok ⟨[], ⟨.bracket bracket [], d.current⟩ :: d.layers⟩ := by
  cases bracket <;> exact openLayer_of_lt h _

theorem step_pipe (bracket : Bracket) {current : List Node} (h : closeNodes current ≠ [])
    (done : List Sequence) (outer : List Node) (layers : List Layer) :
    step ⟨current, ⟨.bracket bracket done, outer⟩ :: layers⟩ ⟨.pipe, String.ofList ['|']⟩ =
      .ok ⟨[], ⟨.bracket bracket (closeNodes current :: done), outer⟩ :: layers⟩ := by
  simp only [step, takePipe, closeAlternative_of_ne_nil h]
  rfl

theorem step_closer (bracket : Bracket) {current : List Node} (h : closeNodes current ≠ [])
    (done : List Sequence) (outer : List Node) (layers : List Layer) :
    step ⟨current, ⟨.bracket bracket done, outer⟩ :: layers⟩
        ⟨.terminator, String.ofList [bracket.closer]⟩ =
      .ok (place (.choice bracket (closeNodes current :: done).reverse) outer layers) := by
  simp only [step, takeCloser, String.toList_ofList, List.headD_cons,
    closeAlternative_of_ne_nil h, if_true]
  rfl

theorem run_blanks {blanks rest : List Char} (h : Blanks enabled blanks) (hne : blanks ≠ [])
    (hrest : ∀ c ∈ rest.head?, isBlank c = false) (d : Draft) :
    run enabled d (blanks ++ rest) =
      run enabled { d with current := pushNode .space d.current } rest :=
  run_step (lexes_space h hne hrest) rfl

/-- White space at the beginning of a sequence leaves no trace. -/
theorem run_front {blanks rest : List Char} (h : Blanks enabled blanks)
    (hrest : ∀ c ∈ rest.head?, isBlank c = false) (layers : List Layer) :
    run enabled ⟨[], layers⟩ (blanks ++ rest) = run enabled ⟨[], layers⟩ rest := by
  by_cases hne : blanks = []
  · rw [hne, List.nil_append]
  · exact run_blanks h hne hrest ⟨[], layers⟩

theorem add_of_takesParts {layers : List Layer} (h : takesParts layers = true) (node : Node)
    (current : List Node) :
    add ⟨current, layers⟩ node = ⟨pushNode node current, layers⟩ :=
  place_of_takesParts h node current

theorem pushNode_nil {node : Node} (h : node ≠ .space) : pushNode node [] = [node] := by
  cases node with
  | space => exact absurd rfl h
  | _ => rfl

mutual

/-- A draft takes in a derived item as the part that it stands for. -/
theorem run_item {depth : Nat} {cs : List Char} {item : Node} :
    Item enabled depth cs item → ∀ (d : Draft) (rest : List Char), atDelimiter rest = true →
      d.layers.length + depth ≤ maxNesting →
        run enabled d (cs ++ rest) = run enabled (d.add item) rest
  | .word kind word => by
    intro d rest hrest _
    exact run_step (lexes_word kind word hrest) rfl
  | .wildcard kind words counts => by
    intro d rest hrest _
    refine run_step (lexes_wildcard kind words counts hrest) ?_
    have hread := Wildcard.ofText?_eq_ok_iff.mpr
      ⟨words, _, _, _, String.toList_ofList, counts, rfl⟩
    simp only [step, hread]
    rfl
  | .reference kind table name => by
    intro d rest hrest _
    refine run_step (lexes_reference kind table name hrest) ?_
    simp only [step, readReference_ofList table name]
    rfl
  | .memo kind target inner => by
    intro d rest hrest hlevels
    have hroom : d.layers.length < maxNesting := by omega
    have hopen := run_step (lexes_memo kind (inner.atMemoTarget target rest))
      (openLayer_of_lt hroom .memo)
    rw [List.cons_append, ← List.singleton_append, hopen,
      run_item inner _ rest hrest (by simp only [List.length_cons]; omega)]
    rfl
  | .choice bracket kind closing inner => by
    intro d rest hrest hlevels
    have hroom : d.layers.length < maxNesting := by omega
    obtain ⟨current, done, hdone, hne, hinner⟩ :=
      run_alternatives inner bracket d.current d.layers ([bracket.closer] ++ rest)
        (by cases bracket <;> simp [Bracket.closer] <;> decide) (by omega)
    rw [List.cons_append, List.append_assoc, ← List.singleton_append,
      run_step (lexes_opener bracket kind) (step_opener bracket hroom), hinner,
      run_step (lexes_closer bracket closing hrest) (step_closer bracket hne done _ _), hdone]
    rfl

theorem run_items {depth : Nat} {cs : List Char} {items : List Node} :
    Items enabled depth cs items → ∀ (layers : List Layer) (rest : List Char),
      takesParts layers = true → atDelimiter rest = true → layers.length + depth ≤ maxNesting →
      run enabled ⟨[], layers⟩ (cs ++ rest) =
        run enabled ⟨(Sequence.ofItems items).reverse, layers⟩ rest
  | .first front head => by
    intro layers rest hlayers hrest hlevels
    rw [List.append_assoc, run_front front (head.isBlank_head rest),
      run_item head ⟨[], layers⟩ rest hrest hlevels, add_of_takesParts hlayers,
      pushNode_nil head.ne_space]
    rfl
  | .next before between apart last => by
    intro layers rest hlayers hrest hlevels
    rw [List.append_assoc, List.append_assoc,
      run_items before layers _ hlayers (atDelimiter_blanks between apart _) hlevels,
      run_blanks between apart (last.isBlank_head rest), run_item last _ rest hrest hlevels,
      add_of_takesParts hlayers, Sequence.pushNode_ofItems last.ne_space before.ne_space]

/-- A draft takes in a derived sequence, which remains to be closed. -/
theorem run_derives {depth : Nat} {cs : List Char} {nodes : Sequence} :
    Derives enabled depth cs nodes → ∀ (layers : List Layer) (rest : List Char),
      takesParts layers = true → (∀ c ∈ rest.head?, isDelimiter c = true ∧ isBlank c = false) →
      layers.length + depth ≤ maxNesting → ∃ current, closeNodes current = nodes ∧ nodes ≠ [] ∧
        run enabled ⟨[], layers⟩ (cs ++ rest) = run enabled ⟨current, layers⟩ rest
  | @Derives.mk _ _ _ _ blanks inner back => by
    intro layers rest hlayers hrest hlevels
    by_cases hne : blanks = []
    · refine ⟨_, closeNodes_reverse inner.getLast?, inner.ofItems_ne_nil, ?_⟩
      rw [hne, List.append_nil]
      exact run_items inner layers rest hlayers
        (atDelimiter_iff.mpr fun c hc => (hrest c hc).1) hlevels
    · refine ⟨_, closeNodes_pushNode_space inner.getLast?, inner.ofItems_ne_nil, ?_⟩
      rw [List.append_assoc,
        run_items inner layers _ hlayers (atDelimiter_blanks back hne rest) hlevels]
      exact run_blanks back hne (fun c hc => (hrest c hc).2) _

/-- An open bracket takes in derived alternatives, of which the last one remains to be closed. -/
theorem run_alternatives {depth : Nat} {cs : List Char} {alternatives : List Sequence} :
    Alternatives enabled depth cs alternatives →
      ∀ (bracket : Bracket) (outer : List Node) (layers : List Layer) (rest : List Char),
      (∀ c ∈ rest.head?, isDelimiter c = true ∧ isBlank c = false) →
      layers.length + depth < maxNesting → ∃ current done,
        alternatives = (closeNodes current :: done).reverse ∧ closeNodes current ≠ [] ∧
        run enabled ⟨[], ⟨.bracket bracket [], outer⟩ :: layers⟩ (cs ++ rest) =
          run enabled ⟨current, ⟨.bracket bracket done, outer⟩ :: layers⟩ rest
  | .first head => by
    intro bracket outer layers rest hrest hlevels
    obtain ⟨current, hclose, hne, hrun⟩ :=
      run_derives head (⟨.bracket bracket [], outer⟩ :: layers) rest rfl hrest
        (by simp only [List.length_cons]; omega)
    exact ⟨current, [], by rw [hclose]; rfl, hclose ▸ hne, hrun⟩
  | @Alternatives.next _ _ _ _ ds _ before bar last => by
    intro bracket outer layers rest hrest hlevels
    obtain ⟨current, done, hdone, hne, hbefore⟩ :=
      run_alternatives before bracket outer layers (['|'] ++ (ds ++ rest))
        (by simp; decide) hlevels
    obtain ⟨next, hclose, hne', hrun⟩ :=
      run_derives last (⟨.bracket bracket (closeNodes current :: done), outer⟩ :: layers) rest rfl
        hrest (by simp only [List.length_cons]; omega)
    refine ⟨next, closeNodes current :: done, ?_, hclose ▸ hne', ?_⟩
    · rw [hclose, List.reverse_cons, ← hdone]
    · rw [List.append_assoc, List.cons_append]
      refine hbefore.trans ?_
      rw [run_step (lexes_pipe bar) (step_pipe bracket hne done outer layers), hrun]

end

end Draft

/-- A text whose lowercase form derives a sequence is read as that sequence. -/
theorem parse?_of_derives {enabled : TokenSet} {text : String} {tree : Sequence}
    (h : Derives enabled maxNesting (lower text).toList tree) : parse? enabled text = .ok tree := by
  obtain ⟨current, hclose, hne, hrun⟩ := Draft.run_derives h [] [] rfl
    (fun c hc => absurd hc (Option.not_mem_none c)) (Nat.le_of_eq (Nat.zero_add _))
  rw [List.append_nil] at hrun
  have hread : (Token.scan enabled (lower text)).foldlM Draft.step {} = .ok ⟨current, []⟩ := hrun
  have hfinish : Draft.finish ⟨current, []⟩ = .ok tree := by
    unfold Draft.finish
    obtain ⟨node, nodes, rfl⟩ := List.exists_cons_of_ne_nil hne
    simp only [hclose]
  unfold parse? Sequence.ofTokens?
  rw [hread]
  exact hfinish

end Repartee.Pattern
