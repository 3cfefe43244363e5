import Repartee.Proofs.Except
import Repartee.Proofs.Pattern.Completeness

/-!
# What is read is of the grammar

A draft stands for the text that it has taken in: `Around` derives what comes before the innermost
open construct, and `Written` the part of its sequence that is there so far. `Reads` joins the two
and adds what the rest of the text has to begin with, which the tokens have seen to: a delimiter
behind an item, and a target behind a memo marker. `reads_step` says that a token keeps this, and
`reads_run` that a whole run does.

At the end of the text nothing is open any more, so the text derives the tree. Together with
completeness this is `parse?_eq_ok_iff`.
-/

namespace Repartee.Pattern

open Repartee.Unicode Repartee.Text Grammar Draft

variable {enabled : TokenSet}

/-! ## The open sequence -/

/-- The text derives the items of `current`. If it is `ready`, another item may follow. -/
inductive Written (enabled : TokenSet) (depth : Nat) : List Char → List Node → Bool → Prop
  | blanks {cs} (front : Blanks enabled cs) : Written enabled depth cs [] true
  | ended {cs items} (inner : Items enabled depth cs items) :
      Written enabled depth cs (Sequence.ofItems items).reverse false
  | spaced {cs items blanks} (inner : Items enabled depth cs items)
      (back : Blanks enabled blanks) (apart : blanks ≠ []) :
      Written enabled depth (cs ++ blanks) (pushNode .space (Sequence.ofItems items).reverse) true

theorem blanks_nil : Blanks enabled [] :=
  ⟨fun _ h => absurd h List.not_mem_nil, fun h => absurd rfl h⟩

theorem blanks_append {cs ds : List Char} (h : Blanks enabled cs) (h' : Blanks enabled ds) :
    Blanks enabled (cs ++ ds) := by
  refine ⟨?_, ?_⟩
  · intro c hc
    rcases List.mem_append.mp hc with hc | hc
    · exact h.blank c hc
    · exact h'.blank c hc
  · intro hne
    by_cases hcs : cs = []
    · rw [hcs, List.nil_append] at hne
      exact h'.enabled hne
    · exact h.enabled hcs

theorem pushNode_space_idem (nodes : List Node) :
    pushNode .space (pushNode .space nodes) = pushNode .space nodes := by
  cases nodes with
  | nil => rfl
  | cons node nodes => cases node <;> rfl

namespace Written

variable {depth : Nat} {cs : List Char} {current : List Node} {ready : Bool}

theorem space (h : Written enabled depth cs current ready) {blanks : List Char}
    (back : Blanks enabled blanks) (apart : blanks ≠ []) :
    Written enabled depth (cs ++ blanks) (pushNode .space current) true := by
  cases h with
  | blanks front => exact .blanks (blanks_append front back)
  | ended inner => exact .spaced inner back apart
  | spaced inner before apart' =>
    rw [List.append_assoc, pushNode_space_idem]
    exact .spaced inner (blanks_append before back) (by simp [apart])

theorem item (h : Written enabled depth cs current true) {ds : List Char} {node : Node}
    (last : Item enabled depth ds node) :
    Written enabled depth (cs ++ ds) (pushNode node current) false := by
  cases h with
  | blanks front =>
    rw [pushNode_nil last.ne_space]
    exact .ended (.first front last)
  | spaced inner before apart =>
    rw [Sequence.pushNode_ofItems last.ne_space inner.ne_space]
    exact .ended (.next inner before apart last)

theorem close (h : Written enabled depth cs current ready) (hne : closeNodes current ≠ []) :
    Derives enabled depth cs (closeNodes current) := by
  cases h with
  | blanks front => exact absurd rfl hne
  | ended inner =>
    rw [closeNodes_reverse inner.getLast?]
    have := Derives.mk inner blanks_nil
    rwa [List.append_nil] at this
  | spaced inner back apart =>
    rw [closeNodes_pushNode_space inner.getLast?]
    exact .mk inner back

end Written

/-! ## The open constructs -/

/-- The text in front of an alternative derives those before it. -/
inductive Finished (enabled : TokenSet) (depth : Nat) : List Char → List Sequence → Prop
  | none : Finished enabled depth [] []
  | some {cs alternatives} (before : Alternatives enabled depth cs alternatives.reverse)
      (bar : .pipe ∈ enabled) : Finished enabled depth (cs ++ ['|']) alternatives

/-- The text derives everything that comes before the innermost open construct, in which brackets
and memo markers can be inside each other to this depth. -/
inductive Around (enabled : TokenSet) : Nat → List Layer → List Char → Prop
  | top : Around enabled maxNesting [] []
  | memo {depth layers front cs outer} (around : Around enabled (depth + 1) layers front)
      (parts : takesParts layers = true) (written : Written enabled (depth + 1) cs outer true)
      (kind : .memo ∈ enabled) :
      Around enabled depth (⟨.memo, outer⟩ :: layers) (front ++ cs ++ ['_'])
  | bracket {depth layers front cs outer ds alternatives} (bracket : Bracket)
      (around : Around enabled (depth + 1) layers front)
      (target : takesParts layers = false → cs = [])
      (written : Written enabled (depth + 1) cs outer true) (kind : bracket.kind ∈ enabled)
      (finished : Finished enabled depth ds alternatives) :
      Around enabled depth (⟨.bracket bracket alternatives, outer⟩ :: layers)
        (front ++ cs ++ bracket.opener :: ds)

theorem Around.levels {depth : Nat} {layers : List Layer} {front : List Char}
    (h : Around enabled depth layers front) : layers.length + depth = maxNesting := by
  induction h with
  | top => rfl
  | memo _ _ _ _ ih => rw [List.length_cons]; omega
  | bracket _ _ _ _ _ _ ih => rw [List.length_cons]; omega

/-- The draft stands for the text `taken`, and may go on with `rest`. -/
inductive Reads (enabled : TokenSet) : List Char → Draft → List Char → Prop
  | mk {depth front cs current layers ready rest} (around : Around enabled depth layers front)
      (written : Written enabled depth cs current ready)
      (delimited : ready = false → atDelimiter rest = true)
      (target : takesParts layers = false → cs = [] ∧ current = [] ∧ atMemoTarget rest = true) :
      Reads enabled (front ++ cs) ⟨current, layers⟩ rest

theorem reads_nil (rest : List Char) : Reads enabled [] {} rest :=
  .mk .top (.blanks blanks_nil) Bool.noConfusion Bool.noConfusion

/-! ## One token -/

section Place

variable {depth : Nat} {layers : List Layer} {front cs ds rest : List Char} {outer : List Node}
  {node : Node}

theorem reads_push (around : Around enabled depth layers front)
    (written : Written enabled depth cs outer true) (item : Item enabled depth ds node)
    (parts : takesParts layers = true) (hrest : atDelimiter rest = true) :
    Reads enabled (front ++ (cs ++ ds)) (place node outer layers) rest := by
  rw [place_of_takesParts parts]
  refine .mk around (written.item item) (fun _ => hrest) ?_
  intro hmemo
  rw [parts] at hmemo
  cases hmemo

/-- An item is put where it belongs: behind what stands in the open construct, or into the memo that
waits for it. -/
theorem reads_place (around : Around enabled depth layers front)
    (written : Written enabled depth cs outer true) (item : Item enabled depth ds node)
    (target : takesParts layers = false → cs = [] ∧ node.isTarget = true)
    (hrest : atDelimiter rest = true) :
    Reads enabled (front ++ cs ++ ds) (place node outer layers) rest := by
  cases around with
  | top =>
    rw [List.append_assoc]
    exact reads_push .top written item rfl hrest
  | bracket bracket around target' written' kind finished =>
    rw [List.append_assoc]
    exact reads_push (.bracket bracket around target' written' kind finished) written item rfl hrest
  | memo around parts written' kind =>
    obtain ⟨rfl, htarget⟩ := target rfl
    have := reads_push around written' (.memo kind htarget item) parts hrest
    simpa [place] using this

end Place

section Step

variable {taken lexeme rest : List Char} {d : Draft}

theorem reads_add (h : Reads enabled taken d (lexeme ++ rest)) {node : Node}
    (item : ∀ depth, Item enabled depth lexeme node)
    (target : atMemoTarget (lexeme ++ rest) = true → node.isTarget = true)
    (hrest : atDelimiter rest = true) : Reads enabled (taken ++ lexeme) (d.add node) rest := by
  cases h with
  | @mk depth front cs current layers ready _ around written delimited htarget =>
    cases ready with
    | false =>
      obtain ⟨c, ds, rfl, hc⟩ := (item 0).head
      have := atDelimiter_iff.mp (delimited rfl) c rfl
      rw [hc] at this
      cases this
    | true =>
      refine reads_place around written (item depth) ?_ hrest
      intro hmemo
      obtain ⟨hcs, -, hat⟩ := htarget hmemo
      exact ⟨hcs, target hat⟩

theorem isMark_of_atMemoTarget {c : Char} {cs : List Char} (h : atMemoTarget (c :: cs) = true) :
    isMark c = true := by
  simp only [atMemoTarget, Bool.or_eq_true] at h
  simp only [isMark, Bool.or_eq_true]
  tauto

theorem not_atMemoTarget_of_word (h : Word lexeme) (rest : List Char) :
    atMemoTarget (lexeme ++ rest) = false := by
  obtain ⟨first, -, -⟩ := h
  rw [List.cons_append]
  refine Bool.eq_false_iff.mpr fun hat => ?_
  rw [isWordChar_of_isMark (isMark_of_atMemoTarget hat)] at first
  cases first

theorem not_atMemoTarget_of_blanks (h : Blanks enabled lexeme) (hne : lexeme ≠ [])
    (rest : List Char) : atMemoTarget (lexeme ++ rest) = false := by
  obtain ⟨c, cs, rfl⟩ := List.exists_cons_of_ne_nil hne
  have hblank := h.blank c List.mem_cons_self
  rw [List.cons_append]
  refine Bool.eq_false_iff.mpr fun hat => ?_
  rw [isBlank_of_isMark (isMark_of_atMemoTarget hat)] at hblank
  cases hblank

theorem reads_space (h : Reads enabled taken d (lexeme ++ rest)) (blanks : Blanks enabled lexeme)
    (apart : lexeme ≠ []) :
    Reads enabled (taken ++ lexeme) { d with current := pushNode .space d.current } rest := by
  cases h with
  | mk around written delimited htarget =>
    rw [List.append_assoc]
    refine .mk around (written.space blanks apart) Bool.noConfusion ?_
    intro hmemo
    obtain ⟨-, -, hat⟩ := htarget hmemo
    rw [not_atMemoTarget_of_blanks blanks apart] at hat
    cases hat

theorem openLayer_eq_ok {d' : Draft} {opening : Opening} (h : d.openLayer opening = .ok d') :
    d.layers.length < maxNesting ∧ d' = ⟨[], ⟨opening, d.current⟩ :: d.layers⟩ := by
  unfold openLayer at h
  split at h
  · cases h
  · rename_i hlt
    exact ⟨Nat.not_le.mp hlt, (Except.ok.inj h).symm⟩

theorem closeAlternative_eq_ok {current : List Node} {alternatives alternatives' : List Sequence}
    (h : closeAlternative current alternatives = .ok alternatives') :
    closeNodes current ≠ [] ∧ alternatives' = closeNodes current :: alternatives := by
  unfold closeAlternative at h
  split at h
  · cases h
  · rename_i hcons
    rw [hcons]
    exact ⟨List.cons_ne_nil _ _, (Except.ok.inj h).symm⟩

/-- A token that opens something stands where an item could stand. -/
theorem reads_ready {c : Char} (h : Reads enabled taken d (c :: rest))
    (hc : isDelimiter c = false) :
    ∃ depth front cs, Around enabled depth d.layers front ∧
      Written enabled depth cs d.current true ∧ taken = front ++ cs ∧
      (takesParts d.layers = false → cs = [] ∧ atMemoTarget (c :: rest) = true) := by
  cases h with
  | @mk depth front cs current layers ready _ around written delimited htarget =>
    cases ready with
    | false =>
      have := atDelimiter_iff.mp (delimited rfl) c rfl
      rw [hc] at this
      cases this
    | true =>
      exact ⟨depth, front, cs, around, written, rfl, fun hmemo =>
        ⟨(htarget hmemo).1, (htarget hmemo).2.2⟩⟩

theorem exists_level {depth : Nat} {front : List Char} {layers : List Layer}
    (around : Around enabled depth layers front) (hroom : layers.length < maxNesting) :
    ∃ k, depth = k + 1 := by
  have hlevels := around.levels
  exact ⟨depth - 1, by omega⟩

theorem reads_memo {d' : Draft} (h : Reads enabled taken d ('_' :: rest))
    (kind : .memo ∈ enabled) (hrest : atMemoTarget rest = true)
    (hopen : d.openLayer .memo = .ok d') : Reads enabled (taken ++ ['_']) d' rest := by
  obtain ⟨hroom, rfl⟩ := openLayer_eq_ok hopen
  obtain ⟨depth, front, cs, around, written, rfl, htarget⟩ := reads_ready h (by decide)
  obtain ⟨depth, rfl⟩ := exists_level around hroom
  have hparts : takesParts d.layers = true := by
    refine Bool.of_not_eq_false fun hmemo => ?_
    exact absurd (htarget hmemo).2 (by simp [atMemoTarget]; decide)
  rw [← List.append_nil (front ++ cs ++ ['_'])]
  exact .mk (.memo around hparts written kind) (.blanks blanks_nil) Bool.noConfusion
    fun _ => ⟨rfl, rfl, hrest⟩

theorem reads_opener {d' : Draft} (bracket : Bracket)
    (h : Reads enabled taken d (bracket.opener :: rest)) (kind : bracket.kind ∈ enabled)
    (hopen : d.openLayer (.bracket bracket []) = .ok d') :
    Reads enabled (taken ++ [bracket.opener]) d' rest := by
  obtain ⟨hroom, rfl⟩ := openLayer_eq_ok hopen
  obtain ⟨depth, front, cs, around, written, rfl, htarget⟩ :=
    reads_ready h (by cases bracket <;> decide)
  obtain ⟨depth, rfl⟩ := exists_level around hroom
  rw [← List.append_nil (front ++ cs ++ [bracket.opener])]
  exact .mk (.bracket bracket around (fun hmemo => (htarget hmemo).1) written kind .none)
    (.blanks blanks_nil) Bool.noConfusion Bool.noConfusion

theorem Finished.alternatives {depth : Nat} {ds cs : List Char} {done : List Sequence}
    {nodes : Sequence} (h : Finished enabled depth ds done)
    (last : Derives enabled depth cs nodes) :
    Alternatives enabled depth (ds ++ cs) (nodes :: done).reverse := by
  rw [List.reverse_cons]
  cases h with
  | none => exact .first last
  | some before bar =>
    rw [List.append_assoc, List.singleton_append]
    exact .next before bar last

theorem reads_pipe {d' : Draft} (h : Reads enabled taken d ('|' :: rest))
    (bar : .pipe ∈ enabled) (hpipe : d.takePipe = .ok d') :
    Reads enabled (taken ++ ['|']) d' rest := by
  obtain ⟨current, layers⟩ := d
  unfold takePipe at hpipe
  split at hpipe
  · rename_i bracket done outer layers' hlayers
    obtain rfl : layers = _ := hlayers
    obtain ⟨done', hclose, hd'⟩ := Except.bind_eq_ok_iff.mp hpipe
    obtain ⟨hne, rfl⟩ := closeAlternative_eq_ok hclose
    obtain rfl := Except.ok.inj hd'
    cases h with
    | mk around written delimited htarget =>
      cases around with
      | bracket _ around target written' kind finished =>
        have finished' := Finished.some (finished.alternatives (written.close hne)) bar
        have : Reads enabled _ _ rest :=
          .mk (.bracket bracket around target written' kind finished') (.blanks blanks_nil)
            Bool.noConfusion Bool.noConfusion
        simpa only [List.append_assoc, List.cons_append, List.append_nil] using this
  · cases hpipe

theorem reads_closer {d' : Draft} {c : Char} (h : Reads enabled taken d (c :: rest))
    (closing : .terminator ∈ enabled) (hrest : atDelimiter rest = true)
    (hcloser : d.takeCloser c = .ok d') : Reads enabled (taken ++ [c]) d' rest := by
  obtain ⟨current, layers⟩ := d
  unfold takeCloser at hcloser
  split at hcloser
  · rename_i bracket done outer layers' hlayers
    obtain rfl : layers = _ := hlayers
    split at hcloser
    · rename_i hc
      subst hc
      obtain ⟨done', hclose, hd'⟩ := Except.bind_eq_ok_iff.mp hcloser
      obtain ⟨hne, rfl⟩ := closeAlternative_eq_ok hclose
      obtain rfl := Except.ok.inj hd'
      cases h with
      | mk around written delimited htarget =>
        cases around with
        | bracket _ around target written' kind finished =>
          have item := Item.choice bracket kind closing (finished.alternatives (written.close hne))
          have := reads_place around written' item (fun hmemo => ⟨target hmemo, rfl⟩) hrest
          simpa only [List.append_assoc, List.cons_append] using this
    · cases hcloser
  · cases hcloser

/-- A token keeps what the draft stands for. -/
theorem reads_step {kind : TokenKind} {d' : Draft} (h : Reads enabled taken d (lexeme ++ rest))
    (token : Lexes enabled kind lexeme rest)
    (hstep : d.step ⟨kind, String.ofList lexeme⟩ = .ok d') :
    Reads enabled (taken ++ lexeme) d' rest := by
  cases kind with
  | invalid => cases hstep
  | space =>
    obtain rfl := Except.ok.inj hstep
    exact reads_space h (blanks_of_lexes token) token.ne_nil
  | word =>
    obtain rfl := Except.ok.inj hstep
    obtain ⟨word, hrest⟩ := word_of_lexes token
    refine reads_add h (fun _ => .word token.enabled word) ?_ hrest
    intro hat
    rw [not_atMemoTarget_of_word word] at hat
    cases hat
  | wildcard =>
    obtain ⟨w, hread, hd'⟩ := Except.bind_eq_ok_iff.mp hstep
    obtain rfl := Except.ok.inj hd'
    obtain ⟨words, cs, min, max, hlist, counts, rfl⟩ := Wildcard.ofText?_eq_ok_iff.mp hread
    rw [String.toList_ofList] at hlist
    subst hlist
    exact reads_add h (fun _ => .wildcard token.enabled words counts) (fun _ => rfl) token.fits
  | reference =>
    cases shape_of_lexes token with
    | reference table name =>
      obtain ⟨node, hread, hd'⟩ := Except.bind_eq_ok_iff.mp hstep
      obtain rfl := Except.ok.inj hd'
      obtain rfl := Except.ok.inj ((readReference_ofList table name).symm.trans hread)
      exact reads_add h (fun _ => .reference token.enabled table name) (fun _ => rfl) token.fits
  | memo =>
    cases shape_of_lexes token with
    | memo => exact reads_memo h token.enabled token.fits hstep
  | optional =>
    cases shape_of_lexes token with
    | optional => exact reads_opener .optional h token.enabled hstep
  | group =>
    cases shape_of_lexes token with
    | group => exact reads_opener .group h token.enabled hstep
  | pipe =>
    cases shape_of_lexes token with
    | pipe => exact reads_pipe h token.enabled hstep
  | terminator =>
    cases shape_of_lexes token with
    | terminator bracket =>
      have hcloser : d.takeCloser ((String.ofList [bracket.closer]).toList.headD ')') = .ok d' :=
        hstep
      rw [String.toList_ofList] at hcloser
      exact reads_closer h token.enabled token.fits hcloser

end Step

/-! ## Whole texts -/

theorem reads_run {rest taken : List Char} {d d' : Draft} (h : Reads enabled taken d rest)
    (hrun : run enabled d rest = .ok d') : Reads enabled (taken ++ rest) d' [] := by
  induction hlength : rest.length using Nat.strong_induction_on generalizing rest taken d with
  | _ n ih =>
    cases rest with
    | nil =>
      obtain rfl := Except.ok.inj hrun
      rwa [List.append_nil]
    | cons c cs =>
      rcases tokens_cons enabled c cs with ⟨kind, lexeme, rest, hcs, token⟩ | hinvalid
      · rw [hcs] at h hrun hlength ⊢
        rw [run_lexes token] at hrun
        obtain ⟨d₁, hstep, hrun⟩ := Except.bind_eq_ok_iff.mp hrun
        have hpos := List.length_pos_iff.mpr token.ne_nil
        rw [List.length_append] at hlength
        rw [← List.append_assoc]
        exact ih rest.length (by omega) (reads_step h token hstep) hrun rfl
      · unfold run at hrun
        rw [hinvalid, List.foldlM_cons] at hrun
        cases hrun

theorem derives_of_parse? {text : String} {tree : Sequence} (h : parse? enabled text = .ok tree) :
    Derives enabled maxNesting (lower text).toList tree := by
  obtain ⟨⟨current, layers⟩, hrun, hfinish⟩ := Except.bind_eq_ok_iff.mp h
  have hreads := reads_run (reads_nil _) hrun
  rw [List.nil_append] at hreads
  generalize (lower text).toList = cs at hreads ⊢
  cases hreads with
  | mk around written delimited htarget =>
    unfold finish at hfinish
    cases around with
    | top =>
      simp only at hfinish
      split at hfinish
      · cases hfinish
      · rename_i hclose
        obtain rfl := Except.ok.inj hfinish
        have := written.close (by rw [hclose]; exact List.cons_ne_nil _ _)
        rwa [hclose] at this
    | memo => cases hfinish
    | bracket => cases hfinish

theorem parse?_eq_ok_iff {text : String} {tree : Sequence} :
    parse? enabled text = .ok tree ↔ Derives enabled maxNesting (lower text).toList tree :=
  ⟨derives_of_parse?, parse?_of_derives⟩

/-- A pattern is read exactly if its lowercase form is a sequence of the grammar, with at most 32
brackets and memo markers inside each other, and the tree is the one that it derives. -/
theorem parse?_full_eq_ok_iff (text : String) (tree : Sequence) :
    parse? .full text = .ok tree ↔ Derives .full 32 (lower text).toList tree :=
  parse?_eq_ok_iff

end Repartee.Pattern
