import Mathlib.Data.List.Lex
import Mathlib.Order.Bounds.Defs
import Repartee.Proofs.Pattern.Deferral
import Repartee.Proofs.Pattern.Flat
import Repartee.Proofs.Pattern.Spans

/-!
# Which words each wildcard takes

Where the literal words of a pattern occur more than once in a text, its wildcards can share the
other words in several ways. `Takes` says which numbers of words they can take. A pattern without
brackets and variables takes the least of these lists in the lexicographic order: every wildcard
takes as few words as possible, and an earlier one goes before a later one
(`captures?_eq_some_iff_isLeast`).

The proof goes from the last part to the first one. What is behind a part has to divide the words to
come in the least way (`DividesLeast`), and has to be able to divide all those that its parts can
spell (`Completes`), since a wildcard stops at the first place from which the rest can go on.
-/

namespace Repartee.Pattern

open Repartee.Unicode Repartee.Text Regex

/-! ## Ways to divide words -/

/-- The parts spell the words if their wildcards, from left to right, take so many words each. -/
inductive Takes : List Node → List Nat → List String → Prop
  | nil : Takes [] [] []
  | space {nodes counts ws} (rest : Takes nodes counts ws) : Takes (.space :: nodes) counts ws
  | words {us nodes counts ws} (rest : Takes nodes counts ws) :
      Takes (.words us :: nodes) counts (us ++ ws)
  | wildcard {w us nodes counts ws} (taken : us ∈ w.language) (rest : Takes nodes counts ws) :
      Takes (.wildcard w :: nodes) (us.length :: counts) (us ++ ws)
  | memo {node nodes counts ws} (inner : Takes (node :: nodes) counts ws) :
      Takes (.memo node :: nodes) counts ws

/-- Where the memos of wildcards begin and end in the text of these words, with `n` words in front
of the first part, if the wildcards take so many words each. -/
def memoSpans (ws : List String) (n : Nat) : List Node → List Nat → List (Nat × Nat)
  | .space :: nodes, counts => memoSpans ws n nodes counts
  | .words us :: nodes, counts => memoSpans ws (n + us.length) nodes counts
  | .wildcard _ :: nodes, count :: counts => memoSpans ws (n + count) nodes counts
  | .memo (.wildcard _) :: nodes, count :: counts =>
    (wordStart (ws.take n), wordStop (ws.take (n + count))) ::
      memoSpans ws (n + count) nodes counts
  | _, _ => []

namespace Takes

variable {nodes : List Node} {counts : List Nat} {ws : List String}

theorem mem_language (h : Takes nodes counts ws)
    (value : VariableKind → String → Language String) : ws ∈ Sequence.language value nodes := by
  induction h with
  | nil => rfl
  | space rest ih => rwa [Sequence.language, Node.language, one_mul]
  | words rest ih => exact Language.append_mem_mul rfl ih
  | wildcard taken rest ih => exact Language.append_mem_mul taken ih
  | memo inner ih => exact ih

theorem words_iff {us : List String} : Takes (.words us :: nodes) counts ws ↔
    ∃ rest, ws = us ++ rest ∧ Takes nodes counts rest := by
  constructor
  · rintro (_ | _ | rest)
    exact ⟨_, rfl, rest⟩
  · rintro ⟨rest, rfl, h⟩
    exact h.words

theorem wildcard_iff {w : Wildcard} : Takes (.wildcard w :: nodes) counts ws ↔
    ∃ us rest counts', ws = us ++ rest ∧ us ∈ w.language ∧ counts = us.length :: counts' ∧
      Takes nodes counts' rest := by
  constructor
  · rintro (_ | _ | _ | ⟨taken, rest⟩)
    exact ⟨_, _, _, rfl, taken, rfl, rest⟩
  · rintro ⟨us, rest, counts', rfl, taken, rfl, h⟩
    exact h.wildcard taken

theorem space_iff : Takes (.space :: nodes) counts ws ↔ Takes nodes counts ws :=
  ⟨fun h => by cases h; assumption, .space⟩

theorem memo_iff {node : Node} :
    Takes (.memo node :: nodes) counts ws ↔ Takes (node :: nodes) counts ws :=
  ⟨fun h => by cases h; assumption, .memo⟩

theorem isLeast_nil : IsLeast {counts | Takes [] counts []} [] :=
  ⟨.nil, fun counts h => by cases h; exact le_refl _⟩

theorem isLeast_words {us : List String} (h : IsLeast {counts | Takes nodes counts ws} counts) :
    IsLeast {counts | Takes (.words us :: nodes) counts (us ++ ws)} counts := by
  refine ⟨h.1.words, fun counts' hcounts' => ?_⟩
  obtain ⟨rest, hrest, hcounts'⟩ := words_iff.mp hcounts'
  exact h.2 (List.append_cancel_left hrest ▸ hcounts')

/-- A wildcard takes the least number of words that leaves some to the rest that they can spell, and
then the rest divides them in the least way. -/
theorem isLeast_wildcard {w : Wildcard} {us : List String} (taken : us ∈ w.language)
    (least : ∀ vs rest counts, us ++ ws = vs ++ rest → vs ∈ w.language →
      Takes nodes counts rest → us.length ≤ vs.length)
    (h : IsLeast {counts | Takes nodes counts ws} counts) :
    IsLeast {counts | Takes (.wildcard w :: nodes) counts (us ++ ws)} (us.length :: counts) := by
  refine ⟨h.1.wildcard taken, fun counts' hcounts' => ?_⟩
  obtain ⟨vs, rest, others, hsplit, hvs, rfl, hothers⟩ := wildcard_iff.mp hcounts'
  rcases Nat.lt_or_eq_of_le (least vs rest others hsplit hvs hothers) with hlt | heq
  · exact le_of_lt (List.Lex.rel hlt)
  · obtain ⟨rfl, rfl⟩ := List.append_inj hsplit heq
    exact List.cons_le_cons _ (h.2 hothers)

end Takes

/-! ## Ways through an expression -/

section Ways

variable {ws : List String}

/-- The place at the end of the text. -/
def textEnd (ws : List String) : Places :=
  .tabulate (textOf ws).size (· == (textOf ws).size)

/-- From any place between words, the way through the expression to the end of the text divides the
words to come among the parts in the least way. -/
def DividesLeast (ws : List String) (r : Regex) (nodes : List Node) : Prop :=
  ∀ ⦃done todo i j marks⦄, ws = done ++ todo → Place ws done i →
    walk (textOf ws) r (textEnd ws) i = some (j, marks) →
      ∃ counts, IsLeast {counts | Takes nodes counts todo} counts ∧
        marks.map (markSpan (unwords ws).toList) = memoSpans ws done.length nodes counts

/-- From where a word ends, the expression reaches the end of the text if the parts can spell the
words to come. -/
def Completes (ws : List String) (r : Regex) (nodes : List Node) : Prop :=
  ∀ ⦃done todo counts⦄, ws = done ++ todo → done ≠ [] → Takes nodes counts todo →
    (viable (textOf ws) r (textEnd ws)).has (unwords done).toList.length = true

theorem completes_empty : Completes ws .empty [] := by
  intro done todo counts split hdone htakes
  cases htakes
  rw [List.append_nil] at split
  exact has_tabulate_size.mpr (split ▸ rfl)

variable (hws : ∀ w ∈ ws, IsNormalWord w)

include hws

theorem dividesLeast_empty : DividesLeast ws .empty [] := by
  intro done todo i j marks split hplace hwalk
  obtain ⟨hhas, heq⟩ := Option.ite_none_right_eq_some.mp hwalk
  cases heq
  obtain rfl := has_tabulate_size.mp hhas
  obtain rfl := eq_of_place_size hws hplace
  obtain rfl := List.self_eq_append_right.mp split
  exact ⟨[], Takes.isLeast_nil, rfl⟩

variable {r : Regex} {nodes : List Node}

theorem DividesLeast.blank (h : DividesLeast ws r nodes) :
    DividesLeast ws (.seq .blank r) (.space :: nodes) := by
  intro done todo i j marks split hplace hwalk
  obtain ⟨k, before, after, hblank, hrest, rfl⟩ := walk_seq_eq_some.mp hwalk
  obtain rfl := eq_nil_of_walk rfl hblank
  have hplace' : Place ws done k := by
    rcases (matches_of_walk_eq_some hblank).1 with ⟨hat, rfl⟩ | rfl
    · exact place_of_isBlank hws hplace hat
    · exact hplace
  obtain ⟨counts, hleast, hspans⟩ := h split hplace' hrest
  exact ⟨counts, by simpa only [Takes.space_iff] using hleast, hspans⟩

omit hws in
theorem Completes.blank {L : Language String} (h : Faithful ws r L)
    (spelled : ∀ counts us, Takes nodes counts us → us ∈ L) :
    Completes ws (.seq .blank r) (.space :: nodes) := by
  intro done todo counts split hdone htakes
  have hmem := spelled counts todo (Takes.space_iff.mp htakes)
  refine (has_viable _ within_tabulate_size _).mpr ⟨_, ?_, has_tabulate_size.mpr rfl⟩
  have hsome : done = [] → todo = [] := fun hnil => absurd hnil hdone
  by_cases hne : todo = []
  · subst hne
    rw [List.append_nil] at split
    subst split
    exact ⟨_, .inr rfl, h.complete_nil hmem (.stop (List.append_nil ws).symm hsome)⟩
  · have hmatch := h.complete hmem hne (show ws = done ++ todo ++ [] by simp [split])
    rw [length_ahead hdone, ← split] at hmatch
    exact ⟨_, .inl ⟨split ▸ (isBlank_stop_iff hsome).mpr hne, rfl⟩, hmatch⟩

theorem DividesLeast.words (h : DividesLeast ws r nodes) {us : List String} (hne : us ≠ [])
    (each : ∀ u ∈ us, Grammar.Word u.toList) :
    DividesLeast ws (.seq (.seq (.literal (unwords us)) .boundary) r) (.words us :: nodes) := by
  intro done todo i j marks split hplace hwalk
  obtain ⟨k, before, after, hwords, hrest, rfl⟩ := walk_seq_eq_some.mp hwalk
  obtain rfl := eq_nil_of_walk rfl hwords
  obtain ⟨-, ⟨hat, rfl⟩, hboundary, rfl⟩ := (matches_of_walk_eq_some hwords).1
  obtain ⟨rest, hsplit, hstop⟩ := Faithful.stop_of_literal hws hne each hplace hat hboundary
  obtain rfl : todo = us ++ rest := by
    rw [split, List.append_assoc] at hsplit
    exact List.append_cancel_left hsplit
  have hplace' : Place ws (done ++ us) (i + (unwords us).length) := by
    rw [hstop]
    exact .stop hsplit fun hnil => absurd (List.append_eq_nil_iff.mp hnil).2 hne
  obtain ⟨counts, hleast, hspans⟩ := h hsplit hplace' hrest
  rw [List.length_append] at hspans
  exact ⟨counts, Takes.isLeast_words hleast, hspans⟩

/-- A run of words is one of the next words, and has as few of them as possible. -/
theorem exists_taken {w : Wildcard} {goal : Places} {done todo : List String} {i j : Nat}
    {marks : List Mark} (split : ws = done ++ todo) (hplace : Place ws done i)
    (hwalk : walk (textOf ws) (.words w.kind w.min w.max) goal i = some (j, marks)) :
    ∃ us rest, us ∈ w.language ∧ us ≠ [] ∧ todo = us ++ rest ∧ i = (ahead done).length ∧
      j = (unwords (done ++ us)).toList.length ∧
      ∀ vs rest, todo = vs ++ rest → vs ∈ w.language →
        goal.has (unwords (done ++ vs)).toList.length = true → us.length ≤ vs.length := by
  obtain ⟨k, hk, heq⟩ := Option.map_eq_some_iff.mp hwalk
  cases heq
  obtain ⟨-, n, hmin, hmost, hrun, hleast⟩ := exists_least_run_of_wordsEnd? hk
  have hstart := start_of_run hrun hplace
  obtain ⟨us, rest, rfl, hus, hsplit, hstop⟩ := stop_of_run hws hrun hplace
  refine ⟨us, rest, ⟨hmin, Wildcard.le_most hmost, hus⟩, List.ne_nil_of_length_pos hrun.pos, ?_,
    hstart, hstop, ?_⟩
  · rw [split, List.append_assoc] at hsplit
    exact List.append_cancel_left hsplit
  · rintro vs rest rfl ⟨hmin', hmost', hvs⟩ hgoal
    have hne : vs ≠ [] := List.ne_nil_of_length_pos (Nat.le_trans w.min_pos hmin')
    have hrun' := run_of_acceptsWord hws hne hvs (show ws = done ++ vs ++ rest by simp [split])
    exact hleast vs.length _ hmin' (fun most h => .inr (hmost' most h)) (hstart ▸ hrun') hgoal

/-- The wildcard takes the first words that leave some to the rest that they can spell. -/
theorem DividesLeast.taken (h : DividesLeast ws r nodes) (h' : Completes ws r nodes)
    {w : Wildcard} {done todo : List String} {i j k : Nat} {before after : List Mark}
    (split : ws = done ++ todo) (hplace : Place ws done i)
    (hwalk : walk (textOf ws) (.words w.kind w.min w.max) (viable (textOf ws) r (textEnd ws)) i =
      some (j, before))
    (hrest : walk (textOf ws) r (textEnd ws) j = some (k, after)) :
    ∃ n counts, IsLeast {counts | Takes (.wildcard w :: nodes) counts todo} (n :: counts) ∧
      after.map (markSpan (unwords ws).toList) = memoSpans ws (done.length + n) nodes counts ∧
      ∀ index, markSpan (unwords ws).toList (index, i, j) =
        (wordStart (ws.take done.length), wordStop (ws.take (done.length + n))) := by
  obtain ⟨us, rest, hus, hne, rfl, hstart, hstop, hleast⟩ := exists_taken hws split hplace hwalk
  have hsplit : ws = done ++ us ++ rest := by rw [split, List.append_assoc]
  have hall : done ++ us ≠ [] := List.append_ne_nil_of_right_ne_nil done hne
  have hplace' : Place ws (done ++ us) j := hstop ▸ .stop hsplit fun hnil => absurd hnil hall
  obtain ⟨counts, hcounts, hspans⟩ := h hsplit hplace' hrest
  refine ⟨us.length, counts, Takes.isLeast_wildcard hus ?_ hcounts, ?_, fun index => ?_⟩
  · intro vs rest' counts' hvs hmem htakes
    have hne' : vs ≠ [] := List.ne_nil_of_length_pos (Nat.le_trans w.min_pos hmem.1)
    refine hleast vs rest' hvs hmem (h' ?_ (List.append_ne_nil_of_right_ne_nil done hne') htakes)
    rw [split, hvs, List.append_assoc]
  · rwa [List.length_append] at hspans
  · subst hstart hstop
    rw [← List.length_append, hsplit, List.take_left, List.append_assoc, List.take_left, markSpan]
    refine Prod.ext ?_ ?_
    · exact byteSize_take_start (List.append_ne_nil_of_left_ne_nil hne rest)
    · rw [← List.append_assoc]
      exact byteSize_take_stop fun hnil => absurd hnil hall

theorem DividesLeast.wildcard (h : DividesLeast ws r nodes) (h' : Completes ws r nodes)
    (w : Wildcard) :
    DividesLeast ws (.seq (.words w.kind w.min w.max) r) (.wildcard w :: nodes) := by
  intro done todo i j marks split hplace hwalk
  obtain ⟨k, before, after, hwords, hrest, rfl⟩ := walk_seq_eq_some.mp hwalk
  obtain rfl := eq_nil_of_walk rfl hwords
  obtain ⟨n, counts, hleast, hspans, -⟩ := h.taken hws h' split hplace hwords hrest
  exact ⟨n :: counts, hleast, hspans⟩

theorem DividesLeast.memo (h : DividesLeast ws r nodes) (h' : Completes ws r nodes)
    (w : Wildcard) (index : Nat) :
    DividesLeast ws (.seq (.capture index (.words w.kind w.min w.max)) r)
      (.memo (.wildcard w) :: nodes) := by
  intro done todo i j marks split hplace hwalk
  obtain ⟨k, before, after, hgroup, hrest, rfl⟩ := walk_seq_eq_some.mp hwalk
  obtain ⟨inside, hwords, rfl⟩ := walk_capture_eq_some.mp hgroup
  obtain rfl := eq_nil_of_walk rfl hwords
  obtain ⟨n, counts, hleast, hspans, hspan⟩ := h.taken hws h' split hplace hwords hrest
  refine ⟨n :: counts, by simpa only [Takes.memo_iff] using hleast, ?_⟩
  rw [List.cons_append, List.nil_append, List.map_cons, hspan, hspans, memoSpans]

end Ways

/-! ## Trees -/

section Trees

variable {ws : List String} (hws : ∀ w ∈ ws, IsNormalWord w) {resolve : Resolver} {first : Nat}

include hws

theorem Node.Inline.dividesLeast {node : Node} (head : node.Inline) {one r : Regex}
    {nodes : List Node} (hone : node.regex resolve first = .ok one) (h : DividesLeast ws r nodes)
    (h' : Completes ws r nodes) : DividesLeast ws (.seq one r) (node :: nodes) := by
  cases head with
  | words shaped =>
    obtain rfl := Except.ok.inj hone
    cases shaped with
    | words some each => exact h.words hws some each
  | wildcard w =>
    obtain rfl := Except.ok.inj hone
    exact h.wildcard hws h' w
  | memo w =>
    obtain rfl := Except.ok.inj hone
    exact h.memo hws h' w first

theorem Sequence.Inline.dividesLeast {nodes : Sequence} (h : Sequence.Inline nodes) {r : Regex}
    (hr : Sequence.regex resolve first nodes = .ok r) : DividesLeast ws r nodes := by
  induction h generalizing first r with
  | last head =>
    obtain ⟨one, hone, rfl⟩ := Sequence.regex_last.mp hr
    exact head.dividesLeast hws hone (dividesLeast_empty hws) completes_empty
  | @next node nodes head tail ih =>
    obtain ⟨one, rest, hone, hrest, rfl⟩ := Sequence.regex_next.mp hr
    have hfaithful : Faithful ws rest (Sequence.language (fun _ _ => 0) nodes) :=
      (Sequence.Inline.shaped tail).faithful hws
        (by rw [Sequence.Inline.references_eq_nil tail]; exact fun x hx => nomatch hx) hrest
    exact head.dividesLeast hws hone ((ih hrest).blank hws)
      (.blank hfaithful fun counts us htakes => htakes.mem_language _)

end Trees

/-! ## Patterns -/

section Flat

variable [SizeLimit] {raw : String} {build now : Bindings} {p : Pattern} {tree : Sequence}
  {ws : List String} {captures : List Pattern.Capture}

theorem isLeast_of_captures? (h : Pattern.ofText? raw build = .ok p)
    (flat : ∀ tree ∈ p.tree?, Sequence.isFlat tree = true) (hws : ∀ w ∈ ws, IsNormalWord w)
    (hcaptures : p.captures? now (unwords ws) = some captures) :
    (p.tree? = none ∧ captures = []) ∨
      ∃ tree counts, p.tree? = some tree ∧ IsLeast {counts | Takes tree counts ws} counts ∧
        captures = (memoSpans ws 0 tree counts).mapIdx fun index span => ⟨index, some span⟩ := by
  refine (exists_compile_of_captures? h hcaptures).imp_right ?_
  rintro ⟨tree, r, htree, hread, hcompile, hregex⟩
  have hinline := inline_of_parse? hread (flat tree htree)
  have hnumbers := Sequence.captureIndices_compile hcompile
  obtain ⟨s, hs, -, rfl⟩ := Sequence.compile_eq_ok_iff.mp hcompile
  have hchoice := hinline.hasChoice_regex hs
  rw [factored_of_hasChoice hchoice] at hregex hnumbers
  obtain ⟨j, marks, hwalk, rfl⟩ := captures_of_hasChoice hchoice hnumbers hregex
  obtain ⟨counts, hleast, hspans⟩ :=
    hinline.dividesLeast hws hs (List.nil_append ws).symm (place_zero ws) hwalk
  exact ⟨tree, counts, htree, hleast, congrArg _ hspans⟩

/-- A pattern that refers to nothing does not wait for anything: it was compiled when it was read,
or else its text would have been refused. -/
theorem exists_compile_of_references_eq_nil (h : Pattern.ofText? raw build = .ok p)
    (htree : p.tree? = some tree) (none : Sequence.references tree = []) :
    ∃ r, ∀ b, tree.compile b = .ok r := by
  obtain ⟨s, hs⟩ : ∃ s, Sequence.regex build.resolve 0 tree = .ok s :=
    Sequence.exists_regex tree 0 (by rw [none]; exact fun x hx => nomatch hx)
  have hsame : ∀ b, tree.compile b = tree.compile build := fun b =>
    Sequence.compile_congr (by rw [none]; exact fun x hx => nomatch hx)
  cases hsize : SizeLimit.refuses s with
  | false =>
    refine ⟨s.factored, fun b => (hsame b).trans ?_⟩
    exact Sequence.compile_eq_ok_iff.mpr ⟨s, hs, hsize, rfl⟩
  | true =>
    have hcompile := Sequence.compile_of_refuses hs hsize
    obtain rfl | ⟨tree', htree', hread⟩ := tree?_of_read? h
    · cases htree
    · cases htree.symm.trans htree'
      have hrefused := (read?_eq hread).symm.trans h
      rw [hcompile] at hrefused
      cases hrefused

theorem isSome_captures?_of_takes (h : Pattern.ofText? raw build = .ok p)
    (htree : p.tree? = some tree) (flat : Sequence.isFlat tree = true)
    (hws : ∀ w ∈ ws, IsNormalWord w) {counts : List Nat} (htakes : Takes tree counts ws)
    (now : Bindings) : (p.captures? now (unwords ws)).isSome = true := by
  obtain rfl | ⟨tree', htree', hread⟩ := tree?_of_read? h
  · cases htree
  cases htree.symm.trans htree'
  have hnone := Sequence.Inline.references_eq_nil (inline_of_parse? hread flat)
  obtain ⟨r, hcompile⟩ := exists_compile_of_references_eq_nil h htree hnone
  rw [captures?_eq_bind h htree, hcompile]
  show (Pattern.regexCaptures? r (unwords ws).toList).isSome = true
  rw [Pattern.regexCaptures?, Option.isSome_map]
  exact (matchWhole?_compile_iff hread (hcompile {}) hws fun _ => hnone).mpr
    (htakes.mem_language _)

/-- A pattern without brackets and variables matches a normal text if its wildcards can share the
words of the text, and then it divides them in the least way: each memo remembers the words of its
wildcard for the lexicographically least list of the numbers of words that the wildcards can take.
The empty pattern matches every text and remembers nothing. -/
theorem captures?_eq_some_iff_isLeast (h : Pattern.ofText? raw build = .ok p)
    (flat : ∀ tree ∈ p.tree?, Sequence.isFlat tree = true) (hws : ∀ w ∈ ws, IsNormalWord w) :
    p.captures? now (unwords ws) = some captures ↔
      (p.tree? = none ∧ captures = []) ∨
        ∃ tree counts, p.tree? = some tree ∧ IsLeast {counts | Takes tree counts ws} counts ∧
          captures = (memoSpans ws 0 tree counts).mapIdx fun index span => ⟨index, some span⟩ := by
  refine ⟨isLeast_of_captures? h flat hws, ?_⟩
  rintro (⟨hnone, rfl⟩ | ⟨tree, counts, htree, hleast, rfl⟩)
  · cases p with
    | anything => rfl
    | ready => cases hnone
    | deferred => cases hnone
  · obtain ⟨captures, hcaptures⟩ := Option.isSome_iff_exists.mp
      (isSome_captures?_of_takes h htree (flat tree htree) hws hleast.1 now)
    rcases isLeast_of_captures? h flat hws hcaptures with
      ⟨hnone, -⟩ | ⟨tree', counts', htree', hleast', rfl⟩
    · cases htree.symm.trans hnone
    · cases htree.symm.trans htree'
      rw [hleast.unique hleast', hcaptures]

end Flat

section Example

attribute [local instance] SizeLimit.byWeight

/-- The text has the literal word twice, and the first wildcard ends before the first of them. -/
theorem captures?_eq_some_iff_isLeast_twice :
    ∃ p tree counts, Pattern.ofText? "_* is _*" {} = .ok p ∧ p.tree? = some tree ∧
      Takes tree [2, 1] ["what", "is", "is", "it"] ∧
      IsLeast {counts | Takes tree counts ["what", "is", "is", "it"]} counts ∧
      [⟨0, some (0, 4)⟩, ⟨1, some (8, 13)⟩] =
        (memoSpans ["what", "is", "is", "it"] 0 tree counts).mapIdx
          fun index span => (⟨index, some span⟩ : Pattern.Capture) := by
  obtain ⟨p, hread, hcaptures, htree⟩ : ∃ p, Pattern.ofText? "_* is _*" {} = .ok p ∧
      p.captures? {} (unwords ["what", "is", "is", "it"]) =
        some [⟨0, some (0, 4)⟩, ⟨1, some (8, 13)⟩] ∧
      p.tree? = some [.memo (.wildcard (.clamp .any 1 none)), .space, .words ["is"], .space,
        .memo (.wildcard (.clamp .any 1 none))] := ⟨_, rfl, rfl, rfl⟩
  have hws : ∀ w ∈ ["what", "is", "is", "it"], IsNormalWord w := by
    intro w hw
    simp only [List.mem_cons, List.not_mem_nil, or_false] at hw
    rcases hw with rfl | rfl | rfl | rfl <;> exact ⟨by decide, List.all_eq_true.mp rfl⟩
  have hflat : ∀ tree ∈ p.tree?, Sequence.isFlat tree = true := by
    rw [htree]
    rintro tree ⟨⟩
    rfl
  obtain ⟨tree, counts, htree', hleast, hspans⟩ :=
    ((captures?_eq_some_iff_isLeast hread hflat hws).mp hcaptures).resolve_left fun hnone => by
      cases htree.symm.trans hnone.1
  cases htree.symm.trans htree'
  refine ⟨p, _, counts, hread, htree, ?_, hleast, hspans⟩
  have htwo : ["what", "is"] ∈ (Wildcard.clamp .any 1 none).language :=
    ⟨by decide, fun _ h => absurd h (Option.not_mem_none _),
      fun u hu => (hws u (List.mem_append_left ["is", "it"] hu)).wordChars⟩
  have hone : ["it"] ∈ (Wildcard.clamp .any 1 none).language :=
    ⟨by decide, fun _ h => absurd h (Option.not_mem_none _),
      fun u hu => (hws u (List.mem_append_right ["what", "is", "is"] hu)).wordChars⟩
  exact .memo (.wildcard htwo (.space (.words (.space (.memo (.wildcard hone .nil))))))

end Example

end Repartee.Pattern
