import Repartee.Proofs.Pattern.Targets
import Repartee.Proofs.Text.Stretches

/-!
# The words that memos take in

What a memo takes in are whole words of the text, from the beginning of a word on. It may have taken
in the white space behind them as well, but only if the part behind its marker can end with one that
stands for no words (`Node.Trails`), as that white space then still belongs to the part
(`captures_whole_words`).
-/

namespace Repartee.Pattern

open Repartee.Unicode Repartee.Text Regex

/-! ## Parts that end with white space -/

section Trails

variable (value : VariableKind → String → Language String) (trails : VariableKind → String → Prop)

mutual

/-- What the part matches may end with white space. -/
def Node.Trails : Node → Prop
  | .space => True
  | .memo node => node.Trails
  | .reference kind name => trails kind name
  | .choice _ alternatives => alternativesTrail alternatives
  | .wildcard _ | .words _ => False

/-- One of the parts may end with white space, and those behind it stand for no words at times. -/
def Sequence.Trails : List Node → Prop
  | [] => False
  | node :: nodes =>
    Sequence.Trails nodes ∨ ([] ∈ Sequence.language value nodes ∧ node.Trails)

def alternativesTrail : List (List Node) → Prop
  | [] => False
  | alternative :: rest => Sequence.Trails alternative ∨ alternativesTrail rest

end

end Trails

/-- The value of the variable, read as a simple pattern, may end with white space. -/
def Bindings.Trails (b : Bindings) (kind : VariableKind) (name : String) : Prop :=
  ∃ content tree, b.lookup kind name = some (.text content) ∧ parse? .simple content = .ok tree ∧
    Sequence.Trails (fun _ _ => 0) (fun _ _ => False) tree

section TrailsOnly

variable {ws : List String}

/-- The expression matches up to white space only if it may. -/
def TrailsOnly (ws : List String) (r : Regex) (may : Prop) : Prop :=
  ∀ ⦃done i j⦄, Place ws done i → r.Matches (textOf ws) i j → i < j →
    holdsAt (textOf ws) isBlank (j - 1) = true → may

/-- An expression that matches nothing stands for no words at times. -/
theorem Regex.Faithful.nil_mem {r : Regex} {L : Language String} (h : Faithful ws r L)
    (hws : ∀ w ∈ ws, IsNormalWord w) {done : List String} {i : Nat} (hplace : Place ws done i)
    (hmatch : r.Matches (textOf ws) i i) : [] ∈ L := by
  obtain ⟨us, hus, hplace'⟩ := h.sound hplace hmatch
  by_cases hne : us = []
  · exact hne ▸ hus
  · exact absurd (hplace.lt hws hplace' hne) (Nat.lt_irrefl i)

variable {resolve : Resolver} {value : VariableKind → String → Language String}
  {trails : VariableKind → String → Prop}

theorem trailsOnly_alternatives {alternatives : List Sequence} (hne : alternatives ≠ [])
    (h : ∀ alternative ∈ alternatives, ∀ first r, Sequence.regex resolve first alternative = .ok r →
      TrailsOnly ws r (Sequence.Trails value trails alternative)) {first : Nat} {r : Regex}
    (hr : alternativesRegex resolve first alternatives = .ok r) :
    TrailsOnly ws r (alternativesTrail value trails alternatives) := by
  induction alternatives generalizing first r with
  | nil => exact absurd rfl hne
  | cons alternative rest ih =>
    obtain ⟨hhead, hrest⟩ := List.forall_mem_cons.mp h
    cases rest with
    | nil =>
      intro done i j hplace hmatch hlt hblank
      exact .inl (hhead first r hr hplace hmatch hlt hblank)
    | cons next rest =>
      obtain ⟨one, others, hone, hothers, rfl⟩ :=
        (alternativesRegex_cons (List.cons_ne_nil next rest)).mp hr
      intro done i j hplace hmatch hlt hblank
      rcases hmatch with hmatch | hmatch
      · exact .inl (hhead first one hone hplace hmatch hlt hblank)
      · exact .inr (ih (List.cons_ne_nil next rest) hrest hothers hplace hmatch hlt hblank)

/-- The values of references match up to white space only if they may. -/
def ReferencesTrailOnly (ws : List String) (resolve : Resolver)
    (trails : VariableKind → String → Prop) (names : List (VariableKind × String)) : Prop :=
  ∀ x ∈ names, ∀ r, resolve x.1 x.2 = .ok r → TrailsOnly ws r (trails x.1 x.2)

variable (hws : ∀ w ∈ ws, IsNormalWord w)

include hws

/-- A run of words ends where the last one of them ends. -/
theorem trailsOnly_words (w : Wildcard) :
    TrailsOnly ws (.words w.kind w.min w.max) False := by
  intro done i j hplace hmatch hlt hblank
  obtain ⟨n, -, -, hrun⟩ := hmatch
  obtain ⟨us, todo, hlength, -, hsplit, rfl⟩ := stop_of_run hws hrun hplace
  have hne : us ≠ [] := List.ne_nil_of_length_pos (hlength ▸ hrun.pos)
  rw [isBlank_before_stop hws hsplit (List.append_ne_nil_of_right_ne_nil done hne)] at hblank
  cases hblank

mutual

theorem Node.Shaped.trailsOnly : ∀ {node : Node}, node.Shaped →
    FaithfulReferences ws resolve value node.references →
      ReferencesTrailOnly ws resolve trails node.references →
        ∀ {first r}, node.regex resolve first = .ok r → TrailsOnly ws r (node.Trails value trails)
  | _, .wildcard w => by
    intro _ _ first r hr
    obtain rfl := Except.ok.inj hr
    exact trailsOnly_words hws w
  | _, .words hne each => by
    intro _ _ first r hr done i j hplace hmatch hlt hblank
    obtain rfl := Except.ok.inj hr
    obtain ⟨k, ⟨hat, rfl⟩, hboundary, rfl⟩ := hmatch
    obtain ⟨todo, hsplit, hstop⟩ := Faithful.stop_of_literal hws hne each hplace hat hboundary
    rw [hstop, isBlank_before_stop hws hsplit (List.append_ne_nil_of_right_ne_nil done hne)]
      at hblank
    cases hblank
  | _, .reference kind name => fun _ hrefs _ _ hr => hrefs (kind, name) List.mem_cons_self _ hr
  | _, .memo inner => by
    intro hfaithful hrefs first r hr
    obtain ⟨s, hs, rfl⟩ := Node.regex_memo.mp hr
    have hinner : TrailsOnly ws s _ := inner.trailsOnly hfaithful hrefs hs
    exact hinner
  | _, .choice bracket hne each => by
    intro hfaithful hrefs first r hr
    obtain ⟨s, hs, rfl⟩ := Node.regex_choice.mp hr
    have hinner := trailsOnly_alternatives hne
      (fun alternative ha first r hr => (each alternative ha).trailsOnly
        (fun x hx => hfaithful x (mem_referencesInAlternatives ha x hx))
        (fun x hx => hrefs x (mem_referencesInAlternatives ha x hx)) hr) hs
    cases bracket with
    | group => exact hinner
    | optional =>
      intro done i j hplace hmatch hlt hblank
      rcases hmatch with hmatch | rfl
      · exact hinner hplace hmatch hlt hblank
      · exact absurd hlt (Nat.lt_irrefl _)

theorem Sequence.Shaped.trailsOnly : ∀ {nodes : Sequence}, Sequence.Shaped nodes →
    FaithfulReferences ws resolve value (Sequence.references nodes) →
      ReferencesTrailOnly ws resolve trails (Sequence.references nodes) →
        ∀ {first r}, Sequence.regex resolve first nodes = .ok r →
          TrailsOnly ws r (Sequence.Trails value trails nodes)
  | _, .last head => by
    intro hfaithful hrefs first r hr done i j hplace hmatch hlt hblank
    obtain ⟨one, hone, rfl⟩ := Sequence.regex_last.mp hr
    obtain ⟨k, hmatch, rfl⟩ := hmatch
    exact .inr ⟨rfl, head.trailsOnly (fun x hx => hfaithful x (List.mem_append_left _ hx))
      (fun x hx => hrefs x (List.mem_append_left _ hx)) hone hplace hmatch hlt hblank⟩
  | _, .next head tail => by
    intro hfaithful hrefs first r hr done i j hplace hmatch hlt hblank
    obtain ⟨one, rest, hone, hrest, rfl⟩ := Sequence.regex_next.mp hr
    obtain ⟨k, hfirst, l, hspace, hsecond⟩ := hmatch
    obtain ⟨us, -, hplace'⟩ := (head.faithful hws
      (fun x hx => hfaithful x (List.mem_append_left _ hx)) hone).sound hplace hfirst
    have hplace'' : Place ws (done ++ us) l := by
      rcases hspace with ⟨hspace, rfl⟩ | rfl
      · exact place_of_isBlank hws hplace' hspace
      · exact hplace'
    have hfaithful' : FaithfulReferences ws resolve value _ := fun x hx =>
      hfaithful x (List.mem_append_right _ (List.mem_append_right _ hx))
    rcases Nat.eq_or_lt_of_le hsecond.le with rfl | hlt'
    · -- nothing is left for the parts behind the white space
      exact .inl (.inr ⟨(tail.faithful hws hfaithful' hrest).nil_mem hws hplace'' hsecond, trivial⟩)
    · exact .inl (.inl (tail.trailsOnly hfaithful' (fun x hx => hrefs x
        (List.mem_append_right _ (List.mem_append_right _ hx))) hrest hplace'' hsecond hlt' hblank))

end

end TrailsOnly

theorem trailsOnly_resolve {ws : List String} (hws : ∀ w ∈ ws, IsNormalWord w) {b : Bindings}
    {kind : VariableKind} {name : String} {r : Regex} (h : b.resolve kind name = .ok r) :
    TrailsOnly ws r (b.Trails kind name) := by
  obtain ⟨content, tree, s, hlookup, hread, hs, rfl⟩ := exists_value_of_resolve h
  have hrefs := references_of_simple hread
  have hvalue : TrailsOnly ws s (Sequence.Trails (fun _ _ => 0) (fun _ _ => False) tree) :=
    (shaped_of_parse? hread).trailsOnly hws
      (fun x hx => by rw [hrefs] at hx; cases hx) (fun x hx => by rw [hrefs] at hx; cases hx) hs
  rintro done i j hplace ⟨k, hmatch, -, rfl⟩ hlt hblank
  exact ⟨content, tree, hlookup, hread, hvalue hplace hmatch hlt hblank⟩

/-! ## Stretches of the text -/

/-- A match from a settled place on takes in nothing, or words of the language, and white space
behind them only if it may. -/
theorem stretch_of_matches {ws : List String} (hws : ∀ w ∈ ws, IsNormalWord w) {r : Regex}
    {L : Language String} {may : Prop} (hfaithful : Faithful ws r L) (htrails : TrailsOnly ws r may)
    {i j : Nat} (hsettled : Standing.settled.Holds ws i) (hmatch : r.Matches (textOf ws) i j) :
    (i = j ∧ [] ∈ L) ∨ ∃ done us todo, us ≠ [] ∧ us ∈ L ∧ ws = done ++ us ++ todo ∧
      byteSize ((unwords ws).toList.take i) = wordStart done ∧
      (byteSize ((unwords ws).toList.take j) = wordStop (done ++ us) ∨
        may ∧ todo ≠ [] ∧ byteSize ((unwords ws).toList.take j) = wordStart (done ++ us)) := by
  obtain ⟨⟨done, hplace⟩, hblank⟩ := hsettled
  obtain ⟨us, hus, hplace'⟩ := hfaithful.sound hplace hmatch
  by_cases hne : us = []
  · subst hne
    rw [List.append_nil] at hplace'
    exact .inl ⟨hplace.unique_of_settled hblank hplace' hmatch.le, hus⟩
  · obtain ⟨rfl, todo, rfl, hj⟩ := hplace.split_of_settled hblank hplace' hne
    have hall : done ++ us ≠ [] := List.append_ne_nil_of_right_ne_nil done hne
    have hlt := hplace.lt hws hplace' hne
    refine .inr ⟨done, us, todo, hne, hus, rfl, ?_, ?_⟩
    · rw [List.append_assoc]
      exact byteSize_take_start (List.append_ne_nil_of_left_ne_nil hne todo)
    · rcases hj with rfl | ⟨more, rfl⟩
      · exact .inl (byteSize_take_stop fun hnil => absurd hnil hall)
      · refine .inr ⟨htrails hplace hmatch hlt ?_, more, byteSize_take_start more⟩
        rw [length_ahead hall, Nat.add_sub_cancel]
        exact (isBlank_stop_iff fun hnil => absurd hnil hall).mpr more

/-! ## Captures -/

theorem exists_mark_of_regexCaptures? {r : Regex} {cs : List Char} {captures : List Pattern.Capture}
    (h : Pattern.regexCaptures? r cs = some captures) {c : Pattern.Capture} (hc : c ∈ captures)
    {span : Nat × Nat} (hspan : c.span = some span) :
    ∃ marks m, matchWhole? cs.toArray r = some marks ∧ m ∈ marks ∧ m.1 = c.index ∧
      Pattern.markSpan cs m = span := by
  obtain ⟨marks, hmarks, rfl⟩ := Option.map_eq_some_iff.mp h
  obtain ⟨index, -, rfl⟩ := List.mem_map.mp hc
  obtain ⟨m, hfind, hm⟩ := Option.map_eq_some_iff.mp hspan
  exact ⟨marks, m, hmarks, List.mem_of_find?_eq_some hfind,
    by simpa using List.find?_some hfind, hm⟩

/-- The span of a memo is that of a match of the part behind its marker, from a settled place on. -/
theorem capture_of_memo [SizeLimit] {raw : String} {build now : Bindings} {p : Pattern}
    (h : Pattern.ofText? raw build = .ok p) {ws : List String} (hws : ∀ w ∈ ws, IsNormalWord w)
    {captures : List Pattern.Capture} (hcaptures : p.captures? now (unwords ws) = some captures)
    {c : Pattern.Capture} (hc : c ∈ captures) {start stop : Nat}
    (hspan : c.span = some (start, stop)) :
    ∃ tree target, p.tree? = some tree ∧ (Sequence.memoTargets tree)[c.index]? = some target ∧
      target.Shaped ∧
      ∃ r i j, target.regex (bindingsFor p build now).resolve (c.index + 1) = .ok r ∧
        r.Matches (textOf ws) i j ∧ Standing.settled.Holds ws i ∧
        start = byteSize ((unwords ws).toList.take i) ∧
        stop = byteSize ((unwords ws).toList.take j) := by
  obtain ⟨tree, r, htree, hread, hcompile, hregex⟩ := (exists_compile_of_captures? h hcaptures)
    |>.resolve_left fun hnone => List.ne_nil_of_mem hc hnone.2
  obtain ⟨marks, m, hmarks, hm, hindex, hbytes⟩ := exists_mark_of_regexCaptures? hregex hc hspan
  obtain ⟨target, s, htarget, hs, hmatch, hsettled⟩ :=
    exists_target_of_mem_marks hws hread hcompile hmarks hm
  rw [hindex] at htarget hs
  cases hbytes
  exact ⟨tree, target, htree, htarget,
    (shaped_of_parse? hread).of_mem_memoTargets target (List.mem_of_getElem? htarget), s, m.2.1,
    m.2.2, hs, hmatch, hsettled, rfl, rfl⟩

/-- A memo that took part has taken in nothing, or whole words of the text, or whole words and the
white space behind them if the part behind its marker may end with that. -/
theorem captures_whole_words [SizeLimit] {raw : String} {build now : Bindings} {p : Pattern}
    (h : Pattern.ofText? raw build = .ok p) {ws : List String} (hws : ∀ w ∈ ws, IsNormalWord w)
    {captures : List Pattern.Capture} (hcaptures : p.captures? now (unwords ws) = some captures)
    {c : Pattern.Capture} (hc : c ∈ captures) {start stop : Nat}
    (hspan : c.span = some (start, stop)) :
    start = stop ∨ ∃ done us todo, us ≠ [] ∧ ws = done ++ us ++ todo ∧ start = wordStart done ∧
      ((stop = wordStop (done ++ us) ∧ slice (unwords ws) start stop = unwords us) ∨
        (stop = wordStart (done ++ us) ∧ slice (unwords ws) start stop = unwords us ++ " " ∧
          ∃ tree target, p.tree? = some tree ∧
            (Sequence.memoTargets tree)[c.index]? = some target ∧
            target.Trails (bindingsFor p build now).language
              (bindingsFor p build now).Trails)) := by
  obtain ⟨tree, target, htree, htarget, hshaped, r, i, j, hr, hmatch, hsettled, rfl, rfl⟩ :=
    capture_of_memo h hws hcaptures hc hspan
  by_cases hne : ws = []
  · subst hne
    exact .inl (by simp [unwords])
  have hfaithful := hshaped.faithful hws (fun x _ r hr => faithful_resolve hws hne hr) hr
  have htrails : TrailsOnly ws r (target.Trails _ _) := hshaped.trailsOnly hws
    (fun x _ r hr => faithful_resolve hws hne hr) (fun x _ r hr => trailsOnly_resolve hws hr) hr
  rcases stretch_of_matches hws hfaithful htrails hsettled hmatch with
    ⟨rfl, -⟩ | ⟨done, us, todo, hus, -, rfl, hstart, hstop | ⟨hmay, more, hstop⟩⟩
  · exact .inl rfl
  · refine .inr ⟨done, us, todo, hus, rfl, hstart, .inl ⟨hstop, ?_⟩⟩
    rw [hstart, hstop, slice_words done todo hus]
  · refine .inr ⟨done, us, todo, hus, rfl, hstart, .inr ⟨hstop, ?_, tree, target, htree, htarget,
      hmay⟩⟩
    rw [hstart, hstop, slice_words_blank done hus more]

section Example

attribute [local instance] SizeLimit.byWeight

/-- The optional word is there, and the memo ends behind it. -/
theorem captures_whole_words_optional :
    (∃ p, Pattern.ofText? "_(a [b]) c" {} = .ok p ∧
      p.captures? {} (unwords ["a", "b", "c"]) = some [⟨0, some (0, 3)⟩]) ∧
    ∃ done us todo, us ≠ [] ∧ ["a", "b", "c"] = done ++ us ++ todo ∧ 0 = wordStart done ∧
      3 = wordStop (done ++ us) := by
  obtain ⟨p, hread, hcaptures⟩ : ∃ p, Pattern.ofText? "_(a [b]) c" {} = .ok p ∧
      p.captures? {} (unwords ["a", "b", "c"]) = some [⟨0, some (0, 3)⟩] := ⟨_, rfl, rfl⟩
  refine ⟨⟨p, hread, hcaptures⟩, ?_⟩
  have hws : ∀ w ∈ ["a", "b", "c"], IsNormalWord w := by
    simp only [List.forall_mem_cons]
    exact ⟨⟨by decide, List.all_eq_true.mp rfl⟩, ⟨by decide, List.all_eq_true.mp rfl⟩,
      ⟨by decide, List.all_eq_true.mp rfl⟩, fun w hw => absurd hw List.not_mem_nil⟩
  obtain ⟨done, us, todo, hne, hsplit, hstart, ⟨hstop, -⟩ | ⟨-, hslice, -⟩⟩ :=
    (captures_whole_words hread hws hcaptures List.mem_cons_self rfl).resolve_left (by decide)
  · exact ⟨done, us, todo, hne, hsplit, hstart, hstop⟩
  · have hlast := congrArg (fun s => s.toList.getLast?) hslice
    simp only [String.toList_append, List.getLast?_append] at hlast
    cases hlast

/-- Where the optional word is missing, the memo takes in the white space in front of what comes
next. -/
theorem not_captures_whole_words_optional :
    ∃ p, Pattern.ofText? "_(a [b]) c" {} = .ok p ∧
      p.captures? {} (unwords ["a", "c"]) = some [⟨0, some (0, 2)⟩] ∧
      slice (unwords ["a", "c"]) 0 2 = "a " ∧
      ¬ (0 = 2 ∨ ∃ done us todo, us ≠ [] ∧ ["a", "c"] = done ++ us ++ todo ∧ 0 = wordStart done ∧
        2 = wordStop (done ++ us)) := by
  refine ⟨_, rfl, rfl, rfl, ?_⟩
  rintro (h | ⟨done, us, todo, -, hsplit, -, hstop⟩)
  · cases h
  · have htake : done ++ us = ["a", "c"].take (done ++ us).length := by
      rw [hsplit, List.take_left]
    rw [htake] at hstop
    generalize (done ++ us).length = n at hstop
    match n with
    | 0 => cases hstop
    | 1 => cases hstop
    | n + 2 =>
      rw [List.take_of_length_le (by simp)] at hstop
      cases hstop

end Example

end Repartee.Pattern
