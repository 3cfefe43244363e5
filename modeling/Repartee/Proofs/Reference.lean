import Mathlib.Data.List.TakeWhile
import Repartee.Reference

/-!
# Cutting a text at its references

The first opening bracket that is closed on its line begins a reference, which ends at the nearest
closing bracket, and the text behind it is cut in the same way (`Piece.Cuts`). This says of a text
where its references are, without saying how they are found.

Every text can be cut (`Piece.exists_cuts`), and in one way only (`Piece.Cuts.unique`), which is the
one in which it is split (`Piece.Cuts.piecesAfter_eq`). Whether a bracket is closed is decided by
all of the line behind it, so a stretch of plain text is plain only in view of what follows it
(`Piece.Unmarked`).
-/

namespace Repartee.Piece

/-! ## Brackets -/

/-- In the text behind an opening bracket, there is a closing one on the same line. -/
def Closed (cs : List Char) : Prop :=
  ∃ between rest, cs = between ++ '>' :: rest ∧ '\n' ∉ between

/-- No opening bracket in `front` is closed on its line, where `rest` follows. -/
def Unmarked (front rest : List Char) : Prop :=
  ∀ before behind, front = before ++ '<' :: behind → ¬ Closed (behind ++ rest)

theorem unmarked_nil (rest : List Char) : Unmarked [] rest :=
  fun before behind h => absurd h.symm (List.append_ne_nil_of_right_ne_nil before (by simp))

theorem unmarked_cons_iff {c : Char} {front rest : List Char} :
    Unmarked (c :: front) rest ↔ (c = '<' → ¬ Closed (front ++ rest)) ∧ Unmarked front rest := by
  constructor
  · refine fun h => ⟨?_, fun before behind heq => ?_⟩
    · rintro rfl
      exact h [] front rfl
    · exact h (c :: before) behind (by rw [heq, List.cons_append])
  · rintro ⟨hfirst, hfront⟩ before behind heq
    cases before with
    | nil =>
      obtain ⟨rfl, rfl⟩ := List.cons.inj heq
      exact hfirst rfl
    | cons c' before =>
      obtain ⟨-, heq⟩ := List.cons.inj heq
      exact hfront before behind heq

/-- A reference is what stands in front of the nearest closing bracket, if that is on the same
line. -/
theorem referenceAt?_eq_some_iff {cs message : List Char} : referenceAt? cs = some message ↔
    ∃ rest, cs = message ++ '>' :: rest ∧ '>' ∉ message ∧ '\n' ∉ message := by
  let p : Char → Bool := fun c => c != '>' && c != '\n'
  have hreference : referenceAt? cs =
      if (cs.drop (cs.takeWhile p).length).head? = some '>' then some (cs.takeWhile p) else none :=
    rfl
  rw [hreference]
  constructor
  · intro h
    obtain ⟨behind, hbehind⟩ := List.takeWhile_prefix (l := cs) p
    have hinner : ∀ c ∈ cs.takeWhile p, p c = true := fun c hc => List.mem_takeWhile_imp hc
    generalize cs.takeWhile p = front at h hbehind hinner
    split at h
    · rename_i hclosing
      obtain rfl := Option.some.inj h
      rw [← hbehind, List.drop_left, List.head?_eq_some_iff] at hclosing
      obtain ⟨rest, rfl⟩ := hclosing
      refine ⟨rest, hbehind.symm, fun hmem => ?_, fun hmem => ?_⟩
      · cases hinner _ hmem
      · cases hinner _ hmem
    · cases h
  · rintro ⟨rest, rfl, hclosing, hline⟩
    have hmessage : (message ++ '>' :: rest).takeWhile p = message := by
      rw [List.takeWhile_append_of_pos, List.takeWhile_cons_of_neg (by decide), List.append_nil]
      intro c hc
      have hc' : c ≠ '>' ∧ c ≠ '\n' :=
        ⟨ne_of_mem_of_not_mem hc hclosing, ne_of_mem_of_not_mem hc hline⟩
      simp [p, hc']
    rw [hmessage, List.drop_left]
    exact if_pos rfl

theorem closed_iff {cs : List Char} : Closed cs ↔ ∃ message, referenceAt? cs = some message := by
  constructor
  · rintro ⟨between, rest, rfl, hline⟩
    obtain ⟨message, rest', hsplit, hclosing⟩ := List.eq_append_cons_of_mem
      (List.mem_append_right between (List.mem_cons_self (a := '>') (l := rest)))
    refine ⟨message, referenceAt?_eq_some_iff.mpr ⟨rest', hsplit, hclosing, fun hmem => ?_⟩⟩
    -- the nearest closing bracket is not behind the one that is on this line
    rcases List.append_eq_append_iff.mp hsplit with ⟨more, rfl, hmore⟩ | ⟨more, rfl, -⟩
    · cases more with
      | nil => exact hline (by simpa using hmem)
      | cons c more =>
        obtain ⟨rfl, -⟩ := List.cons.inj hmore
        exact hclosing (List.mem_append_right between List.mem_cons_self)
    · exact hline (List.mem_append_left more hmem)
  · rintro ⟨message, h⟩
    obtain ⟨rest, heq, -, hline⟩ := referenceAt?_eq_some_iff.mp h
    exact ⟨message, rest, heq, hline⟩

theorem not_closed_iff {cs : List Char} : ¬ Closed cs ↔ referenceAt? cs = none := by
  rw [closed_iff, ← Option.isSome_iff_exists, Option.not_isSome_iff_eq_none]

/-! ## Cuts -/

/-- The references of a text, each with the plain text in front of it, and the plain text behind the
last one. -/
inductive Cuts : List Char → List (List Char × String) → List Char → Prop
  | plain {last : List Char} (unmarked : Unmarked last []) : Cuts last [] last
  | reference {front rest last : List Char} {message : String} {cuts : List (List Char × String)}
      (unmarked : Unmarked front ('<' :: (message.toList ++ '>' :: rest)))
      (nearest : '>' ∉ message.toList) (inline : '\n' ∉ message.toList)
      (tail : Cuts rest cuts last) :
      Cuts (front ++ '<' :: (message.toList ++ '>' :: rest)) ((front, message) :: cuts) last

/-- The pieces of a text that is cut in this way. -/
def ofCuts (cuts : List (List Char × String)) (last : List Char) : List Piece :=
  (cuts.flatMap fun cut => cut.1.map plain ++ [reference cut.2]) ++ last.map plain

theorem ofCuts_cons (front : List Char) (message : String) (cuts : List (List Char × String))
    (last : List Char) : ofCuts ((front, message) :: cuts) last =
      front.map plain ++ reference message :: ofCuts cuts last := by
  simp [ofCuts]

/-! ## Texts are split at their cuts -/

theorem piecesAfter_eq (skip : Nat) (cs : List Char) :
    piecesAfter skip cs = piecesAfter 0 (cs.drop skip) := by
  induction skip generalizing cs with
  | zero => rfl
  | succ skip ih =>
    cases cs with
    | nil => rfl
    | cons c cs => exact ih cs

theorem piecesAfter_append_of_unmarked {front rest : List Char} (h : Unmarked front rest) :
    piecesAfter 0 (front ++ rest) = front.map plain ++ piecesAfter 0 rest := by
  induction front with
  | nil => rfl
  | cons c front ih =>
    obtain ⟨hfirst, hfront⟩ := unmarked_cons_iff.mp h
    rw [List.map_cons, List.cons_append, List.cons_append, ← ih hfront, piecesAfter]
    split
    · rename_i hopening
      rw [not_closed_iff.mp (hfirst hopening)]
    · rfl

theorem piecesAfter_reference {message : String} (nearest : '>' ∉ message.toList)
    (inline : '\n' ∉ message.toList) (rest : List Char) :
    piecesAfter 0 ('<' :: (message.toList ++ '>' :: rest)) =
      reference message :: piecesAfter 0 rest := by
  have hfound : referenceAt? (message.toList ++ '>' :: rest) = some message.toList :=
    referenceAt?_eq_some_iff.mpr ⟨rest, rfl, nearest, inline⟩
  have hbehind : (message.toList ++ '>' :: rest).drop (message.toList.length + 1) = rest := by
    rw [← List.drop_drop, List.drop_left]
    rfl
  rw [piecesAfter, if_pos rfl, hfound]
  simp only [String.ofList_toList, piecesAfter_eq _ (message.toList ++ '>' :: rest), hbehind]

theorem Cuts.piecesAfter_eq {cs last : List Char} {cuts : List (List Char × String)}
    (h : Cuts cs cuts last) : piecesAfter 0 cs = ofCuts cuts last := by
  induction h with
  | @plain last unmarked =>
    have hall := piecesAfter_append_of_unmarked unmarked
    rw [List.append_nil] at hall
    rw [hall]
    exact List.append_nil _
  | reference unmarked nearest inline tail ih =>
    rw [piecesAfter_append_of_unmarked unmarked, piecesAfter_reference nearest inline, ih,
      ofCuts_cons]

/-! ## Every text has exactly one cut -/

/-- A text has no reference, or else it has a first one. -/
theorem unmarked_or_exists (cs : List Char) : Unmarked cs [] ∨ ∃ front behind,
    cs = front ++ '<' :: behind ∧ Closed behind ∧ Unmarked front ('<' :: behind) := by
  induction cs with
  | nil => exact .inl (unmarked_nil [])
  | cons c cs ih =>
    by_cases hfirst : c = '<' ∧ Closed cs
    · obtain ⟨rfl, hclosed⟩ := hfirst
      exact .inr ⟨[], cs, rfl, hclosed, unmarked_nil _⟩
    · have hplain : c = '<' → ¬ Closed cs := fun hc hclosed => hfirst ⟨hc, hclosed⟩
      rcases ih with hnone | ⟨front, behind, rfl, hclosed, hfront⟩
      · refine .inl (unmarked_cons_iff.mpr ⟨?_, hnone⟩)
        rwa [List.append_nil]
      · exact .inr ⟨c :: front, behind, rfl, hclosed, unmarked_cons_iff.mpr ⟨hplain, hfront⟩⟩

theorem exists_cuts (cs : List Char) : ∃ cuts last, Cuts cs cuts last := by
  rcases unmarked_or_exists cs with hnone | ⟨front, behind, heq, hclosed, hfront⟩
  · exact ⟨[], cs, .plain hnone⟩
  · obtain ⟨message, hmessage⟩ := closed_iff.mp hclosed
    obtain ⟨rest, rfl, nearest, inline⟩ := referenceAt?_eq_some_iff.mp hmessage
    have hshorter : rest.length < cs.length := by
      rw [heq]
      simp only [List.length_append, List.length_cons]
      omega
    obtain ⟨cuts, last, hcuts⟩ := exists_cuts rest
    rw [heq]
    rw [← String.toList_ofList (l := message)] at hfront nearest inline ⊢
    exact ⟨_, last, .reference hfront nearest inline hcuts⟩
termination_by cs.length

theorem eq_of_append_reference_eq {front front' : List Char} {message message' : String}
    {pieces pieces' : List Piece} (h : front.map plain ++ reference message :: pieces =
      front'.map plain ++ reference message' :: pieces') :
    front = front' ∧ message = message' ∧ pieces = pieces' := by
  induction front generalizing front' with
  | nil =>
    cases front' with
    | nil =>
      obtain ⟨hmessage, hpieces⟩ := List.cons.inj h
      exact ⟨rfl, reference.inj hmessage, hpieces⟩
    | cons c' front' => cases h
  | cons c front ih =>
    cases front' with
    | nil => cases h
    | cons c' front' =>
      obtain ⟨hc, hbehind⟩ := List.cons.inj h
      obtain ⟨rfl, hrest⟩ := ih hbehind
      exact ⟨congrArg (· :: front) (plain.inj hc), hrest⟩

theorem ofCuts_ne_map_plain (front : List Char) (message : String)
    (cuts : List (List Char × String)) (last last' : List Char) :
    ofCuts ((front, message) :: cuts) last ≠ last'.map plain := by
  intro h
  have hmem : reference message ∈ last'.map plain := by
    rw [← h, ofCuts_cons]
    exact List.mem_append_right _ List.mem_cons_self
  obtain ⟨c, -, hc⟩ := List.mem_map.mp hmem
  cases hc

/-- The pieces of a text tell how it is cut. -/
theorem eq_of_ofCuts_eq {cuts cuts' : List (List Char × String)} {last last' : List Char}
    (h : ofCuts cuts last = ofCuts cuts' last') : cuts = cuts' ∧ last = last' := by
  induction cuts generalizing cuts' with
  | nil =>
    cases cuts' with
    | nil => exact ⟨rfl, (List.map_inj_right fun _ _ => plain.inj).mp h⟩
    | cons cut' cuts' => exact absurd h.symm (ofCuts_ne_map_plain _ _ _ _ _)
  | cons cut cuts ih =>
    cases cuts' with
    | nil => exact absurd h (ofCuts_ne_map_plain _ _ _ _ _)
    | cons cut' cuts' =>
      rw [ofCuts_cons, ofCuts_cons] at h
      obtain ⟨hfront, hmessage, hrest⟩ := eq_of_append_reference_eq h
      obtain ⟨rfl, hlast⟩ := ih hrest
      exact ⟨congrArg (· :: cuts) (Prod.ext hfront hmessage), hlast⟩

theorem Cuts.unique {cs last last' : List Char} {cuts cuts' : List (List Char × String)}
    (h : Cuts cs cuts last) (h' : Cuts cs cuts' last') : cuts = cuts' ∧ last = last' :=
  eq_of_ofCuts_eq (h.piecesAfter_eq.symm.trans h'.piecesAfter_eq)

/-- The second bracket is part of the first reference, and the last one is not closed on its line.
-/
example : split "a <b <c> d> <e\n>" = ofCuts [("a ".toList, "b <c")] " d> <e\n>".toList := by
  decide

end Repartee.Piece
