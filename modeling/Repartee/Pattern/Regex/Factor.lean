import Repartee.Pattern.Regex.Basic

/-!
# Common beginnings of alternatives

What all alternatives of a bracket begin with is taken out of them and put in front, up to the first
part that has brackets or a memo in it. The same texts match as before, but the way that is
preferred may be another one: how the common beginning matches is decided first, and an alternative
is chosen only then. `captured_factored` says that no memo is lost or moved.
-/

namespace Repartee.Pattern.Regex

/-- The expressions that stand one after the other. -/
def parts : Regex → List Regex
  | empty => []
  | seq first second => first.parts ++ second.parts
  | r => [r]

def sequence : List Regex → Regex
  | [] => empty
  | r :: rs => seq r (sequence rs)

/-- One of the alternatives, an earlier one rather than a later one. -/
def choice : List Regex → Regex
  | [] => empty
  | [r] => r
  | r :: rs => alt r (choice rs)

/-- The expression has neither brackets nor memos. A run of words has brackets around what is
repeated, unless it is a single word. -/
def isPlain : Regex → Bool
  | literal _ | boundary | blank => true
  | words _ _ max => max = some 1
  | empty | seq _ _ | alt _ _ | optional _ | group _ | capture _ _ => false

/-- The plain parts that both sequences begin with. -/
def commonParts : List Regex → List Regex → List Regex
  | r :: rs, s :: ss => if r = s ∧ r.isPlain then r :: commonParts rs ss else []
  | _, _ => []

/-- The parts that all sequences begin with, which are plain if there are at least two. -/
def commonFront : List (List Regex) → List Regex
  | [] => []
  | [ps] => ps
  | ps :: rest => commonParts ps (commonFront rest)

/-- One of the alternatives, with their common beginning put in front. -/
def sharedChoice : List Regex → Regex
  | [] => empty
  | [r] => r
  | r :: s :: rest =>
    let alternatives := r :: s :: rest
    let front := commonFront (alternatives.map parts)
    seq (sequence front)
      (choice (alternatives.map fun r => sequence (r.parts.drop front.length)))

/-- The alternatives of an expression, in all inner choices of which the common beginnings are put
in front. -/
def alternatives : Regex → List Regex
  | alt first second => first.alternatives ++ second.alternatives
  | seq first second => [seq (sharedChoice first.alternatives) (sharedChoice second.alternatives)]
  | optional inner => [optional (sharedChoice inner.alternatives)]
  | group inner => [group (sharedChoice inner.alternatives)]
  | capture index inner => [capture index (sharedChoice inner.alternatives)]
  | r => [r]

/-- The expression, in all choices of which the common beginnings are put in front. -/
def factored (r : Regex) : Regex :=
  sharedChoice r.alternatives

/-! ## Memos -/

theorem captured_of_isPlain {r : Regex} (h : r.isPlain) : r.captured = [] := by
  cases r <;> simp_all [isPlain, captured]

theorem captured_parts (r : Regex) : r.parts.flatMap captured = r.captured := by
  induction r with
  | seq first second ihFirst ihSecond =>
    simp [parts, captured, ihFirst, ihSecond]
  | _ => simp [parts, captured]

theorem captured_sequence (rs : List Regex) :
    (sequence rs).captured = rs.flatMap captured := by
  induction rs with
  | nil => rfl
  | cons r rs ih => simp [sequence, captured, ih]

theorem captured_choice (rs : List Regex) : (choice rs).captured = rs.flatMap captured := by
  induction rs with
  | nil => rfl
  | cons r rs ih =>
    cases rs with
    | nil => simp [choice]
    | cons s rest => simp [choice, captured, ih]

theorem commonParts_prefix_left (rs ss : List Regex) : commonParts rs ss <+: rs := by
  fun_induction commonParts rs ss with
  | case1 r rs s ss h ih => exact List.prefix_cons_inj r |>.mpr ih
  | case2 => exact List.nil_prefix
  | case3 => exact List.nil_prefix

theorem commonParts_prefix_right (rs ss : List Regex) : commonParts rs ss <+: ss := by
  fun_induction commonParts rs ss with
  | case1 r rs s ss h ih => exact h.1 ▸ (List.prefix_cons_inj r |>.mpr ih)
  | case2 => exact List.nil_prefix
  | case3 => exact List.nil_prefix

theorem isPlain_of_mem_commonParts {rs ss : List Regex} {p : Regex} (h : p ∈ commonParts rs ss) :
    p.isPlain := by
  fun_induction commonParts rs ss with
  | case1 r rs s ss hr ih =>
    rcases List.mem_cons.mp h with rfl | h
    · exact hr.2
    · exact ih h
  | case2 => cases h
  | case3 => cases h

theorem commonFront_prefix {pss : List (List Regex)} {ps : List Regex} (h : ps ∈ pss) :
    commonFront pss <+: ps := by
  induction pss with
  | nil => cases h
  | cons qs rest ih =>
    cases rest with
    | nil =>
      obtain rfl := List.mem_singleton.mp h
      exact List.prefix_refl _
    | cons rs rest =>
      rcases List.mem_cons.mp h with rfl | h
      · exact commonParts_prefix_left _ _
      · exact (commonParts_prefix_right _ _).trans (ih h)

/-- Any of the alternatives is their common beginning and what is left of it. -/
theorem commonFront_append_drop {rs : List Regex} {t : Regex} (ht : t ∈ rs) :
    commonFront (rs.map parts) ++ t.parts.drop (commonFront (rs.map parts)).length = t.parts := by
  obtain ⟨ps, hps⟩ := commonFront_prefix (List.mem_map_of_mem (f := parts) ht)
  rw [← hps, List.drop_left]

theorem captured_sharedChoice (rs : List Regex) :
    (sharedChoice rs).captured = rs.flatMap captured := by
  match rs with
  | [] => rfl
  | [r] => simp [sharedChoice]
  | r :: s :: rest =>
    have plain : (commonFront ((r :: s :: rest).map parts)).flatMap captured = [] :=
      List.flatMap_eq_nil_iff.mpr fun p hp =>
        captured_of_isPlain (isPlain_of_mem_commonParts hp)
    have remainder : ∀ t ∈ r :: s :: rest,
        (t.parts.drop (commonFront ((r :: s :: rest).map parts)).length).flatMap captured =
          t.captured := by
      intro t ht
      have := congrArg (List.flatMap captured) (commonFront_append_drop ht)
      rwa [List.flatMap_append, plain, List.nil_append, captured_parts] at this
    simp only [sharedChoice, captured, captured_sequence, captured_choice, plain,
      List.nil_append, List.flatMap_map]
    rw [List.flatMap_def, List.flatMap_def, List.map_congr_left remainder]

theorem captured_alternatives (r : Regex) :
    r.alternatives.flatMap captured = r.captured.map fun c => (c.1, c.2.factored) := by
  induction r with
  | alt first second ihFirst ihSecond => simp [alternatives, captured, ihFirst, ihSecond]
  | seq first second ihFirst ihSecond =>
    simp [alternatives, captured, captured_sharedChoice, ihFirst, ihSecond]
  | optional inner ih => simp [alternatives, captured, captured_sharedChoice, ih]
  | group inner ih => simp [alternatives, captured, captured_sharedChoice, ih]
  | capture index inner ih => simp [alternatives, captured, captured_sharedChoice, ih, factored]
  | _ => simp [alternatives, captured]

/-- The memos are the same, in the same order, with common beginnings put in front inside them. -/
theorem captured_factored (r : Regex) :
    r.factored.captured = r.captured.map fun c => (c.1, c.2.factored) := by
  rw [factored, captured_sharedChoice, captured_alternatives]

theorem captureIndices_factored (r : Regex) : r.factored.captureIndices = r.captureIndices := by
  rw [← map_fst_captured, captured_factored, List.map_map, ← map_fst_captured]
  rfl

end Repartee.Pattern.Regex
