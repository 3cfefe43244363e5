import Repartee.Proofs.Pattern.Grammar
import Mathlib.Data.List.TakeDrop

/-!
# Counts of wildcards

Reading a wildcard accepts a symbol with the counts of the grammar behind it and nothing else
(`Wildcard.ofText?_eq_ok_iff`), and the canonical text of a wildcard that can be written at all is
such a text, from which the wildcard itself is read (`Wildcard.counts_canonical`).
-/

namespace Repartee.Pattern

open Repartee.Text Grammar

/-! ## Reading counts -/

theorem count?_eq_some_iff {cs : List Char} {n : Nat} : count? cs = some n ↔ Count cs n := by
  have hmax : ∀ k, k ≤ maxCount ↔ k < UInt32.size := by
    intro k
    unfold maxCount UInt32.size
    omega
  unfold count? ofDecimal?
  constructor
  · intro h
    obtain ⟨hread, hbound⟩ := Option.filter_eq_some_iff.mp h
    obtain ⟨⟨hne, hall⟩, hvalue⟩ := Option.ite_none_right_eq_some.mp hread
    exact ⟨hne, List.all_eq_true.mp hall, (Option.some.inj hvalue).symm,
      (hmax n).mp (of_decide_eq_true hbound)⟩
  · intro h
    rw [if_pos ⟨h.nonempty, List.all_eq_true.mpr h.digits⟩, Option.filter_some, ← h.value,
      if_pos (decide_eq_true ((hmax n).mpr h.bound))]

theorem ne_tilde_of_isDigit {c : Char} (h : c.isDigit = true) : c ≠ '~' := by
  rintro rfl
  exact absurd h (by decide)

theorem span_tilde_of_digits {cs : List Char} (h : ∀ c ∈ cs, c.isDigit = true) :
    cs.span (· != '~') = (cs, []) := by
  have hall : ∀ c ∈ cs, (c != '~') = true := fun c hc =>
    bne_iff_ne.mpr (ne_tilde_of_isDigit (h c hc))
  have key : (cs ++ []).span (· != '~') = (cs ++ [], []) := by
    rw [List.span_eq_takeWhile_dropWhile, List.takeWhile_append_of_pos hall,
      List.dropWhile_append_of_pos hall, List.takeWhile_nil, List.dropWhile_nil]
  simpa only [List.append_nil] using key

theorem span_tilde_append {cs : List Char} (h : ∀ c ∈ cs, c.isDigit = true) (ds : List Char) :
    (cs ++ '~' :: ds).span (· != '~') = (cs, '~' :: ds) := by
  have hall : ∀ c ∈ cs, (c != '~') = true := fun c hc =>
    bne_iff_ne.mpr (ne_tilde_of_isDigit (h c hc))
  rw [List.span_eq_takeWhile_dropWhile, List.takeWhile_append_of_pos hall,
    List.dropWhile_append_of_pos hall]
  simp

theorem readCounts?_eq_some_of_counts {cs : List Char} {min : Nat} {max : Option Nat}
    (h : Counts cs min max) : Wildcard.readCounts? cs = some (min, max) := by
  unfold Wildcard.readCounts?
  cases h with
  | none => rfl
  | exact count =>
    rw [span_tilde_of_digits count.digits]
    obtain ⟨d, ds, rfl⟩ := List.exists_cons_of_ne_nil count.nonempty
    simp [count?_eq_some_iff.mpr count]
  | range => rfl
  | atLeast lower =>
    rw [span_tilde_append lower.digits]
    simp [lower.nonempty, count?_eq_some_iff.mpr lower]
  | atMost upper =>
    rw [show ∀ ds : List Char, '~' :: ds = [] ++ '~' :: ds from fun _ => rfl,
      span_tilde_append fun _ h => absurd h List.not_mem_nil]
    simp [upper.nonempty, count?_eq_some_iff.mpr upper]
  | between lower upper =>
    rw [span_tilde_append lower.digits]
    simp [lower.nonempty, upper.nonempty, count?_eq_some_iff.mpr lower,
      count?_eq_some_iff.mpr upper]

theorem head_eq_tilde_of_span {cs lower upper : List Char} {c : Char}
    (h : cs.span (· != '~') = (lower, c :: upper)) : cs = lower ++ '~' :: upper := by
  rw [List.span_eq_takeWhile_dropWhile, Prod.mk.injEq] at h
  obtain ⟨rfl, hdrop⟩ := h
  have hc : c = '~' := by
    have := List.head_dropWhile_not (· != '~') (l := cs) (by simp [hdrop])
    simpa [hdrop] using this
  rw [hc] at hdrop
  rw [← hdrop, List.takeWhile_append_dropWhile]

theorem counts_of_readCounts?_eq_some {cs : List Char} {min : Nat} {max : Option Nat}
    (h : Wildcard.readCounts? cs = some (min, max)) : Counts cs min max := by
  unfold Wildcard.readCounts? at h
  split at h
  · rename_i hspan
    rw [List.span_eq_takeWhile_dropWhile, Prod.mk.injEq] at hspan
    have hcs : cs = [] := by
      rw [← List.takeWhile_append_dropWhile (p := (· != '~')) (l := cs), hspan.1, hspan.2]
      rfl
    obtain ⟨rfl, rfl⟩ := Prod.mk.inj (Option.some.inj h)
    exact hcs ▸ .none
  · rename_i lower hne hspan
    rw [List.span_eq_takeWhile_dropWhile, Prod.mk.injEq] at hspan
    have hcs : cs = lower := by
      rw [← List.takeWhile_append_dropWhile (p := (· != '~')) (l := cs), hspan.1, hspan.2,
        List.append_nil]
    obtain ⟨n, hcount, heq⟩ := Option.map_eq_some_iff.mp h
    obtain ⟨rfl, rfl⟩ := Prod.mk.inj heq
    exact hcs ▸ .exact (count?_eq_some_iff.mp hcount)
  · rename_i lower c upper hspan
    rw [head_eq_tilde_of_span hspan]
    -- Either end of the range may be left out, which makes four ways to write it.
    cases lower with
    | nil =>
      cases upper with
      | nil =>
        obtain ⟨rfl, rfl⟩ : 1 = min ∧ none = max := by simpa using h
        exact .range
      | cons d ds =>
        obtain ⟨⟨n, hn, rfl⟩, rfl⟩ :
            (∃ n, count? (d :: ds) = some n ∧ some n = max) ∧ 1 = min := by
          simpa [Option.bind_eq_some_iff] using h
        exact .atMost (count?_eq_some_iff.mp hn)
    | cons e es =>
      cases upper with
      | nil =>
        obtain ⟨hm, rfl⟩ : count? (e :: es) = some min ∧ none = max := by
          simpa [Option.bind_eq_some_iff] using h
        exact .atLeast (count?_eq_some_iff.mp hm)
      | cons d ds =>
        obtain ⟨hm, n, hn, rfl⟩ :
            count? (e :: es) = some min ∧ ∃ n, count? (d :: ds) = some n ∧ some n = max := by
          simpa [Option.bind_eq_some_iff] using h
        exact .between (count?_eq_some_iff.mp hm) (count?_eq_some_iff.mp hn)

theorem symbol_of_ofSymbol? {c : Char} {kind : WordClass}
    (h : WordClass.ofSymbol? c = some kind) : c = kind.symbol := by
  unfold WordClass.ofSymbol? at h
  split at h <;> cases h <;> rfl

theorem Wildcard.ofText?_eq_ok_iff {text : String} {w : Wildcard} :
    Wildcard.ofText? text = .ok w ↔
      ∃ kind cs min max, text.toList = WordClass.symbol kind :: cs ∧ Counts cs min max ∧
        w = clamp kind min max := by
  unfold Wildcard.ofText?
  constructor
  · intro h
    split at h
    · cases h
    · rename_i c cs hlist
      split at h
      · cases h
      · cases h
      · rename_i kind min max hsymbol hcounts
        rw [symbol_of_ofSymbol? hsymbol] at hlist
        exact ⟨kind, cs, min, max, hlist, counts_of_readCounts?_eq_some hcounts,
          (Except.ok.inj h).symm⟩
  · rintro ⟨kind, cs, min, max, hlist, hcounts, rfl⟩
    rw [hlist]
    simp only [WordClass.ofSymbol?_symbol, readCounts?_eq_some_of_counts hcounts]

/-! ## Writing counts -/

theorem Grammar.count_decimal {n : Nat} (h : n < UInt32.size) : Count (decimal n).toList n := by
  have hread := ofDecimal?_decimal n
  unfold ofDecimal? at hread
  obtain ⟨⟨hne, hall⟩, hvalue⟩ := Option.ite_none_right_eq_some.mp hread
  exact ⟨hne, List.all_eq_true.mp hall, (Option.some.inj hvalue).symm, h⟩

namespace Wildcard

/-- The counts are small enough to be written. -/
def IsWritable (w : Wildcard) : Prop :=
  w.min < UInt32.size ∧ ∀ most ∈ w.max, most < UInt32.size

theorem isWritable_clamp {cs : List Char} {min : Nat} {max : Option Nat} (kind : WordClass)
    (h : Counts cs min max) : (clamp kind min max).IsWritable := by
  have key : min < UInt32.size ∧ ∀ most ∈ max, most < UInt32.size := by
    cases h with
    | none => exact ⟨by decide, fun _ h => absurd h (Option.not_mem_none _)⟩
    | exact count => exact ⟨count.bound, fun _ h => Option.mem_some_iff.mp h ▸ count.bound⟩
    | range => exact ⟨by decide, fun _ h => absurd h (Option.not_mem_none _)⟩
    | atLeast lower => exact ⟨lower.bound, fun _ h => absurd h (Option.not_mem_none _)⟩
    | atMost upper => exact ⟨by decide, fun _ h => Option.mem_some_iff.mp h ▸ upper.bound⟩
    | between lower upper =>
      exact ⟨lower.bound, fun _ h => Option.mem_some_iff.mp h ▸ upper.bound⟩
  obtain ⟨hmin, hmax⟩ := key
  have hleast : Nat.max 1 min < UInt32.size := Nat.max_lt.mpr ⟨by decide, hmin⟩
  refine ⟨hleast, ?_⟩
  intro most hmost
  obtain ⟨m, hm, rfl⟩ := Option.map_eq_some_iff.mp hmost
  exact Nat.max_lt.mpr ⟨hleast, hmax m hm⟩

theorem clamp_eq {w : Wildcard} {min : Nat} {max : Option Nat} (hmin : Nat.max 1 min = w.min)
    (hmax : max = w.max) : clamp w.kind min max = w := by
  subst hmax
  obtain ⟨kind, least, most, hpos, hle⟩ := w
  simp only at hmin
  subst hmin
  have hkeep : most.map (Nat.max (Nat.max 1 min)) = most := by
    cases most with
    | none => rfl
    | some m => exact congrArg some (Nat.max_eq_right (hle m rfl))
  simp only [clamp, hkeep]

/-- The canonical text of a wildcard consists of its symbol and of counts from which the wildcard is
read again. -/
theorem counts_canonical {w : Wildcard} (h : w.IsWritable) :
    ∃ cs min max, w.canonical.toList = w.kind.symbol :: cs ∧ Counts cs min max ∧
      clamp w.kind min max = w := by
  have hleast : Nat.max 1 w.min = w.min := Nat.max_eq_right w.min_pos
  unfold canonical
  cases hw : w.max with
  | none =>
    by_cases hone : w.min = 1
    · exact ⟨[], 1, none, by simp [hone], .none, clamp_eq (by rw [hone]; rfl) hw.symm⟩
    · exact ⟨_, w.min, none, by simp [hone], .atLeast (count_decimal h.1),
        clamp_eq hleast hw.symm⟩
  | some most =>
    have hmost := count_decimal (h.2 most hw)
    by_cases hsame : most = w.min
    · exact ⟨_, most, some most, by simp [hsame], .exact hmost,
        clamp_eq (hsame ▸ hleast) hw.symm⟩
    · by_cases hone : w.min = 1
      · exact ⟨_, 1, some most, by simp [hone ▸ hsame, hone], .atMost hmost,
          clamp_eq (by rw [hone]; rfl) hw.symm⟩
      · exact ⟨_, w.min, some most, by simp [hsame, hone],
          .between (count_decimal h.1) hmost, clamp_eq hleast hw.symm⟩

end Wildcard
end Repartee.Pattern
