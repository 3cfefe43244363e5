/-!
# Tables of code point ranges

A character class is a list of closed ranges of code points, in increasing order and apart from
each other. Looking a code point up stops at the first range that ends at or after it, and
`covers_eq_any` says that on such a list this is membership in one of the ranges.
-/

namespace Repartee.Unicode

/-- The code point lies in one of the ranges, which are in increasing order. -/
def covers : List (Nat × Nat) → Nat → Bool
  | [], _ => false
  | (lo, hi) :: rs, n => if n ≤ hi then lo ≤ n else covers rs n

/-- Each range ends before every later one begins. -/
def Increasing (rs : List (Nat × Nat)) : Prop :=
  rs.Pairwise fun r s => r.2 < s.1

instance (rs : List (Nat × Nat)) : Decidable (Increasing rs) :=
  inferInstanceAs (Decidable (rs.Pairwise _))

theorem covers_eq_any {rs : List (Nat × Nat)} (h : Increasing rs) (n : Nat) :
    covers rs n = rs.any fun r => r.1 ≤ n && n ≤ r.2 := by
  induction rs with
  | nil => rfl
  | cons r rs ih =>
    obtain ⟨hr, hrs⟩ := List.pairwise_cons.mp h
    simp only [covers, List.any_cons]
    by_cases hn : n ≤ r.2
    · have none_later : rs.any (fun s => s.1 ≤ n && n ≤ s.2) = false := by
        simp only [List.any_eq_false, Bool.and_eq_true, decide_eq_true_eq, not_and]
        intro s hs
        have := hr s hs
        omega
      simp [hn, none_later]
    · simp [hn, ih hrs]

end Repartee.Unicode
