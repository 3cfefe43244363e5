import Repartee.Proofs.Unicode.Classes
import Repartee.Text.Lower

/-!
# Lowercase text is in lowercase

`lower` changes nothing in its own result: every character that it yields is settled, which means
that it has no other small letter and is not the capital sigma (`isSettled_of_mem_lowerChars`), and
a text of settled characters is its own lowercase form (`lower_of_settled`).

For the table of capitals this comes down to comparing runs: the small letters of one run lie
outside of another one, or between its capitals.
-/

namespace Repartee.Unicode

/-! ## The table of capitals -/

namespace CaseRun

/-- The last small letter of the run. -/
def lastImage (r : CaseRun) : Nat :=
  r.image + (r.last - r.first)

/-- The run has a capital at every other code point only. -/
def alternates (r : CaseRun) : Bool :=
  r.stride == 2 || r.first == r.last

/-- No small letter of `r` is a capital of `s`. -/
def misses (r s : CaseRun) : Bool :=
  r.lastImage < s.first || s.last < r.image ||
    (r.alternates && s.stride == 2 && (r.image + s.first) % 2 == 1)

end CaseRun

theorem run_of_smallLetter?_eq_some {rs : List CaseRun} {n m : Nat}
    (h : smallLetter? rs n = some m) :
    ∃ r ∈ rs, r.first ≤ n ∧ n ≤ r.last ∧ (n - r.first) % r.stride = 0 ∧
      m = r.image + (n - r.first) := by
  induction rs with
  | nil => cases h
  | cons r rs ih =>
    unfold smallLetter? at h
    split at h
    · cases h
    · split at h
      · split at h
        · rename_i hfirst hlast hstride
          exact ⟨r, List.mem_cons_self, by omega, hlast, hstride, (Option.some.inj h).symm⟩
        · cases h
      · obtain ⟨s, hs, key⟩ := ih h
        exact ⟨s, List.mem_cons_of_mem _ hs, key⟩

theorem caseRuns_misses : (caseRuns.all fun r => caseRuns.all fun s => r.misses s) = true := by
  decide +kernel

theorem caseRuns_misses_dottedCapitalI :
    (caseRuns.all fun r => r.misses ⟨0x130, 0x130, 2, 0⟩) = true := by
  decide

/-- The small letters of a run are characters. -/
def CaseRun.hasCharacters (r : CaseRun) : Bool :=
  r.lastImage < 0xD800 || (0xDFFF < r.image && r.lastImage < 0x110000)

theorem caseRuns_hasCharacters : (caseRuns.all CaseRun.hasCharacters) = true := by
  decide

/-- A small letter of a run that misses another run is none of that run's capitals. -/
theorem ne_capital_of_misses {r s : CaseRun} (h : r.misses s = true) {n k : Nat}
    (hn : r.first ≤ n ∧ n ≤ r.last) (hstride : (n - r.first) % r.stride = 0)
    (hk : s.first ≤ k ∧ k ≤ s.last) (hstride' : (k - s.first) % s.stride = 0) :
    r.image + (n - r.first) ≠ k := by
  intro heq
  simp only [CaseRun.misses, CaseRun.alternates, Bool.or_eq_true, Bool.and_eq_true,
    decide_eq_true_eq, beq_iff_eq] at h
  rcases h with (h | h) | ⟨⟨hr | hr, hs⟩, hodd⟩
  · unfold CaseRun.lastImage at h
    omega
  · omega
  · rw [hr] at hstride
    rw [hs] at hstride'
    omega
  · rw [hs] at hstride'
    omega

theorem smallLetter?_smallLetter {n m : Nat} (h : smallLetter? caseRuns n = some m) :
    smallLetter? caseRuns m = none ∧ m ≠ 0x130 ∧ (Char.ofNat m).toNat = m := by
  obtain ⟨r, hr, hlo, hhi, hstride, rfl⟩ := run_of_smallLetter?_eq_some h
  refine ⟨?_, ?_, ?_⟩
  · cases hm : smallLetter? caseRuns (r.image + (n - r.first)) with
    | none => rfl
    | some k =>
      obtain ⟨s, hs, hlo', hhi', hstride', -⟩ := run_of_smallLetter?_eq_some hm
      have hmiss := List.all_eq_true.mp (List.all_eq_true.mp caseRuns_misses r hr) s hs
      exact absurd rfl (ne_capital_of_misses hmiss ⟨hlo, hhi⟩ hstride ⟨hlo', hhi'⟩ hstride')
  · have hmiss := List.all_eq_true.mp caseRuns_misses_dottedCapitalI r hr
    exact ne_capital_of_misses hmiss ⟨hlo, hhi⟩ hstride ⟨Nat.le_refl _, Nat.le_refl _⟩ rfl
  · have hchars := List.all_eq_true.mp caseRuns_hasCharacters r hr
    simp only [CaseRun.hasCharacters, Bool.or_eq_true, Bool.and_eq_true,
      decide_eq_true_eq] at hchars
    have hvalid : (r.image + (n - r.first)).isValidChar := by
      unfold CaseRun.lastImage at hchars
      unfold Nat.isValidChar
      omega
    rw [Char.ofNat, dif_pos hvalid]
    rfl

end Repartee.Unicode

namespace Repartee.Text

open Repartee.Unicode

/-! ## Settled characters -/

/-- The character is its own small letter, wherever it stands. -/
def IsSettled (c : Char) : Prop :=
  c ≠ 'Σ' ∧ lowerChar c = [c]

instance (c : Char) : Decidable (IsSettled c) :=
  inferInstanceAs (Decidable (_ ∧ _))

theorem isSettled_of_mem_lowerChar {c d : Char} (hc : c ≠ 'Σ') (h : d ∈ lowerChar c) :
    IsSettled d := by
  unfold lowerChar at h
  split at h
  · simp only [List.mem_cons, List.not_mem_nil, or_false] at h
    rcases h with rfl | rfl <;> decide
  · rename_i hdotted
    cases hm : smallLetter? caseRuns c.toNat with
    | none =>
      rw [hm] at h
      obtain rfl := List.mem_singleton.mp h
      exact ⟨hc, by rw [lowerChar, if_neg hdotted, hm]⟩
    | some m =>
      rw [hm] at h
      obtain rfl := List.mem_singleton.mp h
      obtain ⟨hnone, hne, hval⟩ := smallLetter?_smallLetter hm
      refine ⟨?_, ?_⟩
      · intro hsigma
        have : m = 'Σ'.toNat := by rw [← hval, hsigma]
        rw [this] at hnone
        exact absurd hnone (by decide)
      · have hdot : Char.ofNat m ≠ dottedCapitalI := by
          intro heq
          exact hne (by rw [← hval, heq]; rfl)
        rw [lowerChar, if_neg hdot, hval, hnone]

theorem isSettled_smallSigma (before after : List Char) :
    IsSettled (smallSigma before after) := by
  unfold smallSigma
  split <;> decide

theorem isSettled_of_mem_lowerAfter {cs before : List Char} {d : Char}
    (h : d ∈ lowerAfter before cs) : IsSettled d := by
  induction cs generalizing before with
  | nil => cases h
  | cons c cs ih =>
    rw [lowerAfter, List.mem_append] at h
    rcases h with h | h
    · split at h
      · obtain rfl := List.mem_singleton.mp h
        exact isSettled_smallSigma before cs
      · rename_i hc
        exact isSettled_of_mem_lowerChar hc h
    · exact ih h

theorem isSettled_of_mem_lowerChars {cs : List Char} {d : Char} (h : d ∈ lowerChars cs) :
    IsSettled d :=
  isSettled_of_mem_lowerAfter h

theorem lowerAfter_of_settled {cs : List Char} (h : ∀ c ∈ cs, IsSettled c) (before : List Char) :
    lowerAfter before cs = cs := by
  induction cs generalizing before with
  | nil => rfl
  | cons c cs ih =>
    obtain ⟨hsigma, hlower⟩ := h c List.mem_cons_self
    rw [lowerAfter, if_neg hsigma, hlower, ih fun d hd => h d (List.mem_cons_of_mem _ hd)]
    rfl

/-- All characters of the text are settled. -/
def Settled (cs : List Char) : Prop :=
  ∀ c ∈ cs, IsSettled c

theorem settled_lower (s : String) : Settled (lower s).toList := by
  intro d hd
  rw [lower, String.toList_ofList] at hd
  exact isSettled_of_mem_lowerChars hd

theorem lower_of_settled {s : String} (h : Settled s.toList) : lower s = s := by
  rw [lower, lowerChars, lowerAfter_of_settled h [], String.ofList_toList]

@[simp] theorem settled_nil : Settled [] :=
  fun _ h => absurd h List.not_mem_nil

@[simp] theorem settled_cons {c : Char} {cs : List Char} :
    Settled (c :: cs) ↔ IsSettled c ∧ Settled cs :=
  List.forall_mem_cons

@[simp] theorem settled_append {cs ds : List Char} :
    Settled (cs ++ ds) ↔ Settled cs ∧ Settled ds :=
  List.forall_mem_append

theorem isSettled_of_isDigit {c : Char} (h : c.isDigit = true) : IsSettled c := by
  have bounds : 0x30 ≤ c.toNat ∧ c.toNat ≤ 0x39 := by
    simpa [Char.isDigit, UInt32.le_iff_toNat_le] using h
  refine ⟨?_, ?_⟩
  · rintro rfl
    exact absurd bounds.2 (by decide)
  · have hdotted : c ≠ dottedCapitalI := by
      rintro rfl
      exact absurd bounds.2 (by decide)
    have hbefore : c.toNat < 0x41 := by omega
    rw [lowerChar, if_neg hdotted, caseRuns, smallLetter?, if_pos hbefore]

end Repartee.Text
