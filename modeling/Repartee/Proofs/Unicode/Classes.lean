import Repartee.Pattern.Token
import Repartee.Unicode.Lowercase

/-!
# How the classes of characters lie to each other

White space and word characters are apart, the marks with which patterns are written belong to
neither class, and decimal digits, the ASCII ones among them, are word characters. These facts
decide which token can begin at a character, and where a word ends in a normalized text.

The tables are compared range by range: `mem_range_of_covers` turns a look-up into a range that
holds the code point, so it is enough that no two ranges meet.
-/

namespace Repartee.Unicode

/-! ## Ranges -/

theorem mem_range_of_covers {rs : List (Nat × Nat)} {n : Nat} (h : covers rs n = true) :
    ∃ r ∈ rs, r.1 ≤ n ∧ n ≤ r.2 := by
  induction rs with
  | nil => cases h
  | cons r rs ih =>
    unfold covers at h
    split at h
    · rename_i hle
      exact ⟨r, List.mem_cons_self, of_decide_eq_true h, hle⟩
    · obtain ⟨s, hs, hn⟩ := ih h
      exact ⟨s, List.mem_cons_of_mem _ hs, hn⟩

/-- No range of one table meets a range of the other. -/
def Apart (rs ss : List (Nat × Nat)) : Bool :=
  rs.all fun r => ss.all fun s => r.2 < s.1 || s.2 < r.1

theorem covers_eq_false_of_apart {rs ss : List (Nat × Nat)} (apart : Apart rs ss = true) {n : Nat}
    (h : covers rs n = true) : covers ss n = false := by
  cases hs : covers ss n with
  | false => rfl
  | true =>
    obtain ⟨r, hr, hlo, hhi⟩ := mem_range_of_covers h
    obtain ⟨s, hs, hlo', hhi'⟩ := mem_range_of_covers hs
    have key := List.all_eq_true.mp (List.all_eq_true.mp apart r hr) s hs
    simp only [Bool.or_eq_true, decide_eq_true_eq] at key
    omega

/-- A single range of the table holds all numbers from `lo` to `hi`. -/
def coversRange : List (Nat × Nat) → Nat → Nat → Bool
  | [], _, _ => false
  | r :: rs, lo, hi => if hi ≤ r.2 then r.1 ≤ lo else r.2 < lo && coversRange rs lo hi

theorem covers_of_coversRange {rs : List (Nat × Nat)} {lo hi n : Nat}
    (h : coversRange rs lo hi = true) (hlo : lo ≤ n) (hhi : n ≤ hi) : covers rs n = true := by
  induction rs with
  | nil => cases h
  | cons r rs ih =>
    unfold coversRange at h
    unfold covers
    split at h
    · have := of_decide_eq_true h
      rw [if_pos (by omega)]
      exact decide_eq_true (by omega)
    · obtain ⟨hlt, hrest⟩ := Bool.and_eq_true_iff.mp h
      have := of_decide_eq_true hlt
      rw [if_neg (by omega)]
      exact ih hrest

set_option maxRecDepth 10000 in
theorem wordRanges_cover_decimalRanges :
    (decimalRanges.all fun r => coversRange wordRanges r.1 r.2) = true := by
  decide +kernel

set_option maxRecDepth 10000 in
theorem blankRanges_apart_wordRanges : Apart blankRanges wordRanges = true := by
  decide

/-! ## Characters -/

theorem isWordChar_of_isBlank {c : Char} (h : isBlank c = true) : isWordChar c = false :=
  covers_eq_false_of_apart blankRanges_apart_wordRanges h

theorem isBlank_of_isWordChar {c : Char} (h : isWordChar c = true) : isBlank c = false := by
  cases hb : isBlank c with
  | false => rfl
  | true =>
    rw [isWordChar_of_isBlank hb] at h
    cases h

theorem isBlank_space : isBlank ' ' = true := by decide

theorem isWordChar_of_isLetter {c : Char} (h : isLetter c = true) : isWordChar c = true := by
  unfold isLetter at h
  simp only [Bool.and_eq_true] at h
  exact h.1.1

theorem isWordChar_of_isDecimal {c : Char} (h : isDecimal c = true) : isWordChar c = true := by
  obtain ⟨r, hr, hlo, hhi⟩ := mem_range_of_covers h
  exact covers_of_coversRange (List.all_eq_true.mp wordRanges_cover_decimalRanges r hr) hlo hhi

theorem isDecimal_of_isBlank {c : Char} (h : isBlank c = true) : isDecimal c = false := by
  cases hd : isDecimal c with
  | false => rfl
  | true =>
    rw [isBlank_of_isWordChar (isWordChar_of_isDecimal hd)] at h
    cases h

theorem isDecimal_of_isDigit {c : Char} (h : c.isDigit = true) : isDecimal c = true := by
  have bounds : 0x30 ≤ c.toNat ∧ c.toNat ≤ 0x39 := by
    simpa [Char.isDigit, UInt32.le_iff_toNat_le] using h
  unfold isDecimal decimalRanges covers
  simp [bounds]

end Repartee.Unicode

namespace Repartee.Pattern

open Repartee.Unicode

theorem isWordChar_of_startsWord {c : Char} (h : startsWord c = true) : isWordChar c = true := by
  unfold startsWord at h
  exact (Bool.and_eq_true _ _ ▸ h).1

theorem ne_underscore_of_startsWord {c : Char} (h : startsWord c = true) : c ≠ '_' := by
  unfold startsWord at h
  simp only [Bool.and_eq_true, bne_iff_ne] at h
  exact h.2

/-- The marks with which patterns are written, apart from the underscore and the hyphen. -/
def isMark (c : Char) : Bool :=
  isWildcardSymbol c || isTerminator c || c == '%' || c == '[' || c == '(' || c == '|'

theorem isWordChar_of_isMark {c : Char} (h : isMark c = true) : isWordChar c = false := by
  simp only [isMark, isWildcardSymbol, isTerminator, Bool.or_eq_true, beq_iff_eq] at h
  rcases h with ((((((rfl | rfl) | rfl) | (rfl | rfl)) | rfl) | rfl) | rfl) | rfl <;> decide

theorem isBlank_of_isMark {c : Char} (h : isMark c = true) : isBlank c = false := by
  simp only [isMark, isWildcardSymbol, isTerminator, Bool.or_eq_true, beq_iff_eq] at h
  rcases h with ((((((rfl | rfl) | rfl) | (rfl | rfl)) | rfl) | rfl) | rfl) | rfl <;> decide

theorem isDecimal_of_isMark {c : Char} (h : isMark c = true) : isDecimal c = false := by
  simp only [isMark, isWildcardSymbol, isTerminator, Bool.or_eq_true, beq_iff_eq] at h
  rcases h with ((((((rfl | rfl) | rfl) | (rfl | rfl)) | rfl) | rfl) | rfl) | rfl <;> decide

/-! ## Delimiters -/

/-- What ends a token: a closing bracket, a bar or white space. -/
def isDelimiter (c : Char) : Bool :=
  isTerminator c || c == '|' || isBlank c

theorem isMark_or_isBlank_of_isDelimiter {c : Char} (h : isDelimiter c = true) :
    isMark c = true ∨ isBlank c = true := by
  simp only [isDelimiter, Bool.or_eq_true] at h
  rcases h with (h | h) | h
  · exact Or.inl (by simp [isMark, h])
  · exact Or.inl (by simp [isMark, h])
  · exact Or.inr h

theorem isWordChar_of_isDelimiter {c : Char} (h : isDelimiter c = true) :
    isWordChar c = false := by
  rcases isMark_or_isBlank_of_isDelimiter h with h | h
  · exact isWordChar_of_isMark h
  · exact isWordChar_of_isBlank h

theorem isDecimal_of_isDelimiter {c : Char} (h : isDelimiter c = true) : isDecimal c = false := by
  rcases isMark_or_isBlank_of_isDelimiter h with h | h
  · exact isDecimal_of_isMark h
  · exact isDecimal_of_isBlank h

theorem ne_of_isDelimiter {c d : Char} (h : isDelimiter c = true) (hd : isDelimiter d = false) :
    c ≠ d := by
  rintro rfl
  rw [hd] at h
  cases h

theorem continuesWord_of_isDelimiter {c : Char} (h : isDelimiter c = true) :
    continuesWord c = false := by
  have hhyphen : (c == '-') = false := beq_false_of_ne (ne_of_isDelimiter h (by decide))
  rw [continuesWord, isWordChar_of_isDelimiter h, hhyphen]
  rfl

theorem atDelimiter_iff {rest : List Char} :
    atDelimiter rest = true ↔ ∀ c ∈ rest.head?, isDelimiter c = true := by
  cases rest with
  | nil => simp [atDelimiter]
  | cons c cs => simp [atDelimiter, isDelimiter]

end Repartee.Pattern
