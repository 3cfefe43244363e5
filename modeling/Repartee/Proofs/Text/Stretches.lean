import Repartee.Proofs.Text.Words

/-!
# Stretches of a normal text

Where the words of a normal text begin and end, in bytes. The next word behind the words `done`
begins at `wordStart done`, and the last one of them ends at `wordStop done`, one byte earlier. What
stands between these places are the words themselves (`slice_words`).
-/

namespace Repartee.Text

/-- Where a word begins that has these words ahead of it. -/
def wordStart (done : List String) : Nat :=
  byteSize (ahead done)

/-- Where the last one of these words ends. -/
def wordStop (done : List String) : Nat :=
  byteSize (unwords done).toList

theorem utf8ByteSize_eq (s : String) : s.utf8ByteSize = byteSize s.toList := by
  have hchars : ∀ cs : List Char, (String.ofList cs).utf8ByteSize = byteSize cs := by
    intro cs
    induction cs with
    | nil => rfl
    | cons c cs ih => simp [byteSize, ← ih]
  rw [← hchars, String.ofList_toList]

theorem slice_of_toList {s : String} {front inner back : List Char}
    (h : s.toList = front ++ inner ++ back) :
    slice s (byteSize front) (byteSize (front ++ inner)) = String.ofList inner := by
  rw [slice, h, List.append_assoc, dropBytes_byteSize_append, byteSize_append,
    Nat.add_sub_cancel_left, takeBytes_byteSize_append]

theorem byteSize_eq_zero_iff {cs : List Char} : byteSize cs = 0 ↔ cs = [] := by
  cases cs with
  | nil => simp [byteSize]
  | cons c cs =>
    have := c.utf8Size_pos
    simp only [byteSize, reduceCtorEq, iff_false]
    omega

theorem take_append_drop_take {α : Type} {i j : Nat} (hij : i ≤ j) (l : List α) :
    l.take i ++ (l.take j).drop i = l.take j := by
  have := List.take_append_drop i (l.take j)
  rwa [List.take_take, Nat.min_eq_left hij] at this

/-- What stands between two places is empty exactly if they are the same. -/
theorem slice_eq_empty_iff {i j : Nat} (hij : i ≤ j) (s : String) :
    slice s (byteSize (s.toList.take i)) (byteSize (s.toList.take j)) = "" ↔
      ¬ byteSize (s.toList.take i) < byteSize (s.toList.take j) := by
  have hcut : s.toList = s.toList.take i ++ (s.toList.take j).drop i ++ s.toList.drop j := by
    rw [take_append_drop_take hij, List.take_append_drop]
  have hslice := slice_of_toList hcut
  rw [take_append_drop_take hij] at hslice
  have hsize := congrArg byteSize (take_append_drop_take hij s.toList)
  rw [byteSize_append] at hsize
  rw [hslice, String.ofList_eq_empty_iff, ← byteSize_eq_zero_iff]
  omega

section Words

variable {done us todo : List String}

theorem wordStart_append (done us : List String) :
    wordStart (done ++ us) = wordStart done + wordStart us := by
  rw [wordStart, ahead_append, byteSize_append, wordStart, wordStart]

theorem wordStop_append (done : List String) (hne : us ≠ []) :
    wordStop (done ++ us) = wordStart done + wordStop us := by
  rw [wordStop, toList_unwords_ahead done hne, byteSize_append, wordStart, wordStop]

/-- There is one byte of white space between two words. -/
theorem wordStart_eq (hne : us ≠ []) : wordStart us = wordStop us + 1 := by
  rw [wordStart, ahead_eq_append hne, byteSize_append, wordStop]
  rfl

/-- The characters ahead of a word, in bytes. -/
theorem byteSize_take_start (more : todo ≠ []) :
    byteSize ((unwords (done ++ todo)).toList.take (ahead done).length) = wordStart done := by
  rw [toList_unwords_ahead done more, List.take_left, wordStart]

theorem byteSize_take_stop (some : done = [] → todo = []) :
    byteSize ((unwords (done ++ todo)).toList.take (unwords done).toList.length) =
      wordStop done := by
  rw [toList_unwords_behind some, List.take_left, wordStop]

theorem slice_words (done todo : List String) (hne : us ≠ []) :
    slice (unwords (done ++ us ++ todo)) (wordStart done) (wordStop (done ++ us)) = unwords us := by
  have htext : (unwords (done ++ us ++ todo)).toList =
      ahead done ++ (unwords us).toList ++ behind todo := by
    rw [toList_unwords_behind fun hnil => absurd (List.append_eq_nil_iff.mp hnil).2 hne,
      toList_unwords_ahead done hne]
  rw [wordStart, wordStop, toList_unwords_ahead done hne, slice_of_toList htext,
    String.ofList_toList]

/-- Words with the white space behind them. -/
theorem slice_words_blank (done : List String) (hne : us ≠ []) (more : todo ≠ []) :
    slice (unwords (done ++ us ++ todo)) (wordStart done) (wordStart (done ++ us)) =
      unwords us ++ " " := by
  have htext : (unwords (done ++ us ++ todo)).toList =
      ahead done ++ ahead us ++ (unwords todo).toList := by
    rw [toList_unwords_ahead _ more, ahead_append]
  rw [wordStart, wordStart, ahead_append, slice_of_toList htext, ahead_eq_append hne,
    ← String.toList_inj]
  simp

end Words

end Repartee.Text
