/-!
# Bytes of a text

Sizes and places of text are counted in bytes of its UTF-8 encoding. A place lies between two
characters, so a stretch of text given by two places is made of whole characters.
-/

namespace Repartee.Text

/-- How many bytes the characters take. -/
def byteSize : List Char → Nat
  | [] => 0
  | c :: cs => c.utf8Size + byteSize cs

theorem byteSize_append (cs ds : List Char) :
    byteSize (cs ++ ds) = byteSize cs + byteSize ds := by
  induction cs with
  | nil => simp [byteSize]
  | cons c cs ih => simp [byteSize, ih, Nat.add_assoc]

/-- The characters behind the first `n` bytes. -/
def dropBytes : Nat → List Char → List Char
  | 0, cs => cs
  | _ + 1, [] => []
  | n + 1, c :: cs => dropBytes (n + 1 - c.utf8Size) cs

/-- The characters within the first `n` bytes. -/
def takeBytes : Nat → List Char → List Char
  | 0, _ => []
  | _ + 1, [] => []
  | n + 1, c :: cs => c :: takeBytes (n + 1 - c.utf8Size) cs

/-- The stretch of text between two places. -/
def slice (s : String) (start stop : Nat) : String :=
  String.ofList (takeBytes (stop - start) (dropBytes start s.toList))

theorem dropBytes_byteSize_append (cs ds : List Char) :
    dropBytes (byteSize cs) (cs ++ ds) = ds := by
  induction cs with
  | nil => simp [byteSize, dropBytes]
  | cons c cs ih =>
    obtain ⟨n, hn⟩ : ∃ n, byteSize (c :: cs) = n + 1 :=
      ⟨byteSize (c :: cs) - 1, by have := c.utf8Size_pos; simp [byteSize]; omega⟩
    have rest : n + 1 - c.utf8Size = byteSize cs := by simp [byteSize] at hn ⊢; omega
    rw [hn, List.cons_append, dropBytes, rest, ih]

theorem takeBytes_byteSize_append (cs ds : List Char) :
    takeBytes (byteSize cs) (cs ++ ds) = cs := by
  induction cs with
  | nil => simp [byteSize, takeBytes]
  | cons c cs ih =>
    obtain ⟨n, hn⟩ : ∃ n, byteSize (c :: cs) = n + 1 :=
      ⟨byteSize (c :: cs) - 1, by have := c.utf8Size_pos; simp [byteSize]; omega⟩
    have rest : n + 1 - c.utf8Size = byteSize cs := by simp [byteSize] at hn ⊢; omega
    rw [hn, List.cons_append, takeBytes, rest, ih]

end Repartee.Text
