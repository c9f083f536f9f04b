/-
# Pieces between separators

`pieces sep text` cuts a text at every separator; there is always one piece more than there are
separators.  `joined` puts the pieces together again.
-/
namespace BlockArm.Text

/-- The pieces of a text between the separators. -/
def pieces (sep : Char) : List Char → List (List Char)
  | [] => [[]]
  | c :: rest =>
    if c = sep then [] :: pieces sep rest
    else match pieces sep rest with
      | [] => [[c]]
      | first :: others => (c :: first) :: others

/-- The pieces with a separator between each two. -/
def joined (sep : Char) : List (List Char) → List Char
  | [] => []
  | [piece] => piece
  | piece :: next :: others => piece ++ sep :: joined sep (next :: others)

@[simp] theorem pieces_nil (sep : Char) : pieces sep [] = [[]] := rfl

/-- A separator ends an empty piece. -/
@[simp] theorem pieces_cons_self (sep : Char) (rest : List Char) :
    pieces sep (sep :: rest) = [] :: pieces sep rest := by
  simp [pieces]

/-- There is at least one piece. -/
theorem pieces_ne_nil (sep : Char) (text : List Char) : pieces sep text ≠ [] := by
  induction text with
  | nil => simp
  | cons c rest ih =>
    by_cases h : c = sep
    · simp [pieces, h]
    · rw [pieces, if_neg h]
      split <;> simp

/-- A text without separators is one piece. -/
theorem pieces_of_notMem {sep : Char} {text : List Char} (h : sep ∉ text) :
    pieces sep text = [text] := by
  induction text with
  | nil => rfl
  | cons c rest ih =>
    rw [List.mem_cons, not_or] at h
    rw [pieces, if_neg (Ne.symm h.1), ih h.2]

/-- The first piece ends at the first separator. -/
theorem pieces_append_cons {sep : Char} {piece : List Char} (h : sep ∉ piece) (rest : List Char) :
    pieces sep (piece ++ sep :: rest) = piece :: pieces sep rest := by
  induction piece with
  | nil => exact pieces_cons_self sep rest
  | cons c piece ih =>
    rw [List.mem_cons, not_or] at h
    rw [List.cons_append, pieces, if_neg (Ne.symm h.1), ih h.2]

/-- Pieces make up the text they were cut from. -/
@[simp] theorem joined_pieces (sep : Char) (text : List Char) : joined sep (pieces sep text) = text := by
  induction text with
  | nil => rfl
  | cons c rest ih =>
    obtain ⟨first, others, hp⟩ := List.exists_cons_of_ne_nil (pieces_ne_nil sep rest)
    rw [hp] at ih
    by_cases h : c = sep
    · rw [h, pieces_cons_self, hp, joined, ih]
      rfl
    · rw [pieces, if_neg h, hp]
      cases others <;> simp_all [joined]

end BlockArm.Text
