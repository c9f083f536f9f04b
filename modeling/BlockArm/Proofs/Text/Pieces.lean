/-
# Putting texts together

What the pieces of a text are, when the text was put together from other texts.

* `pieces_append`: two texts share the piece in which they meet;
* `pieces_append_self`: a separator between them makes a cut;
* `pieces_joined`: pieces that are joined are found again.
-/
import BlockArm.Text.Pieces
import Mathlib.Data.List.Basic

namespace BlockArm.Text

variable {sep : Char}

/-- There is one piece more than there are separators. -/
theorem length_pieces (sep : Char) (text : List Char) :
    (pieces sep text).length = text.count sep + 1 := by
  induction text with
  | nil => rfl
  | cons c rest ih =>
    by_cases h : c = sep
    · rw [h, pieces_cons_self, List.length_cons, ih, List.count_cons_self]
    · rw [List.count_cons_of_ne h, ← ih, pieces, if_neg h]
      cases hp : pieces sep rest with
      | nil => exact absurd hp (pieces_ne_nil sep rest)
      | cons first others => rfl

/-- Texts that are put together share the piece in which they meet. -/
theorem pieces_append {t first : List Char} {back : List (List Char)}
    (ht : pieces sep t = first :: back) (s : List Char) :
    ∀ (front : List (List Char)) (last : List Char), pieces sep s = front ++ [last] →
      pieces sep (s ++ t) = front ++ (last ++ first) :: back := by
  induction s with
  | nil =>
    intro front last hs
    obtain ⟨rfl, rfl⟩ : front = [] ∧ last = [] := by
      cases front <;> simp_all
    exact ht
  | cons c s ih =>
    intro front last hs
    obtain ⟨piece, others, hp⟩ := List.exists_cons_of_ne_nil (pieces_ne_nil sep s)
    by_cases h : c = sep
    · -- an empty piece comes before those of the rest
      subst h
      rw [pieces_cons_self] at hs
      cases front with
      | nil => simp [pieces_ne_nil] at hs
      | cons x front =>
        rw [List.cons_append] at hs
        obtain ⟨rfl, htail⟩ := List.cons.inj hs
        rw [List.cons_append, pieces_cons_self, ih _ _ htail, List.cons_append]
    · -- the first piece becomes longer, and it may be the last one
      rw [pieces, if_neg h, hp] at hs
      rw [List.cons_append, pieces, if_neg h]
      cases front with
      | nil =>
        obtain ⟨rfl, rfl⟩ := List.cons.inj hs
        rw [ih [] piece hp]
        rfl
      | cons x front =>
        obtain ⟨rfl, rfl⟩ := List.cons.inj hs
        rw [ih (piece :: front) last hp]
        rfl

/-- Between the pieces of two texts a separator makes a cut. -/
theorem pieces_append_self (sep : Char) (s t : List Char) :
    pieces sep (s ++ sep :: t) = pieces sep s ++ pieces sep t := by
  obtain ⟨front, last, hs⟩ := (pieces sep s).eq_nil_or_concat'.resolve_left (pieces_ne_nil sep s)
  rw [pieces_append (pieces_cons_self sep t) s _ _ hs, hs, List.append_nil, List.append_assoc]
  rfl

/-- Pieces without separators are found again when they are joined. -/
theorem pieces_joined {texts : List (List Char)} (hne : texts ≠ [])
    (h : ∀ text ∈ texts, sep ∉ text) : pieces sep (joined sep texts) = texts := by
  induction texts with
  | nil => exact absurd rfl hne
  | cons text texts ih =>
    rw [List.forall_mem_cons] at h
    cases texts with
    | nil => exact pieces_of_notMem h.1
    | cons next others =>
      rw [joined, pieces_append_cons h.1, ih (List.cons_ne_nil next others) h.2]

/-- A character of joined pieces is the separator or stands in one of them. -/
theorem mem_joined {c : Char} {texts : List (List Char)} (h : c ∈ joined sep texts) :
    c = sep ∨ ∃ text ∈ texts, c ∈ text := by
  induction texts with
  | nil => exact absurd h List.not_mem_nil
  | cons text texts ih =>
    cases texts with
    | nil => exact .inr ⟨text, List.mem_cons_self, h⟩
    | cons next others =>
      rw [joined, List.mem_append, List.mem_cons] at h
      rcases h with h | h | h
      · exact .inr ⟨text, List.mem_cons_self, h⟩
      · exact .inl h
      · obtain h | ⟨piece, hpiece, hc⟩ := ih h
        · exact .inl h
        · exact .inr ⟨piece, List.mem_cons_of_mem _ hpiece, hc⟩

end BlockArm.Text
