/-
# Spacing does not matter

Blanks other than the end of a line can be put into a script and taken out of it anywhere, inside
names and numbers too.  The answer stays the same, with the lines of its statements or of its fault.

* `Text.isSpacing`: the blanks that end no line;
* `Text.pieces_filter`: what is left out of a text is left out of its pieces;
* `Script.lines_congr`: lines are read alike that differ in blanks only;
* `Script.Respaced`: the texts that a text becomes when its spacing is edited;
* `Script.parse_of_respaced`: they are all read alike;
* `Script.parse_eq_lines`: in particular, a line may end with a carriage return.
-/
import BlockArm.Proofs.Script.Composition

namespace BlockArm

/-! ## Texts -/

namespace Text

/-- Whether a character is a blank that ends no line. -/
def isSpacing (c : Char) : Bool := isBlank c && c != '\n'

/-- A text without its spacing. -/
def unpadded (text : List Char) : List Char := text.filter fun c => !isSpacing c

/-- A character of the spacing is lost. -/
theorem unpadded_insert {c : Char} (h : isSpacing c = true) (s t : List Char) :
    unpadded (s ++ c :: t) = unpadded (s ++ t) := by
  rw [unpadded, unpadded, List.filter_append, List.filter_append, List.filter_cons_of_neg]
  rw [h]
  exact Bool.false_ne_true

/-- Without its spacing a text has the blanks still to lose that end its lines. -/
@[simp] theorem unspaced_unpadded (text : List Char) : unspaced (unpadded text) = unspaced text := by
  rw [unspaced, unpadded, List.filter_filter]
  refine List.filter_congr fun c _ => ?_
  cases hblank : isBlank c with
  | true => rfl
  | false => simp [isSpacing, hblank]

/-- What is left out of a text is left out of its pieces, if it is no separator. -/
theorem pieces_filter {sep : Char} {keep : Char → Bool} (hsep : keep sep = true)
    (text : List Char) : pieces sep (text.filter keep) = (pieces sep text).map (List.filter keep) := by
  induction text with
  | nil => rfl
  | cons c rest ih =>
    by_cases h : c = sep
    · rw [h, List.filter_cons_of_pos hsep, pieces_cons_self, pieces_cons_self, ih, List.map_cons,
        List.filter_nil]
    · obtain ⟨first, others, hp⟩ := List.exists_cons_of_ne_nil (pieces_ne_nil sep rest)
      rw [hp, List.map_cons] at ih
      rw [pieces, if_neg h, hp]
      by_cases hkeep : keep c = true
      · rw [List.filter_cons_of_pos hkeep, pieces, if_neg h, ih, List.map_cons,
          List.filter_cons_of_pos hkeep]
      · rw [List.filter_cons_of_neg hkeep, ih, List.map_cons, List.filter_cons_of_neg hkeep]

/-- The line without a carriage return at its end. -/
def withoutReturn (line : List Char) : List Char :=
  if line.getLast? = some '\r' then line.dropLast else line

/-- The lines of a text, each of which ends with a line feed or with a carriage return and a line
feed.  The last one need not end so, but an empty one that does not is none. -/
def linesOf (text : List Char) : List (List Char) :=
  let last := (pieces '\n' text).getLast (pieces_ne_nil '\n' text)
  (pieces '\n' text).dropLast.map withoutReturn ++ if last = [] then [] else [last]

@[simp] theorem unspaced_withoutReturn (line : List Char) :
    unspaced (withoutReturn line) = unspaced line := by
  unfold withoutReturn
  split
  · next h =>
    obtain ⟨front, rfl⟩ := List.getLast?_eq_some_iff.mp h
    rw [List.dropLast_concat, unspaced_append]
    exact (List.append_nil _).symm
  · rfl

end Text

namespace Script

open Text

/-! ## Statements and lines -/

/-- A statement is read without its blanks. -/
theorem statement_congr {s t : List Char} (h : unspaced s = unspaced t) (line : Nat) :
    statement line s = statement line t := by
  rw [statement, statement, h]

theorem statements_congr (line : Nat) : ∀ {xs ys : List (List Char)},
    xs.map unspaced = ys.map unspaced → statements line xs = statements line ys := by
  intro xs
  induction xs with
  | nil =>
    intro ys h
    rw [List.map_eq_nil_iff.mp h.symm]
  | cons x xs ih =>
    intro ys h
    obtain ⟨y, ys, rfl, hy, hys⟩ := List.map_eq_cons_iff.mp h.symm
    rw [statements, statements, statement_congr hy.symm, ih hys.symm]

/-- The statements of a line are found whether it has blanks or not. -/
theorem pieces_unspaced (text : List Char) :
    (pieces ';' text).map unspaced = pieces ';' (unspaced text) :=
  (pieces_filter (by decide) text).symm

/-- Lines are read alike that differ in blanks only. -/
theorem lines_congr : ∀ {xs ys : List (List Char)} (line : Nat),
    xs.map unspaced = ys.map unspaced → lines line xs = lines line ys := by
  intro xs
  induction xs with
  | nil =>
    intro ys line h
    rw [List.map_eq_nil_iff.mp h.symm]
  | cons x xs ih =>
    intro ys line h
    obtain ⟨y, ys, rfl, hy, hys⟩ := List.map_eq_cons_iff.mp h.symm
    have hhere : (pieces ';' x).map unspaced = (pieces ';' y).map unspaced := by
      rw [pieces_unspaced, pieces_unspaced, hy]
    rw [lines, lines, statements_congr line hhere, ih (line + 1) hys.symm]

/-! ## Scripts -/

/-- The spacing can be left out: the ends of the lines stay where they are. -/
theorem parse_unpadded (text : List Char) : parse (unpadded text) = parse text := by
  have hlines : pieces '\n' (unpadded text) = (pieces '\n' text).map unpadded :=
    pieces_filter (by decide) text
  rw [parse, parse, hlines]
  refine lines_congr 1 ?_
  rw [List.map_map]
  exact List.map_congr_left fun line _ => unspaced_unpadded line

/-- The texts that a text becomes when blanks that end no line are put in and taken out, one after
the other and each anywhere. -/
inductive Respaced (source : List Char) : List Char → Prop where
  | refl : Respaced source source
  | insert {before after : List Char} {c : Char} : Respaced source (before ++ after) →
      isSpacing c = true → Respaced source (before ++ c :: after)
  | delete {before after : List Char} {c : Char} : Respaced source (before ++ c :: after) →
      isSpacing c = true → Respaced source (before ++ after)

/-- Edits of the spacing leave the rest of a text as it is. -/
theorem Respaced.unpadded_eq {source text : List Char} (h : Respaced source text) :
    unpadded text = unpadded source := by
  induction h with
  | refl => rfl
  | insert _ hc ih => rw [unpadded_insert hc, ih]
  | delete _ hc ih => rw [← unpadded_insert hc, ih]

/-- **Spacing does not matter.**  However the spacing of a script is edited, it comes to the same
statements on the same lines, or to the same fault. -/
theorem parse_of_respaced {source text : List Char} (h : Respaced source text) :
    parse text = parse source := by
  rw [← parse_unpadded text, h.unpadded_eq, parse_unpadded]

/-- A blank is taken out of a name, one is put between the digits of a number, and a carriage return
before the end of a line. -/
theorem parse_of_respaced_retyped :
    Respaced "hoe he(1);\ndrehen(90".toList "hoehe(1);\r\ndrehen(9\u00a00".toList ∧
      parse "hoehe(1);\r\ndrehen(9\u00a00".toList = parse "hoe he(1);\ndrehen(90".toList := by
  have hname : Respaced "hoe he(1);\ndrehen(90".toList ("hoe".toList ++ "he(1);\ndrehen(90".toList) :=
    .delete (c := ' ') .refl (by decide)
  have hline : Respaced "hoe he(1);\ndrehen(90".toList
      ("hoehe(1);".toList ++ '\r' :: "\ndrehen(90".toList) := .insert hname (by decide)
  have hnumber : Respaced "hoe he(1);\ndrehen(90".toList
      ("hoehe(1);\r\ndrehen(9".toList ++ '\u00a0' :: "0".toList) := .insert hline (by decide)
  exact ⟨hnumber, parse_of_respaced hnumber⟩

/-- **Scripts are read by lines**, whichever way these end. -/
theorem parse_eq_lines (source : List Char) : parse source = lines 1 (linesOf source) := by
  have hne := pieces_ne_nil '\n' source
  have hreturns : ((pieces '\n' source).dropLast ++ [(pieces '\n' source).getLast hne]).map unspaced =
      ((pieces '\n' source).dropLast.map withoutReturn ++
        [(pieces '\n' source).getLast hne]).map unspaced := by
    simp only [List.map_append, List.map_map, Function.comp_def, unspaced_withoutReturn]
  rw [parse, ← List.dropLast_append_getLast hne, lines_congr 1 hreturns, linesOf]
  split
  · next hempty =>
    -- an empty line at the end has no statements
    rw [hempty, lines_append, List.append_nil]
    exact followed_ok_nil_right _
  · rfl

end Script

end BlockArm
