/-
# Blank characters

The code points with the Unicode property `White_Space`.  A script may hold any of them anywhere:
they are removed before a call is read (`unspaced`).
-/
namespace BlockArm.Text

/-- The ranges of the property `White_Space`, both ends included. -/
def blankRanges : List (Nat × Nat) :=
  [(0x0009, 0x000D), (0x0020, 0x0020), (0x0085, 0x0085), (0x00A0, 0x00A0), (0x1680, 0x1680),
   (0x2000, 0x200A), (0x2028, 0x2029), (0x202F, 0x202F), (0x205F, 0x205F), (0x3000, 0x3000)]

/-- Whether a character is blank. -/
def isBlank (c : Char) : Bool :=
  blankRanges.any fun (low, high) => low ≤ c.toNat && c.toNat ≤ high

/-- The property has 25 code points. -/
example : (blankRanges.map fun (low, high) => high + 1 - low).sum = 25 := by decide

/-- A text without its blanks. -/
def unspaced (text : List Char) : List Char := text.filter fun c => !isBlank c

@[simp] theorem unspaced_nil : unspaced [] = [] := rfl

/-- Removing blanks works piece by piece. -/
@[simp] theorem unspaced_append (s t : List Char) :
    unspaced (s ++ t) = unspaced s ++ unspaced t := List.filter_append ..

/-- There is nothing left to remove. -/
@[simp] theorem unspaced_unspaced (s : List Char) : unspaced (unspaced s) = unspaced s := by
  simp [unspaced]

end BlockArm.Text
