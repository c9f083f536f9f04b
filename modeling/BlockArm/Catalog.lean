/-
# The catalog of challenges and the progress of a session

A catalog keeps challenges in the order in which they were given.  A session is complete when enough
different challenges have been solved; how often does not matter.
-/
import BlockArm.Challenge
import Std.Data.ExtTreeSet

namespace BlockArm

/-! ## The catalog -/

/-- The known challenges. -/
structure Catalog where
  challenges : List Challenge := []

namespace Catalog

/-- The challenges with `c` in the place of the first one of its name, or at the end. -/
def put (c : Challenge) : List Challenge → List Challenge
  | [] => [c]
  | d :: ds => if d.name = c.name then c :: ds else d :: put c ds

/-- Adds a challenge, or replaces the one of the same name. -/
def insert (k : Catalog) (c : Challenge) : Catalog := ⟨put c k.challenges⟩

/-- The challenge of a given name. -/
def get (k : Catalog) (name : String) : Except Fault Challenge :=
  match k.challenges.find? (·.name == name) with
  | some c => .ok c
  | none => .error (.unknownChallenge name)

/-- The names in order. -/
def names (k : Catalog) : List String := k.challenges.map Challenge.name

/-- The number of challenges. -/
def size (k : Catalog) : Nat := k.challenges.length

end Catalog

/-! ## Progress -/

/-- How many challenges a session has to solve unless it is told otherwise. -/
def defaultRequired : Nat := 2

/-- The challenges solved in a session. -/
structure Progress where
  solved : Std.ExtTreeSet String := ∅
  /-- How many different challenges complete the session. -/
  required : Nat := defaultRequired

namespace Progress

/-- How many different challenges are solved. -/
def count (p : Progress) : Nat := p.solved.size

/-- Marks a challenge solved. -/
def record (p : Progress) (name : String) : Progress := { p with solved := p.solved.insert name }

/-- Whether a challenge was solved at least once. -/
def isSolved (p : Progress) (name : String) : Bool := p.solved.contains name

/-- Whether enough challenges are solved. -/
def isComplete (p : Progress) : Bool := p.required ≤ p.count

/-- Forgets every solved challenge. -/
def clear (p : Progress) : Progress := { p with solved := ∅ }

@[simp] theorem required_record (p : Progress) (name : String) :
    (p.record name).required = p.required := rfl

end Progress

end BlockArm
