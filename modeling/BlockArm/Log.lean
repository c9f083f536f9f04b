/-
# The log of a run

Messages have a level, and the verbosity of a run says which levels are kept.
-/
namespace BlockArm

/-- The level of a message. -/
inductive Level where
  | debug
  | info
  | warn
  | error
  deriving DecidableEq, Repr

/-- How much a run tells. -/
inductive Verbosity where
  /-- Errors only. -/
  | quiet
  /-- Errors, warnings and milestones. -/
  | normal
  /-- Everything. -/
  | verbose
  deriving DecidableEq, Repr

/-- Whether a message of a level is kept. -/
def Verbosity.keeps : Verbosity → Level → Bool
  | _, .error => true
  | quiet, _ => false
  | normal, .debug => false
  | normal, _ => true
  | verbose, _ => true

/-- One kept message. -/
structure LogLine where
  level : Level
  text : String
  deriving DecidableEq, Repr

/-- More verbosity keeps more. -/
theorem Verbosity.keeps_verbose (level : Level) : verbose.keeps level = true := by
  cases level <;> rfl

end BlockArm
