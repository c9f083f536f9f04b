/-
# Writing scripts

A command is written as a call without blanks.  `Script.write` puts the statements of a program on
their own lines: those of one line are separated by semicolons, and a line that has none is blank.
-/
import BlockArm.Command
import BlockArm.Text.Pieces

namespace BlockArm

open Text

/-- A command as a call. -/
def Command.text (c : Command) : List Char :=
  c.verb.name.toList ++ '(' :: joined ',' (c.arguments.map fun n => writeInt n.toInt) ++ [')']

/-- Commands one a line, the first of them on line `line`. -/
def Program.ofCommands (line : Nat) : List Command → Program
  | [] => []
  | c :: cs => ⟨line, c⟩ :: ofCommands (line + 1) cs

namespace Script

/-- The statements of one line, separated by semicolons. -/
def lineText (program : Program) (line : Nat) : List Char :=
  joined ';' ((program.filter (·.line == line)).map fun s => s.command.text)

/-- The number of the last line that has a statement. -/
def lastLine (program : Program) : Nat := program.foldl (fun n s => max n s.line) 0

/-- A program on its lines. -/
def write (program : Program) : List Char :=
  joined '\n' ((List.range' 1 (lastLine program)).map (lineText program))

end Script

end BlockArm
