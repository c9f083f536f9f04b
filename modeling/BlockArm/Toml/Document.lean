/-
# TOML documents

`Toml.parse?` reads a document into the entries of its outermost table.  It answers nothing for a
text that is no document, and also where a key or a table is given twice.
-/
import BlockArm.Toml.Text

namespace BlockArm.Toml

/-! ## Values -/

/-- How deeply lists and inline tables may be nested. -/
def deepest : Nat := 80

mutual

/-- A value, in which lists and inline tables are nested up to a depth. -/
def value (bound : Nat) (depth : Nat) : Nat → Reader Value
  | 0, _ => none
  | n + 1, cs => match cs with
    | '[' :: cs => do
      if depth = 0 then none
      let (values, cs) ← elements bound (depth - 1) n cs
      some (.list false values, cs)
    | '\x7b' :: cs => do
      if depth = 0 then none
      match skipSpaces cs with
      | '\x7d' :: cs => some (.table .inline [], cs)
      | cs => do
        let (entries, cs) ← members bound (depth - 1) n [] cs
        some (.table .inline entries, cs)
    | c :: _ =>
      if c = '"' || c = '\'' then do
        let (s, cs) ← string bound cs
        some (.text s, cs)
      else word cs
    | [] => none

/-- The elements of a list up to its closing bracket; a comma may come last. -/
def elements (bound : Nat) (depth : Nat) : Nat → Reader (List Value)
  | 0, _ => none
  | n + 1, cs => do
    match ← skipLines bound cs with
    | ']' :: cs => some ([], cs)
    | cs => do
      let (v, cs) ← value bound depth n cs
      match ← skipLines bound cs with
      | ']' :: cs => some ([v], cs)
      | ',' :: cs => do
        let (vs, cs) ← elements bound depth n cs
        some (v :: vs, cs)
      | _ => none

/-- The members of an inline table up to its closing brace, added to the entries before them. -/
def members (bound : Nat) (depth : Nat) : Nat → Entries → Reader Entries
  | 0, _, _ => none
  | n + 1, entries, cs => do
    let ((parts, last), cs) ← key bound bound (skipSpaces cs)
    match skipSpaces cs with
    | '=' :: cs => do
      let (v, cs) ← value bound depth n (skipSpaces cs)
      let (_, entries) ← entries.add parts last v .header
      match skipSpaces cs with
      | '\x7d' :: cs => some (entries, cs)
      | ',' :: cs => members bound depth n entries cs
      | _ => none
    | _ => none

end

/-! ## Expressions -/

/-- A document so far: its entries, and the path of the last header. -/
structure State where
  entries : Entries := []
  path : List String := []

namespace State

/-- The document with the table of a header. -/
def openTable (s : State) (parts : List String) (last : String) : Option State := do
  let (_, entries) ← s.entries.within false (Entries.openTable last) parts .header
  some { entries, path := parts ++ [last] }

/-- The document with one more element of the list that a header names. -/
def openElement (s : State) (parts : List String) (last : String) : Option State := do
  let (_, entries) ← s.entries.within false (Entries.openElement last) parts .header
  some { entries, path := parts ++ [last] }

/-- The document with a value in the table of the last header. -/
def add (s : State) (parts : List String) (last : String) (v : Value) : Option State := do
  let (_, entries) ← s.entries.within false (fun o es => es.add parts last v o) s.path .header
  some { s with entries }

end State

/-- A header up to its closing bracket, or two of them. -/
def header (bound : Nat) (double : Bool) (s : State) (cs : List Char) : Option (State × List Char) := do
  let ((parts, last), cs) ← key bound bound (skipSpaces cs)
  match double, skipSpaces cs with
  | false, ']' :: cs => some (← s.openTable parts last, cs)
  | true, ']' :: ']' :: cs => some (← s.openElement parts last, cs)
  | _, _ => none

/-- A key and its value. -/
def assignment (bound : Nat) (s : State) (cs : List Char) : Option (State × List Char) := do
  let ((parts, last), cs) ← key bound bound cs
  match skipSpaces cs with
  | '=' :: cs => do
    let (v, cs) ← value bound deepest bound (skipSpaces cs)
    some (← s.add parts last v, cs)
  | _ => none

/-- The expressions of a document, one a line. -/
def expressions (bound : Nat) : Nat → State → List Char → Option State
  | 0, _, _ => none
  | n + 1, s, cs => do
    match ← skipLines bound cs with
    | [] => some s
    | '[' :: '[' :: cs => do
      let (s, cs) ← header bound true s cs
      expressions bound n s (← endLine cs)
    | '[' :: cs => do
      let (s, cs) ← header bound false s cs
      expressions bound n s (← endLine cs)
    | cs => do
      let (s, cs) ← assignment bound s cs
      expressions bound n s (← endLine cs)

/-- The text after the mark of the byte order, if it starts with one. -/
def skipOrderMark : List Char → List Char
  | '\uFEFF' :: cs => cs
  | cs => cs

/-- The entries of a document. -/
def parse? (text : String) : Option Entries :=
  let cs := skipOrderMark text.toList
  let bound := 2 * cs.length + 2
  (expressions bound bound {} cs).map State.entries

end BlockArm.Toml
