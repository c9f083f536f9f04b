/-
# TOML values

A document is a table.  Tables and lists remember how they came about, since that decides whether a
later line may add to them (`Origin`, `Value.list`).  Keys keep the order of the document.
-/
namespace BlockArm.Toml

/-- How a table came about. -/
inductive Origin where
  /-- An inline table, which nothing can be added to. -/
  | inline
  /-- A table with a header of its own. -/
  | header
  /-- A table that the header of a table inside it brought about. -/
  | passing
  /-- A table that a dotted key brought about. -/
  | dotted
  deriving DecidableEq, Repr

/-- A TOML value. -/
inductive Value where
  | text (s : String)
  | whole (n : Int)
  | real (x : Float)
  /-- A decimal that is too large for a double. -/
  | tooLarge
  | truth (b : Bool)
  /-- A list; `growing` if it consists of tables that headers have appended. -/
  | list (growing : Bool) (values : List Value)
  | table (origin : Origin) (entries : List (String × Value))

/-! ## Values that nobody asks for -/

mutual

/-- Whether a value can be passed over: its whole numbers have up to 128 bits, signed or not, and
none of its decimals is too large. -/
def Value.isSkippable : Value → Bool
  | .whole n => -170141183460469231731687303715884105728 ≤ n &&
      n ≤ 340282366920938463463374607431768211455
  | .tooLarge => false
  | .list _ values => Value.areSkippable values
  | .table _ entries => Value.areSkippableEntries entries
  | .text _ | .real _ | .truth _ => true

/-- Whether all values of a list can be passed over. -/
def Value.areSkippable : List Value → Bool
  | [] => true
  | v :: vs => v.isSkippable && areSkippable vs

/-- Whether all values of a table can be passed over. -/
def Value.areSkippableEntries : List (String × Value) → Bool
  | [] => true
  | (_, v) :: es => v.isSkippable && areSkippableEntries es

end

/-! ## Tables -/

/-- The entries of a table. -/
abbrev Entries := List (String × Value)

namespace Entries

/-- The value of a key. -/
def get? (entries : Entries) (key : String) : Option Value := entries.lookup key

/-- The entries with another value for a key; a new key comes last. -/
def put (key : String) (value : Value) : Entries → Entries
  | [] => [(key, value)]
  | (k, v) :: rest => if k = key then (k, value) :: rest else (k, v) :: put key value rest

/-! ## Adding to tables -/

/-- Changes the table at the end of a path, entering tables on the way and creating those that are
missing.  A path of headers leads through tables of any origin but inline ones, and into the last
table of a growing list; a dotted key does not lead into a table that has a header. -/
def within (dotted : Bool) (change : Origin → Entries → Option (Origin × Entries)) :
    List String → Origin → Entries → Option (Origin × Entries)
  | [], origin, entries => change origin entries
  | key :: path, origin, entries => do
    let entered ← match get? entries key with
      | none => do
        let (o, inner) ← within dotted change path (if dotted then .dotted else .passing) []
        pure (.table o inner)
      | some (.table .inline _) => none
      | some (.table o inner) =>
        if dotted && o = .header then none
        else do
          let (o, inner) ← within dotted change path o inner
          pure (.table o inner)
      | some (.list true values) => match values.getLast? with
        | some (.table o inner) => do
          let (o, inner) ← within dotted change path o inner
          pure (.list true (values.dropLast ++ [.table o inner]))
        | _ => none
      | some _ => none
    pure (origin, put key entered entries)

/-- Adds a key with a value to the table at hand.  Below a dotted key the table has to be one that
dotted keys brought about. -/
def addHere (below : Bool) (key : String) (value : Value) (origin : Origin) (entries : Entries) :
    Option (Origin × Entries) :=
  if below && origin ≠ .dotted then none
  else match get? entries key with
    | some _ => none
    | none => some (origin, put key value entries)

/-- Adds a value under a dotted key, given as its first parts and its last. -/
def add (parts : List String) (key : String) (value : Value) (origin : Origin) (entries : Entries) :
    Option (Origin × Entries) :=
  within true (addHere (parts ≠ []) key value) parts origin entries

/-- Opens the table of a header in the table around it.  A table may have only one header. -/
def openTable (key : String) (origin : Origin) (entries : Entries) : Option (Origin × Entries) :=
  match get? entries key with
  | none => some (origin, put key (.table .header []) entries)
  | some (.table .passing inner) => some (origin, put key (.table .header inner) entries)
  | some _ => none

/-- Appends a table to a growing list in the table around it. -/
def openElement (key : String) (origin : Origin) (entries : Entries) : Option (Origin × Entries) :=
  match get? entries key with
  | none => some (origin, put key (.list true [.table .header []]) entries)
  | some (.list true values) =>
    some (origin, put key (.list true (values ++ [.table .header []])) entries)
  | some _ => none

end Entries

end BlockArm.Toml
