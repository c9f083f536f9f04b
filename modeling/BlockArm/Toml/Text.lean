/-
# TOML tokens

Blanks, comments, strings, numbers and keys.  Every reader takes the characters at hand and answers
what it read and the characters after it; readers that go over a text of unknown length count down
from a bound that the length of the text is below.
-/
import BlockArm.Text.Pieces
import BlockArm.Toml.Value

namespace BlockArm.Toml

/-- A reader of characters. -/
abbrev Reader (α : Type) := List Char → Option (α × List Char)

/-! ## Blanks and comments -/

/-- Whether a character separates tokens on a line. -/
def isSpace (c : Char) : Bool := c = ' ' || c = '\t'

/-- Whether a character may stand in a comment or a string. -/
def isPlain (c : Char) : Bool := c = '\t' || (0x20 ≤ c.toNat && c.toNat ≠ 0x7F)

/-- The text after blanks on the line. -/
def skipSpaces (cs : List Char) : List Char := cs.dropWhile isSpace

/-- The text after the end of a line. -/
def newline? : List Char → Option (List Char)
  | '\n' :: cs => some cs
  | '\r' :: '\n' :: cs => some cs
  | _ => none

/-- The text after a comment, without the end of the line. -/
def skipComment : List Char → Option (List Char)
  | [] => some []
  | '\n' :: cs => some ('\n' :: cs)
  | '\r' :: '\n' :: cs => some ('\r' :: '\n' :: cs)
  | c :: cs => if isPlain c then skipComment cs else none

/-- The text after the blanks, the comment and the end of the line that follow an expression. -/
def endLine (cs : List Char) : Option (List Char) := do
  let cs ← match skipSpaces cs with
    | '#' :: cs => skipComment cs
    | cs => some cs
  match cs with
  | [] => some []
  | cs => newline? cs

/-- The text after blanks, comments and ends of lines. -/
def skipLines : Nat → List Char → Option (List Char)
  | 0, _ => none
  | n + 1, cs => match skipSpaces cs with
    | '#' :: cs => do skipLines n (← skipComment cs)
    | cs => match newline? cs with
      | some cs => skipLines n cs
      | none => some cs

/-! ## Strings -/

/-- The value of a hexadecimal digit. -/
def hexValue? (c : Char) : Option Nat :=
  if c.isDigit then some (c.toNat - 48)
  else if 'a' ≤ c ∧ c ≤ 'f' then some (c.toNat - 87)
  else if 'A' ≤ c ∧ c ≤ 'F' then some (c.toNat - 55)
  else none

/-- The character of a code point written with a given number of hexadecimal digits. -/
def codePoint (count : Nat) (cs : List Char) : Option (Char × List Char) := do
  let digits ← (cs.take count).mapM hexValue?
  if digits.length < count then none
  let n := digits.foldl (fun n d => 16 * n + d) 0
  if h : n.isValidChar then some (Char.ofNatAux n h, cs.drop count) else none

/-- The character of an escape, after the backslash. -/
def escape : Reader Char
  | 'b' :: cs => some ('\x08', cs)
  | 't' :: cs => some ('\t', cs)
  | 'n' :: cs => some ('\n', cs)
  | 'f' :: cs => some ('\x0c', cs)
  | 'r' :: cs => some ('\r', cs)
  | '"' :: cs => some ('"', cs)
  | '\\' :: cs => some ('\\', cs)
  | 'u' :: cs => codePoint 4 cs
  | 'U' :: cs => codePoint 8 cs
  | _ => none

/-- The rest of a string on one line, after its opening quote.  Only one kind has escapes. -/
def lineString (quote : Char) (escapes : Bool) : Nat → Reader (List Char)
  | 0, _ => none
  | n + 1, cs => match cs with
    | [] => none
    | c :: cs =>
      if c = quote then some ([], cs)
      else if escapes && c = '\\' then do
        let (c, cs) ← escape cs
        let (text, cs) ← lineString quote escapes n cs
        some (c :: text, cs)
      else if isPlain c then do
        let (text, cs) ← lineString quote escapes n cs
        some (c :: text, cs)
      else none

/-- The text after blanks and ends of lines. -/
def skipBlankLines : List Char → List Char
  | '\r' :: '\n' :: cs => skipBlankLines cs
  | c :: cs => if isSpace c || c = '\n' then skipBlankLines cs else c :: cs
  | [] => []

/-- The text after a backslash at the end of a line and the blanks and ends of lines after it. -/
def lineContinuation? (cs : List Char) : Option (List Char) :=
  (newline? (skipSpaces cs)).map skipBlankLines

/-- The rest of a string over several lines, after its opening quotes.  Ends of lines are kept as
they are.  Up to two quotes may stand before the closing ones. -/
def blockString (quote : Char) (escapes : Bool) : Nat → Reader (List Char)
  | 0, _ => none
  | n + 1, cs =>
    let quotes := (cs.takeWhile (· == quote)).length
    if 3 ≤ quotes then
      let used := min quotes 5
      some (List.replicate (used - 3) quote, cs.drop used)
    else match cs with
      | [] => none
      | '\r' :: '\n' :: cs => do
        let (text, cs) ← blockString quote escapes n cs
        some ('\r' :: '\n' :: text, cs)
      | c :: cs =>
        if escapes && c = '\\' then
          match lineContinuation? cs with
          | some cs => blockString quote escapes n cs
          | none => do
            let (c, cs) ← escape cs
            let (text, cs) ← blockString quote escapes n cs
            some (c :: text, cs)
        else if isPlain c || c = '\n' then do
          let (text, cs) ← blockString quote escapes n cs
          some (c :: text, cs)
        else none

/-- A string, with the quote that opens it. -/
def string (n : Nat) : Reader String
  | '"' :: '"' :: '"' :: cs => text (blockString '"' true n ((newline? cs).getD cs))
  | '\'' :: '\'' :: '\'' :: cs => text (blockString '\'' false n ((newline? cs).getD cs))
  | '"' :: cs => text (lineString '"' true n cs)
  | '\'' :: cs => text (lineString '\'' false n cs)
  | _ => none
where
  /-- The characters read, as a string. -/
  text : Option (List Char × List Char) → Option (String × List Char)
    | some (s, cs) => some (String.ofList s, cs)
    | none => none

/-! ## Numbers and truth values -/

/-- Digits in groups between underscores, without the underscores. -/
def grouped (isDigit : Char → Bool) (cs : List Char) : Option (List Char) :=
  let groups := Text.pieces '_' cs
  if groups.all fun g => g ≠ [] && g.all isDigit then some groups.flatten else none

/-- The number of digits in some base. -/
def inBase (base : Nat) (cs : List Char) : Option Int := do
  let digits ← grouped (fun c => (hexValue? c).any (· < base)) cs
  let values ← digits.mapM hexValue?
  some (values.foldl (fun n d => base * n + d) 0 : Nat)

/-- Decimal digits without a leading zero. -/
def plainDigits (cs : List Char) : Option (List Char) := do
  let digits ← grouped Char.isDigit cs
  match digits with
  | '0' :: _ :: _ => none
  | digits => some digits

/-- A sign and what follows it. -/
def splitSign : List Char → Bool × List Char
  | '+' :: cs => (false, cs)
  | '-' :: cs => (true, cs)
  | cs => (false, cs)

/-- A whole number of any size. -/
def whole? (cs : List Char) : Option Int :=
  match cs with
  | '0' :: 'x' :: cs => inBase 16 cs
  | '0' :: 'o' :: cs => inBase 8 cs
  | '0' :: 'b' :: cs => inBase 2 cs
  | cs => do
    let (negative, cs) := splitSign cs
    let digits ← plainDigits cs
    let n : Int := Nat.ofDigitChars 10 digits 0
    some (if negative then -n else n)

/-- The double nearest to `m · 10 ^ e`, unless that is too large. -/
def scaled (m : Nat) (e : Int) : Option Float :=
  let size := (Nat.toDigits 10 m).length + e
  if m = 0 ∨ size < -400 then some 0
  else if 400 < size then none
  else
    let x := Float.ofScientific m (e < 0) e.natAbs
    if x.isInf then none else some x

/-- The exponent after its letter. -/
def exponent? (cs : List Char) : Option Int := do
  let (negative, cs) := splitSign cs
  let n : Int := Nat.ofDigitChars 10 (← grouped Char.isDigit cs) 0
  some (if negative then -n else n)

/-- A decimal with a fraction or an exponent or both: its digits and the power of ten they count. -/
def decimal? (cs : List Char) : Option (Nat × Int) := do
  let isMark (c : Char) : Bool := c = 'e' || c = 'E'
  let mantissa := cs.takeWhile fun c => !isMark c
  let marked := cs.dropWhile fun c => !isMark c
  let ahead := mantissa.takeWhile (· ≠ '.')
  let behind := mantissa.dropWhile (· ≠ '.')
  if marked = [] ∧ behind = [] then none
  let e ← match marked with
    | [] => some 0
    | _ :: cs => exponent? cs
  let digits ← plainDigits ahead
  let places ← match behind with
    | [] => some []
    | _ :: cs => grouped Char.isDigit cs
  some (Nat.ofDigitChars 10 (digits ++ places) 0, e - places.length)

/-- A number that need not be whole. -/
def real? (cs : List Char) : Option Value := do
  let (negative, cs) := splitSign cs
  let x ← if cs = ['i', 'n', 'f'] then some (some (1 / 0))
    else if cs = ['n', 'a', 'n'] then some (some (0 / 0))
    else (decimal? cs).map fun (m, e) => scaled m e
  match x with
  | some x => some (.real (if negative then -x else x))
  | none => some .tooLarge

/-- Whether a character may stand in a number or a truth value. -/
def isWordChar (c : Char) : Bool := c.isAlphanum || c = '_' || c = '+' || c = '-' || c = '.'

/-- A number or a truth value. -/
def word : Reader Value := fun cs => do
  let token := cs.takeWhile isWordChar
  let value ←
    if token = ['t', 'r', 'u', 'e'] then some (.truth true)
    else if token = ['f', 'a', 'l', 's', 'e'] then some (.truth false)
    else ((whole? token).map Value.whole).or (real? token)
  some (value, cs.dropWhile isWordChar)

/-! ## Keys -/

/-- Whether a character may stand in a key without quotes. -/
def isKeyChar (c : Char) : Bool := c.isAlphanum || c = '_' || c = '-'

/-- One part of a key. -/
def keyPart (n : Nat) : Reader String
  | '"' :: cs => string.text (lineString '"' true n cs)
  | '\'' :: cs => string.text (lineString '\'' false n cs)
  | cs =>
    let part := cs.takeWhile isKeyChar
    if part = [] then none else some (String.ofList part, cs.dropWhile isKeyChar)

/-- A key: its first parts and its last, with dots between them. -/
def key (bound : Nat) : Nat → Reader (List String × String)
  | 0, _ => none
  | n + 1, cs => do
    let (part, cs) ← keyPart bound cs
    match skipSpaces cs with
    | '.' :: cs => do
      let ((parts, last), cs) ← key bound n (skipSpaces cs)
      some ((part :: parts, last), cs)
    | cs => some (([], part), cs)

end BlockArm.Toml
