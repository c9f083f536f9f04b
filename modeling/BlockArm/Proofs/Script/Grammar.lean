/-
# The grammar of statements

A statement is a call `name(argument, …)`.  The grammar says so without saying how a text is taken
apart: an argument is an optional sign and digits, arguments stand between commas, and one pair of
parentheses closes the text.

* `Text.Digits`, `Text.Numeral`, `Script.Arguments`, `Script.Calls`: the grammar;
* `Script.integers_eq_ok_iff`, `Script.call_eq_ok_iff`: what the reader accepts, part by part;
* `Script.tightStatement_of_calls`, `Script.tightStatement_of_not_calls`: what a text of the grammar
  comes to, and that all others are malformed.
-/
import BlockArm.Script
import Mathlib.Data.List.Induction

namespace BlockArm

/-! ## Numbers -/

namespace Text

/-- One or more decimal digits, and the number that they write. -/
inductive Digits : List Char → Nat → Prop where
  | single {k : Nat} (hk : k < 10) : Digits [k.digitChar] k
  | snoc {text : List Char} {n k : Nat} (h : Digits text n) (hk : k < 10) :
      Digits (text ++ [k.digitChar]) (10 * n + k)

/-- Digits behind an optional sign, and the whole number that they write. -/
inductive Numeral : List Char → Int → Prop where
  | unsigned {text : List Char} {n : Nat} (h : Digits text n) : Numeral text n
  | plus {text : List Char} {n : Nat} (h : Digits text n) : Numeral ('+' :: text) n
  | minus {text : List Char} {n : Nat} (h : Digits text n) : Numeral ('-' :: text) (-n)

/-- A digit is the character of a number below ten. -/
theorem exists_digitChar_of_isDigit {c : Char} (h : c.isDigit = true) :
    ∃ k < 10, c = k.digitChar := by
  have hrange : 48 ≤ c.toNat ∧ c.toNat ≤ 57 := by
    simpa [Char.isDigit, UInt32.le_iff_toNat_le] using h
  refine ⟨c.toNat - 48, by omega, ?_⟩
  rw [← Char.toNat_inj, Nat.toNat_digitChar_of_lt_ten (by omega)]
  omega

/-- Digits are read as the number that they write, and nothing else is read. -/
theorem readNat?_eq_some_iff {text : List Char} {n : Nat} :
    readNat? text = some n ↔ Digits text n := by
  constructor
  · intro h
    unfold readNat? at h
    split at h
    · next hdigits =>
      obtain ⟨hne, hall⟩ := hdigits
      obtain rfl := Option.some.inj h
      -- the value grows at the end of the text, and so does the induction
      induction text using List.reverseRecOn with
      | nil => exact absurd rfl hne
      | append_singleton text c ih =>
        rw [List.all_append, Bool.and_eq_true] at hall
        obtain ⟨k, hk, rfl⟩ := exists_digitChar_of_isDigit (by simpa using hall.2)
        rw [Nat.ofDigitChars_append, Nat.ofDigitChars_cons_digitChar_of_lt_ten hk,
          Nat.ofDigitChars_nil]
        cases text with
        | nil =>
          rw [List.nil_append, Nat.ofDigitChars_nil, Nat.mul_zero, Nat.zero_add]
          exact .single hk
        | cons d text => exact .snoc (ih (List.cons_ne_nil d text) hall.1 rfl) hk
    · simp at h
  · intro h
    have hread : text ≠ [] ∧ text.all Char.isDigit = true ∧ Nat.ofDigitChars 10 text 0 = n := by
      induction h with
      | single hk =>
        refine ⟨List.cons_ne_nil _ _, ?_, ?_⟩
        · simp [hk]
        · rw [Nat.ofDigitChars_cons_digitChar_of_lt_ten hk, Nat.ofDigitChars_nil]
          omega
      | snoc h hk ih =>
        obtain ⟨-, hall, hvalue⟩ := ih
        refine ⟨by simp, ?_, ?_⟩
        · simpa [hk] using hall
        · rw [Nat.ofDigitChars_append, hvalue, Nat.ofDigitChars_cons_digitChar_of_lt_ten hk,
            Nat.ofDigitChars_nil]
    rw [readNat?, if_pos ⟨hread.1, hread.2.1⟩, hread.2.2]

/-- Digits are digits. -/
theorem Digits.isDigit {text : List Char} {n : Nat} (h : Digits text n) :
    ∀ c ∈ text, c.isDigit = true := by
  have hread := readNat?_eq_some_iff.mpr h
  unfold readNat? at hread
  split at hread
  · next hdigits => exact List.all_eq_true.mp hdigits.2
  · simp at hread

/-- After a minus sign the number is taken negatively. -/
theorem readInt?_minus (text : List Char) :
    readInt? ('-' :: text) = (readNat? text).map fun m : Nat => -(m : Int) := by
  rw [readInt?]
  cases readNat? text <;> rfl

/-- A sign and digits are read as the number that they write, and nothing else is read. -/
theorem readInt?_eq_some_iff {text : List Char} {n : Int} :
    readInt? text = some n ↔ Numeral text n := by
  constructor
  · intro h
    rw [readInt?.eq_def] at h
    split at h
    · obtain ⟨m, hm, rfl⟩ := Option.map_eq_some_iff.mp h
      exact .plus (readNat?_eq_some_iff.mp hm)
    · next digits =>
      obtain ⟨m, hm, rfl⟩ := Option.map_eq_some_iff.mp ((readInt?_minus digits).symm.trans h)
      exact .minus (readNat?_eq_some_iff.mp hm)
    · obtain ⟨m, hm, rfl⟩ := Option.map_eq_some_iff.mp h
      exact .unsigned (readNat?_eq_some_iff.mp hm)
  · intro h
    cases h with
    | plus h => rw [readInt?, readNat?_eq_some_iff.mpr h, Option.map_some, Int.ofNat_eq_natCast]
    | minus h => rw [readInt?_minus, readNat?_eq_some_iff.mpr h, Option.map_some]
    | unsigned h =>
      have hread := readNat?_eq_some_iff.mpr h
      unfold readInt?
      split
      · -- a sign is not a digit
        exact absurd (h.isDigit '+' List.mem_cons_self) (by decide)
      · exact absurd (h.isDigit '-' List.mem_cons_self) (by decide)
      · rw [hread, Option.map_some, Int.ofNat_eq_natCast]

/-- Numbers in the range of 32 bits are read, and no others. -/
theorem readInt32?_eq_some_iff {text : List Char} {n : Int32} :
    readInt32? text = some n ↔ Numeral text n.toInt := by
  rw [readInt32?, Option.bind_eq_some_iff]
  constructor
  · rintro ⟨m, hm, h⟩
    unfold int32? at h
    split at h
    · next hrange =>
      obtain rfl := Option.some.inj h
      rw [Int32.toInt_ofInt_of_le (by omega) (by omega)]
      exact readInt?_eq_some_iff.mp hm
    · simp at h
  · exact fun h => ⟨n.toInt, readInt?_eq_some_iff.mpr h, int32?_toInt n⟩

/-- There is no comma in a number. -/
theorem Numeral.comma_notMem {text : List Char} {n : Int} (h : Numeral text n) : ',' ∉ text := by
  have hdigits : ∀ {text : List Char} {m : Nat}, Digits text m → ',' ∉ text :=
    fun h hmem => absurd (h.isDigit ',' hmem) (by decide)
  cases h with
  | unsigned h => exact hdigits h
  | plus h => simpa using hdigits h
  | minus h => simpa using hdigits h

end Text

namespace Script

open Text

/-! ## Arguments -/

/-- Numbers of 32 bits between commas, and their values. -/
inductive Numerals : List Char → List Int32 → Prop where
  | last {token : List Char} {n : Int32} (h : Numeral token n.toInt) : Numerals token [n]
  | more {token rest : List Char} {n : Int32} {ns : List Int32} (h : Numeral token n.toInt)
      (hrest : Numerals rest ns) : Numerals (token ++ ',' :: rest) (n :: ns)

/-- What may stand between the parentheses: nothing, or numbers. -/
inductive Arguments : List Char → List Int32 → Prop where
  | none : Arguments [] []
  | some {inner : List Char} {ns : List Int32} (h : Numerals inner ns) : Arguments inner ns

/-- The first of the integers is read first. -/
theorem integers_cons_eq_ok_iff {token : List Char} {tokens : List (List Char)} {ns : List Int32} :
    integers (token :: tokens) = .ok ns ↔
      ∃ m ms, ns = m :: ms ∧ Numeral token m.toInt ∧ integers tokens = .ok ms := by
  simp only [integers, ← readInt32?_eq_some_iff]
  cases readInt32? token with
  | none => simp
  | some m => cases integers tokens <;> simp [eq_comm]

/-- Pieces that write integers are numbers between commas. -/
theorem numerals_of_integers {tokens : List (List Char)} (hne : tokens ≠ []) :
    ∀ {ns : List Int32}, integers tokens = .ok ns → Numerals (joined ',' tokens) ns := by
  induction tokens with
  | nil => exact absurd rfl hne
  | cons token tokens ih =>
    intro ns h
    obtain ⟨m, ms, rfl, hm, hms⟩ := integers_cons_eq_ok_iff.mp h
    cases tokens with
    | nil =>
      obtain rfl := Except.ok.inj hms
      exact .last hm
    | cons next others => exact .more hm (ih (List.cons_ne_nil next others) hms)

/-- Numbers between commas are pieces that write integers. -/
theorem integers_of_numerals {inner : List Char} {ns : List Int32} (h : Numerals inner ns) :
    integers (pieces ',' inner) = .ok ns := by
  induction h with
  | last h =>
    rw [pieces_of_notMem h.comma_notMem, integers_cons_eq_ok_iff]
    exact ⟨_, [], rfl, h, rfl⟩
  | more h hrest ih =>
    rw [pieces_append_cons h.comma_notMem, integers_cons_eq_ok_iff]
    exact ⟨_, _, rfl, h, ih⟩

/-- A number is not empty. -/
theorem Numerals.ne_nil {inner : List Char} {ns : List Int32} (h : Numerals inner ns) :
    inner ≠ [] := by
  rintro rfl
  have hread := integers_of_numerals h
  simp [pieces, integers, readInt32?, readInt?, readNat?] at hread

/-- Exactly the arguments are read, each as the number that it writes. -/
theorem integers_eq_ok_iff {inner : List Char} {ns : List Int32} :
    integers (argumentTexts inner) = .ok ns ↔ Arguments inner ns := by
  unfold argumentTexts
  constructor
  · intro h
    split at h
    · next hempty =>
      obtain rfl := Except.ok.inj h
      exact hempty ▸ .none
    · have hnumerals := numerals_of_integers (pieces_ne_nil ',' inner) h
      rw [joined_pieces] at hnumerals
      exact .some hnumerals
  · intro h
    cases h with
    | none => rfl
    | some h =>
      rw [if_neg h.ne_nil]
      exact integers_of_numerals h

/-! ## Calls -/

/-- A text that is a name and a pair of parentheses, which are the only ones. -/
structure Form (text name inner : List Char) : Prop where
  text_eq : text = name ++ '(' :: (inner ++ [')'])
  name_ne_nil : name ≠ []
  name_plain : '(' ∉ name ∧ ')' ∉ name
  inner_plain : '(' ∉ inner ∧ ')' ∉ inner

/-- A call is found where all tests are passed. -/
theorem call_eq_ok_cases {text : List Char} {c : Call} (h : call text = .ok c) :
    ∃ name rest, cutAt? '(' text = some (name, rest) ∧ ')' ∈ text ∧
      ∃ inner after, cutAt? ')' rest = some (inner, after) ∧
        ¬ ('(' ∈ rest ∨ 1 < text.count ')') ∧ after = [] ∧ name ≠ [] ∧
        c = ⟨name, argumentTexts inner⟩ := by
  unfold call at h
  split at h
  · simp at h
  next name rest hopening =>
  split at h
  · simp at h
  next hclosing =>
  split at h
  · simp at h
  next inner after hcut =>
  split at h
  · simp at h
  next hnested =>
  split at h
  · simp at h
  next hafter =>
  split at h
  · simp at h
  next hname =>
  exact ⟨name, rest, hopening, Decidable.not_not.mp hclosing, inner, after, hcut, hnested,
    Decidable.not_not.mp hafter, hname, (Except.ok.inj h).symm⟩

/-- Exactly the texts of this form are taken for calls. -/
theorem call_eq_ok_iff {text : List Char} {c : Call} :
    call text = .ok c ↔ ∃ inner, Form text c.name inner ∧ c.arguments = argumentTexts inner := by
  constructor
  · intro h
    obtain ⟨name, rest, hopening, hclosing, inner, after, hcut, hnested, hafter, hname, rfl⟩ :=
      call_eq_ok_cases h
    obtain ⟨rfl, hplain⟩ := cutAt?_eq_some_iff.mp hopening
    obtain ⟨rfl, hinner⟩ := cutAt?_eq_some_iff.mp hcut
    subst hafter
    obtain ⟨hrest, hcount⟩ := not_or.mp hnested
    refine ⟨inner, ⟨rfl, hname, ⟨hplain, ?_⟩, ?_, hinner⟩, rfl⟩
    · -- a closing parenthesis in the name would be a second one
      intro hmem
      have hpos : 0 < name.count ')' := List.count_pos_iff.mpr hmem
      rw [List.count_append, List.count_cons_of_ne (by decide), List.count_append,
        List.count_cons_self] at hcount
      omega
    · exact fun hmem => hrest (List.mem_append_left _ hmem)
  · rintro ⟨inner, ⟨rfl, hname, ⟨hplain, hplain'⟩, hinner, hinner'⟩, harguments⟩
    have hopening : cutAt? '(' (c.name ++ '(' :: (inner ++ [')'])) =
        some (c.name, inner ++ [')']) := cutAt?_eq_some_iff.mpr ⟨rfl, hplain⟩
    have hcut : cutAt? ')' (inner ++ [')']) = some (inner, []) :=
      cutAt?_eq_some_iff.mpr ⟨rfl, hinner'⟩
    have hclosing : ')' ∈ c.name ++ '(' :: (inner ++ [')']) := by simp
    have hcount : (c.name ++ '(' :: (inner ++ [')'])).count ')' = 1 := by
      rw [List.count_append, List.count_cons_of_ne (by decide), List.count_append,
        List.count_eq_zero_of_not_mem hplain', List.count_eq_zero_of_not_mem hinner',
        List.count_singleton_self]
    have hnested : ¬ ('(' ∈ inner ++ [')'] ∨
        1 < (c.name ++ '(' :: (inner ++ [')'])).count ')') := by
      rw [hcount]
      simpa using hinner
    simp only [call, hopening, if_neg (not_not_intro hclosing), hcut, if_neg hnested, ne_eq,
      not_true_eq_false, if_false, if_neg hname, ← harguments]

/-- A text that calls a name with some integers. -/
def Calls (text name : List Char) (ns : List Int32) : Prop :=
  ∃ inner, Form text name inner ∧ Arguments inner ns

/-- A call with integers comes to what its name and its integers say. -/
theorem tightStatement_of_calls (line : Nat) {text name : List Char} {ns : List Int32}
    (h : Calls text name ns) : tightStatement line text =
      match Verb.named? (String.ofList name) with
      | none => .error (.unknownCommand line (String.ofList name))
      | some verb => command line verb ns := by
  obtain ⟨inner, hform, harguments⟩ := h
  have hcall : call text = .ok ⟨name, argumentTexts inner⟩ :=
    call_eq_ok_iff.mpr ⟨inner, hform, rfl⟩
  have hintegers := integers_eq_ok_iff.mpr harguments
  cases hnamed : Verb.named? (String.ofList name) <;>
    simp only [tightStatement, hcall, hintegers, hnamed]

/-- All other texts are malformed. -/
theorem tightStatement_of_not_calls (line : Nat) {text : List Char}
    (h : ¬ ∃ name ns, Calls text name ns) :
    ∃ cause, tightStatement line text = .error (.malformed line cause) := by
  unfold tightStatement
  cases hcall : call text with
  | error cause => exact ⟨cause, rfl⟩
  | ok c =>
    obtain ⟨inner, hform, harguments⟩ := call_eq_ok_iff.mp hcall
    simp only
    cases hintegers : integers c.arguments with
    | error cause => exact ⟨cause, rfl⟩
    | ok ns =>
      rw [harguments, integers_eq_ok_iff] at hintegers
      exact absurd ⟨c.name, ns, inner, hform, hintegers⟩ h

end Script

end BlockArm
