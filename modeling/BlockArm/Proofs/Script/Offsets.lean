/-
# Reading by offsets

A statement can also be read by looking for its parentheses, noting their byte offsets, and cutting
slices out between these.  An offset past the end of the text or inside a character cuts nothing, a
slice may not end before it begins, and an index must be one of the list.  None of this ever
happens: reading by offsets always comes to an answer, the one that `Script.statement` gives.

* `Text.slice?`, `Text.firstOffset`, `Text.lastOffset`: slices and offsets;
* `Script.statementByOffset_eq`: no slice and no index is out of bounds.
-/
import BlockArm.Script

namespace BlockArm

/-! ## Slices -/

namespace Text

/-- The number of bytes of a text in UTF-8. -/
def byteLength : List Char → Nat
  | [] => 0
  | c :: rest => c.utf8Size + byteLength rest

/-- The parts of a text before and after a byte offset, if the offset is between two characters. -/
def splitAt? : Nat → List Char → Option (List Char × List Char)
  | 0, text => some ([], text)
  | _ + 1, [] => none
  | n + 1, c :: rest =>
    if c.utf8Size ≤ n + 1 then
      (splitAt? (n + 1 - c.utf8Size) rest).map fun (before, after) => (c :: before, after)
    else none

/-- The part of a text between two byte offsets, if these are in order and between characters. -/
def slice? (text : List Char) (start stop : Nat) : Option (List Char) :=
  if start ≤ stop then
    (splitAt? stop text).bind fun cut => (splitAt? start cut.1).map Prod.snd
  else none

/-- The byte offset of the first mark in a text. -/
def firstOffset (mark : Char) : List Char → Option Nat
  | [] => none
  | c :: rest => if c = mark then some 0 else (firstOffset mark rest).map (c.utf8Size + ·)

/-- The byte offset of the last mark in a text. -/
def lastOffset (mark : Char) : List Char → Option Nat
  | [] => none
  | c :: rest => match lastOffset mark rest with
    | some n => some (c.utf8Size + n)
    | none => if c = mark then some 0 else none

@[simp] theorem byteLength_nil : byteLength [] = 0 := rfl

@[simp] theorem byteLength_cons (c : Char) (rest : List Char) :
    byteLength (c :: rest) = c.utf8Size + byteLength rest := rfl

@[simp] theorem byteLength_append (s t : List Char) :
    byteLength (s ++ t) = byteLength s + byteLength t := by
  induction s with
  | nil => simp
  | cons c s ih => simp only [List.cons_append, byteLength_cons, ih, Nat.add_assoc]

/-- Only the empty text takes no bytes. -/
@[simp] theorem byteLength_eq_zero_iff {text : List Char} : byteLength text = 0 ↔ text = [] := by
  cases text with
  | nil => simp
  | cons c rest =>
    have := c.utf8Size_pos
    simp only [byteLength_cons, reduceCtorEq, iff_false]
    omega

/-- A text is split where its first part ends. -/
theorem splitAt?_append (s t : List Char) : splitAt? (byteLength s) (s ++ t) = some (s, t) := by
  induction s with
  | nil => simp [splitAt?]
  | cons c s ih =>
    obtain ⟨n, hn⟩ := Nat.exists_eq_succ_of_ne_zero (Nat.ne_of_gt c.utf8Size_pos)
    have hlength : byteLength (c :: s) = (n + byteLength s) + 1 := by
      rw [byteLength_cons, hn]
      omega
    have hrest : n + byteLength s + 1 - c.utf8Size = byteLength s := by omega
    rw [hlength, List.cons_append, splitAt?, if_pos (by omega), hrest, ih, Option.map_some]

/-- The slice between two parts of a text is what stands between them. -/
theorem slice?_append (s t u : List Char) :
    slice? (s ++ (t ++ u)) (byteLength s) (byteLength (s ++ t)) = some t := by
  rw [slice?, if_pos (by simp), ← List.append_assoc, splitAt?_append, Option.bind_some,
    splitAt?_append, Option.map_some]

/-- The first mark comes after a part without marks. -/
theorem firstOffset_append {mark : Char} {s : List Char} (h : mark ∉ s) (t : List Char) :
    firstOffset mark (s ++ mark :: t) = some (byteLength s) := by
  induction s with
  | nil => simp [firstOffset]
  | cons c s ih =>
    rw [List.mem_cons, not_or] at h
    rw [List.cons_append, firstOffset, if_neg (Ne.symm h.1), ih h.2, Option.map_some,
      byteLength_cons]

/-- A text without marks has no first one. -/
theorem firstOffset_of_notMem {mark : Char} {text : List Char} (h : mark ∉ text) :
    firstOffset mark text = none := by
  induction text with
  | nil => rfl
  | cons c rest ih =>
    rw [List.mem_cons, not_or] at h
    rw [firstOffset, if_neg (Ne.symm h.1), ih h.2, Option.map_none]

/-- A text without marks has no last one. -/
theorem lastOffset_of_notMem {mark : Char} {text : List Char} (h : mark ∉ text) :
    lastOffset mark text = none := by
  induction text with
  | nil => rfl
  | cons c rest ih =>
    rw [List.mem_cons, not_or] at h
    simp only [lastOffset, ih h.2, if_neg (Ne.symm h.1)]

/-- The last mark comes before a part without marks. -/
theorem lastOffset_append {mark : Char} (s : List Char) {t : List Char} (h : mark ∉ t) :
    lastOffset mark (s ++ mark :: t) = some (byteLength s) := by
  induction s with
  | nil => simp only [List.nil_append, lastOffset, lastOffset_of_notMem h, if_true, byteLength_nil]
  | cons c s ih => simp only [List.cons_append, lastOffset, ih, byteLength_cons]

/-- A text with a mark has a last one. -/
theorem exists_append_of_mem_last {mark : Char} {text : List Char} (h : mark ∈ text) :
    ∃ s t, text = s ++ mark :: t ∧ mark ∉ t := by
  induction text with
  | nil => simp at h
  | cons c rest ih =>
    by_cases hrest : mark ∈ rest
    · obtain ⟨s, t, rfl, ht⟩ := ih hrest
      exact ⟨c :: s, t, rfl, ht⟩
    · obtain rfl : mark = c := by simpa [hrest] using h
      exact ⟨[], rest, rfl, hrest⟩

end Text

namespace Script

open Text

/-! ## Calls -/

/-- The form of a statement without blanks, read by offsets. -/
def callByOffset (text : List Char) : Option (Except Malformation Call) :=
  match firstOffset '(' text, lastOffset ')' text with
  | none, _ => some (.error (.noOpening (String.ofList text)))
  | some _, none => some (.error (.noClosing (String.ofList text)))
  | some opening, some closing =>
    if closing < opening then some (.error (.closingFirst (String.ofList text)))
    else if 1 < text.count '(' ∨ 1 < text.count ')' then
      some (.error (.nested (String.ofList text)))
    else if closing + 1 ≠ byteLength text then
      (slice? text (closing + 1) (byteLength text)).map fun rest =>
        .error (.trailing (String.ofList rest))
    else
      (slice? text 0 opening).bind fun name =>
        if name = [] then some (.error .noName)
        else (slice? text (opening + 1) closing).map fun inner => .ok ⟨name, argumentTexts inner⟩

/-- Where the first parenthesis opens and the next one closes, there are no others before the end
unless one of the two kinds comes twice. -/
theorem nested_iff {name : List Char} (hname : '(' ∉ name) (inner after : List Char) :
    (1 < (name ++ '(' :: (inner ++ ')' :: after)).count '(' ∨
        1 < (name ++ '(' :: (inner ++ ')' :: after)).count ')') ↔
      ('(' ∈ inner ++ ')' :: after ∨
        1 < (name ++ '(' :: (inner ++ ')' :: after)).count ')') := by
  have hcount : (name ++ '(' :: (inner ++ ')' :: after)).count '(' =
      (inner ++ ')' :: after).count '(' + 1 := by
    rw [List.count_append, List.count_eq_zero_of_not_mem hname, List.count_cons_self, Nat.zero_add]
  rw [hcount, Nat.lt_add_left_iff_pos, List.count_pos_iff]

section Slices

variable (name inner after : List Char)

/-- The name is the slice before the opening parenthesis. -/
theorem slice?_name :
    slice? (name ++ '(' :: (inner ++ ')' :: after)) 0 (byteLength name) = some name :=
  slice?_append [] name ('(' :: (inner ++ ')' :: after))

/-- The arguments are the slice between the parentheses. -/
theorem slice?_inner : slice? (name ++ '(' :: (inner ++ ')' :: after)) (byteLength name + 1)
    (byteLength (name ++ '(' :: inner)) = some inner := by
  have h := slice?_append (name ++ ['(']) inner (')' :: after)
  have hstart : byteLength (name ++ ['(']) = byteLength name + 1 := by
    rw [byteLength_append]
    rfl
  rw [hstart, List.append_assoc, List.append_assoc] at h
  exact h

/-- The rest is the slice after the closing parenthesis. -/
theorem slice?_after : slice? (name ++ '(' :: (inner ++ ')' :: after))
    (byteLength (name ++ '(' :: inner) + 1)
    (byteLength (name ++ '(' :: (inner ++ ')' :: after))) = some after := by
  have h := slice?_append (name ++ '(' :: inner ++ [')']) after []
  have hstart : byteLength (name ++ '(' :: inner ++ [')']) =
      byteLength (name ++ '(' :: inner) + 1 := by
    rw [byteLength_append]
    rfl
  rw [hstart, List.append_nil, List.append_assoc, List.append_assoc] at h
  exact h

/-- The closing parenthesis ends the text exactly where nothing follows it. -/
theorem offset_end_iff : byteLength (name ++ '(' :: inner) + 1 =
    byteLength (name ++ '(' :: (inner ++ ')' :: after)) ↔ after = [] := by
  have hclosing : (')' : Char).utf8Size = 1 := by decide
  rw [← byteLength_eq_zero_iff]
  simp only [byteLength_append, byteLength_cons, hclosing]
  omega

end Slices

/-- Reading a call by offsets stays within bounds and finds the same call. -/
theorem callByOffset_eq (text : List Char) : callByOffset text = some (call text) := by
  by_cases hopening : '(' ∈ text
  case neg => rw [callByOffset, firstOffset_of_notMem hopening, call, cutAt?_of_notMem hopening]
  obtain ⟨name, rest, rfl, hname⟩ := List.eq_append_cons_of_mem hopening
  have hcall : cutAt? '(' (name ++ '(' :: rest) = some (name, rest) :=
    cutAt?_eq_some_iff.mpr ⟨rfl, hname⟩
  have hfirst := firstOffset_append hname rest
  by_cases hclosing : ')' ∈ name ++ '(' :: rest
  case neg =>
    simp only [callByOffset, hfirst, lastOffset_of_notMem hclosing, call, hcall,
      if_pos hclosing]
  by_cases hrest : ')' ∈ rest
  case neg =>
    -- the last closing parenthesis stands in the name
    have hmem : ')' ∈ name := by simpa [hrest] using hclosing
    obtain ⟨s, t, rfl, ht⟩ := exists_append_of_mem_last hmem
    have hlast : lastOffset ')' (s ++ ')' :: t ++ '(' :: rest) = some (byteLength s) := by
      rw [List.append_assoc, List.cons_append]
      exact lastOffset_append s (by simp [ht, hrest])
    have hearlier : byteLength s < byteLength (s ++ ')' :: t) := by
      rw [byteLength_append, byteLength_cons]
      have := (')').utf8Size_pos
      omega
    simp only [callByOffset, hfirst, hlast, if_pos hearlier, call, hcall,
      if_neg (not_not_intro hclosing), cutAt?_of_notMem hrest]
  obtain ⟨s, t, hst, ht⟩ := exists_append_of_mem_last hrest
  obtain ⟨inner, after, rfl, hinner⟩ := List.eq_append_cons_of_mem hrest
  have hcut : cutAt? ')' (inner ++ ')' :: after) = some (inner, after) :=
    cutAt?_eq_some_iff.mpr ⟨rfl, hinner⟩
  have hlater : ∀ u : List Char, ¬ byteLength (name ++ '(' :: u) < byteLength name := by
    intro u
    rw [byteLength_append]
    omega
  have hiff := nested_iff hname inner after
  by_cases hnested : '(' ∈ inner ++ ')' :: after ∨
      1 < (name ++ '(' :: (inner ++ ')' :: after)).count ')'
  case pos =>
    have hlast : lastOffset ')' (name ++ '(' :: (inner ++ ')' :: after)) =
        some (byteLength (name ++ '(' :: s)) := by
      rw [hst, ← List.cons_append, ← List.append_assoc]
      exact lastOffset_append _ ht
    simp only [callByOffset, hfirst, hlast, if_neg (hlater s), if_pos (hiff.mpr hnested), call,
      hcall, if_neg (not_not_intro hclosing), hcut, if_pos hnested]
  -- there is one closing parenthesis, and what follows it is cut off at its offset
  have hafter : ')' ∉ after := by
    intro hmem
    have := List.count_pos_iff.mpr hmem
    refine hnested (.inr ?_)
    simp only [List.count_append, List.count_cons]
    simp
    omega
  have hlast : lastOffset ')' (name ++ '(' :: (inner ++ ')' :: after)) =
      some (byteLength (name ++ '(' :: inner)) := by
    rw [← List.cons_append, ← List.append_assoc]
    exact lastOffset_append _ hafter
  simp only [callByOffset, hfirst, hlast, if_neg (hlater inner), if_neg (hnested ∘ hiff.mp), call,
    hcall, if_neg (not_not_intro hclosing), hcut, if_neg hnested, ne_eq, offset_end_iff,
    slice?_name, slice?_inner, slice?_after]
  by_cases hend : after = []
  case neg => simp only [hend, not_false_eq_true, if_true, Option.map_some]
  by_cases hempty : name = []
  · simp only [hend, hempty, not_true_eq_false, if_true, if_false, Option.bind_some]
  · simp only [hend, hempty, not_true_eq_false, if_false, Option.bind_some, Option.map_some]

/-! ## Statements -/

/-- The command of a function, its arguments taken by index. -/
def commandByIndex (line : Nat) (verb : Verb) (arguments : List Int32) :
    Option (Except Fault Command) :=
  if verb.arity.accepts arguments.length = false then
    some (.error (.arity line verb arguments.length))
  else match verb with
    | .move => arguments[0]?.bind fun x => arguments[1]?.map fun y => .ok (.move x y)
    | .lift => arguments[0]?.map fun z =>
      if lowestHeight ≤ z ∧ z ≤ highestHeight then .ok (.lift z)
      else .error (.misuse line (.height z))
    | .grip => some (.ok .grip)
    | .release => some (.ok .release)
    | .turn => arguments[0]?.map fun degrees => .ok (.turn degrees)
    | .diagnose => some (.ok (.diagnose arguments))

/-- Every argument that a function asks for is there. -/
theorem commandByIndex_eq (line : Nat) (verb : Verb) (arguments : List Int32) :
    commandByIndex line verb arguments = some (command line verb arguments) := by
  -- no function takes more than two arguments
  obtain _ | ⟨x, _ | ⟨y, _ | ⟨z, rest⟩⟩⟩ := arguments
  · cases verb <;> rfl
  · cases verb <;> rfl
  · cases verb <;> rfl
  · have hmany : verb.arity.accepts (x :: y :: z :: rest).length = false := by
      cases verb <;> simp [Verb.arity]
    unfold commandByIndex
    rw [if_pos hmany]
    cases verb <;> rfl

/-- The command of a statement, read by offsets, if no slice and no index is out of bounds. -/
def statementByOffset (line : Nat) (text : List Char) :
    Option (Except Fault (Option Command)) :=
  if unspaced text = [] then some (.ok none)
  else (callByOffset (unspaced text)).bind fun
    | .error cause => some (.error (.malformed line cause))
    | .ok c => match integers c.arguments with
      | .error cause => some (.error (.malformed line cause))
      | .ok ns => match Verb.named? (String.ofList c.name) with
        | none => some (.error (.unknownCommand line (String.ofList c.name)))
        | some verb => (commandByIndex line verb ns).map fun answer => answer.map some

/-- Reading a statement by offsets stays within bounds and comes to the same answer. -/
theorem statementByOffset_eq (line : Nat) (text : List Char) :
    statementByOffset line text = some (statement line text) := by
  unfold statementByOffset statement
  cases unspaced text with
  | nil => rfl
  | cons c rest =>
    rw [if_neg (List.cons_ne_nil c rest), callByOffset_eq, Option.bind_some]
    simp only [tightStatement]
    cases call (c :: rest) with
    | error cause => rfl
    | ok found =>
      simp only
      cases integers found.arguments with
      | error cause => rfl
      | ok ns =>
        simp only
        cases Verb.named? (String.ofList found.name) with
        | none => rfl
        | some verb =>
          simp only [commandByIndex_eq, Option.map_some]
          cases command line verb ns <;> rfl

end Script

end BlockArm
