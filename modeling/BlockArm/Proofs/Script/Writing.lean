/-
# What is written is read

Commands that are written as calls are read as the same commands, and a program that was read is
read again from what is written of it, with its lines.  A written command has no blanks, no
semicolons and no ends of lines in it, so that its statement is found where it was put.

* `Text.digits_toDigits`, `Text.numeral_writeInt`: written numbers are numerals of the grammar;
* `Script.calls_text`: written commands are calls of the grammar;
* `Script.Legible`: the programs that come from scripts;
* `Script.parse_write`, `Script.legible_of_parse`: they are exactly those that are read from what is
  written of them;
* `Script.parse_texts`: commands one a line are read as they are.
-/
import BlockArm.Proofs.Script.Composition
import BlockArm.Script.Printer

namespace BlockArm

/-! ## Numbers -/

namespace Text

/-- The decimal form of a number consists of its digits. -/
theorem digits_toDigits (n : Nat) : Digits (Nat.toDigits 10 n) n := by
  -- the last digit is written last, so the induction is on the number without it
  induction n using Nat.strongRecOn with
  | ind n ih =>
    rw [Nat.toDigits_eq_if (by omega)]
    split
    · next h => exact .single h
    · have h := (ih (n / 10) (by omega)).snoc (Nat.mod_lt n (by omega))
      rwa [Nat.div_add_mod] at h

theorem numeral_writeInt (n : Int) : Numeral (writeInt n) n := by
  cases n with
  | ofNat n => exact .unsigned (digits_toDigits n)
  | negSucc n => exact .minus (digits_toDigits (n + 1))

/-- A written number has only digits in it, after a minus if it is negative. -/
theorem mem_writeInt {c : Char} {n : Int} (h : c ∈ writeInt n) : c = '-' ∨ c.isDigit = true := by
  cases n with
  | ofNat n => exact .inr ((digits_toDigits n).isDigit c h)
  | negSucc n =>
    rcases List.mem_cons.mp h with h | h
    · exact .inl h
    · exact .inr ((digits_toDigits (n + 1)).isDigit c h)

/-! ## Characters -/

/-- The visible characters of ASCII, but not the semicolon. -/
def Plain (c : Char) : Prop := 33 ≤ c.toNat ∧ c.toNat ≤ 126 ∧ c ≠ ';'

instance (c : Char) : Decidable (Plain c) := inferInstanceAs (Decidable (_ ∧ _))

theorem Plain.not_isBlank {c : Char} (h : Plain c) : isBlank c = false := by
  obtain ⟨hlow, hhigh, -⟩ := h
  rw [isBlank, List.any_eq_false]
  -- each of the ranges ends before the plain characters, or begins after them
  have hranges : ∀ range ∈ blankRanges, range.2 < 33 ∨ 126 < range.1 := by decide
  rintro ⟨low, high⟩ hmem hin
  rw [Bool.and_eq_true, decide_eq_true_eq, decide_eq_true_eq] at hin
  rcases hranges _ hmem with hrange | hrange <;> simp only at hrange <;> omega

/-- A plain text has no blanks, no semicolons and no ends of lines in it. -/
theorem unspaced_of_plain {text : List Char} (h : ∀ c ∈ text, Plain c) :
    unspaced text = text ∧ ';' ∉ text ∧ '\n' ∉ text := by
  refine ⟨List.filter_eq_self.mpr fun c hc => ?_, ?_, ?_⟩
  · rw [(h c hc).not_isBlank]
    rfl
  · exact fun hc => absurd (h _ hc) (by decide)
  · exact fun hc => absurd (h _ hc) (by decide)

theorem plain_of_isDigit {c : Char} (h : c.isDigit = true) : Plain c := by
  obtain ⟨k, hk, rfl⟩ := exists_digitChar_of_isDigit h
  have hall : ∀ k < 10, Plain k.digitChar := by decide
  exact hall k hk

end Text

namespace Script

open Text

/-! ## Commands -/

/-- The arguments between commas. -/
def writtenArguments (ns : List Int32) : List Char := joined ',' (ns.map fun n => writeInt n.toInt)

theorem numerals_writtenArguments (n : Int32) (ns : List Int32) :
    Numerals (writtenArguments (n :: ns)) (n :: ns) := by
  induction ns generalizing n with
  | nil => exact .last (numeral_writeInt n.toInt)
  | cons m ns ih => exact .more (numeral_writeInt n.toInt) (ih m)

theorem arguments_writtenArguments (ns : List Int32) : Arguments (writtenArguments ns) ns := by
  cases ns with
  | nil => exact .none
  | cons n ns => exact .some (numerals_writtenArguments n ns)

theorem mem_writtenArguments {c : Char} {ns : List Int32} (h : c ∈ writtenArguments ns) :
    c = ',' ∨ c = '-' ∨ c.isDigit = true := by
  obtain h | ⟨text, htext, hc⟩ := mem_joined h
  · exact .inl h
  · obtain ⟨n, -, rfl⟩ := List.mem_map.mp htext
    exact .inr (mem_writeInt hc)

/-- A name is a word without parentheses. -/
theorem name_spec (verb : Verb) : verb.name.toList ≠ [] ∧
    ∀ c ∈ verb.name.toList, Plain c ∧ c ≠ '(' ∧ c ≠ ')' := by
  have hall : (verb.name.toList.all fun c => decide (Plain c ∧ c ≠ '(' ∧ c ≠ ')')) = true := by
    cases verb <;> decide
  refine ⟨?_, fun c hc => of_decide_eq_true (List.all_eq_true.mp hall c hc)⟩
  cases verb <;> decide

theorem text_eq (c : Command) :
    c.text = c.verb.name.toList ++ '(' :: (writtenArguments c.arguments ++ [')']) := by
  rw [Command.text, writtenArguments, List.append_assoc]
  rfl

/-- A written command is a call of its function with its arguments. -/
theorem calls_text (c : Command) : Calls c.text c.verb.name.toList c.arguments := by
  obtain ⟨hne, hname⟩ := name_spec c.verb
  refine ⟨writtenArguments c.arguments, ⟨text_eq c, hne, ?_, ?_⟩, arguments_writtenArguments _⟩
  · exact ⟨fun h => (hname _ h).2.1 rfl, fun h => (hname _ h).2.2 rfl⟩
  · exact ⟨fun h => absurd (mem_writtenArguments h) (by decide),
      fun h => absurd (mem_writtenArguments h) (by decide)⟩

/-- A written command is plain. -/
theorem plain_of_mem_text {c : Command} : ∀ ch ∈ c.text, Plain ch := by
  intro ch h
  rw [text_eq, List.mem_append, List.mem_cons, List.mem_append, List.mem_singleton] at h
  rcases h with h | rfl | h | rfl
  · exact ((name_spec c.verb).2 ch h).1
  · decide
  · rcases mem_writtenArguments h with rfl | rfl | h
    · decide
    · decide
    · exact plain_of_isDigit h
  · decide

end Script

/-! ## Commands that a script can hold -/

/-- A command as a script can hold it: a height is in range, and a diagnostic has at most one
argument. -/
structure Command.Writable (c : Command) : Prop where
  height : ∀ z, c = .lift z → 0 ≤ z.toInt ∧ z.toInt ≤ 3
  arguments : ∀ ns, c = .diagnose ns → ns.length ≤ 1

/-- A diagnostic is the only command that could have too many arguments. -/
theorem Command.writable_iff {c : Command} : c.Writable ↔
    c.verb.arity.accepts c.arguments.length = true ∧
      ∀ z, c = .lift z → 0 ≤ z.toInt ∧ z.toInt ≤ 3 := by
  constructor
  · rintro ⟨hheight, harguments⟩
    refine ⟨?_, hheight⟩
    cases c with
    | diagnose ns => exact decide_eq_true (harguments ns rfl)
    | _ => rfl
  · rintro ⟨haccepts, hheight⟩
    refine ⟨hheight, ?_⟩
    rintro ns rfl
    exact of_decide_eq_true haccepts

namespace Script

open Text

/-- A written command is read as the same command. -/
theorem single_text (line : Nat) {c : Command} (h : c.Writable) :
    single line c.text = .ok [⟨line, c⟩] := by
  obtain ⟨haccepts, hheight⟩ := Command.writable_iff.mp h
  have hcalls := calls_text c
  obtain ⟨hunspaced, -, -⟩ := unspaced_of_plain (plain_of_mem_text (c := c))
  rw [single, statement_of_ne_nil line (hunspaced.symm ▸ hcalls.ne_nil), hunspaced,
    tightStatement_of_verb line hcalls, command_verb_arguments haccepts hheight]
  rfl

/-- Written commands are read one after the other. -/
theorem statements_texts (line : Nat) (cs : List Command) (h : ∀ c ∈ cs, c.Writable) :
    statements line (cs.map Command.text) = .ok (cs.map (Statement.mk line)) := by
  induction cs with
  | nil => rfl
  | cons c cs ih =>
    rw [List.forall_mem_cons] at h
    rw [List.map_cons, statements_cons, single_text line h.1, ih h.2]
    rfl

/-! ## Commands one a line -/

/-- Commands one a line are read with the numbers of their lines. -/
theorem lines_texts (cs : List Command) (h : ∀ c ∈ cs, c.Writable) : ∀ line : Nat,
    lines line (cs.map Command.text) = .ok (Program.ofCommands line cs) := by
  induction cs with
  | nil => exact fun line => rfl
  | cons c cs ih =>
    intro line
    rw [List.forall_mem_cons] at h
    obtain ⟨-, hsemicolon, -⟩ := unspaced_of_plain (plain_of_mem_text (c := c))
    have hhere := statements_texts line [c] (by simpa using h.1)
    rw [List.map_cons, lines_cons, pieces_of_notMem hsemicolon, ih h.2 (line + 1)]
    exact congrArg (followed · _) hhere

/-- Commands one a line make up a script, whether the last line is ended or not. -/
theorem parse_texts (cs : List Command) (h : ∀ c ∈ cs, c.Writable) :
    parse (joined '\n' (cs.map Command.text)) = .ok (Program.ofCommands 1 cs) ∧
      parse (joined '\n' (cs.map Command.text) ++ ['\n']) = .ok (Program.ofCommands 1 cs) := by
  have hended : ∀ source program, parse source = .ok program →
      parse (source ++ ['\n']) = .ok program := by
    intro source program hparse
    rw [parse, pieces_append_self, lines_append, ← parse, hparse]
    exact followed_ok_nil_right _
  suffices hread : parse (joined '\n' (cs.map Command.text)) = .ok (Program.ofCommands 1 cs) from
    ⟨hread, hended _ _ hread⟩
  by_cases hnil : cs = []
  · subst hnil
    rfl
  · rw [parse, pieces_joined (by simpa using hnil), lines_texts cs h 1]
    intro text htext
    obtain ⟨c, -, rfl⟩ := List.mem_map.mp htext
    exact (unspaced_of_plain plain_of_mem_text).2.2

/-! ## Programs that come from scripts -/

/-- Statements as a script can hold them: in the order of their lines, which are counted from some
number on, with commands that can be written. -/
structure Legible (line : Nat) (program : Program) : Prop where
  ordered : program.Pairwise (·.line ≤ ·.line)
  counted : ∀ s ∈ program, line ≤ s.line
  writable : ∀ s ∈ program, s.command.Writable

theorem legible_nil (line : Nat) : Legible line [] :=
  ⟨.nil, fun _ h => absurd h List.not_mem_nil, fun _ h => absurd h List.not_mem_nil⟩

/-- Statements may be followed by others that are not on earlier lines. -/
theorem Legible.append {line mark : Nat} {p q : Program} (hp : Legible line p)
    (hq : Legible mark q) (hle : line ≤ mark) (hlines : ∀ s ∈ p, s.line ≤ mark) :
    Legible line (p ++ q) where
  ordered := List.pairwise_append.mpr ⟨hp.ordered, hq.ordered,
    fun s hs t ht => Nat.le_trans (hlines s hs) (hq.counted t ht)⟩
  counted s hs := (List.mem_append.mp hs).elim (hp.counted s)
    fun h => Nat.le_trans hle (hq.counted s h)
  writable s hs := (List.mem_append.mp hs).elim (hp.writable s) (hq.writable s)

/-- Two parts that read together are two parts that read. -/
theorem followed_eq_ok {a b : Except Fault Program} {program : Program}
    (h : followed a b = .ok program) : ∃ p q, a = .ok p ∧ b = .ok q ∧ program = p ++ q := by
  cases a with
  | error fault => exact absurd h (by simp [followed])
  | ok p =>
    cases b with
    | error fault => exact absurd h (by simp [followed])
    | ok q => exact ⟨p, q, rfl, rfl, (Except.ok.inj h).symm⟩

/-- A statement that is read holds a command that can be written. -/
theorem legible_of_single {line : Nat} {text : List Char} {program : Program}
    (h : single line text = .ok program) :
    Legible line program ∧ ∀ s ∈ program, s.line = line := by
  have hverdict := verdict_statement line text
  unfold single at h
  cases hanswer : statement line text with
  | error fault =>
    rw [hanswer] at h
    exact absurd h (by simp [Except.map])
  | ok found =>
    rw [hanswer] at h hverdict
    obtain rfl := Except.ok.inj h
    cases hverdict with
    | blank => exact ⟨legible_nil line, fun _ h => absurd h List.not_mem_nil⟩
    | command c hcalls haccepts hheight =>
      have hmem : ∀ s ∈ [Statement.mk line c], s = ⟨line, c⟩ := fun s hs => List.mem_singleton.mp hs
      refine ⟨⟨List.pairwise_singleton _ _, ?_, ?_⟩, ?_⟩
      · exact fun s hs => (hmem s hs) ▸ Nat.le_refl line
      · exact fun s hs => (hmem s hs) ▸ Command.writable_iff.mpr ⟨haccepts, hheight⟩
      · exact fun s hs => (hmem s hs) ▸ rfl

theorem legible_of_statements {line : Nat} (texts : List (List Char)) :
    ∀ {program : Program}, statements line texts = .ok program →
      Legible line program ∧ ∀ s ∈ program, s.line = line := by
  induction texts with
  | nil =>
    intro program h
    obtain rfl := Except.ok.inj h
    exact ⟨legible_nil line, fun _ h => absurd h List.not_mem_nil⟩
  | cons text texts ih =>
    intro program h
    rw [statements_cons] at h
    obtain ⟨p, q, hp, hq, rfl⟩ := followed_eq_ok h
    obtain ⟨hlegible, hline⟩ := legible_of_single hp
    obtain ⟨hlegible', hline'⟩ := ih hq
    refine ⟨hlegible.append hlegible' (Nat.le_refl line) fun s hs => Nat.le_of_eq (hline s hs), ?_⟩
    exact fun s hs => (List.mem_append.mp hs).elim (hline s) (hline' s)

theorem legible_of_lines (texts : List (List Char)) :
    ∀ {line : Nat} {program : Program}, lines line texts = .ok program → Legible line program := by
  induction texts with
  | nil =>
    intro line program h
    obtain rfl := Except.ok.inj h
    exact legible_nil line
  | cons text texts ih =>
    intro line program h
    rw [lines_cons] at h
    obtain ⟨p, q, hp, hq, rfl⟩ := followed_eq_ok h
    obtain ⟨hlegible, hline⟩ := legible_of_statements _ hp
    exact hlegible.append (ih hq) (Nat.le_succ line) fun s hs => (hline s hs) ▸ Nat.le_succ _

/-- Whatever is read can be written. -/
theorem legible_of_parse {source : List Char} {program : Program}
    (h : parse source = .ok program) : Legible 1 program := legible_of_lines _ h

/-! ## Programs on their lines -/

/-- The statements of one line are read from what is written there. -/
theorem statements_lineText {program : Program} (h : ∀ s ∈ program, s.command.Writable)
    (line : Nat) : statements line (pieces ';' (lineText program line)) =
      .ok (program.filter (·.line == line)) := by
  set here := program.filter (·.line == line) with hhere
  have hline : ∀ s ∈ here, s.line = line := fun s hs => eq_of_beq (List.mem_filter.mp hs).2
  have hback : (here.map Statement.command).map (Statement.mk line) = here := by
    rw [List.map_map]
    refine (List.map_congr_left fun s hs => ?_).trans (List.map_id here)
    exact congrArg (Statement.mk · s.command) (hline s hs).symm
  have htexts : here.map (fun s => s.command.text) =
      (here.map Statement.command).map Command.text := by
    rw [List.map_map]
    rfl
  rw [lineText, ← hhere, htexts]
  by_cases hnil : here = []
  · rw [hnil]
    rfl
  · have hread : statements line ((here.map Statement.command).map Command.text) =
        .ok ((here.map Statement.command).map (Statement.mk line)) := by
      refine statements_texts line _ fun c hc => ?_
      obtain ⟨s, hs, rfl⟩ := List.mem_map.mp hc
      exact h s (List.mem_filter.mp hs).1
    rw [pieces_joined (by simpa using hnil), hread, hback]
    intro text htext
    obtain ⟨c, -, rfl⟩ := List.mem_map.mp htext
    exact (unspaced_of_plain plain_of_mem_text).2.1

/-- The statements of several lines, line by line. -/
theorem lines_lineTexts {program : Program} (h : ∀ s ∈ program, s.command.Writable) (count : Nat) :
    ∀ line : Nat, lines line ((List.range' line count).map (lineText program)) =
      .ok ((List.range' line count).flatMap fun k => program.filter (·.line == k)) := by
  induction count with
  | zero => exact fun line => rfl
  | succ count ih =>
    intro line
    rw [List.range'_succ, List.map_cons, lines_cons, statements_lineText h, ih]
    rfl

/-- In the order of their lines, the statements of the next line follow those of all lines before. -/
theorem filter_line_succ {program : Program} (h : program.Pairwise (·.line ≤ ·.line)) (n : Nat) :
    program.filter (·.line ≤ n) ++ program.filter (·.line == n + 1) =
      program.filter (·.line ≤ n + 1) := by
  induction program with
  | nil => rfl
  | cons s rest ih =>
    rw [List.pairwise_cons] at h
    have hrest := ih h.2
    by_cases hs : s.line ≤ n
    · have hle : s.line ≤ n + 1 := Nat.le_succ_of_le hs
      have hne : ¬ s.line = n + 1 := by omega
      simpa [List.filter_cons, hs, hle, hne] using hrest
    · -- no statement after this one is on an earlier line
      have hnone : rest.filter (·.line ≤ n) = [] := by
        rw [List.filter_eq_nil_iff]
        intro t ht
        have := h.1 t ht
        rw [decide_eq_true_eq]
        omega
      rw [hnone, List.nil_append] at hrest
      have hiff : s.line = n + 1 ↔ s.line ≤ n + 1 := by omega
      simp [List.filter_cons, hs, hnone, hrest, hiff]

/-- Statements in the order of their lines are collected line by line. -/
theorem flatMap_lines {program : Program} (h : Legible 1 program) (count : Nat) :
    ((List.range' 1 count).flatMap fun k => program.filter (·.line == k)) =
      program.filter (·.line ≤ count) := by
  induction count with
  | zero =>
    rw [eq_comm]
    refine List.filter_eq_nil_iff.mpr fun s hs => ?_
    have := h.counted s hs
    rw [decide_eq_true_eq]
    omega
  | succ count ih =>
    rw [List.range'_1_concat, List.flatMap_append, ih, List.flatMap_singleton, Nat.add_comm 1 count,
      filter_line_succ h.ordered]

/-- No statement is on a line after the last one. -/
theorem line_le_lastLine {program : Program} : ∀ s ∈ program, s.line ≤ lastLine program := by
  have hall : ∀ (p : Program) (n : Nat), n ≤ p.foldl (fun n s => max n s.line) n ∧
      ∀ s ∈ p, s.line ≤ p.foldl (fun n s => max n s.line) n := by
    intro p
    induction p with
    | nil => exact fun n => ⟨Nat.le_refl n, fun _ h => absurd h List.not_mem_nil⟩
    | cons t p ih =>
      intro n
      obtain ⟨hmax, hlater⟩ := ih (max n t.line)
      rw [List.foldl_cons]
      refine ⟨by omega, List.forall_mem_cons.mpr ⟨by omega, hlater⟩⟩
  exact (hall program 0).2

/-- A program that can be written is read again from what is written of it. -/
theorem parse_write {program : Program} (h : Legible 1 program) :
    parse (write program) = .ok program := by
  have hplain : ∀ text ∈ (List.range' 1 (lastLine program)).map (lineText program),
      '\n' ∉ text := by
    intro text htext hmem
    obtain ⟨line, -, rfl⟩ := List.mem_map.mp htext
    obtain hmark | ⟨call, hcall, hmem⟩ := mem_joined hmem
    · exact absurd hmark (by decide)
    · obtain ⟨s, -, rfl⟩ := List.mem_map.mp hcall
      exact (unspaced_of_plain plain_of_mem_text).2.2 hmem
  by_cases hnone : lastLine program = 0
  · -- a program without lines has no statements
    have hnil : program = [] := by
      refine List.eq_nil_iff_forall_not_mem.mpr fun s hs => ?_
      have hlow := h.counted s hs
      have hhigh := line_le_lastLine s hs
      omega
    subst hnil
    rfl
  · have hne : (List.range' 1 (lastLine program)).map (lineText program) ≠ [] := by
      simpa using hnone
    rw [parse, write, pieces_joined hne hplain, lines_lineTexts h.writable, flatMap_lines h,
      List.filter_eq_self.mpr fun s hs => decide_eq_true (line_le_lastLine s hs)]

/-! ## Both directions -/

/-- **What is written is read.**  Commands that a script can hold, written one a line, are read as
the same commands, on lines counted from one.  A script that reads holds only such commands, and
its program, written on its lines, is read as the same program. -/
theorem parse_written :
    (∀ cs : List Command, (∀ c ∈ cs, c.Writable) →
      parse (joined '\n' (cs.map Command.text)) = .ok (Program.ofCommands 1 cs) ∧
      parse (joined '\n' (cs.map Command.text) ++ ['\n']) = .ok (Program.ofCommands 1 cs)) ∧
    ∀ (source : List Char) (program : Program), parse source = .ok program →
      (∀ s ∈ program, s.command.Writable) ∧ parse (write program) = .ok program := by
  refine ⟨parse_texts, fun source program h => ?_⟩
  have hlegible := legible_of_parse h
  exact ⟨hlegible.writable, parse_write hlegible⟩

/-- Lines without statements stay blank. -/
example : String.ofList (write [⟨2, .move (-2147483648) 7⟩, ⟨2, .grip⟩, ⟨4, .diagnose []⟩]) =
    "\nposition(-2147483648,7);pumpe_an()\n\ndiagnose()" := by rfl

end Script

end BlockArm
