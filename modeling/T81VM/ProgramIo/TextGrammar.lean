import Mathlib.Data.List.Forall2
import T81VM.ProgramIo.Rendering

/-!
# The text grammar

The instruction lines of Text V1 as the grammar has them, and what the loader
makes of any line: it checks the name of the opcode and nothing after it.
-/

namespace T81VM.ProgramIo

open Tisc

/-! ## The grammar -/

/-- A decimal integer in the range of a signed word. -/
inductive Numeral : Text → Int64 → Prop where
  | mk {negative : Bool} {sign digits : Text} {value : Int64}
      (signed : Signed negative sign) (nonempty : digits ≠ [])
      (decimal : ∀ byte ∈ digits, Decimal.isDigit byte = true)
      (same : value.toInt = if negative then -(Decimal.value digits : Int)
        else Decimal.value digits) :
      Numeral (sign ++ digits) value

/-- Spaces, then an integer. -/
inductive Operand : Text → Int64 → Prop where
  | mk {gap spelling : Text} {value : Int64} (spaces : Blank gap)
      (separated : gap ≠ []) (numeral : Numeral spelling value) :
      Operand (gap ++ spelling) value

/-- The line is the instruction: the name of its opcode and exactly three
operands. -/
inductive InsnLine : Text → Insn → Prop where
  | mk {indent name a b c ending : Text} {insn : Insn} (left : Blank indent)
      (spells : opcodeFromString name = some insn.opcode)
      (readsA : Operand a insn.a) (readsB : Operand b insn.b)
      (readsC : Operand c insn.c) (right : Blank ending) :
      InsnLine (indent ++ (name ++ (a ++ (b ++ (c ++ ending))))) insn

/-- The line has to be an instruction: it is not empty, no comment and not
the policy. -/
def isStatement (line : Text) : Bool :=
  match trim line with
  | [] => false
  | first :: others =>
      !isByte '#' first && (extractWord (first :: others)).1 != text "POLICY"

/-- The lines that have to be instructions. -/
def statements (input : Text) : List Text :=
  (getlines input).filter isStatement

/-- The loader accepts the text exactly if each of its statements is an
instruction, and loads these instructions; it refuses every other text. -/
structure TextExact (input : Text) : Prop where
  accepts : ∀ insns, List.Forall₂ InsnLine (statements input) insns →
    ∃ out, loadTextV1 input = .ok out ∧ out.ok = true ∧
      out.program.insns = insns
  refuses : (∀ insns, ¬ List.Forall₂ InsnLine (statements input) insns) →
    ∃ out, loadTextV1 input = .ok out ∧ out.ok = false

/-! ## Words and integers -/

/-- The next word ends where a space follows. -/
theorem extractWord_append {word rest : Text} (nonempty : word ≠ [])
    (visible : ∀ byte ∈ word, isSpace byte = false)
    (stops : ∀ byte ∈ rest.head?, isSpace byte = true) :
    extractWord (word ++ rest) = (word, rest) := by
  obtain ⟨first, others, cons⟩ := List.exists_cons_of_ne_nil nonempty
  have start : (word ++ rest).dropWhile isSpace = word ++ rest := by
    rw [cons, List.cons_append]
    apply List.dropWhile_cons_of_neg
    simp [visible first (cons ▸ List.mem_cons_self)]
  have inside : ∀ byte ∈ word, (!isSpace byte) = true := by
    intro byte member
    rw [visible byte member]
    rfl
  have ends : rest.takeWhile (fun byte => !isSpace byte) = [] ∧
      rest.dropWhile (fun byte => !isSpace byte) = rest := by
    cases rest with
    | nil => exact ⟨rfl, rfl⟩
    | cons byte later =>
        have space := stops byte rfl
        simp [space]
  simp only [extractWord, start, List.takeWhile_append_of_pos inside,
    List.dropWhile_append_of_pos inside, ends.1, ends.2, List.append_nil]

theorem Blank.head {gap rest : Text} (spaces : Blank gap)
    (nonempty : gap ≠ []) :
    ∀ byte ∈ (gap ++ rest).head?, isSpace byte = true := by
  intro byte head
  obtain ⟨first, others, rfl⟩ := List.exists_cons_of_ne_nil nonempty
  cases head
  exact spaces byte List.mem_cons_self

/-- An integer has no spaces in it. -/
theorem Numeral.visible {spelling : Text} {value : Int64}
    (numeral : Numeral spelling value) :
    spelling ≠ [] ∧ ∀ byte ∈ spelling, isSpace byte = false := by
  cases numeral with
  | @mk negative sign digits _ signed nonempty decimal same =>
      constructor
      · intro empty
        exact nonempty (List.append_eq_nil_iff.mp empty).2
      · intro byte member
        rcases List.mem_append.mp member with inSign | inDigits
        · cases signed with
          | plain => cases inSign
          | plus =>
              rw [List.mem_singleton.mp inSign]
              rfl
          | minus =>
              rw [List.mem_singleton.mp inSign]
              rfl
        · exact (isDigit_range byte (decimal byte inDigits)).2.2

/-- Stream extraction reads an integer up to a byte that is no digit. -/
theorem extractInt_operand {old value : Int64} {operand rest : Text}
    (reads : Operand operand value)
    (stops : ∀ byte ∈ rest.head?, Decimal.isDigit byte = false) :
    extractInt old (some (operand ++ rest)) = (value, some rest) := by
  cases reads with
  | @mk gap spelling _ spaces separated numeral =>
      obtain ⟨written, visible⟩ := numeral.visible
      have start : (gap ++ spelling ++ rest).dropWhile isSpace =
          spelling ++ rest := by
        obtain ⟨first, others, cons⟩ := List.exists_cons_of_ne_nil written
        have shown := visible first (cons ▸ List.mem_cons_self)
        rw [List.append_assoc, List.dropWhile_append_of_pos spaces, cons,
          List.cons_append]
        exact List.dropWhile_cons_of_neg (by simp [shown])
      have ends : rest.takeWhile Decimal.isDigit = [] ∧
          rest.dropWhile Decimal.isDigit = rest := by
        cases rest with
        | nil => exact ⟨rfl, rfl⟩
        | cons byte later =>
            have outside := stops byte rfl
            simp [outside]
      cases numeral with
      | @mk negative sign digits _ signed nonempty decimal same =>
          rw [extractInt, start]
          split
          · rename_i empty
            exact absurd (List.append_eq_nil_iff.mp empty).1 written
          · rw [splitSign_signed signed nonempty decimal]
            simp only [List.takeWhile_append_of_pos decimal,
              List.dropWhile_append_of_pos decimal, ends.1, ends.2,
              List.append_nil, signedWord_of_toInt same]
            rw [if_neg]
            simpa using nonempty

/-- A space stands before an operand. -/
theorem Operand.head {operand : Text} {value : Int64}
    (reads : Operand operand value) (rest : Text) :
    ∀ byte ∈ (operand ++ rest).head?, isSpace byte = true := by
  cases reads with
  | mk spaces separated numeral =>
      rw [List.append_assoc]
      exact spaces.head separated

theorem Operand.last {operand : Text} {value : Int64}
    (reads : Operand operand value) :
    operand ≠ [] ∧ ∀ byte ∈ operand.getLast?, isSpace byte = false := by
  cases reads with
  | mk spaces separated numeral =>
      obtain ⟨written, visible⟩ := numeral.visible
      constructor
      · intro empty
        exact written (List.append_eq_nil_iff.mp empty).2
      · intro byte last
        rw [List.getLast?_append_of_ne_nil _ written] at last
        exact visible byte (List.mem_of_getLast? last)

/-! ## Lines -/

/-- The instruction the loader makes of a line, unless the opcode is
unknown. -/
def readInsn (line : Text) : Option Insn :=
  let (op, rest) := extractWord (trim line)
  let (a, rest) := extractInt 0 (some rest)
  let (b, rest) := extractInt 0 rest
  let (c, _) := extractInt 0 rest
  (opcodeFromString op).map fun opcode => { opcode, a, b, c }

/-- The first word of the line is the name of an opcode. -/
def hasOpcode (line : Text) : Bool :=
  (opcodeFromString (extractWord (trim line)).1).isSome

variable {line : Text} {lines known later : List Text} {insn : Insn}
  {insns : List Insn} {out : ProgramLoadResult}

theorem hasOpcode_iff : hasOpcode line = true ↔
    ∃ insn, readInsn line = some insn := by
  have same : hasOpcode line = (readInsn line).isSome :=
    Option.isSome_map.symm
  rw [same, Option.isSome_iff_exists]

theorem not_hash_of_nameByte (byte : UInt8) :
    nameByte byte = true → isByte '#' byte = false := by
  have hash : isByte '#' byte = (byte == 35) := rfl
  rw [hash]
  grind

theorem policy_not_opcode : opcodeFromString (text "POLICY") = none := by
  decide

/-- The words of an instruction line, as the loader splits them. -/
theorem InsnLine.words (renders : InsnLine line insn) :
    ∃ name a b c, opcodeFromString name = some insn.opcode ∧
      Operand a insn.a ∧ Operand b insn.b ∧ Operand c insn.c ∧
      trim line = name ++ (a ++ (b ++ c)) ∧
      extractWord (trim line) = (name, a ++ (b ++ c)) := by
  cases renders with
  | @mk indent name a b c ending _ left spells readsA readsB readsC right =>
      obtain ⟨nonempty, bytes⟩ := nameByte_of_opcodeFromString spells
      have visible : ∀ byte ∈ name, isSpace byte = false := by
        intro byte member
        exact not_isSpace_of_nameByte byte (bytes byte member)
      have regroup : name ++ (a ++ (b ++ (c ++ ending))) =
          (name ++ (a ++ (b ++ c))) ++ ending := by simp
      have trimmed : trim (indent ++ (name ++ (a ++ (b ++ (c ++ ending))))) =
          name ++ (a ++ (b ++ c)) := by
        rw [regroup, trim_pad left right]
        apply trim_eq_self
        · intro byte head
          obtain ⟨first, others, cons⟩ := List.exists_cons_of_ne_nil nonempty
          rw [cons] at head
          cases head
          exact visible byte (cons ▸ List.mem_cons_self)
        · intro byte last
          simp only [← List.append_assoc] at last
          rw [List.getLast?_append_of_ne_nil _ readsC.last.1] at last
          exact readsC.last.2 byte last
      refine ⟨name, a, b, c, spells, readsA, readsB, readsC, trimmed, ?_⟩
      rw [trimmed]
      exact extractWord_append nonempty visible (readsA.head _)

/-- An instruction line has to be one. -/
theorem InsnLine.isStatement (renders : InsnLine line insn) :
    isStatement line = true := by
  obtain ⟨name, a, b, c, spells, _, _, _, trimmed, split⟩ := renders.words
  obtain ⟨nonempty, bytes⟩ := nameByte_of_opcodeFromString spells
  have noPolicy : name ≠ text "POLICY" := by
    intro same
    rw [same, policy_not_opcode] at spells
    cases spells
  obtain ⟨first, others, rfl⟩ := List.exists_cons_of_ne_nil nonempty
  have noComment := not_hash_of_nameByte first
    (bytes first List.mem_cons_self)
  rw [List.cons_append] at trimmed
  rw [trimmed] at split
  rw [ProgramIo.isStatement, trimmed]
  simp only [noComment, split, Bool.not_false, Bool.true_and,
    bne_iff_ne, ne_eq]
  exact noPolicy

/-- The loader reads the instruction of an instruction line. -/
theorem InsnLine.readInsn (renders : InsnLine line insn) :
    readInsn line = some insn := by
  obtain ⟨name, a, b, c, spells, readsA, readsB, readsC, _, split⟩ :=
    renders.words
  have stops : ∀ {operand : Text} {value : Int64} (rest : Text),
      Operand operand value →
      ∀ byte ∈ (operand ++ rest).head?, Decimal.isDigit byte = false := by
    intro operand value rest reads byte head
    exact not_isDigit_of_isSpace byte (reads.head rest byte head)
  have first := @extractInt_operand 0 _ _ (b ++ c) readsA (stops c readsB)
  have second := @extractInt_operand 0 _ _ c readsB
    (by simpa using stops [] readsC)
  have third := @extractInt_operand 0 _ _ [] readsC (by simp)
  rw [List.append_nil] at third
  rw [ProgramIo.readInsn, split]
  simp only [first, second, third, spells, Option.map_some]

/-- A line that has to be an instruction is one if its opcode is known. -/
theorem loadLine_statement (statement : isStatement line = true) :
    loadLine out line =
      match readInsn line with
      | none =>
          .ok ({ out with
            error := text "unknown opcode in text program: "
              ++ (extractWord (trim line)).1 }, false)
      | some insn => do
          let program ← pushInsn out.program insn
          return ({ out with program }, true) := by
  rw [isStatement] at statement
  cases trimmed : trim line with
  | nil =>
      simp only [trimmed] at statement
      cases statement
  | cons first others =>
      simp only [trimmed] at statement
      obtain ⟨noComment, noPolicy⟩ := Bool.and_eq_true_iff.mp statement
      rw [Bool.not_eq_true'] at noComment
      simp only [loadLine, readInsn, trimmed, noComment, Bool.false_eq_true,
        if_false]
      rw [loadStatement, if_neg (bne_iff_ne.mp noPolicy)]
      cases opcodeFromString (extractWord (first :: others)).1 with
      | none => rfl
      | some opcode => rfl

/-- The other lines leave the instructions alone. -/
theorem loadLine_other (other : isStatement line = false) :
    ∃ policy, loadLine out line = .ok ({ out with
      program := { out.program with axionPolicyText := policy } }, true) := by
  rw [isStatement] at other
  cases trimmed : trim line with
  | nil =>
      simp only [loadLine, trimmed]
      exact ⟨out.program.axionPolicyText, rfl⟩
  | cons first others =>
      simp only [trimmed] at other
      simp only [loadLine, trimmed]
      by_cases comment : isByte '#' first = true
      · simp only [comment, if_true]
        exact ⟨out.program.axionPolicyText, rfl⟩
      · rw [Bool.not_eq_true] at comment
        have policy : (extractWord (first :: others)).1 = text "POLICY" := by
          simpa [comment] using other
        simp only [comment, Bool.false_eq_true, if_false]
        rw [loadStatement, if_pos policy]
        exact ⟨_, rfl⟩

/-! ## Texts -/

/-- Instructions with known opcodes are loaded in order; then the loader
stands at the next statement, if there is one. -/
theorem loadLines_known
    (read : List.Forall₂ (fun line insn => readInsn line = some insn) known
      insns)
    (split : lines.filter isStatement = known ++ later)
    (room : out.program.insns.length + insns.length ≤ maxInsns) :
    ∃ next rest, loadLines out lines = loadLines next rest ∧
      rest.filter isStatement = later ∧
      (∀ line ∈ rest.head?, isStatement line = true) ∧ next.ok = out.ok ∧
      next.program.insns = out.program.insns ++ insns := by
  induction lines generalizing out known insns with
  | nil =>
      obtain ⟨rfl, rfl⟩ := List.append_eq_nil_iff.mp split.symm
      cases read
      exact ⟨out, [], rfl, rfl, by simp, rfl, by simp⟩
  | cons line lines induction =>
      by_cases statement : isStatement line = true
      · cases read with
        | nil =>
            refine ⟨out, line :: lines, rfl, split, ?_, rfl, by simp⟩
            intro first head
            cases head
            exact statement
        | @cons _ insn known insns here others =>
            rw [List.filter_cons_of_pos statement] at split
            obtain ⟨rfl, remaining⟩ := List.cons_eq_cons.mp split
            rw [List.length_cons] at room
            have fits : out.program.insns.length < maxInsns := by omega
            obtain ⟨program, pushed, added, _⟩ := pushInsn_room insn fits
            have loaded := @loadLine_statement _ out statement
            simp only [here, pushed] at loaded
            have step : loadLines out (line :: lines) =
                loadLines { out with program } lines := by
              rw [loadLines_cons, loaded]
              rfl
            obtain ⟨next, rest, loads, left, stands, kept, all⟩ :=
              @induction _ _ { out with program } others remaining (by
                rw [added, List.length_append, List.length_singleton]
                omega)
            refine ⟨next, rest, step.trans loads, left, stands, kept, ?_⟩
            rw [all, added, List.append_assoc]
            rfl
      · rw [Bool.not_eq_true] at statement
        obtain ⟨policy, skipped⟩ := @loadLine_other _ out statement
        rw [List.filter_cons_of_neg (by simp [statement])] at split
        have step : loadLines out (line :: lines) = loadLines { out with
            program := { out.program with axionPolicyText := policy } }
            lines := by
          rw [loadLines_cons, skipped]
          rfl
        obtain ⟨next, rest, loads, left, stands, kept, all⟩ :=
          @induction _ _ { out with
            program := { out.program with axionPolicyText := policy } }
            read split room
        exact ⟨next, rest, step.trans loads, left, stands, kept, all⟩

/-- The statement where the loader stands is the next one. -/
theorem cons_of_filter {rest : List Text}
    (stands : ∀ line ∈ rest.head?, isStatement line = true)
    (left : rest.filter isStatement = line :: later) :
    isStatement line = true ∧ ∃ lines, rest = line :: lines := by
  cases rest with
  | nil => cases left
  | cons first lines =>
      have statement := stands first rfl
      rw [List.filter_cons_of_pos statement] at left
      obtain ⟨rfl, _⟩ := List.cons_eq_cons.mp left
      exact ⟨statement, lines, rfl⟩

/-- A text whose statements all have known opcodes is loaded. -/
theorem loadTextV1_known {input : Text}
    (read : List.Forall₂ (fun line insn => readInsn line = some insn)
      (statements input) insns)
    (room : insns.length ≤ maxInsns) :
    ∃ out, loadTextV1 input = .ok out ∧ out.ok = true ∧
      out.program.insns = insns := by
  obtain ⟨next, rest, loads, left, stands, _, all⟩ :=
    @loadLines_known (getlines input) _ [] insns { format := .textV1 } read
      (List.append_nil _).symm (by simpa [emptyProgram] using room)
  cases rest with
  | nil => exact ⟨_, loads, rfl, all⟩
  | cons line lines =>
      rw [List.filter_cons_of_pos (stands line rfl)] at left
      cases left

/-- The first unknown opcode ends the program. -/
theorem loadTextV1_unknown {input : Text}
    (read : List.Forall₂ (fun line insn => readInsn line = some insn) known
      insns)
    (split : statements input = known ++ line :: later)
    (unknown : readInsn line = none) (room : insns.length ≤ maxInsns) :
    ∃ out, loadTextV1 input = .ok out ∧ out.ok = false := by
  obtain ⟨next, rest, loads, left, stands, kept, all⟩ :=
    @loadLines_known (getlines input) known (line :: later) insns
      { format := .textV1 } read split (by simpa [emptyProgram] using room)
  obtain ⟨statement, lines, rfl⟩ := cons_of_filter stands left
  have refused := @loadLine_statement _ next statement
  rw [unknown] at refused
  rw [loadTextV1, loads, loadLines_cons, refused]
  exact ⟨_, rfl, kept⟩

/-- More instructions than a program can have throw. -/
theorem loadTextV1_overfull {input : Text}
    (read : List.Forall₂ (fun line insn => readInsn line = some insn) known
      insns)
    (split : statements input = known ++ line :: later)
    (more : readInsn line = some insn) (full : insns.length = maxInsns) :
    loadTextV1 input = .error .lengthError := by
  obtain ⟨next, rest, loads, left, stands, kept, all⟩ :=
    @loadLines_known (getlines input) known (line :: later) insns
      { format := .textV1 } read split (by simp [emptyProgram, full])
  obtain ⟨statement, lines, rfl⟩ := cons_of_filter stands left
  have noRoom : ¬ next.program.insns.length < maxInsns := by
    rw [all, List.length_append, full]
    omega
  have thrown := @loadLine_statement _ next statement
  simp only [more, pushInsn, dif_neg noRoom] at thrown
  rw [loadTextV1, loads, loadLines_cons, thrown]
  rfl

/-- The instructions of statements with known opcodes. -/
theorem exists_read (all : ∀ line ∈ known, hasOpcode line = true) :
    ∃ insns, List.Forall₂ (fun line insn => readInsn line = some insn) known
      insns := by
  induction known with
  | nil => exact ⟨[], .nil⟩
  | cons line lines induction =>
      obtain ⟨here, others⟩ := List.forall_mem_cons.mp all
      obtain ⟨insn, reads⟩ := hasOpcode_iff.mp here
      obtain ⟨insns, read⟩ := induction others
      exact ⟨insn :: insns, .cons reads read⟩

/-- The instructions of instruction lines. -/
theorem exists_insnLines (all : ∀ line ∈ lines, ∃ insn, InsnLine line insn) :
    ∃ insns, List.Forall₂ InsnLine lines insns := by
  induction lines with
  | nil => exact ⟨[], .nil⟩
  | cons line lines induction =>
      obtain ⟨⟨insn, here⟩, others⟩ := List.forall_mem_cons.mp all
      obtain ⟨insns, rendered⟩ := induction others
      exact ⟨insn :: insns, .cons here rendered⟩

theorem InsnLine.hasOpcode (renders : InsnLine line insn) :
    hasOpcode line = true :=
  hasOpcode_iff.mpr ⟨insn, renders.readInsn⟩

theorem forall_of_forall₂ (rendered : List.Forall₂ InsnLine lines insns) :
    ∀ line ∈ lines, ∃ insn, InsnLine line insn := by
  induction rendered with
  | nil => simp
  | cons here others induction =>
      exact List.forall_mem_cons.mpr ⟨⟨_, here⟩, induction⟩

/-- Too many known opcodes in front throw. -/
theorem loadTextV1_error {input : Text}
    (long : maxInsns < ((statements input).takeWhile hasOpcode).length) :
    loadTextV1 input = .error .lengthError := by
  have known : ∀ line ∈ (statements input).takeWhile hasOpcode,
      hasOpcode line = true := fun line member =>
    List.mem_takeWhile_imp member
  have divided := @List.takeWhile_append_dropWhile _ hasOpcode
    (statements input)
  generalize (statements input).takeWhile hasOpcode = front at *
  obtain ⟨line, later, beyond⟩ : ∃ line later,
      front.drop maxInsns = line :: later := by
    apply List.exists_cons_of_ne_nil
    intro empty
    have short := List.drop_eq_nil_iff.mp empty
    omega
  have pieces := List.take_append_drop maxInsns front
  obtain ⟨insns, read⟩ := @exists_read (front.take maxInsns)
    fun line member => known line (List.mem_of_mem_take member)
  obtain ⟨insn, more⟩ := hasOpcode_iff.mp (known line (by
    apply List.mem_of_mem_drop
    rw [beyond]
    exact List.mem_cons_self))
  have split : statements input = front.take maxInsns
      ++ line :: (later ++ (statements input).dropWhile hasOpcode) := by
    calc
      statements input = (front.take maxInsns ++ front.drop maxInsns)
          ++ (statements input).dropWhile hasOpcode := by
        rw [pieces, divided]
      _ = _ := by rw [beyond, List.append_assoc, List.cons_append]
  apply loadTextV1_overfull read split more
  rw [← read.length_eq, List.length_take]
  omega

/-- An unknown opcode is refused, unless too many known ones stand before
it. -/
theorem loadTextV1_refused {input : Text}
    (short : ((statements input).takeWhile hasOpcode).length ≤ maxInsns)
    (unknown : ¬ ∀ line ∈ statements input, hasOpcode line = true) :
    ∃ out, loadTextV1 input = .ok out ∧ out.ok = false := by
  obtain ⟨insns, read⟩ := @exists_read
    ((statements input).takeWhile hasOpcode)
    fun line member => List.mem_takeWhile_imp member
  have divided := @List.takeWhile_append_dropWhile _ hasOpcode
    (statements input)
  cases stands : (statements input).dropWhile hasOpcode with
  | nil => exact absurd (List.dropWhile_eq_nil_iff.mp stands) unknown
  | cons line later =>
      have refused : hasOpcode line = false := by
        have head := List.head?_dropWhile_not hasOpcode (statements input)
        simpa [stands] using head
      have none : readInsn line = none := by
        by_contra some
        obtain ⟨insn, reads⟩ := Option.ne_none_iff_exists'.mp some
        have known := hasOpcode_iff.mpr ⟨insn, reads⟩
        rw [refused] at known
        cases known
      rw [stands] at divided
      apply loadTextV1_unknown read divided.symm none
      rwa [← read.length_eq]

/-- The loader keeps to the grammar exactly on the texts where known opcodes
have their three operands: it refuses a text for an unknown opcode only. -/
theorem textExact_iff (input : Text) :
    TextExact input ↔
      ((statements input).takeWhile hasOpcode).length ≤ maxInsns ∧
      ((∀ line ∈ statements input, hasOpcode line = true) →
        ∀ line ∈ statements input, ∃ insn, InsnLine line insn) := by
  have whole : (∀ line ∈ statements input, hasOpcode line = true) →
      (statements input).takeWhile hasOpcode = statements input := fun all =>
    List.takeWhile_eq_self_iff.mpr all
  constructor
  · intro exact
    have returns : ∃ out, loadTextV1 input = .ok out := by
      by_cases grammatical : ∃ insns,
          List.Forall₂ InsnLine (statements input) insns
      · obtain ⟨insns, rendered⟩ := grammatical
        obtain ⟨out, loads, _⟩ := exact.accepts insns rendered
        exact ⟨out, loads⟩
      · obtain ⟨out, loads, _⟩ := exact.refuses (not_exists.mp grammatical)
        exact ⟨out, loads⟩
    have short : ((statements input).takeWhile hasOpcode).length ≤
        maxInsns := by
      by_contra long
      obtain ⟨out, loads⟩ := returns
      rw [loadTextV1_error (Nat.lt_of_not_le long)] at loads
      cases loads
    refine ⟨short, ?_⟩
    intro all
    by_contra missing
    obtain ⟨insns, read⟩ := exists_read all
    rw [whole all, read.length_eq] at short
    obtain ⟨out, loads, accepted, _⟩ := loadTextV1_known read short
    obtain ⟨other, refuses, refused⟩ := exact.refuses fun insns rendered =>
      missing (forall_of_forall₂ rendered)
    rw [loads] at refuses
    cases refuses
    rw [accepted] at refused
    cases refused
  · rintro ⟨short, complete⟩
    constructor
    · intro insns rendered
      have read := rendered.imp fun line insn renders =>
        InsnLine.readInsn renders
      have all : ∀ line ∈ statements input, hasOpcode line = true := by
        intro line member
        obtain ⟨insn, renders⟩ := forall_of_forall₂ rendered line member
        exact renders.hasOpcode
      rw [whole all, read.length_eq] at short
      exact loadTextV1_known read short
    · intro ungrammatical
      apply loadTextV1_refused short
      intro all
      obtain ⟨insns, rendered⟩ := exists_insnLines (complete all)
      exact ungrammatical insns rendered

/-- The missing operands of a bare `HALT` are read as zeros. -/
theorem not_textExact_bareHalt : ¬ TextExact (text "HALT") := by
  intro exact
  have loads : loadTextV1 (text "HALT") = .ok
      { ok := true, format := .textV1, error := []
        program := { insns := [⟨.halt, 0, 0, 0⟩], axionPolicyText := [],
                     fits := by decide } } := by decide
  obtain ⟨out, refuses, refused⟩ := exact.refuses (by
    intro insns rendered
    have bare : statements (text "HALT") = [text "HALT"] := by decide
    rw [bare] at rendered
    obtain ⟨insn, renders⟩ :=
      forall_of_forall₂ rendered _ List.mem_cons_self
    obtain ⟨name, a, b, c, _, readsA, _, _, trimmed, _⟩ := renders.words
    have visible : ∀ byte ∈ trim (text "HALT"), isSpace byte = false := by
      decide
    obtain ⟨first, others, cons⟩ :=
      List.exists_cons_of_ne_nil readsA.last.1
    have space := readsA.head [] first (by rw [cons]; rfl)
    have shown := visible first (by simp [trimmed, cons])
    rw [space] at shown
    cases shown)
  rw [loads] at refuses
  cases refuses
  cases refused

end T81VM.ProgramIo
