import Mathlib.Logic.Relator
import T81VM.VM.Machine
import T81VM.VM.OperandRoles

/-!
# Respelled programs

A program can name other registers, and it can name another of the opcodes
that share one branch of the switch.  The interpreter is blind to both: a
dictionary relates the registers of two programs one to one and covers some
addresses, and there the two programs run in step.
-/

namespace T81VM.VM

open Tisc PartialSystem

/-! ## Corresponding instructions -/

/-- One opcode for those that the switch does not tell apart: a float or a
fraction is an integer under another name. -/
def commonOpcode : Opcode → Opcode
  | .fAdd | .fracAdd => .add
  | .fSub | .fracSub => .sub
  | .fMul | .fracMul => .mul
  | .fDiv | .fracDiv => .div
  | .i2F | .f2I | .i2Frac | .frac2I => .mov
  | opcode => opcode

/-- The opcodes of the arithmetic branch. -/
def isArithmetic : Opcode → Bool
  | .add | .sub | .mul | .div | .mod
  | .fAdd | .fSub | .fMul | .fDiv
  | .fracAdd | .fracSub | .fracMul | .fracDiv => true
  | _ => false

/-- The opcodes that copy a register. -/
def isMove : Opcode → Bool
  | .mov | .i2F | .f2I | .i2Frac | .frac2I => true
  | _ => false

theorem commonOpcode_congr {opcode other : Opcode} (same : opcode = other) :
    commonOpcode other = commonOpcode opcode := by
  rw [same]

theorem isArithmetic_commonOpcode (opcode : Opcode) :
    isArithmetic (commonOpcode opcode) = isArithmetic opcode := by
  cases opcode <;> rfl

theorem isMove_commonOpcode (opcode : Opcode) :
    isMove (commonOpcode opcode) = isMove opcode := by
  cases opcode <;> rfl

/-- The other opcodes have a branch to themselves, or are told apart in it. -/
theorem eq_of_commonOpcode {opcode other : Opcode}
    (same : commonOpcode other = commonOpcode opcode)
    (computes : isArithmetic opcode = false)
    (moves : isMove opcode = false) : other = opcode := by
  have alone : commonOpcode opcode = opcode := by
    cases opcode <;> first | rfl | contradiction
  rw [alone] at same
  subst same
  cases other <;> first | rfl | contradiction

theorem registerOperands_commonOpcode (opcode : Opcode) :
    registerOperands (commonOpcode opcode) = registerOperands opcode := by
  cases opcode <;> rfl

theorem divides_commonOpcode (opcode : Opcode) :
    Interpreter.divides (commonOpcode opcode) =
      Interpreter.divides opcode := by
  cases opcode <;> rfl

theorem arithmeticResult_commonOpcode {host : Host} (opcode : Opcode) :
    Interpreter.arithmeticResult host (commonOpcode opcode) =
      Interpreter.arithmeticResult host opcode := by
  cases opcode <;> rfl

/-- How two programs correspond: which registers stand for each other, which
opcodes, and at which addresses.  No register stands for two others, and
opcodes correspond only where the switch does not tell them apart. -/
structure Dictionary where
  names : Fin 243 → Fin 243 → Prop
  unique : Relator.BiUnique names
  twins : Opcode → Opcode → Prop
  common : ∀ {opcode other}, twins opcode other →
    commonOpcode other = commonOpcode opcode
  nop : twins .nop .nop
  covers : Nat → Prop

/-- Operands that index corresponding registers, or the same operand of the
same opcode if it indexes none. -/
inductive NamedAlike (dict : Dictionary) (insn other : Insn)
    (operand : Operand) : Prop where
  | named {reg otherReg : Fin 243} (named : dict.names reg otherReg)
      (index : registerIndex (operandOf insn operand) = .ok reg)
      (otherIndex : registerIndex (operandOf other operand) = .ok otherReg)
  | outside (reason : Stuck)
      (index : registerIndex (operandOf insn operand) = .error reason)
      (operands : operandOf other operand = operandOf insn operand)
      (opcodes : other.opcode = insn.opcode)

/-- The same instruction, on corresponding registers. -/
structure RespelledInsn (dict : Dictionary) (insn other : Insn) : Prop where
  opcode : dict.twins insn.opcode other.opcode
  registers : ∀ operand ∈ registerOperands insn.opcode,
    NamedAlike dict insn other operand
  literals : ∀ operand, operand ∉ registerOperands insn.opcode →
    operandOf other operand = operandOf insn operand

/-- Corresponding instructions wherever the dictionary covers. -/
structure RespelledCode (dict : Dictionary) (program other : Program) :
    Prop where
  size : other.insns.length = program.insns.length
  insns : ∀ pc, dict.covers pc →
    Option.Rel (RespelledInsn dict) program.insns[pc]? other.insns[pc]?

/-! ## Corresponding machines -/

/-- A register write as it is recorded.  A write to registers without a
counterpart can only come from the host, and any two of them correspond. -/
inductive RespelledWrite (dict : Dictionary) :
    Option Nat → Option Int64 → Option ValueTag →
      Option Nat → Option Int64 → Option ValueTag → Prop where
  | nothing : RespelledWrite dict none none none none none none
  | named {reg otherReg : Fin 243} (named : dict.names reg otherReg)
      (value : Int64) (tag : ValueTag) :
      RespelledWrite dict (some reg) (some value) (some tag)
        (some otherReg) (some value) (some tag)
  | unnamed {reg otherReg : Fin 243} (left : ∀ other, ¬ dict.names reg other)
      (right : ∀ other, ¬ dict.names other otherReg)
      (value otherValue : Int64) (tag otherTag : ValueTag) :
      RespelledWrite dict (some reg) (some value) (some tag)
        (some otherReg) (some otherValue) (some otherTag)

structure RespelledEntry (dict : Dictionary) (entry other : TraceEntry) :
    Prop where
  pc : other.pc = entry.pc
  opcode : dict.twins entry.opcode other.opcode
  trap : other.trap = entry.trap
  write : RespelledWrite dict entry.writeReg entry.writeValue entry.writeTag
    other.writeReg other.writeValue other.writeTag

structure RespelledPayload (dict : Dictionary) (payload other : TrapPayload) :
    Prop where
  trap : other.trap = payload.trap
  pc : other.pc = payload.pc
  insn : RespelledInsn dict
    ⟨payload.opcode, payload.a, payload.b, payload.c⟩
    ⟨other.opcode, other.a, other.b, other.c⟩
  segment : other.segment = payload.segment
  detail : other.detail = payload.detail

/-- The members of an interpreter that show how its program is spelled. -/
structure Spelling where
  program : Program
  registers : RegisterFile Int64
  registerTags : RegisterFile ValueTag
  trace : List TraceEntry
  lastTrapPayload : Option TrapPayload
  writeReg : Option Nat
  writeValue : Option Int64
  writeTag : Option ValueTag

/-- Corresponding registers hold the same, and what was recorded
corresponds. -/
structure SpelledAlike (dict : Dictionary) (left right : Spelling) : Prop where
  program : RespelledCode dict left.program right.program
  registers : ∀ reg other, dict.names reg other →
    right.registers other = left.registers reg
  tags : ∀ reg other, dict.names reg other →
    right.registerTags other = left.registerTags reg
  trace : List.Forall₂ (RespelledEntry dict) left.trace right.trace
  payload : Option.Rel (RespelledPayload dict) left.lastTrapPayload
    right.lastTrapPayload
  write : RespelledWrite dict left.writeReg left.writeValue left.writeTag
    right.writeReg right.writeValue right.writeTag

namespace Interpreter

def spelling (vm : Interpreter) : Spelling where
  program := vm.program
  registers := vm.state.registers
  registerTags := vm.state.registerTags
  trace := vm.state.trace
  lastTrapPayload := vm.state.lastTrapPayload
  writeReg := vm.currentWriteReg
  writeValue := vm.currentWriteValue
  writeTag := vm.currentWriteTag

def withSpelling (vm : Interpreter) (spelling : Spelling) : Interpreter :=
  { vm with
    program := spelling.program
    state := { vm.state with
      registers := spelling.registers
      registerTags := spelling.registerTags
      trace := spelling.trace
      lastTrapPayload := spelling.lastTrapPayload }
    currentWriteReg := spelling.writeReg
    currentWriteValue := spelling.writeValue
    currentWriteTag := spelling.writeTag }

/-- The other members, beside the spelling of a new interpreter. -/
def unspelled (vm : Interpreter) : Interpreter :=
  vm.withSpelling (spelling {})

/-- The spellings correspond, and all other members are equal: the program
counter, the halt, the memory and its layout, the flags, the stack and heap
pointers and frames, the pools, the call stack, the Axion log, the policy, the
verdict of the loader and the counters. -/
structure Respelled (dict : Dictionary) (left right : Interpreter) : Prop where
  spelling : SpelledAlike dict left.spelling right.spelling
  unspelled : left.unspelled = right.unspelled

theorem Respelled.exists_spelling {dict : Dictionary}
    {left right : Interpreter} (related : Respelled dict left right) :
    ∃ spelling, right = left.withSpelling spelling := by
  refine ⟨right.spelling, ?_⟩
  have same : right = right.unspelled.withSpelling right.spelling := rfl
  rw [← related.unspelled] at same
  exact same

/-- A value that is put into corresponding registers. -/
theorem Respelled.assign {dict : Dictionary} {left right : Interpreter}
    (related : Respelled dict left right)
    {reg otherReg : Fin 243} (named : dict.names reg otherReg) (value : Int64)
    (tag : ValueTag) :
    Respelled dict (left.assignRegister reg value tag)
      (right.assignRegister otherReg value tag) := by
  obtain ⟨program, registers, tags, trace, payload, write⟩ := related.spelling
  obtain ⟨leftUnique, rightUnique⟩ := dict.unique
  have updated : ∀ {α : Type} {file otherFile : RegisterFile α} (cell : α),
      (∀ here there, dict.names here there → otherFile there = file here) →
        ∀ here there, dict.names here there →
          Function.update otherFile otherReg cell there =
            Function.update file reg cell here := by
    intro α file otherFile cell same here there paired
    by_cases written : here = reg
    · subst written
      rw [rightUnique paired named, Function.update_self,
        Function.update_self]
    · have otherwise : there ≠ otherReg := by
        rintro rfl
        exact written (leftUnique paired named)
      rw [Function.update_of_ne otherwise, Function.update_of_ne written]
      exact same here there paired
  obtain ⟨spelling, rfl⟩ := related.exists_spelling
  exact ⟨⟨program, updated value registers, updated tag tags, trace, payload,
    write⟩, rfl⟩

theorem Respelled.writeNamed {dict : Dictionary} {left right : Interpreter}
    (related : Respelled dict left right)
    {reg otherReg : Fin 243} (named : dict.names reg otherReg) (value : Int64)
    (tag : ValueTag) :
    Respelled dict (left.writeRegister reg value tag)
      (right.writeRegister otherReg value tag) := by
  have assigned := related.assign named value tag
  obtain ⟨program, registers, tags, trace, payload, _⟩ := assigned.spelling
  obtain ⟨spelling, rfl⟩ := related.exists_spelling
  exact ⟨⟨program, registers, tags, trace, payload,
    .named named value tag⟩, rfl⟩

/-- Values that are put into registers without a counterpart. -/
theorem Respelled.writeUnnamed {dict : Dictionary} {left right : Interpreter}
    (related : Respelled dict left right) {reg otherReg : Fin 243}
    (outside : ∀ other, ¬ dict.names reg other)
    (otherOutside : ∀ other, ¬ dict.names other otherReg)
    (value otherValue : Int64) (tag otherTag : ValueTag) :
    Respelled dict (left.writeRegister reg value tag)
      (right.writeRegister otherReg otherValue otherTag) := by
  obtain ⟨program, registers, tags, trace, payload, _⟩ := related.spelling
  have kept : ∀ {α : Type} {file otherFile : RegisterFile α}
      (cell otherCell : α),
      (∀ here there, dict.names here there → otherFile there = file here) →
        ∀ here there, dict.names here there →
          Function.update otherFile otherReg otherCell there =
            Function.update file reg cell here := by
    intro α file otherFile cell otherCell same here there paired
    have apart : here ≠ reg := by
      rintro rfl
      exact outside there paired
    have otherApart : there ≠ otherReg := by
      rintro rfl
      exact otherOutside here paired
    rw [Function.update_of_ne otherApart, Function.update_of_ne apart]
    exact same here there paired
  obtain ⟨spelling, rfl⟩ := related.exists_spelling
  exact ⟨⟨program, kept value otherValue registers, kept tag otherTag tags,
    trace, payload, .unnamed outside otherOutside value otherValue tag
      otherTag⟩, rfl⟩

/-- Traps that quote corresponding operands. -/
theorem Respelled.trap {dict : Dictionary} {left right : Interpreter}
    (related : Respelled dict left right) {code : Trap}
    {opcode other : Opcode} {pc : Nat} {segment : MemorySegmentKind}
    {detail : Text}
    (quoted : RespelledInsn dict
      ⟨opcode, (left.faultOperands opcode pc).1,
        (left.faultOperands opcode pc).2.1,
        (left.faultOperands opcode pc).2.2⟩
      ⟨other, (right.faultOperands other pc).1,
        (right.faultOperands other pc).2.1,
        (right.faultOperands other pc).2.2⟩) :
    Agree (Respelled dict)
      (.ok (left.trap code opcode pc segment detail) : Outcome)
      (.ok (right.trap code other pc segment detail)) := by
  obtain ⟨program, registers, tags, trace, payload, write⟩ := related.spelling
  have raised : RespelledPayload dict
      (left.trapPayload code opcode pc segment detail)
      (right.trapPayload code other pc segment detail) :=
    ⟨rfl, rfl, quoted, rfl, rfl⟩
  have entry : RespelledEntry dict
      (left.traceEntry opcode pc (some code))
      (right.traceEntry other pc (some code)) :=
    ⟨rfl, quoted.opcode, rfl, write⟩
  obtain ⟨spelling, rfl⟩ := related.exists_spelling
  refine ⟨rfl, ⟨program, registers, tags, ?_, .some raised, write⟩, rfl⟩
  exact List.rel_append trace (.cons entry .nil)

/-! ## Two machines at corresponding instructions -/

/-- Corresponding machines that have fetched corresponding instructions. -/
structure Paired (dict : Dictionary) (left right : Interpreter)
    (insn other : Insn) (pc : Nat) : Prop where
  state : Respelled dict left right
  spelled : RespelledInsn dict insn other
  here : left.program.insns[pc]? = some insn
  there : right.program.insns[pc]? = some other

namespace Paired

variable {host : Host} {dict : Dictionary}
  {left right left' right' : Interpreter} {insn other : Insn} {pc : Nat}

/-- Members that are not spelled may change alike. -/
theorem alter (pair : Paired dict left right insn other pc)
    (kept : left'.spelling = left.spelling)
    (kept' : right'.spelling = right.spelling)
    (same : left'.unspelled = right'.unspelled) :
    Paired dict left' right' insn other pc := by
  have programs : left'.program = left.program :=
    congrArg Spelling.program kept
  have programs' : right'.program = right.program :=
    congrArg Spelling.program kept'
  refine ⟨⟨?_, same⟩, pair.spelled, ?_, ?_⟩
  · rw [kept, kept']
    exact pair.state.spelling
  · rw [programs]
    exact pair.here
  · rw [programs']
    exact pair.there

theorem literal (pair : Paired dict left right insn other pc)
    (operand : Operand) (unused : operand ∉ registerOperands insn.opcode) :
    operandOf other operand = operandOf insn operand :=
  pair.spelled.literals operand unused

/-- Both index corresponding registers. -/
theorem index (pair : Paired dict left right insn other pc)
    (operand : Operand) (used : operand ∈ registerOperands insn.opcode)
    {next next' : Fin 243 → Outcome}
    (rest : ∀ reg otherReg, dict.names reg otherReg →
      Agree (Respelled dict) (next reg) (next' otherReg)) :
    Agree (Respelled dict)
      (registerIndex (operandOf insn operand) >>= next)
      (registerIndex (operandOf other operand) >>= next') := by
  cases pair.spelled.registers operand used with
  | named named index otherIndex =>
      rw [index, otherIndex]
      exact rest _ _ named
  | outside reason index same =>
      rw [same, index]
      rfl

/-- Both read the same value. -/
theorem register (pair : Paired dict left right insn other pc)
    (operand : Operand) (used : operand ∈ registerOperands insn.opcode) :
    left.register (operandOf insn operand) =
      right.register (operandOf other operand) := by
  unfold Interpreter.register
  cases pair.spelled.registers operand used with
  | named named index otherIndex =>
      have same := pair.state.spelling.registers _ _ named
      rw [index, otherIndex]
      exact congrArg Except.ok same.symm
  | outside reason index same =>
      rw [same, index]
      rfl

/-- Both read the same tag. -/
theorem registerTag (pair : Paired dict left right insn other pc)
    (operand : Operand) (used : operand ∈ registerOperands insn.opcode) :
    left.registerTag (operandOf insn operand) =
      right.registerTag (operandOf other operand) := by
  unfold Interpreter.registerTag
  cases pair.spelled.registers operand used with
  | named named index otherIndex =>
      have same := pair.state.spelling.tags _ _ named
      rw [index, otherIndex]
      exact congrArg Except.ok same.symm
  | outside reason index same =>
      rw [same, index]
      rfl

/-! ### Endings -/

theorem entry (pair : Paired dict left right insn other pc)
    (trap : Option Trap) :
    RespelledEntry dict (left.traceEntry insn.opcode pc trap)
      (right.traceEntry other.opcode pc trap) :=
  ⟨rfl, pair.spelled.opcode, rfl, pair.state.spelling.write⟩

theorem traceOk (pair : Paired dict left right insn other pc) :
    Agree (Respelled dict) (.ok (left.traceOk insn.opcode pc) : Outcome)
      (.ok (right.traceOk other.opcode pc)) := by
  obtain ⟨program, registers, tags, trace, payload, write⟩ :=
    pair.state.spelling
  obtain ⟨spelling, rfl⟩ := pair.state.exists_spelling
  refine ⟨rfl, ⟨program, registers, tags, ?_, payload, write⟩, rfl⟩
  exact List.rel_append trace (.cons (pair.entry none) .nil)

theorem finish (pair : Paired dict left right insn other pc) :
    Agree (Respelled dict) (left.finish insn pc) (right.finish other pc) := by
  obtain ⟨spelling, rfl⟩ := pair.state.exists_spelling
  exact Paired.traceOk (pair.alter rfl rfl rfl)

/-- The operands that a trap quotes. -/
theorem faultOperands (pair : Paired dict left right insn other pc) :
    left.faultOperands insn.opcode pc = (insn.a, insn.b, insn.c) ∧
      right.faultOperands other.opcode pc = (other.a, other.b, other.c) := by
  unfold Interpreter.faultOperands
  rw [pair.here, pair.there]
  simp only [if_true, and_self]

theorem trap (pair : Paired dict left right insn other pc) (code : Trap)
    (segment : MemorySegmentKind) (detail : Text) :
    Agree (Respelled dict)
      (.ok (left.trap code insn.opcode pc segment detail) : Outcome)
      (.ok (right.trap code other.opcode pc segment detail)) := by
  obtain ⟨operands, operands'⟩ := pair.faultOperands
  apply pair.state.trap
  rw [operands, operands']
  exact pair.spelled

/-- A value that is put into corresponding registers. -/
theorem assign (pair : Paired dict left right insn other pc)
    {reg otherReg : Fin 243} (named : dict.names reg otherReg) (value : Int64)
    (tag : ValueTag) :
    Paired dict (left.assignRegister reg value tag)
      (right.assignRegister otherReg value tag) insn other pc :=
  ⟨pair.state.assign named value tag, pair.spelled, pair.here, pair.there⟩

theorem writeRegister (pair : Paired dict left right insn other pc)
    {reg otherReg : Fin 243} (named : dict.names reg otherReg) (value : Int64)
    (tag : ValueTag) :
    Paired dict (left.writeRegister reg value tag)
      (right.writeRegister otherReg value tag) insn other pc :=
  ⟨pair.state.writeNamed named value tag, pair.spelled, pair.here,
    pair.there⟩

theorem finishWrite (pair : Paired dict left right insn other pc)
    (used : .a ∈ registerOperands insn.opcode) (value : Int64)
    (tag : ValueTag) :
    Agree (Respelled dict) (left.finishWrite insn pc value tag)
      (right.finishWrite other pc value tag) := by
  rw [finishWrite_eq, finishWrite_eq]
  refine pair.index .a used fun reg otherReg named => ?_
  have written := pair.writeRegister named value tag
  obtain ⟨spelling, rfl⟩ := pair.state.exists_spelling
  exact Paired.finish (written.alter rfl rfl rfl)

/-- An event that both log alike. -/
theorem logEvent (pair : Paired dict left right insn other pc)
    (same : other.opcode = insn.opcode) (reason : Text) :
    Paired dict (left.logEvent insn.opcode reason)
      (right.logEvent other.opcode reason) insn other pc := by
  have spelled := pair.state.exists_spelling
  rw [same]
  obtain ⟨spelling, rfl⟩ := spelled
  exact pair.alter rfl rfl rfl

theorem logSegmentEvent (pair : Paired dict left right insn other pc)
    (same : other.opcode = insn.opcode) (kind : MemorySegmentKind) :
    Paired dict (left.logSegmentEvent insn.opcode kind)
      (right.logSegmentEvent other.opcode kind) insn other pc := by
  unfold Interpreter.logSegmentEvent
  by_cases unknown : kind = .unknown
  · rw [if_pos unknown, if_pos unknown]
    exact pair
  · rw [if_neg unknown, if_neg unknown]
    exact pair.logEvent same _

/-! ### Branches over registers and memory -/

theorem executeLoadImm (pair : Paired dict left right insn other pc)
    (operands : registerOperands insn.opcode = [.a]) :
    Agree (Respelled dict) (left.executeLoadImm insn pc)
      (right.executeLoadImm other pc) := by
  have immediate : other.b = insn.b := pair.literal .b (by simp [operands])
  unfold Interpreter.executeLoadImm
  rw [immediate, setRegisterValue_bind, setRegisterValue_bind]
  refine pair.index .a (by simp [operands]) fun reg otherReg named => ?_
  have written := pair.writeRegister named insn.b .int
  obtain ⟨spelling, rfl⟩ := pair.state.exists_spelling
  exact Paired.finish (written.alter rfl rfl rfl)

theorem executeLoad (pair : Paired dict left right insn other pc)
    (same : other.opcode = insn.opcode)
    (operands : registerOperands insn.opcode = [.a]) :
    Agree (Respelled dict) (left.executeLoad insn pc)
      (right.executeLoad other pc) := by
  have address : other.b = insn.b := pair.literal .b (by simp [operands])
  unfold Interpreter.executeLoad
  rw [address]
  obtain ⟨spelling, rfl⟩ := pair.state.exists_spelling
  refine .ite (fun _ => ?_) fun _ => ?_
  · exact (pair.logEvent same _).trap .boundsFault _ _
  · exact .bind fun value _ => pair.finishWrite (by simp [operands]) value .int

theorem executeStore (pair : Paired dict left right insn other pc)
    (same : other.opcode = insn.opcode)
    (operands : registerOperands insn.opcode = [.b]) :
    Agree (Respelled dict) (left.executeStore insn pc)
      (right.executeStore other pc) := by
  have address : other.a = insn.a := pair.literal .a (by simp [operands])
  have read := pair.register .b (by simp [operands])
  unfold Interpreter.executeStore
  rw [address]
  obtain ⟨spelling, rfl⟩ := pair.state.exists_spelling
  refine .ite (fun _ => ?_) fun _ => ?_
  · exact (pair.logEvent same _).trap .boundsFault _ _
  refine .bindEq read fun value _ => ?_
  rw [setMemory_bind, setMemory_bind]
  refine .ite (fun _ => ?_) fun _ => rfl
  have stored : Paired dict
      { left with
        state := { left.state with
          memory := left.state.memory.set (toSize insn.a) value } }
      { left.withSpelling spelling with
        state := { (left.withSpelling spelling).state with
          memory := left.state.memory.set (toSize insn.a) value } }
      insn other pc := pair.alter rfl rfl rfl
  exact (stored.logSegmentEvent same _).finish

theorem executeArithmetic (pair : Paired dict left right insn other pc)
    (operands : registerOperands insn.opcode = [.a, .b, .c]) :
    Agree (Respelled dict) (left.executeArithmetic host insn pc)
      (right.executeArithmetic host other pc) := by
  have common := dict.common pair.spelled.opcode
  have divide : divides other.opcode = divides insn.opcode := by
    rw [← divides_commonOpcode, common, divides_commonOpcode]
  have compute : arithmeticResult host other.opcode =
      arithmeticResult host insn.opcode := by
    rw [← arithmeticResult_commonOpcode, common, arithmeticResult_commonOpcode]
  unfold Interpreter.executeArithmetic
  rw [divide, compute]
  refine .bindEq (pair.register .b (by simp [operands])) fun lhs _ => ?_
  refine .bindEq (pair.register .c (by simp [operands])) fun rhs _ => ?_
  refine .ite (fun _ => pair.trap .divisionFault _ _) fun _ => ?_
  refine .bind fun result _ => ?_
  rw [setRegisterValue_bind, setRegisterValue_bind]
  refine pair.index .a (by simp [operands]) fun reg otherReg named => ?_
  have written := pair.writeRegister named result .int
  obtain ⟨spelling, rfl⟩ := pair.state.exists_spelling
  exact Paired.finish (written.alter rfl rfl rfl)

theorem executeMove (pair : Paired dict left right insn other pc)
    (operands : registerOperands insn.opcode = [.a, .b]) :
    Agree (Respelled dict) (left.executeMove insn pc)
      (right.executeMove other pc) := by
  refine .bindEq (pair.register .b (by simp [operands])) fun value _ => ?_
  refine .bindEq (pair.registerTag .b (by simp [operands])) fun tag _ => ?_
  exact pair.finishWrite (by simp [operands]) value tag

theorem executeBump (pair : Paired dict left right insn other pc)
    (operands : registerOperands insn.opcode = [.a])
    (op : Int64 → SignedOp) :
    Agree (Respelled dict) (left.executeBump host insn pc op)
      (right.executeBump host other pc op) := by
  refine .bindEq (pair.register .a (by simp [operands])) fun old _ => ?_
  refine .bind fun value _ => ?_
  refine pair.index .a (by simp [operands]) fun reg otherReg named => ?_
  have assigned := pair.assign named value .int
  obtain ⟨spelling, rfl⟩ := pair.state.exists_spelling
  exact Paired.finish (assigned.alter rfl rfl rfl)

/-- Flags that both set alike. -/
theorem finishFlags (pair : Paired dict left right insn other pc)
    (value : Int64) :
    Agree (Respelled dict) ((left.setFlags value).finish insn pc)
      ((right.setFlags value).finish other pc) := by
  obtain ⟨spelling, rfl⟩ := pair.state.exists_spelling
  exact Paired.finish (pair.alter rfl rfl rfl)

theorem executeCmp (pair : Paired dict left right insn other pc)
    (operands : registerOperands insn.opcode = [.a, .b]) :
    Agree (Respelled dict) (left.executeCmp host insn pc)
      (right.executeCmp host other pc) := by
  refine .bindEq (pair.register .a (by simp [operands])) fun lhs _ => ?_
  refine .bindEq (pair.register .b (by simp [operands])) fun rhs _ => ?_
  exact .bind fun difference _ => pair.finishFlags difference

theorem executeNeg (pair : Paired dict left right insn other pc)
    (operands : registerOperands insn.opcode = [.a, .b]) :
    Agree (Respelled dict) (left.executeNeg host insn pc)
      (right.executeNeg host other pc) := by
  refine .bindEq (pair.register .b (by simp [operands])) fun value _ => ?_
  exact .bind fun negated _ =>
    pair.finishWrite (by simp [operands]) negated .int

theorem executeTNot (pair : Paired dict left right insn other pc)
    (operands : registerOperands insn.opcode = [.a, .b]) :
    Agree (Respelled dict) (left.executeTNot host insn pc)
      (right.executeTNot host other pc) := by
  refine .bindEq (pair.register .b (by simp [operands])) fun value _ => ?_
  exact .bind fun negated _ =>
    pair.finishWrite (by simp [operands]) negated .int

theorem executeTrit (pair : Paired dict left right insn other pc)
    (same : other.opcode = insn.opcode)
    (operands : registerOperands insn.opcode = [.a, .b, .c]) :
    Agree (Respelled dict) (left.executeTrit host insn pc)
      (right.executeTrit host other pc) := by
  unfold Interpreter.executeTrit
  rw [same]
  refine .bindEq (pair.register .b (by simp [operands])) fun lhs _ => ?_
  refine .bindEq (pair.register .c (by simp [operands])) fun rhs _ => ?_
  exact .bind fun result _ => pair.finishWrite (by simp [operands]) result .int

theorem executeCompare (pair : Paired dict left right insn other pc)
    (same : other.opcode = insn.opcode)
    (operands : registerOperands insn.opcode = [.a, .b, .c]) :
    Agree (Respelled dict) (left.executeCompare insn pc)
      (right.executeCompare other pc) := by
  unfold Interpreter.executeCompare
  rw [same]
  refine .bindEq (pair.register .b (by simp [operands])) fun lhs _ => ?_
  refine .bindEq (pair.register .c (by simp [operands])) fun rhs _ => ?_
  exact pair.finishWrite (by simp [operands]) _ .int

theorem executeSetF (pair : Paired dict left right insn other pc)
    (operands : registerOperands insn.opcode = [.a, .b]) :
    Agree (Respelled dict) (left.executeSetF insn pc)
      (right.executeSetF other pc) := by
  refine .bindEq (pair.register .b (by simp [operands])) fun value _ => ?_
  exact pair.finishWrite (by simp [operands]) value .int

theorem executeWeightsLoad (pair : Paired dict left right insn other pc)
    (same : other.opcode = insn.opcode)
    (operands : registerOperands insn.opcode = [.a]) :
    Agree (Respelled dict) (left.executeWeightsLoad host insn pc)
      (right.executeWeightsLoad host other pc) := by
  have size : other.b = insn.b := pair.literal .b (by simp [operands])
  unfold Interpreter.executeWeightsLoad weightsHandle
  rw [size]
  refine .bind fun handle _ => ?_
  rw [setRegisterValue_bind, setRegisterValue_bind]
  refine pair.index .a (by simp [operands]) fun reg otherReg named => ?_
  have written := pair.writeRegister named handle .weightsTensorHandle
  have logged := written.logEvent same (text "weights handle loaded")
  refine .bindEq (logged.register .a (by simp [operands])) fun value _ => ?_
  exact logged.finishFlags value

theorem executePush (pair : Paired dict left right insn other pc)
    (same : other.opcode = insn.opcode)
    (operands : registerOperands insn.opcode = [.a]) :
    Agree (Respelled dict) (left.executePush insn pc)
      (right.executePush other pc) := by
  have read := pair.register .a (by simp [operands])
  rw [executePush_eq, executePush_eq]
  obtain ⟨spelling, rfl⟩ := pair.state.exists_spelling
  refine .ite (fun _ => ?_) fun _ => ?_
  · exact (pair.logEvent same _).trap .stackFault _ _
  refine .bindEq read fun value _ => ?_
  rw [setMemory_bind, setMemory_bind]
  exact .ite (fun _ => Paired.finish (pair.alter rfl rfl rfl)) fun _ => rfl

theorem executePop (pair : Paired dict left right insn other pc)
    (same : other.opcode = insn.opcode)
    (operands : registerOperands insn.opcode = [.a]) :
    Agree (Respelled dict) (left.executePop insn pc)
      (right.executePop other pc) := by
  rw [executePop_eq, executePop_eq]
  obtain ⟨spelling, rfl⟩ := pair.state.exists_spelling
  refine .ite (fun _ => ?_) fun _ => ?_
  · exact (pair.logEvent same _).trap .stackFault _ _
  refine .bind fun value _ => ?_
  refine pair.index .a (by simp [operands]) fun reg otherReg named => ?_
  have assigned := pair.assign named value .int
  have popped : Paired dict
      { left.assignRegister reg value .int with
        state := { (left.assignRegister reg value .int).state with
          sp := left.state.sp + 1 } }
      { (left.withSpelling spelling).assignRegister otherReg value .int with
        state := { ((left.withSpelling spelling).assignRegister otherReg value
            .int).state with
          sp := left.state.sp + 1 } } insn other pc :=
    assigned.alter rfl rfl rfl
  refine .bindEq (popped.register .a (by simp [operands])) fun written _ => ?_
  exact popped.finishFlags written

/-! ### Branches over control flow -/

/-- The programs have the same length. -/
theorem length_eq (pair : Paired dict left right insn other pc) :
    right.program.insns.length = left.program.insns.length :=
  pair.state.spelling.program.size

theorem checkJumpTarget (pair : Paired dict left right insn other pc)
    (target : Int64) :
    Agree (Respelled dict) (left.checkJumpTarget insn pc target)
      (right.checkJumpTarget other pc target) := by
  unfold Interpreter.checkJumpTarget
  rw [pair.length_eq]
  obtain ⟨spelling, rfl⟩ := pair.state.exists_spelling
  refine .ite (fun _ => pair.trap .decodeFault _ _) fun _ => ?_
  exact Paired.traceOk (pair.alter rfl rfl rfl)

theorem executeJump (pair : Paired dict left right insn other pc)
    (operands : registerOperands insn.opcode = []) :
    Agree (Respelled dict) (left.checkJumpTarget insn pc insn.a)
      (right.checkJumpTarget other pc other.a) := by
  have target : other.a = insn.a := pair.literal .a (by simp [operands])
  rw [target]
  exact pair.checkJumpTarget insn.a

theorem executeJumpIf (pair : Paired dict left right insn other pc)
    (operands : registerOperands insn.opcode = []) (condition : Bool) :
    Agree (Respelled dict) (left.executeJumpIf insn pc condition)
      (right.executeJumpIf other pc condition) :=
  .ite (fun _ => pair.executeJump operands) fun _ => pair.finish

theorem executeCall (pair : Paired dict left right insn other pc)
    (operands : registerOperands insn.opcode = [.a]) :
    Agree (Respelled dict) (left.executeCall insn pc)
      (right.executeCall other pc) := by
  have size := pair.length_eq
  refine .bindEq (pair.register .a (by simp [operands])) fun target _ => ?_
  rw [size]
  obtain ⟨spelling, rfl⟩ := pair.state.exists_spelling
  refine .ite (fun _ => pair.trap .decodeFault _ _) fun _ => ?_
  exact Paired.traceOk (pair.alter rfl rfl rfl)

theorem executeRet (pair : Paired dict left right insn other pc) :
    Agree (Respelled dict) (left.executeRet insn pc)
      (right.executeRet other pc) := by
  obtain ⟨spelling, rfl⟩ := pair.state.exists_spelling
  have stack : (left.withSpelling spelling).callStack = left.callStack := rfl
  unfold Interpreter.executeRet
  rw [stack]
  cases left.callStack with
  | nil => exact pair.trap .stackFault _ _
  | cons back callers => exact Paired.traceOk (pair.alter rfl rfl rfl)

theorem executeHalt (pair : Paired dict left right insn other pc) :
    Agree (Respelled dict) (left.executeHalt insn pc)
      (right.executeHalt other pc) := by
  obtain ⟨program, registers, tags, trace, payload, write⟩ :=
    pair.state.spelling
  have spelled := pair.state.exists_spelling
  have halted : Paired dict
      { left with
        state := { left.state with halted := true, lastTrapPayload := none } }
      { right with
        state := { right.state with
          halted := true, lastTrapPayload := none } } insn other pc := by
    refine ⟨⟨⟨program, registers, tags, trace, .none, write⟩, ?_⟩,
      pair.spelled, pair.here, pair.there⟩
    obtain ⟨spelling, rfl⟩ := spelled
    rfl
  exact halted.finish

/-! ### Branches over Axion, stack and heap -/

theorem executeAxRead (pair : Paired dict left right insn other pc)
    (same : other.opcode = insn.opcode)
    (operands : registerOperands insn.opcode = [.a]) :
    Agree (Respelled dict) (left.executeAxRead insn pc)
      (right.executeAxRead other pc) := by
  have address : other.b = insn.b := pair.literal .b (by simp [operands])
  unfold Interpreter.executeAxRead
  rw [address]
  obtain ⟨spelling, rfl⟩ := pair.state.exists_spelling
  have logged := fun reason => pair.logEvent same reason
  refine .ite (fun _ => (logged _).trap .securityFault _ _) fun _ => ?_
  exact (logged _).finishWrite (by simp [operands]) insn.b .int

theorem executeAxSet (pair : Paired dict left right insn other pc)
    (same : other.opcode = insn.opcode)
    (operands : registerOperands insn.opcode = [.a, .b]) :
    Agree (Respelled dict) (left.executeAxSet insn pc)
      (right.executeAxSet other pc) := by
  refine .bindEq (pair.register .b (by simp [operands])) fun value _ => ?_
  refine .bindEq (pair.register .a (by simp [operands])) fun addr _ => ?_
  obtain ⟨spelling, rfl⟩ := pair.state.exists_spelling
  have logged := fun reason => pair.logEvent same reason
  exact .ite (fun _ => (logged _).trap .securityFault _ _) fun _ =>
    (logged _).finish

theorem executeAxVerify (pair : Paired dict left right insn other pc)
    (same : other.opcode = insn.opcode)
    (operands : registerOperands insn.opcode = [.a]) :
    Agree (Respelled dict) (left.executeAxVerify insn pc)
      (right.executeAxVerify other pc) := by
  obtain ⟨spelling, rfl⟩ := pair.state.exists_spelling
  have logged := fun reason => pair.logEvent same reason
  refine .ite (fun _ => (logged _).trap .securityFault _ _) fun _ => ?_
  exact (logged _).finishWrite (by simp [operands]) 0 .int

theorem executeStackAlloc (pair : Paired dict left right insn other pc)
    (same : other.opcode = insn.opcode)
    (operands : registerOperands insn.opcode = [.a]) :
    Agree (Respelled dict) (left.executeStackAlloc insn pc)
      (right.executeStackAlloc other pc) := by
  have size : other.b = insn.b := pair.literal .b (by simp [operands])
  unfold Interpreter.executeStackAlloc
  rw [size]
  obtain ⟨spelling, rfl⟩ := pair.state.exists_spelling
  refine .ite (fun _ => pair.trap .stackFault _ _) fun _ => ?_
  refine .ite (fun _ => ?_) fun _ => ?_
  · exact (pair.logEvent same _).trap .stackFault _ _
  rw [setRegisterValue_bind, setRegisterValue_bind]
  refine pair.index .a (by simp [operands]) fun reg otherReg named => ?_
  refine Paired.finish (.logEvent (.writeRegister ?_ named _ _) same _)
  exact pair.alter rfl rfl rfl

theorem executeStackFree (pair : Paired dict left right insn other pc)
    (same : other.opcode = insn.opcode)
    (operands : registerOperands insn.opcode = [.a]) :
    Agree (Respelled dict) (left.executeStackFree insn pc)
      (right.executeStackFree other pc) := by
  have size : other.b = insn.b := pair.literal .b (by simp [operands])
  have read := pair.register .a (by simp [operands])
  obtain ⟨spelling, rfl⟩ := pair.state.exists_spelling
  have stack : (left.withSpelling spelling).state.stackFrames =
      left.state.stackFrames := rfl
  unfold Interpreter.executeStackFree
  rw [stack, size]
  cases left.state.stackFrames with
  | nil => exact pair.trap .stackFault _ _
  | cons top frames =>
      refine .bindEq read fun expected _ => ?_
      refine .ite (fun _ => pair.trap .stackFault _ _) fun _ => ?_
      refine Paired.finish (.logEvent ?_ same _)
      exact pair.alter rfl rfl rfl

theorem executeHeapAlloc (pair : Paired dict left right insn other pc)
    (same : other.opcode = insn.opcode)
    (operands : registerOperands insn.opcode = [.a]) :
    Agree (Respelled dict) (left.executeHeapAlloc insn pc)
      (right.executeHeapAlloc other pc) := by
  have size : other.b = insn.b := pair.literal .b (by simp [operands])
  unfold Interpreter.executeHeapAlloc
  rw [size]
  obtain ⟨spelling, rfl⟩ := pair.state.exists_spelling
  refine .ite (fun _ => pair.trap .decodeFault _ _) fun _ => ?_
  refine .ite (fun _ => ?_) fun _ => ?_
  · exact (pair.logEvent same _).trap .boundsFault _ _
  rw [setRegisterValue_bind, setRegisterValue_bind]
  refine pair.index .a (by simp [operands]) fun reg otherReg named => ?_
  refine Paired.finish (.logEvent (.writeRegister ?_ named _ _) same _)
  exact pair.alter rfl rfl rfl

theorem executeHeapFree (pair : Paired dict left right insn other pc)
    (same : other.opcode = insn.opcode)
    (operands : registerOperands insn.opcode = [.a]) :
    Agree (Respelled dict) (left.executeHeapFree insn pc)
      (right.executeHeapFree other pc) := by
  have size : other.b = insn.b := pair.literal .b (by simp [operands])
  have read := pair.register .a (by simp [operands])
  obtain ⟨spelling, rfl⟩ := pair.state.exists_spelling
  have heap : (left.withSpelling spelling).state.heapFrames =
      left.state.heapFrames := rfl
  unfold Interpreter.executeHeapFree
  rw [heap, size]
  cases left.state.heapFrames with
  | nil => exact pair.trap .decodeFault _ _
  | cons top frames =>
      refine .bindEq read fun expected _ => ?_
      refine .ite (fun _ => pair.trap .decodeFault _ _) fun _ => ?_
      refine Paired.finish (.logEvent ?_ same _)
      exact pair.alter rfl rfl rfl

/-! ### Branches over the pools -/

/-- Interning a value and writing its handle. -/
theorem intern {α : Type}
    (used : .a ∈ registerOperands insn.opcode) {pool : List α} {value : α}
    {tag : ValueTag} {grow grow' : List α → Interpreter}
    (grown : ∀ pool, Paired dict (grow pool) (grow' pool) insn other pc) :
    Agree (Respelled dict)
      (do
        let (handle, vm) ← (do
          let pool ← appendPool pool value
          return (ofSize pool.length, grow pool))
        vm.finishWrite insn pc handle tag)
      (do
        let (handle, vm) ← (do
          let pool ← appendPool pool value
          return (ofSize pool.length, grow' pool))
        vm.finishWrite other pc handle tag) := by
  cases appendPool pool value with
  | error reason => rfl
  | ok pool => exact (grown pool).finishWrite used (ofSize pool.length) tag

theorem payloadOf (pair : Paired dict left right insn other pc)
    (operands : registerOperands insn.opcode = [.a, .b]) :
    left.payloadOf insn.b = right.payloadOf other.b := by
  have tag : left.registerTag insn.b = right.registerTag other.b :=
    pair.registerTag .b (by simp [operands])
  have value : left.register insn.b = right.register other.b :=
    pair.register .b (by simp [operands])
  rw [Interpreter.payloadOf, Interpreter.payloadOf, tag, value]

theorem executeMakeOptionSome (pair : Paired dict left right insn other pc)
    (operands : registerOperands insn.opcode = [.a, .b]) :
    Agree (Respelled dict) (left.executeMakeOptionSome insn pc)
      (right.executeMakeOptionSome other pc) := by
  refine .bindEq (pair.payloadOf operands) fun payload _ => ?_
  obtain ⟨spelling, rfl⟩ := pair.state.exists_spelling
  exact Paired.intern (by simp [operands]) fun _ => pair.alter rfl rfl rfl

theorem executeMakeOptionNone (pair : Paired dict left right insn other pc)
    (operands : registerOperands insn.opcode = [.a]) :
    Agree (Respelled dict) (left.executeMakeOptionNone insn pc)
      (right.executeMakeOptionNone other pc) := by
  obtain ⟨spelling, rfl⟩ := pair.state.exists_spelling
  exact Paired.intern (by simp [operands]) fun _ => pair.alter rfl rfl rfl

theorem executeMakeResult (pair : Paired dict left right insn other pc)
    (operands : registerOperands insn.opcode = [.a, .b]) (isOk : Bool) :
    Agree (Respelled dict) (left.executeMakeResult insn pc isOk)
      (right.executeMakeResult other pc isOk) := by
  refine .bindEq (pair.payloadOf operands) fun payload _ => ?_
  obtain ⟨spelling, rfl⟩ := pair.state.exists_spelling
  exact Paired.intern (by simp [operands]) fun _ => pair.alter rfl rfl rfl

theorem executeMakeEnumVariant (pair : Paired dict left right insn other pc)
    (operands : registerOperands insn.opcode = [.a]) :
    Agree (Respelled dict) (left.executeMakeEnumVariant insn pc)
      (right.executeMakeEnumVariant other pc) := by
  have variant : other.b = insn.b := pair.literal .b (by simp [operands])
  unfold Interpreter.executeMakeEnumVariant
  rw [variant]
  obtain ⟨spelling, rfl⟩ := pair.state.exists_spelling
  exact Paired.intern (by simp [operands]) fun _ => pair.alter rfl rfl rfl

theorem executeMakeEnumVariantPayload
    (pair : Paired dict left right insn other pc)
    (operands : registerOperands insn.opcode = [.a, .b]) :
    Agree (Respelled dict) (left.executeMakeEnumVariantPayload insn pc)
      (right.executeMakeEnumVariantPayload other pc) := by
  have variant : other.c = insn.c := pair.literal .c (by simp [operands])
  unfold Interpreter.executeMakeEnumVariantPayload
  rw [variant]
  refine .ite (fun _ => pair.trap .decodeFault _ _) fun _ => ?_
  refine .bindEq (pair.payloadOf operands) fun payload _ => ?_
  obtain ⟨spelling, rfl⟩ := pair.state.exists_spelling
  exact Paired.intern (by simp [operands]) fun _ => pair.alter rfl rfl rfl

theorem tagIs (pair : Paired dict left right insn other pc)
    (operand : Operand) (used : operand ∈ registerOperands insn.opcode)
    (tag : ValueTag) :
    left.tagIs (operandOf insn operand) tag =
      right.tagIs (operandOf other operand) tag := by
  rw [Interpreter.tagIs, Interpreter.tagIs, pair.registerTag operand used]

theorem withHandle {α : Type} (pair : Paired dict left right insn other pc)
    (operands : registerOperands insn.opcode = [.a, .b]) (tag : ValueTag)
    {lookup lookup' : Int64 → Option α} (pools : lookup' = lookup)
    (inspect : α → Option (Int64 × ValueTag)) :
    Agree (Respelled dict) (left.withHandle insn pc tag lookup inspect)
      (right.withHandle other pc tag lookup' inspect) := by
  subst pools
  refine .bindEq (pair.tagIs .b (by simp [operands]) tag) fun tagged _ => ?_
  refine .ite (fun _ => pair.trap .typeFault _ _) fun _ => ?_
  refine .bindEq (pair.register .b (by simp [operands])) fun handle _ => ?_
  cases (lookup' handle).bind inspect with
  | none => exact pair.trap .decodeFault _ _
  | some written =>
      exact pair.finishWrite (by simp [operands]) written.1 written.2

/-- Both have the same pools. -/
theorem pools (pair : Paired dict left right insn other pc) :
    right.optionPtr = left.optionPtr ∧ right.resultPtr = left.resultPtr ∧
      right.enumPtr = left.enumPtr ∧ right.tensorPtr = left.tensorPtr ∧
        right.shapePtr = left.shapePtr := by
  obtain ⟨spelling, rfl⟩ := pair.state.exists_spelling
  exact ⟨rfl, rfl, rfl, rfl, rfl⟩

/-! ### Branches over tensors -/

theorem finishTensor (pair : Paired dict left right insn other pc)
    (used : .a ∈ registerOperands insn.opcode) (shape data : List Int64) :
    Agree (Respelled dict) (left.finishTensor insn pc shape data)
      (right.finishTensor other pc shape data) := by
  obtain ⟨spelling, rfl⟩ := pair.state.exists_spelling
  exact Paired.intern used fun _ => pair.alter rfl rfl rfl

theorem tagsAre (pair : Paired dict left right insn other pc)
    (operands : registerOperands insn.opcode = [.a, .b, .c])
    (first second : ValueTag) :
    left.tagsAre insn first second = right.tagsAre other first second := by
  have fits : left.tagIs insn.b first = right.tagIs other.b first :=
    pair.tagIs .b (by simp [operands]) first
  have rest : left.tagIs insn.c second = right.tagIs other.c second :=
    pair.tagIs .c (by simp [operands]) second
  rw [Interpreter.tagsAre, Interpreter.tagsAre, fits, rest]

theorem withTensorPair (pair : Paired dict left right insn other pc)
    (operands : registerOperands insn.opcode = [.a, .b, .c])
    {compute compute' : TensorValue → TensorValue → Outcome}
    (computes : ∀ lhs rhs,
      Agree (Respelled dict) (compute lhs rhs) (compute' lhs rhs)) :
    Agree (Respelled dict) (left.withTensorPair insn pc compute)
      (right.withTensorPair other pc compute') := by
  obtain ⟨_, _, _, pool, _⟩ := pair.pools
  refine .bindEq (pair.tagsAre operands _ _) fun tagged _ => ?_
  refine .ite (fun _ => pair.trap .typeFault _ _) fun _ => ?_
  refine .bindEq (pair.register .b (by simp [operands])) fun lhs _ => ?_
  refine .bindEq (pair.register .c (by simp [operands])) fun rhs _ => ?_
  rw [pool]
  cases left.tensorPtr lhs with
  | none => exact pair.trap .decodeFault _ _
  | some first =>
      cases left.tensorPtr rhs with
      | none => exact pair.trap .decodeFault _ _
      | some second => exact computes first second

theorem withTensor (pair : Paired dict left right insn other pc)
    (operands : registerOperands insn.opcode = [.a, .b])
    {compute compute' : TensorValue → Outcome}
    (computes : ∀ input,
      Agree (Respelled dict) (compute input) (compute' input)) :
    Agree (Respelled dict) (left.withTensor insn pc compute)
      (right.withTensor other pc compute') := by
  obtain ⟨_, _, _, pool, _⟩ := pair.pools
  refine .bindEq (pair.tagIs .b (by simp [operands]) _) fun tagged _ => ?_
  refine .ite (fun _ => pair.trap .typeFault _ _) fun _ => ?_
  refine .bindEq (pair.register .b (by simp [operands])) fun handle _ => ?_
  rw [pool]
  cases left.tensorPtr handle with
  | none => exact pair.trap .decodeFault _ _
  | some input => exact computes input

theorem executeVector (pair : Paired dict left right insn other pc)
    (same : other.opcode = insn.opcode)
    (operands : registerOperands insn.opcode = [.a, .b, .c]) :
    Agree (Respelled dict) (left.executeVector host insn pc)
      (right.executeVector host other pc) := by
  unfold Interpreter.executeVector
  rw [same]
  refine pair.withTensorPair operands fun lhs rhs => ?_
  refine .ite (fun _ => pair.trap .shapeFault _ _) fun _ => ?_
  exact .bind fun out _ => pair.finishTensor (by simp [operands]) _ out

theorem executeTMatMul (pair : Paired dict left right insn other pc)
    (operands : registerOperands insn.opcode = [.a, .b, .c]) :
    Agree (Respelled dict) (left.executeTMatMul host insn pc)
      (right.executeTMatMul host other pc) := by
  refine pair.withTensorPair operands fun lhs rhs => ?_
  split
  · refine .ite (fun _ => pair.trap .shapeFault _ _) fun _ => ?_
    exact .bind fun out _ => pair.finishTensor (by simp [operands]) _ out
  · exact pair.trap .shapeFault _ _

theorem executeTTenDot (pair : Paired dict left right insn other pc)
    (operands : registerOperands insn.opcode = [.a, .b, .c]) :
    Agree (Respelled dict) (left.executeTTenDot host insn pc)
      (right.executeTTenDot host other pc) := by
  refine pair.withTensorPair operands fun lhs rhs => ?_
  refine .ite (fun _ => pair.trap .shapeFault _ _) fun _ => ?_
  exact .bind fun sum _ => pair.finishTensor (by simp [operands]) _ [sum]

theorem executeTTranspose (pair : Paired dict left right insn other pc)
    (operands : registerOperands insn.opcode = [.a, .b]) :
    Agree (Respelled dict) (left.executeTTranspose insn pc)
      (right.executeTTranspose other pc) := by
  refine pair.withTensor operands fun input => ?_
  split
  · refine .ite (fun _ => pair.trap .shapeFault _ _) fun _ => ?_
    exact .bind fun out _ => pair.finishTensor (by simp [operands]) _ out
  · exact pair.trap .shapeFault _ _

theorem executeActivation (pair : Paired dict left right insn other pc)
    (same : other.opcode = insn.opcode)
    (operands : registerOperands insn.opcode = [.a, .b]) :
    Agree (Respelled dict) (left.executeActivation host insn pc)
      (right.executeActivation host other pc) := by
  unfold Interpreter.executeActivation
  rw [same]
  refine pair.withTensor operands fun input => .bind fun out _ => ?_
  cases out with
  | none => exact pair.trap .shapeFault _ _
  | some out => exact pair.finishTensor (by simp [operands]) _ out

theorem executeChkShape (pair : Paired dict left right insn other pc)
    (operands : registerOperands insn.opcode = [.a, .b, .c]) :
    Agree (Respelled dict) (left.executeChkShape insn pc)
      (right.executeChkShape other pc) := by
  obtain ⟨_, _, _, tensors, shapes⟩ := pair.pools
  refine .bindEq (pair.tagsAre operands _ _) fun tagged _ => ?_
  refine .ite (fun _ => pair.trap .typeFault _ _) fun _ => ?_
  refine .bindEq (pair.register .b (by simp [operands])) fun tensor _ => ?_
  refine .bindEq (pair.register .c (by simp [operands])) fun shape _ => ?_
  rw [tensors, shapes]
  cases left.tensorPtr tensor with
  | none => exact pair.trap .decodeFault _ _
  | some first =>
      cases left.shapePtr shape with
      | none => exact pair.trap .decodeFault _ _
      | some second => exact pair.finishWrite (by simp [operands]) _ .int

/-! ### The switch -/

theorem execute_of_isArithmetic {vm : Interpreter}
    (computes : isArithmetic insn.opcode = true) :
    vm.execute host insn pc = vm.executeArithmetic host insn pc := by
  unfold Interpreter.execute
  cases opcode : insn.opcode <;> rw [opcode] at computes <;>
    first | rfl | cases computes

theorem execute_of_isMove {vm : Interpreter}
    (moves : isMove insn.opcode = true) :
    vm.execute host insn pc = vm.executeMove insn pc := by
  unfold Interpreter.execute
  cases opcode : insn.opcode <;> rw [opcode] at moves <;>
    first | rfl | cases moves

theorem registerOperands_of_isArithmetic {opcode : Opcode}
    (computes : isArithmetic opcode = true) :
    registerOperands opcode = [.a, .b, .c] := by
  cases opcode <;> first | rfl | cases computes

theorem registerOperands_of_isMove {opcode : Opcode}
    (moves : isMove opcode = true) :
    registerOperands opcode = [.a, .b] := by
  cases opcode <;> first | rfl | cases moves

/-- Corresponding instructions are executed alike. -/
theorem execute (pair : Paired dict left right insn other pc) :
    Agree (Respelled dict) (left.execute host insn pc)
      (right.execute host other pc) := by
  have common := dict.common pair.spelled.opcode
  cases computes : isArithmetic insn.opcode with
  | true =>
      have computes' : isArithmetic other.opcode = true := by
        rw [← isArithmetic_commonOpcode, common, isArithmetic_commonOpcode,
          computes]
      rw [execute_of_isArithmetic computes, execute_of_isArithmetic computes']
      exact pair.executeArithmetic (registerOperands_of_isArithmetic computes)
  | false =>
  cases moves : isMove insn.opcode with
  | true =>
      have moves' : isMove other.opcode = true := by
        rw [← isMove_commonOpcode, common, isMove_commonOpcode, moves]
      rw [execute_of_isMove moves, execute_of_isMove moves']
      exact pair.executeMove (registerOperands_of_isMove moves)
  | false =>
  have same := eq_of_commonOpcode common computes moves
  have flags : right.state.flags = left.state.flags := by
    obtain ⟨spelling, rfl⟩ := pair.state.exists_spelling
    rfl
  obtain ⟨options, results, enums, _, _⟩ := pair.pools
  unfold Interpreter.execute
  rw [same, flags]
  cases opcode : insn.opcode
  case add | sub | mul | div | mod | fAdd | fSub | fMul | fDiv | fracAdd |
    fracSub | fracMul | fracDiv =>
    rw [opcode] at computes
    cases computes
  case mov | i2F | f2I | i2Frac | frac2I =>
    rw [opcode] at moves
    cases moves
  case nop => exact pair.finish
  case halt => exact pair.executeHalt
  case trap | undefined =>
    have trapped := fun code => pair.trap code .unknown []
    rw [same, opcode] at trapped
    exact trapped _
  case loadImm => exact pair.executeLoadImm (by rw [opcode]; rfl)
  case load => exact pair.executeLoad same (by rw [opcode]; rfl)
  case store => exact pair.executeStore same (by rw [opcode]; rfl)
  case inc | dec => exact pair.executeBump (by rw [opcode]; rfl) _
  case cmp => exact pair.executeCmp (by rw [opcode]; rfl)
  case neg => exact pair.executeNeg (by rw [opcode]; rfl)
  case tNot => exact pair.executeTNot (by rw [opcode]; rfl)
  case tAnd | tOr | tXor => exact pair.executeTrit same (by rw [opcode]; rfl)
  case less | lessEqual | greater | greaterEqual | equal | notEqual =>
    exact pair.executeCompare same (by rw [opcode]; rfl)
  case push => exact pair.executePush same (by rw [opcode]; rfl)
  case pop => exact pair.executePop same (by rw [opcode]; rfl)
  case jump => exact pair.executeJump (by rw [opcode]; rfl)
  case jumpIfZero | jumpIfNotZero | jumpIfNegative | jumpIfPositive =>
    exact pair.executeJumpIf (by rw [opcode]; rfl) _
  case call => exact pair.executeCall (by rw [opcode]; rfl)
  case ret => exact pair.executeRet
  case axRead => exact pair.executeAxRead same (by rw [opcode]; rfl)
  case axSet => exact pair.executeAxSet same (by rw [opcode]; rfl)
  case axVerify => exact pair.executeAxVerify same (by rw [opcode]; rfl)
  case tVecAdd | tVecMul => exact pair.executeVector same (by rw [opcode]; rfl)
  case tMatMul => exact pair.executeTMatMul (by rw [opcode]; rfl)
  case tTenDot => exact pair.executeTTenDot (by rw [opcode]; rfl)
  case tTranspose => exact pair.executeTTranspose (by rw [opcode]; rfl)
  case tExp | tSqrt | tSiLU | tSoftmax | tRMSNorm | tRoPE =>
    exact pair.executeActivation same (by rw [opcode]; rfl)
  case chkShape => exact pair.executeChkShape (by rw [opcode]; rfl)
  case weightsLoad => exact pair.executeWeightsLoad same (by rw [opcode]; rfl)
  case setF => exact pair.executeSetF (by rw [opcode]; rfl)
  case makeOptionSome =>
    exact pair.executeMakeOptionSome (by rw [opcode]; rfl)
  case makeOptionNone =>
    exact pair.executeMakeOptionNone (by rw [opcode]; rfl)
  case makeResultOk | makeResultErr =>
    exact pair.executeMakeResult (by rw [opcode]; rfl) _
  case makeEnumVariant =>
    exact pair.executeMakeEnumVariant (by rw [opcode]; rfl)
  case makeEnumVariantPayload =>
    exact pair.executeMakeEnumVariantPayload (by rw [opcode]; rfl)
  case optionIsSome | optionUnwrap =>
    exact pair.withHandle (by rw [opcode]; rfl) _ options _
  case resultIsOk | resultUnwrapOk | resultUnwrapErr =>
    exact pair.withHandle (by rw [opcode]; rfl) _ results _
  case enumIsVariant =>
    have variant : other.c = insn.c := pair.literal .c (by rw [opcode]; decide)
    unfold executeEnumIsVariant
    rw [variant]
    exact pair.withHandle (by rw [opcode]; rfl) _ enums _
  case enumUnwrapPayload =>
    exact pair.withHandle (by rw [opcode]; rfl) _ enums _
  case stackAlloc => exact pair.executeStackAlloc same (by rw [opcode]; rfl)
  case stackFree => exact pair.executeStackFree same (by rw [opcode]; rfl)
  case heapAlloc => exact pair.executeHeapAlloc same (by rw [opcode]; rfl)
  case heapFree => exact pair.executeHeapFree same (by rw [opcode]; rfl)

end Paired

end Interpreter

end T81VM.VM
