import Mathlib.Logic.Relation
import T81VM.VM.ControlFlow
import T81VM.VM.RespelledRuns
import T81VM.VM.TraceCompleteness

/-!
# Dead code

The interpreter looks at no instruction but those it executes, and the trace
names them all.  So a program may be changed wherever a run did not go, and
wherever the flow of control cannot lead: the object that runs the changed
program differs from the other one in the program only.
-/

namespace T81VM.VM

open Tisc PartialSystem

/-! ## Programs that agree on some addresses -/

theorem biUnique_eq {α : Type} : Relator.BiUnique (Eq : α → α → Prop) :=
  ⟨fun _ _ _ one other => one.trans other.symm,
    fun _ _ _ one other => one.symm.trans other⟩

/-- The dictionary that changes nothing, at some addresses. -/
def verbatim (covers : Nat → Prop) : Dictionary where
  names := Eq
  unique := biUnique_eq
  twins := Eq
  common := commonOpcode_congr
  nop := rfl
  covers := covers

/-- Two programs of one length, one policy and one verdict that have the same
instructions at some addresses. -/
structure SameCode (covers : Nat → Prop) (program other : Program) :
    Prop where
  size : other.insns.length = program.insns.length
  policy : other.axionPolicyText = program.axionPolicyText
  verdict : validateProgram other = validateProgram program
  insns : ∀ pc, covers pc → other.insns[pc]? = program.insns[pc]?

section Verbatim

variable {covers : Nat → Prop} {insn other : Insn}

theorem respelledInsn_self : RespelledInsn (verbatim covers) insn insn := by
  refine ⟨rfl, fun operand _ => ?_, fun _ _ => rfl⟩
  cases index : registerIndex (operandOf insn operand) with
  | ok reg => exact .named rfl index index
  | error reason => exact .outside reason index rfl rfl

/-- An index into the register file can be read back. -/
theorem eq_of_registerIndex {idx otherIdx : Int64} {reg : Fin 243}
    (here : registerIndex idx = .ok reg)
    (there : registerIndex otherIdx = .ok reg) : otherIdx = idx := by
  have value : ∀ {index : Int64}, registerIndex index = .ok reg →
      index.toUInt64.toNat = reg := by
    intro index found
    unfold registerIndex at found
    split at found
    · cases found
      rfl
    · cases found
  have same := UInt64.toNat_inj.mp ((value there).trans (value here).symm)
  simpa using congrArg UInt64.toInt64 same

/-- Under this dictionary an instruction corresponds to itself only. -/
theorem RespelledInsn.eq_of_verbatim
    (spelled : RespelledInsn (verbatim covers) insn other) :
    other = insn := by
  have operands : ∀ operand, operandOf other operand =
      operandOf insn operand := by
    intro operand
    by_cases used : operand ∈ registerOperands insn.opcode
    · cases spelled.registers operand used with
      | @named reg otherReg named index otherIndex =>
          cases (show reg = otherReg from named)
          exact eq_of_registerIndex index otherIndex
      | outside _ _ operands => exact operands
    · exact spelled.literals operand used
  have opcodes : insn.opcode = other.opcode := spelled.opcode
  have first := operands .a
  have second := operands .b
  have third := operands .c
  cases insn
  cases other
  simp only [operandOf] at first second third
  simp_all

end Verbatim

namespace Interpreter

/-- The same object with another program. -/
def withProgram (vm : Interpreter) (program : Program) : Interpreter :=
  { vm with program }

section Programs

variable {host : Host} {covers : Nat → Prop} {program other : Program}
  {vm left right loaded final : Interpreter} {insn : Insn}
  {result : Expected} {calls : List Call} {replies : List Reply}

/-- What is recorded alike under this dictionary is recorded equally. -/
theorem write_eq_of_verbatim {reg otherReg : Option Nat}
    {value otherValue : Option Int64} {tag otherTag : Option ValueTag}
    (write : RespelledWrite (verbatim covers) reg value tag otherReg
      otherValue otherTag) :
    otherReg = reg ∧ otherValue = value ∧ otherTag = tag := by
  cases write with
  | nothing => exact ⟨rfl, rfl, rfl⟩
  | @named reg otherReg named value tag =>
      cases (show reg = otherReg from named)
      exact ⟨rfl, rfl, rfl⟩
  | unnamed left _ => exact absurd rfl (left _)

theorem entry_eq_of_verbatim {entry otherEntry : TraceEntry}
    (same : RespelledEntry (verbatim covers) entry otherEntry) :
    entry = otherEntry := by
  obtain ⟨pc, opcode, trap, write⟩ := same
  obtain ⟨reg, value, tag⟩ := write_eq_of_verbatim write
  have opcode : entry.opcode = otherEntry.opcode := opcode
  cases entry
  cases otherEntry
  simp_all

theorem payload_eq_of_verbatim {payload otherPayload : TrapPayload}
    (same : RespelledPayload (verbatim covers) payload otherPayload) :
    payload = otherPayload := by
  obtain ⟨trap, pc, insn, segment, detail⟩ := same
  have quoted := insn.eq_of_verbatim
  rw [Insn.mk.injEq] at quoted
  cases payload
  cases otherPayload
  simp_all

/-- Machines that correspond under this dictionary differ in the program
only. -/
theorem Respelled.eq_withProgram
    (related : Respelled (verbatim covers) left right) :
    right = left.withProgram right.program := by
  obtain ⟨_, registers, tags, trace, payload, write⟩ := related.spelling
  have recorded : ∀ {here there : Option TrapPayload},
      Option.Rel (RespelledPayload (verbatim covers)) here there →
        there = here := by
    intro here there same
    cases same with
    | none => rfl
    | some same => rw [payload_eq_of_verbatim same]
  have traced : List.Forall₂ Eq left.state.trace right.state.trace :=
    trace.imp fun _ _ => entry_eq_of_verbatim
  rw [List.forall₂_eq_eq_eq] at traced
  obtain ⟨reg, value, tag⟩ := write_eq_of_verbatim write
  obtain ⟨⟨otherProgram, otherRegisters, otherTags, otherTrace, otherPayload,
    otherReg, otherValue, otherTag⟩, rfl⟩ := related.exists_spelling
  cases (show otherRegisters = left.state.registers from
    funext fun reg => registers reg reg rfl)
  cases (show otherTags = left.state.registerTags from
    funext fun reg => tags reg reg rfl)
  cases (show otherTrace = left.state.trace from traced.symm)
  cases (show otherPayload = left.state.lastTrapPayload from
    recorded payload)
  cases (show otherReg = left.currentWriteReg from reg)
  cases (show otherValue = left.currentWriteValue from value)
  cases (show otherTag = left.currentWriteTag from tag)
  rfl

/-- Loading the other program. -/
theorem loadProgram_of_sameCode (same : SameCode covers program other)
    (image : ({} : Interpreter).loadProgram program = .ok loaded) :
    ({} : Interpreter).loadProgram other = .ok (loaded.withProgram other) ∧
      Respelled (verbatim covers) loaded (loaded.withProgram other) := by
  obtain ⟨policy, parsed, rfl⟩ := loadProgram_eq_ok.mp image
  constructor
  · apply loadProgram_eq_ok.mpr
    refine ⟨policy, same.policy ▸ parsed, ?_⟩
    simp only [withProgram, initialState, same.size, same.verdict]
  · refine ⟨⟨⟨same.size, fun pc covered => ?_⟩, ?_, ?_, ?_, ?_, ?_⟩, rfl⟩
    · have fetched : other.insns[pc]? = program.insns[pc]? :=
        same.insns pc covered
      show Option.Rel (RespelledInsn (verbatim covers)) program.insns[pc]?
        other.insns[pc]?
      rw [fetched]
      cases program.insns[pc]? with
      | none => exact .none
      | some insn => exact .some respelledInsn_self
    · rintro reg _ rfl
      rfl
    · rintro reg _ rfl
      rfl
    · exact .nil
    · exact .none
    · exact .nothing

/-- Corresponding machines, the second one with the given program. -/
structure InStep (covers : Nat → Prop) (other : Program)
    (left right : Interpreter) : Prop where
  related : Respelled (verbatim covers) left right
  program_eq : right.program = other

theorem InStep.step (paired : InStep covers other left right)
    (covered : left.state.halted = false → covers left.state.pc) :
    Agree (InStep covers other) (left.step host) (right.step host) := by
  apply (paired.related.step covered).strengthen
  intro result final otherFinal _ stepped next
  have kept := (step_stepped stepped).program_eq
  exact ⟨next, kept.trans paired.program_eq⟩

theorem InStep.setRegister (paired : InStep covers other left right)
    (idx : Int32) (value : Int64) (tag : ValueTag) :
    InStep covers other (left.setRegister idx value tag)
      (right.setRegister idx value tag) := by
  cases named : hostRegister idx with
  | none =>
      rw [setRegister_of_none named, setRegister_of_none named]
      exact paired
  | some reg =>
      rw [setRegister_of_some named, setRegister_of_some named]
      exact ⟨paired.related.writeNamed rfl value tag, paired.program_eq⟩

/-- A condition on the states that are about to execute an instruction. -/
def AtCovered (covers : Nat → Prop) (vm : Interpreter) : Prop :=
  vm.state.halted = false → covers vm.state.pc

/-- Programs that correspond wherever a run takes a step are run alike. -/
theorem InStep.run (driving : ∀ request ∈ calls, request.driving)
    (along : Along (call host) (StepsAlong host (AtCovered covers)) calls
      left)
    (paired : InStep covers other left right) :
    Agree (fun final otherFinal => otherFinal = final.withProgram other)
      (run (call host) calls left) (run (call host) calls right) := by
  have simulates : ∀ request state otherState,
      Call.driving request ∧
        StepsAlong host (AtCovered covers) request state →
      InStep covers other state otherState →
        Agree (InStep covers other) (call host request state)
          (call host request otherState) := by
    rintro request state otherState ⟨drives, steps⟩ here
    apply call_agree ?_ ?_ ?_ drives steps here
    · exact fun _ _ covered there => there.step covered
    · exact fun _ _ there => there.related.halted_eq
    · exact fun _ _ idx value tag there => there.setRegister idx value tag
  have both := (along_of_forall driving).and along
  apply (run_agree_along simulates both paired).mono
  rintro final otherFinal ⟨related, rfl⟩
  exact related.eq_withProgram

/-! ## What a run executed -/

/-- A step that is taken is in the trace. -/
theorem exists_entry_of_step (stepped : vm.step host = .ok (result, final))
    (running : vm.state.halted = false) :
    ∃ entry ∈ final.state.trace, entry.pc = vm.state.pc := by
  have last : ∀ entry : TraceEntry,
      final.state.trace = vm.state.trace ++ [entry] →
        entry ∈ final.state.trace := by
    intro entry appended
    rw [appended]
    exact List.mem_append_right _ (List.mem_singleton_self entry)
  cases step_stepped stepped with
  | resting halted => simp [running] at halted
  | rejected | overrun => exact ⟨_, last _ rfl, rfl⟩
  | executed fetches transition =>
      obtain ⟨entry, appended, pc, _⟩ := entry_of_transition transition
      exact ⟨entry, last entry appended, pc⟩

/-- The trace names an address. -/
def Executed (trace : List TraceEntry) (pc : Nat) : Prop :=
  ∃ entry ∈ trace, entry.pc = pc

/-- A step that returns was taken where the trace says. -/
theorem atCovered_of_step {trace : List TraceEntry}
    (stepped : vm.step host = .ok (result, final))
    (within : final.state.trace ⊆ trace) :
    vm.state.trace ⊆ trace ∧ AtCovered (Executed trace) vm := by
  constructor
  · have grown := (trace_isPrefix_of_step stepped).subset
    exact List.Subset.trans grown within
  · intro running
    obtain ⟨entry, member, pc⟩ := exists_entry_of_step stepped running
    exact ⟨entry, within member, pc⟩

/-- So were the steps of a loop. -/
theorem loopAlong_executed {trace : List TraceEntry} {maxSteps : Nat}
    (finished : runToHalt host maxSteps vm = .ok (result, final))
    (within : final.state.trace ⊆ trace) :
    vm.state.trace ⊆ trace ∧
      LoopAlong host (AtCovered (Executed trace)) maxSteps vm := by
  induction maxSteps generalizing vm with
  | zero =>
      cases finished
      exact ⟨within, trivial⟩
  | succ maxSteps induction =>
      obtain ⟨first, middle, stepped, rest⟩ :=
        runToHalt_succ_eq_ok.mp finished
      have later : middle.state.trace ⊆ trace ∧
          (middle.state.halted = false → first = .ok () →
            LoopAlong host (AtCovered (Executed trace)) maxSteps middle) := by
        rcases rest with ⟨code, rfl, same⟩ | ⟨_, halts, same⟩ |
          ⟨_, _, tail⟩
        · cases same
          exact ⟨within, nofun⟩
        · cases same
          exact ⟨within, fun running => by simp [running] at halts⟩
        · obtain ⟨kept, along⟩ := induction tail
          exact ⟨kept, fun _ _ => along⟩
      obtain ⟨before, here⟩ := atCovered_of_step stepped later.1
      refine ⟨before, here, fun other again running => ?_⟩
      rw [stepped] at again
      cases again
      exact later.2 running rfl

/-- So were the steps of a call. -/
theorem stepsAlong_executed {trace : List TraceEntry} {request : Call}
    {reply : Reply} (drives : request.driving)
    (answered : call host request vm = .ok (reply, final))
    (within : final.state.trace ⊆ trace) :
    vm.state.trace ⊆ trace ∧
      StepsAlong host (AtCovered (Executed trace)) request vm := by
  cases request with
  | loadProgram => exact drives.elim
  | step =>
      obtain ⟨result, stepped, _⟩ := call_step_eq_ok.mp answered
      exact atCovered_of_step stepped within
  | runToHalt maxSteps =>
      obtain ⟨result, finished, _⟩ := call_runToHalt_eq_ok.mp answered
      exact loopAlong_executed finished within
  | setRegister idx value tag =>
      have grown := (trace_isPrefix_of_call drives answered).subset
      exact ⟨List.Subset.trans grown within, trivial⟩

/-- The instructions a run did not execute do not matter: any program with
the same instructions where the trace of the run has been gives the same
replies and leaves the same object, but for the program. -/
theorem run_executed (driving : ∀ request ∈ calls, request.driving)
    (image : ({} : Interpreter).loadProgram program = .ok loaded)
    (finished : run (call host) calls loaded = .ok (replies, final))
    (same : SameCode (Executed final.state.trace) program other) :
    ∃ otherLoaded, ({} : Interpreter).loadProgram other = .ok otherLoaded ∧
      run (call host) calls otherLoaded =
        .ok (replies, final.withProgram other) := by
  obtain ⟨otherImage, related⟩ := loadProgram_of_sameCode same image
  refine ⟨_, otherImage, ?_⟩
  have back : ∀ request state reply after, Call.driving request →
      call host request state = .ok (reply, after) →
      after.state.trace ⊆ final.state.trace →
        state.state.trace ⊆ final.state.trace ∧
          StepsAlong host (AtCovered (Executed final.state.trace)) request
            state :=
    fun _ _ _ _ drives answered within =>
      stepsAlong_executed drives answered within
  obtain ⟨_, along⟩ := along_of_run_eq_ok back driving finished
    (List.Subset.refl final.state.trace)
  have agree := InStep.run driving along ⟨related, rfl⟩
  rw [finished] at agree
  generalize run (call host) calls (loaded.withProgram other) = answer
    at agree ⊢
  cases answer with
  | error stuck => exact agree.elim
  | ok reached =>
      obtain ⟨otherReplies, otherFinal⟩ := reached
      obtain ⟨rfl, rfl⟩ := agree
      rfl

/-! ## Where control can go -/

/-- The opcodes that can go on to the next instruction, a call by its
return. -/
def continues : Opcode → Bool
  | .jump | .ret | .halt | .trap | .undefined _ => false
  | _ => true

/-- An edge of the flow of control.  The target of a call is in a register,
so it can be anything. -/
inductive Flows (program : Program) (pc : Nat) : Nat → Prop where
  | onward {insn : Insn} (fetched : program.insns[pc]? = some insn)
      (goesOn : continues insn.opcode = true) : Flows program pc (pc + 1)
  | jump {insn : Insn} (fetched : program.insns[pc]? = some insn)
      (jumps : role insn.opcode = .jumps) : Flows program pc (toSize insn.a)
  | call {insn : Insn} (fetched : program.insns[pc]? = some insn)
      (calls : insn.opcode = .call) (target : Nat) : Flows program pc target

/-- An address that control can reach from the first instruction. -/
def Live (program : Program) (pc : Nat) : Prop :=
  Relation.ReflTransGen (Flows program) 0 pc

/-- What is running is live, so is what will be returned to, and so is all
that was executed. -/
structure Flowing (program : Program) (vm : Interpreter) : Prop where
  program_eq : vm.program = program
  here : vm.state.halted = false → Live program vm.state.pc
  returns : ∀ back ∈ vm.callStack, Live program back
  executed : ∀ entry ∈ vm.state.trace, Live program entry.pc

theorem continues_of_role {opcode : Opcode}
    (goesOn : role opcode ∉ [.jumps, .returns, .halts, .faults]) :
    continues opcode = true := by
  cases opcode <;> first | rfl | simp [role] at goesOn

theorem continues_of_untaken {flags : Flags} {opcode : Opcode}
    (jumps : role opcode = .jumps)
    (untaken : jumpTaken flags opcode = false) : continues opcode = true := by
  cases opcode
  case jump => simp [jumpTaken] at untaken
  all_goals first | rfl | simp [role] at jumps

/-- An instruction goes on along an edge, or returns. -/
theorem live_of_transition {answer : Expected × Interpreter}
    (transition : Transition vm insn vm.state.pc answer)
    (fetched : program.insns[vm.state.pc]? = some insn)
    (live : Live program vm.state.pc)
    (returns : ∀ back ∈ vm.callStack, Live program back) :
    (answer.2.state.halted = false → Live program answer.2.state.pc) ∧
      ∀ back ∈ answer.2.callStack, Live program back := by
  have next : role insn.opcode ∉ [.jumps, .returns, .halts, .faults] →
      Live program (vm.state.pc + 1) := fun goesOn =>
    live.tail (.onward fetched (continues_of_role goesOn))
  cases transition with
  | faulted => exact ⟨fun _ => live, returns⟩
  | halted => exact ⟨fun running => Bool.noConfusion running, returns⟩
  | jumped jumps => exact ⟨fun _ => live.tail (.jump fetched jumps), returns⟩
  | passed jumps untaken =>
      have goesOn := continues_of_untaken jumps untaken
      exact ⟨fun _ => live.tail (.onward fetched goesOn), returns⟩
  | called calls =>
      refine ⟨fun _ => live.tail (.call fetched (role_calls calls) _), ?_⟩
      exact List.forall_mem_cons.mpr ⟨next (by simp [calls]), returns⟩
  | returned _ frames =>
      rw [frames] at returns
      obtain ⟨back, callers⟩ := List.forall_mem_cons.mp returns
      exact ⟨fun _ => back, callers⟩
  | idled same | written same | madeOption same | madeResult same
  | madeEnum same | madeTensor same | bumped same | stored same
  | pushed same | popped same | stackAllocated same | stackFreed same
  | heapAllocated same | heapFreed same =>
      exact ⟨fun _ => next (by simp [same]), returns⟩

theorem Flowing.step (flowing : Flowing program vm)
    (stepped : vm.step host = .ok (result, final)) :
    Flowing program final := by
  obtain ⟨same, here, returns, executed⟩ := flowing
  have program_eq := (step_stepped stepped).program_eq.trans same
  have extended : ∀ entry : TraceEntry, entry.pc = vm.state.pc →
      final.state.trace = vm.state.trace ++ [entry] →
        vm.state.halted = false →
          ∀ shown ∈ final.state.trace, Live program shown.pc := by
    intro entry pc appended running shown member
    rw [appended, List.mem_append, List.mem_singleton] at member
    rcases member with before | rfl
    · exact executed shown before
    · rw [pc]
      exact here running
  cases step_stepped stepped with
  | resting => exact ⟨program_eq, here, returns, executed⟩
  | rejected running | overrun running =>
      exact ⟨program_eq, here, returns, extended _ rfl rfl running⟩
  | executed fetches transition =>
      obtain ⟨entry, appended, pc, _⟩ := entry_of_transition transition
      have running := fetches.running
      obtain ⟨next, back⟩ := live_of_transition transition
        (same ▸ fetches.fetched) (here running) returns
      exact ⟨program_eq, next, back, extended entry pc appended running⟩

theorem Flowing.setRegister (flowing : Flowing program vm) (idx : Int32)
    (value : Int64) (tag : ValueTag) :
    Flowing program (vm.setRegister idx value tag) := by
  unfold Interpreter.setRegister
  split
  · exact ⟨flowing.program_eq, flowing.here, flowing.returns,
      flowing.executed⟩
  · exact flowing

theorem Loads.flowing (loads : Loads program vm) : Flowing program vm := by
  obtain ⟨policy, state⟩ := loads.state_eq
  refine ⟨loads.installed.program_eq, fun _ => ?_, ?_, ?_⟩
  · rw [state]
    exact .refl
  · rw [loads.callStack_eq]
    exact fun back member => absurd member List.not_mem_nil
  · rw [state]
    exact fun entry member => absurd member List.not_mem_nil

/-- Code that control cannot reach is dead: it is never executed, and it can
be anything. -/
structure DeadCode (host : Host) (program other : Program)
    (calls : List Call) (loaded : Interpreter) : Prop where
  executed : ∀ replies final,
    run (call host) calls loaded = .ok (replies, final) →
      ∀ entry ∈ final.state.trace, Live program entry.pc
  replaced : ∃ otherLoaded,
    ({} : Interpreter).loadProgram other = .ok otherLoaded ∧
      Agree (fun final otherFinal => otherFinal = final.withProgram other)
        (run (call host) calls loaded) (run (call host) calls otherLoaded)

/-- Two programs with the same live code behave alike. -/
theorem run_live (driving : ∀ request ∈ calls, request.driving)
    (image : ({} : Interpreter).loadProgram program = .ok loaded)
    (same : SameCode (Live program) program other) :
    DeadCode host program other calls loaded := by
  have loads : Loads program loaded := ⟨{}, image⟩
  have flowing : Along (call host)
        (StepsAlong host (Flowing program)) calls loaded ∧
      ∀ replies final, run (call host) calls loaded = .ok (replies, final) →
        Flowing program final :=
    run_stepsAlways (fun _ _ _ here stepped => here.step stepped)
      (fun _ idx value tag here => here.setRegister idx value tag) driving
      loads.flowing
  constructor
  · intro replies final finished
    exact (flowing.2 replies final finished).executed
  · obtain ⟨otherImage, related⟩ := loadProgram_of_sameCode same image
    refine ⟨_, otherImage, InStep.run driving ?_ ⟨related, rfl⟩⟩
    exact flowing.1.mono fun _ _ steps => steps.mono fun _ here => here.here

end Programs

/-! ## A jump over one instruction -/

/-- An instruction without operands that is jumped over. -/
def skips (opcode : Opcode) : Program where
  insns := [
    { opcode := .jump, a := 2, b := 0, c := 0 },
    { opcode, a := 0, b := 0, c := 0 },
    { opcode := .halt, a := 0, b := 0, c := 0 }]
  axionPolicyText := []
  fits := by
    show 3 ≤ maxInsns
    decide

/-- The two programs differ in the instruction that is jumped over. -/
theorem skips_sameCode {covers : Nat → Prop}
    (elsewhere : ∀ pc, covers pc → pc = 0 ∨ pc = 2) :
    SameCode covers (skips .trap) (skips .nop) := by
  refine ⟨rfl, rfl, rfl, fun pc covered => ?_⟩
  rcases elsewhere pc covered with rfl | rfl <;> rfl

theorem loadProgram_skips (opcode : Opcode) :
    ({} : Interpreter).loadProgram (skips opcode) =
      .ok (freshlyLoaded (skips opcode)) :=
  loadProgram_eq_ok.mpr ⟨none, parsePolicy_nil, rfl⟩

theorem run_executed_skips :
    ∃ otherLoaded replies final,
      run (call strictHost) [.runToHalt 9] (freshlyLoaded (skips .trap)) =
        .ok (replies, final) ∧
      ({} : Interpreter).loadProgram (skips .nop) = .ok otherLoaded ∧
      run (call strictHost) [.runToHalt 9] otherLoaded =
        .ok (replies, final.withProgram (skips .nop)) := by
  have ran : ∃ replies final,
      run (call strictHost) [.runToHalt 9] (freshlyLoaded (skips .trap)) =
        .ok (replies, final) ∧
      final.state.trace.map TraceEntry.pc = [0, 2] := ⟨_, _, rfl, rfl⟩
  obtain ⟨replies, final, finished, addresses⟩ := ran
  have elsewhere : ∀ pc, Executed final.state.trace pc →
      pc = 0 ∨ pc = 2 := by
    rintro pc ⟨entry, member, rfl⟩
    have listed : entry.pc ∈ final.state.trace.map TraceEntry.pc :=
      List.mem_map_of_mem member
    rw [addresses] at listed
    simpa using listed
  obtain ⟨otherLoaded, image, same⟩ := run_executed
    (by simp [Call.driving]) (loadProgram_skips .trap) finished
    (skips_sameCode elsewhere)
  exact ⟨otherLoaded, replies, final, finished, image, same⟩

/-- Control only reaches the jump and its target. -/
theorem live_skips {pc : Nat} (live : Live (skips .trap) pc) :
    pc = 0 ∨ pc = 2 := by
  induction live with
  | refl => exact .inl rfl
  | tail _ edge induction =>
      rcases induction with rfl | rfl
      · cases edge with
        | onward fetched goesOn =>
            cases fetched
            cases goesOn
        | jump fetched =>
            cases fetched
            exact .inr rfl
        | call fetched calls =>
            cases fetched
            cases calls
      · cases edge with
        | onward fetched goesOn =>
            cases fetched
            cases goesOn
        | jump fetched jumps =>
            cases fetched
            cases jumps
        | call fetched calls =>
            cases fetched
            cases calls

theorem run_live_skips :
    DeadCode strictHost (skips .trap) (skips .nop) [.step, .runToHalt 9]
      (freshlyLoaded (skips .trap)) :=
  run_live (by simp [Call.driving]) (loadProgram_skips .trap)
    (skips_sameCode fun _ => live_skips)

end Interpreter

end T81VM.VM
