import T81VM.VM.Calls

/-!
# The transitions of one instruction

`Transition` lists everything an executed instruction can do to the object,
by the role of its opcode; `execute_transition` shows that the dispatch loop
does nothing else.  Invariants are proved against the relation, never against
the switch.
-/

namespace T81VM.VM

open Tisc

/-- What an opcode does when it does not trap. -/
inductive Role where
  | idles | halts | writes | interns | bumps | stores | pushes | pops
  | jumps | calls | returns | stackAllocates | stackFrees
  | heapAllocates | heapFrees | faults
  deriving DecidableEq, Repr

def role : Opcode → Role
  | .nop | .cmp | .axSet => .idles
  | .halt => .halts
  | .loadImm | .load
  | .add | .sub | .mul | .div | .mod
  | .fAdd | .fSub | .fMul | .fDiv
  | .fracAdd | .fracSub | .fracMul | .fracDiv
  | .mov | .neg | .i2F | .f2I | .i2Frac | .frac2I
  | .less | .lessEqual | .greater | .greaterEqual | .equal | .notEqual
  | .tNot | .tAnd | .tOr | .tXor | .axRead | .axVerify
  | .chkShape | .weightsLoad | .setF
  | .optionIsSome | .optionUnwrap
  | .resultIsOk | .resultUnwrapOk | .resultUnwrapErr
  | .enumIsVariant | .enumUnwrapPayload => .writes
  | .makeOptionSome | .makeOptionNone | .makeResultOk | .makeResultErr
  | .makeEnumVariant | .makeEnumVariantPayload
  | .tVecAdd | .tMatMul | .tTenDot | .tVecMul | .tTranspose
  | .tExp | .tSqrt | .tSiLU | .tSoftmax | .tRMSNorm | .tRoPE => .interns
  | .inc | .dec => .bumps
  | .store => .stores
  | .push => .pushes
  | .pop => .pops
  | .jump | .jumpIfZero | .jumpIfNotZero | .jumpIfNegative
  | .jumpIfPositive => .jumps
  | .call => .calls
  | .ret => .returns
  | .stackAlloc => .stackAllocates
  | .stackFree => .stackFrees
  | .heapAlloc => .heapAllocates
  | .heapFree => .heapFrees
  | .trap | .undefined _ => .faults

/-- The opcode of a role that one opcode alone plays. -/
def Role.soleOpcode : Role → Option Opcode
  | .halts => some .halt
  | .stores => some .store
  | .pushes => some .push
  | .pops => some .pop
  | .calls => some .call
  | .returns => some .ret
  | .stackAllocates => some .stackAlloc
  | .stackFrees => some .stackFree
  | .heapAllocates => some .heapAlloc
  | .heapFrees => some .heapFree
  | .idles | .writes | .interns | .bumps | .jumps | .faults => none

theorem opcode_of_role {opcode sole : Opcode}
    (alone : (role opcode).soleOpcode = some sole) : opcode = sole := by
  cases opcode <;> cases alone <;> rfl

theorem role_stackFrees {opcode : Opcode}
    (releases : role opcode = .stackFrees) : opcode = .stackFree :=
  opcode_of_role (by rw [releases, Role.soleOpcode])

/-- The condition under which a jump leaves the straight line. -/
def jumpTaken (flags : Flags) : Opcode → Bool
  | .jump => true
  | .jumpIfZero => flags.zero
  | .jumpIfNotZero => !flags.zero
  | .jumpIfNegative => flags.negative
  | .jumpIfPositive => flags.positive
  | _ => false

namespace Interpreter

/-- Append events to the Axion log. -/
def appendLog (vm : Interpreter) (events : List AxionEvent) : Interpreter :=
  { vm with
    state := { vm.state with axionLog := vm.state.axionLog ++ events } }

/-- The answer of an instruction that goes on to the next one. -/
def finished (vm : Interpreter) (insn : Insn) (pc : Nat) :
    Expected × Interpreter :=
  vm.advance.traceOk insn.opcode pc

/-- The answer of an instruction that writes its destination register. -/
def wrote (vm : Interpreter) (insn : Insn) (pc : Nat) (reg : Fin 243)
    (value : Int64) (tag : ValueTag) : Expected × Interpreter :=
  ((vm.writeRegister reg value tag).setFlags value).finished insn pc

/-- The answer of an instruction that moves the program counter. -/
def movedTo (vm : Interpreter) (insn : Insn) (pc target : Nat) :
    Expected × Interpreter :=
  ({ vm with state := { vm.state with pc := target } }).traceOk insn.opcode pc

end Interpreter

/-- Where a written value and its tag come from. -/
inductive Source (vm : Interpreter) : Int64 → ValueTag → Prop where
  | computed (value : Int64) : Source vm value .int
  | weights (value : Int64) : Source vm value .weightsTensorHandle
  | register (reg : Fin 243) :
      Source vm (vm.state.registers reg) (vm.state.registerTags reg)
  | optionPayload {entry : OptionValue} :
      entry ∈ vm.state.optionPool → Source vm entry.payload entry.payloadTag
  | resultPayload {entry : ResultValue} :
      entry ∈ vm.state.resultPool → Source vm entry.payload entry.payloadTag
  | enumPayload {entry : EnumValue} :
      entry ∈ vm.state.enumPool → Source vm entry.payload entry.payloadTag

/-- The answers of an instruction fetched at `pc` by the object `vm`. -/
inductive Transition (vm : Interpreter) (insn : Insn) (pc : Nat) :
    Expected × Interpreter → Prop where
  | faulted {code : Trap} {segment : MemorySegmentKind} {detail : Text}
      {events : List AxionEvent}
      (few : events.length ≤ 1)
      (named : ∀ event ∈ events, event.opcode = insn.opcode) :
      Transition vm insn pc
        ((vm.appendLog events).trap code insn.opcode pc segment detail)
  | idled {flags : Flags} {events : List AxionEvent}
      (idles : role insn.opcode = .idles)
      (few : events.length ≤ 1)
      (named : ∀ event ∈ events, event.opcode = insn.opcode) :
      Transition vm insn pc
        ((({ vm with state := { vm.state with flags } }).appendLog
          events).finished insn pc)
  | halted (halts : role insn.opcode = .halts) :
      Transition vm insn pc
        (({ vm with
          state := { vm.state with
            halted := true
            lastTrapPayload := none } }).finished insn pc)
  | written {reg : Fin 243} {value : Int64} {tag : ValueTag}
      {events : List AxionEvent}
      (writes : role insn.opcode = .writes)
      (index : registerIndex insn.a = .ok reg)
      (source : Source vm value tag)
      (few : events.length ≤ 1)
      (named : ∀ event ∈ events, event.opcode = insn.opcode) :
      Transition vm insn pc
        ((vm.appendLog events).wrote insn pc reg value tag)
  | madeOption {reg : Fin 243} {entry : OptionValue}
      (interns : role insn.opcode = .interns)
      (index : registerIndex insn.a = .ok reg)
      (source : Source vm entry.payload entry.payloadTag)
      (room : vm.state.optionPool.length < maxPool) :
      Transition vm insn pc
        (({ vm with
          state := { vm.state with
            optionPool := vm.state.optionPool ++ [entry] } }).wrote insn pc
          reg (ofSize (vm.state.optionPool.length + 1)) .optionHandle)
  | madeResult {reg : Fin 243} {entry : ResultValue}
      (interns : role insn.opcode = .interns)
      (index : registerIndex insn.a = .ok reg)
      (source : Source vm entry.payload entry.payloadTag)
      (room : vm.state.resultPool.length < maxPool) :
      Transition vm insn pc
        (({ vm with
          state := { vm.state with
            resultPool := vm.state.resultPool ++ [entry] } }).wrote insn pc
          reg (ofSize (vm.state.resultPool.length + 1)) .resultHandle)
  | madeEnum {reg : Fin 243} {entry : EnumValue}
      (interns : role insn.opcode = .interns)
      (index : registerIndex insn.a = .ok reg)
      (source : Source vm entry.payload entry.payloadTag)
      (room : vm.state.enumPool.length < maxPool) :
      Transition vm insn pc
        (({ vm with
          state := { vm.state with
            enumPool := vm.state.enumPool ++ [entry] } }).wrote insn pc
          reg (ofSize (vm.state.enumPool.length + 1)) .enumHandle)
  | madeTensor {reg operand : Fin 243} {entry : TensorValue}
      (interns : role insn.opcode = .interns)
      (index : registerIndex insn.a = .ok reg)
      (tagged : vm.state.registerTags operand = .tensorHandle)
      (room : vm.state.tensorPool.length < maxPool) :
      Transition vm insn pc
        (({ vm with
          state := { vm.state with
            tensorPool := vm.state.tensorPool ++ [entry] } }).wrote insn pc
          reg (ofSize (vm.state.tensorPool.length + 1)) .tensorHandle)
  | bumped {reg : Fin 243} {value : Int64}
      (bumps : role insn.opcode = .bumps)
      (index : registerIndex insn.a = .ok reg) :
      Transition vm insn pc
        (((vm.assignRegister reg value .int).setFlags value).finished insn pc)
  | stored {reg : Fin 243} {events : List AxionEvent}
      (stores : role insn.opcode = .stores)
      (index : registerIndex insn.b = .ok reg)
      (inside : vm.validMem insn.a = true)
      (few : events.length ≤ 1)
      (named : ∀ event ∈ events, event.opcode = insn.opcode) :
      Transition vm insn pc
        ((({ vm with
          state := { vm.state with
            memory := vm.state.memory.set (toSize insn.a)
              (vm.state.registers reg) } }).appendLog events).finished
          insn pc)
  | pushed {reg : Fin 243}
      (pushes : role insn.opcode = .pushes)
      (index : registerIndex insn.a = .ok reg)
      (nonzero : vm.state.sp ≠ 0)
      (above : vm.state.layout.stack.start ≤ vm.state.sp - 1)
      (inside : vm.state.sp - 1 < vm.state.memory.length) :
      Transition vm insn pc
        (({ vm with
          state := { vm.state with
            sp := vm.state.sp - 1
            memory := vm.state.memory.set (vm.state.sp - 1)
              (vm.state.registers reg) } }).finished insn pc)
  | popped {reg : Fin 243} {value : Int64}
      (pops : role insn.opcode = .pops)
      (index : registerIndex insn.a = .ok reg)
      (below : vm.state.sp < vm.state.layout.stack.limit)
      (cell : vm.state.memory[vm.state.sp]? = some value) :
      Transition vm insn pc
        ((({ vm.assignRegister reg value .int with
          state := { (vm.assignRegister reg value .int).state with
            sp := vm.state.sp + 1 } }).setFlags value).finished insn pc)
  | jumped
      (jumps : role insn.opcode = .jumps)
      (taken : jumpTaken vm.state.flags insn.opcode = true)
      (nonneg : 0 ≤ insn.a)
      (inside : toSize insn.a < vm.program.insns.length) :
      Transition vm insn pc (vm.movedTo insn pc (toSize insn.a))
  | passed
      (jumps : role insn.opcode = .jumps)
      (untaken : jumpTaken vm.state.flags insn.opcode = false) :
      Transition vm insn pc (vm.finished insn pc)
  | called {reg : Fin 243}
      (calls : role insn.opcode = .calls)
      (index : registerIndex insn.a = .ok reg)
      (nonneg : 0 ≤ vm.state.registers reg)
      (inside : toSize (vm.state.registers reg) < vm.program.insns.length) :
      Transition vm insn pc
        (({ vm with callStack := (pc + 1) :: vm.callStack }).movedTo insn pc
          (toSize (vm.state.registers reg)))
  | returned {back : Nat} {callers : List Nat}
      (returns : role insn.opcode = .returns)
      (frames : vm.callStack = back :: callers) :
      Transition vm insn pc
        (({ vm with callStack := callers }).movedTo insn pc back)
  | stackAllocated {reg : Fin 243} {events : List AxionEvent}
      (allocates : role insn.opcode = .stackAllocates)
      (index : registerIndex insn.a = .ok reg)
      (positive : 0 < insn.b)
      (fits : toSize insn.b ≤ vm.state.sp)
      (above : vm.state.layout.stack.start ≤ vm.state.sp - toSize insn.b)
      (few : events.length ≤ 1)
      (named : ∀ event ∈ events, event.opcode = insn.opcode) :
      Transition vm insn pc
        (((({ vm with
          state := { vm.state with
            sp := vm.state.sp - toSize insn.b
            stackFrames := (vm.state.sp - toSize insn.b, toSize insn.b)
              :: vm.state.stackFrames } }).writeRegister reg
          (ofSize (vm.state.sp - toSize insn.b)) .int).appendLog
          events).finished insn pc)
  | stackFreed {reg : Fin 243} {top : Nat × Nat} {frames : List (Nat × Nat)}
      {events : List AxionEvent}
      (releases : role insn.opcode = .stackFrees)
      (index : registerIndex insn.a = .ok reg)
      (stack : vm.state.stackFrames = top :: frames)
      (base : toSize (vm.state.registers reg) = top.1)
      (size : Interpreter.requestedSize insn.b = top.2)
      (few : events.length ≤ 1)
      (named : ∀ event ∈ events, event.opcode = insn.opcode) :
      Transition vm insn pc
        ((({ vm with
          state := { vm.state with
            stackFrames := frames
            sp := wrapSize (vm.state.sp + top.2) } }).appendLog
          events).finished insn pc)
  | heapAllocated {reg : Fin 243} {events : List AxionEvent}
      (allocates : role insn.opcode = .heapAllocates)
      (index : registerIndex insn.a = .ok reg)
      (positive : 0 < insn.b)
      (fits : wrapSize (vm.state.heapPtr + toSize insn.b)
        ≤ vm.state.layout.heap.limit)
      (few : events.length ≤ 1)
      (named : ∀ event ∈ events, event.opcode = insn.opcode) :
      Transition vm insn pc
        (((({ vm with
          state := { vm.state with
            heapPtr := wrapSize (vm.state.heapPtr + toSize insn.b)
            heapFrames := (vm.state.heapPtr, toSize insn.b)
              :: vm.state.heapFrames } }).writeRegister reg
          (ofSize vm.state.heapPtr) .int).appendLog events).finished insn pc)
  | heapFreed {reg : Fin 243} {top : Nat × Nat} {frames : List (Nat × Nat)}
      {events : List AxionEvent}
      (releases : role insn.opcode = .heapFrees)
      (index : registerIndex insn.a = .ok reg)
      (heap : vm.state.heapFrames = top :: frames)
      (base : toSize (vm.state.registers reg) = top.1)
      (size : Interpreter.requestedSize insn.b = top.2)
      (few : events.length ≤ 1)
      (named : ∀ event ∈ events, event.opcode = insn.opcode) :
      Transition vm insn pc
        ((({ vm with
          state := { vm.state with
            heapFrames := frames
            heapPtr := top.1 } }).appendLog events).finished insn pc)

namespace Interpreter

variable {host : Host} {vm : Interpreter} {insn : Insn} {pc : Nat}
  {answer : Expected × Interpreter}

theorem register_eq_ok {idx : Int64} {value : Int64} :
    vm.register idx = .ok value ↔
      ∃ reg, registerIndex idx = .ok reg ∧ value = vm.state.registers reg := by
  rw [register, bind_eq_ok]
  constructor
  · rintro ⟨reg, index, read⟩
    cases read
    exact ⟨reg, index, rfl⟩
  · rintro ⟨reg, index, rfl⟩
    exact ⟨reg, index, rfl⟩

theorem registerTag_eq_ok {idx : Int64} {tag : ValueTag} :
    vm.registerTag idx = .ok tag ↔
      ∃ reg, registerIndex idx = .ok reg ∧
        tag = vm.state.registerTags reg := by
  rw [registerTag, bind_eq_ok]
  constructor
  · rintro ⟨reg, index, read⟩
    cases read
    exact ⟨reg, index, rfl⟩
  · rintro ⟨reg, index, rfl⟩
    exact ⟨reg, index, rfl⟩

theorem setRegisterValue_eq_ok {idx value : Int64} {tag : ValueTag}
    {final : Interpreter} :
    vm.setRegisterValue idx value tag = .ok final ↔
      ∃ reg, registerIndex idx = .ok reg ∧
        final = vm.writeRegister reg value tag := by
  rw [setRegisterValue, bind_eq_ok]
  constructor
  · rintro ⟨reg, index, assigned⟩
    cases assigned
    exact ⟨reg, index, rfl⟩
  · rintro ⟨reg, index, rfl⟩
    exact ⟨reg, index, rfl⟩

@[simp] theorem writeRegister_registers (reg : Fin 243) (value : Int64)
    (tag : ValueTag) :
    (vm.writeRegister reg value tag).state.registers =
      Function.update vm.state.registers reg value := rfl

/-- The shared tail of the writing opcodes. -/
theorem finishWrite_eq_ok {value : Int64} {tag : ValueTag} :
    vm.finishWrite insn pc value tag = .ok answer ↔
      ∃ reg, registerIndex insn.a = .ok reg ∧
        answer = vm.wrote insn pc reg value tag := by
  rw [finishWrite, bind_eq_ok]
  constructor
  · rintro ⟨middle, assigned, rest⟩
    obtain ⟨reg, index, rfl⟩ := setRegisterValue_eq_ok.mp assigned
    obtain ⟨written, read, final⟩ := bind_eq_ok.mp rest
    obtain ⟨same, sameIndex, rfl⟩ := register_eq_ok.mp read
    rw [index] at sameIndex
    cases sameIndex
    rw [writeRegister_registers, Function.update_self] at final
    cases final
    exact ⟨reg, index, rfl⟩
  · rintro ⟨reg, index, rfl⟩
    refine ⟨vm.writeRegister reg value tag,
      setRegisterValue_eq_ok.mpr ⟨reg, index, rfl⟩, ?_⟩
    refine bind_eq_ok.mpr ⟨value, register_eq_ok.mpr ⟨reg, index, ?_⟩, rfl⟩
    rw [writeRegister_registers, Function.update_self]

@[simp] theorem appendLog_nil : vm.appendLog [] = vm := by
  simp [appendLog]

theorem logEvent_eq_appendLog {opcode : Opcode} {reason : Text} :
    vm.logEvent opcode reason = vm.appendLog [{ opcode, reason }] := rfl

end Interpreter

namespace Transition

variable {vm : Interpreter} {insn : Insn} {pc : Nat}

/-- A trap that logs nothing is a transition of any instruction. -/
theorem silentFault {code : Trap} {segment : MemorySegmentKind}
    {detail : Text} :
    Transition vm insn pc (vm.trap code insn.opcode pc segment detail) := by
  have fault := @faulted vm insn pc code segment detail [] (by simp) (by simp)
  rwa [Interpreter.appendLog_nil] at fault

/-- A trap after one event of its own opcode. -/
theorem loggedFault {code : Trap} {segment : MemorySegmentKind}
    {detail reason : Text} :
    Transition vm insn pc
      ((vm.logEvent insn.opcode reason).trap code insn.opcode pc segment
        detail) := by
  rw [Interpreter.logEvent_eq_appendLog]
  exact .faulted (by simp) (by simp)

/-- A write that logs nothing. -/
theorem silentWrite {reg : Fin 243} {value : Int64} {tag : ValueTag}
    (writes : role insn.opcode = .writes)
    (index : registerIndex insn.a = .ok reg) (source : Source vm value tag) :
    Transition vm insn pc (vm.wrote insn pc reg value tag) := by
  have write := @written vm insn pc reg value tag [] writes index source
    (by simp) (by simp)
  rwa [Interpreter.appendLog_nil] at write

/-- The writing tail of an instruction that logged nothing. -/
theorem of_finishWrite {value : Int64} {tag : ValueTag}
    {answer : Expected × Interpreter}
    (writes : role insn.opcode = .writes) (source : Source vm value tag)
    (executed : vm.finishWrite insn pc value tag = .ok answer) :
    Transition vm insn pc answer := by
  obtain ⟨reg, index, rfl⟩ := Interpreter.finishWrite_eq_ok.mp executed
  exact silentWrite writes index source

end Transition

end T81VM.VM
