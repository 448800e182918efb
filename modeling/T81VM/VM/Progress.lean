import T81VM.VM.HostChoice
import T81VM.VM.Machine
import T81VM.VM.SegmentPartition
import T81VM.VM.StackSafety
import T81VM.VM.Storage

/-!
# Progress

A call fails to return for one of a few reasons: an operand outside the
register file, a stack pointer outside the memory, a full pool, or a signed
operation without a value.  `run_answers` excludes them one by one.
-/

namespace T81VM.VM

open Tisc PartialSystem Fallible

/-- A signed operation that neither C++ nor the host gives a value. -/
def Host.Overflows (host : Host) (reason : Stuck) : Prop :=
  ∃ op : SignedOp, ¬ op.Defined ∧ host.onOverflow op = none ∧
    reason = .signed op

/-- The computation returns, or evaluates a signed operation without a
value. -/
abbrev Answers (host : Host) {α : Type} (result : Except Stuck α) : Prop :=
  FailsOnly host.Overflows result

theorem signed_answers {host : Host} (op : SignedOp) :
    Answers host (host.signed op) := by
  by_cases defined : op.Defined
  · rw [host.signed_of_defined defined]
    trivial
  · cases given : host.onOverflow op with
    | none =>
        rw [Host.signed_of_none defined given]
        exact ⟨op, defined, given, rfl⟩
    | some value =>
        rw [Host.signed_of_onOverflow defined given]
        trivial

namespace Interpreter

variable {host : Host} {program : Program} {vm final : Interpreter}
  {insn : Insn} {pc : Nat} {result : Expected}

/-- The operands an instruction uses as register indices are in range. -/
def OperandsInRange (insn : Insn) : Prop :=
  ∀ operand ∈ registerOperands insn.opcode,
    toSize (operandOf insn operand) < 243

theorem registerIndex_answers (inRange : OperandsInRange insn)
    (operand : Operand) (used : operand ∈ registerOperands insn.opcode) :
    Answers host (registerIndex (operandOf insn operand)) := by
  rw [registerIndex, dif_pos (inRange operand used)]
  trivial

theorem register_answers (inRange : OperandsInRange insn)
    (other : Interpreter) (operand : Operand)
    (used : operand ∈ registerOperands insn.opcode) :
    Answers host (other.register (operandOf insn operand)) :=
  (registerIndex_answers inRange operand used).bind fun _ _ => trivial

theorem registerTag_answers (inRange : OperandsInRange insn)
    (other : Interpreter) (operand : Operand)
    (used : operand ∈ registerOperands insn.opcode) :
    Answers host (other.registerTag (operandOf insn operand)) :=
  (registerIndex_answers inRange operand used).bind fun _ _ => trivial

theorem setRegisterValue_answers (inRange : OperandsInRange insn)
    (other : Interpreter) {value : Int64} {tag : ValueTag}
    (used : .a ∈ registerOperands insn.opcode) :
    Answers host (other.setRegisterValue insn.a value tag) :=
  (registerIndex_answers inRange .a used).bind fun _ _ => trivial

theorem finishWrite_answers (inRange : OperandsInRange insn)
    (other : Interpreter) {value : Int64} {tag : ValueTag}
    (used : .a ∈ registerOperands insn.opcode) :
    Answers host (other.finishWrite insn pc value tag) := by
  rw [finishWrite_eq]
  exact (registerIndex_answers inRange .a used).bind fun _ _ => trivial

/-! ## Branches over registers -/

section Registers

variable (inRange : OperandsInRange insn)

include inRange

theorem executeLoadImm_answers
    (operands : registerOperands insn.opcode = [.a]) :
    Answers host (vm.executeLoadImm insn pc) :=
  (setRegisterValue_answers inRange vm (by simp [operands])).bind
    fun _ _ => trivial

theorem executeArithmetic_answers
    (operands : registerOperands insn.opcode = [.a, .b, .c]) :
    Answers host (vm.executeArithmetic host insn pc) := by
  refine (register_answers inRange vm .b (by simp [operands])).bind
    fun lhs _ => ?_
  refine (register_answers inRange vm .c (by simp [operands])).bind
    fun rhs _ => ?_
  split
  · trivial
  · refine FailsOnly.bind ?_ fun result _ => ?_
    · unfold arithmeticResult
      split
      all_goals first | exact signed_answers _ | trivial
    · exact (setRegisterValue_answers inRange _ (by simp [operands])).bind
        fun _ _ => trivial

theorem executeMove_answers
    (operands : registerOperands insn.opcode = [.a, .b]) :
    Answers host (vm.executeMove insn pc) := by
  refine (register_answers inRange vm .b (by simp [operands])).bind
    fun value _ => ?_
  refine (registerTag_answers inRange vm .b (by simp [operands])).bind
    fun tag _ => ?_
  exact finishWrite_answers inRange vm (by simp [operands])

theorem executeBump_answers {op : Int64 → SignedOp}
    (operands : registerOperands insn.opcode = [.a]) :
    Answers host (vm.executeBump host insn pc op) := by
  refine (register_answers inRange vm .a (by simp [operands])).bind
    fun old _ => ?_
  refine (signed_answers (op old)).bind fun value _ => ?_
  exact (registerIndex_answers inRange .a (by simp [operands])).bind
    fun _ _ => trivial

theorem executeCmp_answers
    (operands : registerOperands insn.opcode = [.a, .b]) :
    Answers host (vm.executeCmp host insn pc) := by
  refine (register_answers inRange vm .a (by simp [operands])).bind
    fun lhs _ => ?_
  refine (register_answers inRange vm .b (by simp [operands])).bind
    fun rhs _ => ?_
  exact (signed_answers _).bind fun _ _ => trivial

theorem executeNeg_answers
    (operands : registerOperands insn.opcode = [.a, .b]) :
    Answers host (vm.executeNeg host insn pc) := by
  refine (register_answers inRange vm .b (by simp [operands])).bind
    fun value _ => ?_
  refine (signed_answers _).bind fun negated _ => ?_
  exact finishWrite_answers inRange vm (by simp [operands])

theorem executeTNot_answers
    (operands : registerOperands insn.opcode = [.a, .b]) :
    Answers host (vm.executeTNot host insn pc) := by
  refine (register_answers inRange vm .b (by simp [operands])).bind
    fun value _ => ?_
  refine (signed_answers _).bind fun negated _ => ?_
  exact finishWrite_answers inRange vm (by simp [operands])

theorem executeTrit_answers
    (operands : registerOperands insn.opcode = [.a, .b, .c]) :
    Answers host (vm.executeTrit host insn pc) := by
  refine (register_answers inRange vm .b (by simp [operands])).bind
    fun lhs _ => ?_
  refine (register_answers inRange vm .c (by simp [operands])).bind
    fun rhs _ => ?_
  obtain ⟨result, evaluated⟩ := tritResult_eq_ok host insn.opcode lhs rhs
  rw [evaluated]
  exact finishWrite_answers inRange vm (by simp [operands])

theorem executeCompare_answers
    (operands : registerOperands insn.opcode = [.a, .b, .c]) :
    Answers host (vm.executeCompare insn pc) := by
  refine (register_answers inRange vm .b (by simp [operands])).bind
    fun lhs _ => ?_
  refine (register_answers inRange vm .c (by simp [operands])).bind
    fun rhs _ => ?_
  exact finishWrite_answers inRange vm (by simp [operands])

theorem executeSetF_answers
    (operands : registerOperands insn.opcode = [.a, .b]) :
    Answers host (vm.executeSetF insn pc) := by
  refine (register_answers inRange vm .b (by simp [operands])).bind
    fun value _ => ?_
  exact finishWrite_answers inRange vm (by simp [operands])

theorem executeWeightsLoad_answers
    (operands : registerOperands insn.opcode = [.a]) :
    Answers host (vm.executeWeightsLoad host insn pc) := by
  refine FailsOnly.bind ?_ fun handle _ => ?_
  · unfold weightsHandle
    split
    · trivial
    · exact signed_answers _
  · refine (setRegisterValue_answers inRange vm (by simp [operands])).bind
      fun middle _ => ?_
    exact (register_answers inRange _ .a (by simp [operands])).bind
      fun _ _ => trivial

theorem executeCall_answers
    (operands : registerOperands insn.opcode = [.a]) :
    Answers host (vm.executeCall insn pc) := by
  refine (register_answers inRange vm .a (by simp [operands])).bind
    fun target _ => ?_
  split <;> trivial

theorem executeAxRead_answers
    (operands : registerOperands insn.opcode = [.a]) :
    Answers host (vm.executeAxRead insn pc) := by
  unfold executeAxRead
  simp only
  split
  · trivial
  · exact finishWrite_answers inRange _ (by simp [operands])

theorem executeAxSet_answers
    (operands : registerOperands insn.opcode = [.a, .b]) :
    Answers host (vm.executeAxSet insn pc) := by
  refine (register_answers inRange vm .b (by simp [operands])).bind
    fun value _ => ?_
  refine (register_answers inRange vm .a (by simp [operands])).bind
    fun addr _ => ?_
  simp only
  split <;> trivial

theorem executeAxVerify_answers
    (operands : registerOperands insn.opcode = [.a]) :
    Answers host (vm.executeAxVerify insn pc) := by
  unfold executeAxVerify
  simp only
  split
  · trivial
  · exact finishWrite_answers inRange _ (by simp [operands])

theorem executeStackAlloc_answers
    (operands : registerOperands insn.opcode = [.a]) :
    Answers host (vm.executeStackAlloc insn pc) := by
  unfold executeStackAlloc
  simp only
  split
  · trivial
  · split
    · trivial
    · exact (setRegisterValue_answers inRange _ (by simp [operands])).bind
        fun _ _ => trivial

theorem executeStackFree_answers
    (operands : registerOperands insn.opcode = [.a]) :
    Answers host (vm.executeStackFree insn pc) := by
  unfold executeStackFree
  split
  · trivial
  · refine (register_answers inRange vm .a (by simp [operands])).bind
      fun expected _ => ?_
    split <;> trivial

theorem executeHeapAlloc_answers
    (operands : registerOperands insn.opcode = [.a]) :
    Answers host (vm.executeHeapAlloc insn pc) := by
  unfold executeHeapAlloc
  simp only
  split
  · trivial
  · split
    · trivial
    · exact (setRegisterValue_answers inRange _ (by simp [operands])).bind
        fun _ _ => trivial

theorem executeHeapFree_answers
    (operands : registerOperands insn.opcode = [.a]) :
    Answers host (vm.executeHeapFree insn pc) := by
  unfold executeHeapFree
  split
  · trivial
  · refine (register_answers inRange vm .a (by simp [operands])).bind
      fun expected _ => ?_
    split <;> trivial

end Registers

/-! ## Branches over memory, control and pools -/

theorem memoryAt_answers {addr : Nat} (inside : addr < vm.state.memory.length) :
    Answers host (vm.memoryAt addr) := by
  unfold memoryAt
  rw [List.getElem?_eq_getElem inside]
  trivial

theorem setMemory_answers {addr : Nat} {value : Int64}
    (inside : addr < vm.state.memory.length) :
    Answers host (vm.setMemory addr value) := by
  rw [setMemory, if_pos inside]
  trivial

theorem executeLoad_answers (inRange : OperandsInRange insn)
    (operands : registerOperands insn.opcode = [.a]) :
    Answers host (vm.executeLoad insn pc) := by
  unfold executeLoad
  split
  · trivial
  · rename_i valid
    have inside : vm.validMem insn.b = true := by simpa using valid
    exact (memoryAt_answers (validMem_iff.mp inside).2.1).bind
      fun _ _ => finishWrite_answers inRange vm (by simp [operands])

theorem executeStore_answers (inRange : OperandsInRange insn)
    (operands : registerOperands insn.opcode = [.b]) :
    Answers host (vm.executeStore insn pc) := by
  unfold executeStore
  split
  · trivial
  · rename_i valid
    have inside : vm.validMem insn.a = true := by simpa using valid
    refine (register_answers inRange vm .b (by simp [operands])).bind
      fun value _ => ?_
    exact (setMemory_answers (validMem_iff.mp inside).2.1).bind
      fun _ _ => trivial

/-- A push writes below a stack pointer that is inside the memory. -/
theorem executePush_answers (inRange : OperandsInRange insn)
    (operands : registerOperands insn.opcode = [.a])
    (inside : vm.state.sp ≤ vm.state.memory.length) :
    Answers host (vm.executePush insn pc) := by
  rw [executePush_eq]
  split
  · trivial
  · rename_i room
    have nonzero : vm.state.sp ≠ 0 := fun zero => room (.inl zero)
    refine (register_answers inRange vm .a (by simp [operands])).bind
      fun value _ => ?_
    have below : vm.state.sp - 1 < vm.state.memory.length := by omega
    refine FailsOnly.bind (setMemory_answers below) fun stored _ => ?_
    trivial

/-- A pop reads below the end of a segment that is inside the memory. -/
theorem executePop_answers (inRange : OperandsInRange insn)
    (operands : registerOperands insn.opcode = [.a])
    (inside : vm.state.layout.stack.limit ≤ vm.state.memory.length) :
    Answers host (vm.executePop insn pc) := by
  rw [executePop_eq]
  split
  · trivial
  · rename_i nonempty
    refine (memoryAt_answers (by omega)).bind fun value _ => ?_
    refine (registerIndex_answers inRange .a (by simp [operands])).bind
      fun reg _ => ?_
    exact (register_answers inRange _ .a (by simp [operands])).bind
      fun _ _ => trivial

theorem checkJumpTarget_answers {target : Int64} :
    Answers host (vm.checkJumpTarget insn pc target) := by
  unfold checkJumpTarget
  split <;> trivial

theorem executeJumpIf_answers {condition : Bool} :
    Answers host (vm.executeJumpIf insn pc condition) := by
  unfold executeJumpIf
  split
  · exact checkJumpTarget_answers
  · trivial

theorem executeRet_answers : Answers host (vm.executeRet insn pc) := by
  unfold executeRet
  split <;> trivial

/-- Interning into a pool with room and writing the handle. -/
theorem interned_answers {α : Type} {pool : List α} {value : α}
    {update : List α → Interpreter} {tag : ValueTag}
    (inRange : OperandsInRange insn)
    (used : .a ∈ registerOperands insn.opcode)
    (room : pool.length < maxPool) :
    Answers host (do
      let (handle, vm) ← (do
        let grown ← appendPool pool value
        return (ofSize grown.length, update grown))
      vm.finishWrite insn pc handle tag) := by
  rw [appendPool, if_pos room]
  exact finishWrite_answers inRange _ used

theorem payloadOf_answers (inRange : OperandsInRange insn)
    (used : .b ∈ registerOperands insn.opcode) :
    Answers host (vm.payloadOf insn.b) :=
  (registerTag_answers inRange vm .b used).bind fun _ _ =>
    (register_answers inRange vm .b used).bind fun _ _ => trivial

theorem tagIs_answers (inRange : OperandsInRange insn) (operand : Operand)
    {tag : ValueTag} (used : operand ∈ registerOperands insn.opcode) :
    Answers host (vm.tagIs (operandOf insn operand) tag) :=
  (registerTag_answers inRange vm operand used).bind fun _ _ => trivial

theorem withHandle_answers {α : Type} {tag : ValueTag}
    {lookup : Int64 → Option α} {inspect : α → Option (Int64 × ValueTag)}
    (inRange : OperandsInRange insn)
    (operands : registerOperands insn.opcode = [.a, .b]) :
    Answers host (vm.withHandle insn pc tag lookup inspect) := by
  refine (tagIs_answers inRange .b (by simp [operands])).bind
    fun tagged _ => ?_
  split
  · trivial
  · refine (register_answers inRange vm .b (by simp [operands])).bind
      fun handle _ => ?_
    split
    · exact finishWrite_answers inRange vm (by simp [operands])
    · trivial

theorem tagsAre_answers (inRange : OperandsInRange insn)
    {left right : ValueTag}
    (operands : registerOperands insn.opcode = [.a, .b, .c]) :
    Answers host (vm.tagsAre insn left right) := by
  refine (tagIs_answers inRange .b (by simp [operands])).bind
    fun fits _ => ?_
  split
  · exact tagIs_answers inRange .c (by simp [operands])
  · trivial

theorem findNoTensor_answers (inRange : OperandsInRange insn)
    (looks : looksUpTensors insn.opcode = true) :
    Answers host (vm.findNoTensor insn pc) := by
  refine FailsOnly.bind ?_ fun _ _ => trivial
  rw [operandsTagged]
  cases opcode : insn.opcode with
  | tVecAdd | tVecMul | tMatMul | tTenDot | chkShape =>
      exact tagsAre_answers inRange (congrArg registerOperands opcode)
  | tTranspose | tExp | tSqrt | tSiLU | tSoftmax | tRMSNorm | tRoPE =>
      exact tagIs_answers inRange .b (by simp [opcode, registerOperands])
  | _ =>
      rw [opcode] at looks
      cases looks

/-! ## The switch and the step -/

/-- Every pool has room for another entry. -/
def PoolsHaveRoom (vm : Interpreter) : Prop :=
  vm.storage < maxPool

theorem execute_answers (inRange : OperandsInRange insn)
    (free : vm.TensorFree) (room : vm.PoolsHaveRoom)
    (stack : vm.state.sp ≤ vm.state.memory.length ∧
      vm.state.layout.stack.limit ≤ vm.state.memory.length) :
    Answers host (vm.execute host insn pc) := by
  have options : vm.state.optionPool.length < maxPool := by
    unfold PoolsHaveRoom storage at room
    omega
  have results : vm.state.resultPool.length < maxPool := by
    unfold PoolsHaveRoom storage at room
    omega
  have enums : vm.state.enumPool.length < maxPool := by
    unfold PoolsHaveRoom storage at room
    omega
  cases looks : looksUpTensors insn.opcode with
  | true =>
      rw [free.execute_eq looks]
      exact findNoTensor_answers inRange looks
  | false =>
      unfold execute
      cases opcode : insn.opcode
      case nop | halt | trap => trivial
      case undefined => trivial
      case loadImm =>
        exact executeLoadImm_answers inRange (congrArg registerOperands opcode)
      case load =>
        exact executeLoad_answers inRange (congrArg registerOperands opcode)
      case store =>
        exact executeStore_answers inRange (congrArg registerOperands opcode)
      case add | sub | mul | div | mod | fAdd | fSub | fMul | fDiv | fracAdd |
        fracSub | fracMul | fracDiv =>
        exact executeArithmetic_answers inRange
          (congrArg registerOperands opcode)
      case mov | i2F | f2I | i2Frac | frac2I =>
        exact executeMove_answers inRange (congrArg registerOperands opcode)
      case inc | dec =>
        exact executeBump_answers inRange
          (congrArg registerOperands opcode)
      case cmp =>
        exact executeCmp_answers inRange
          (congrArg registerOperands opcode)
      case neg =>
        exact executeNeg_answers inRange
          (congrArg registerOperands opcode)
      case tNot =>
        exact executeTNot_answers inRange
          (congrArg registerOperands opcode)
      case tAnd | tOr | tXor =>
        exact executeTrit_answers inRange (congrArg registerOperands opcode)
      case less | lessEqual | greater | greaterEqual | equal | notEqual =>
        exact executeCompare_answers inRange (congrArg registerOperands opcode)
      case push =>
        exact executePush_answers inRange (congrArg registerOperands opcode)
          stack.1
      case pop =>
        exact executePop_answers inRange (congrArg registerOperands opcode)
          stack.2
      case jump =>
        exact checkJumpTarget_answers
      case jumpIfZero | jumpIfNotZero | jumpIfNegative | jumpIfPositive =>
        exact executeJumpIf_answers
      case call =>
        exact executeCall_answers inRange (congrArg registerOperands opcode)
      case ret =>
        exact executeRet_answers
      case axRead =>
        exact executeAxRead_answers inRange (congrArg registerOperands opcode)
      case axSet =>
        exact executeAxSet_answers inRange (congrArg registerOperands opcode)
      case axVerify =>
        exact executeAxVerify_answers inRange
          (congrArg registerOperands opcode)
      case weightsLoad =>
        exact executeWeightsLoad_answers inRange
          (congrArg registerOperands opcode)
      case setF =>
        exact executeSetF_answers inRange (congrArg registerOperands opcode)
      case makeOptionSome =>
        exact (payloadOf_answers inRange
          (by simp [opcode, registerOperands])).bind fun _ _ =>
            interned_answers inRange (by simp [opcode, registerOperands])
              options
      case makeOptionNone =>
        exact interned_answers inRange (by simp [opcode, registerOperands])
          options
      case makeResultOk | makeResultErr =>
        exact (payloadOf_answers inRange
          (by simp [opcode, registerOperands])).bind fun _ _ =>
            interned_answers inRange (by simp [opcode, registerOperands])
              results
      case makeEnumVariant =>
        exact interned_answers inRange (by simp [opcode, registerOperands])
          enums
      case makeEnumVariantPayload =>
        simp only [executeMakeEnumVariantPayload]
        split
        · trivial
        · exact (payloadOf_answers inRange
            (by simp [opcode, registerOperands])).bind fun _ _ =>
              interned_answers inRange (by simp [opcode, registerOperands])
                enums
      case optionIsSome | optionUnwrap | resultIsOk | resultUnwrapOk |
        resultUnwrapErr | enumIsVariant | enumUnwrapPayload =>
        exact withHandle_answers inRange (congrArg registerOperands opcode)
      case stackAlloc =>
        exact executeStackAlloc_answers inRange
          (congrArg registerOperands opcode)
      case stackFree =>
        exact executeStackFree_answers inRange
          (congrArg registerOperands opcode)
      case heapAlloc =>
        exact executeHeapAlloc_answers inRange
          (congrArg registerOperands opcode)
      case heapFree =>
        exact executeHeapFree_answers inRange
          (congrArg registerOperands opcode)
      all_goals
        rw [opcode] at looks
        cases looks

/-- What a run of a program maintains to keep going. -/
structure Ready (program : Program) (vm : Interpreter) : Prop
    extends StackBounded program vm, TensorFree vm, StoragePaid vm

theorem Loads.ready (loads : Loads program vm) : Ready program vm :=
  ⟨loads.stackBounded, loads.tensorFree, loads.storagePaid⟩

theorem Ready.step (ready : Ready program vm) (fits : FreeFits vm)
    (stepped : vm.step host = .ok (result, final)) : Ready program final :=
  ⟨ready.toStackBounded.step fits stepped,
    ready.toTensorFree.step stepped, ready.toStoragePaid.step stepped⟩

theorem Ready.setRegister {idx : Int32} {value : Int64} {tag : ValueTag}
    (ready : Ready program vm) :
    Ready program (vm.setRegister idx value tag) := by
  refine ⟨⟨⟨ready.toInstalled.setRegister, ?_⟩, ?_, ?_⟩,
    ready.toTensorFree.setRegister, ready.toStoragePaid.setRegister⟩ <;>
    unfold Interpreter.setRegister
  · split <;> exact ready.frames
  · split <;> exact ready.above
  · split <;> exact ready.below

/-- A step of a well-formed program that is ready returns. -/
theorem Ready.step_answers (ready : Ready program vm)
    (wellFormed : WellFormed program)
    (short : vm.state.trace.length < maxPool) :
    Answers host (vm.step host) := by
  unfold Interpreter.step
  split
  · trivial
  · split
    · trivial
    · split
      · trivial
      · rename_i insn fetched
        have member : insn ∈ program.insns := by
          rw [← ready.program_eq]
          exact List.mem_of_getElem? fetched
        have inRange : OperandsInRange insn := by
          intro operand used
          have inside := (wellFormed insn member).registers operand
            (mem_registerOperands_iff.mp used)
          exact inRegisterFile_iff.mp inside
        have size := ready.memory_length
        rw [initialLayout_totalSize] at size
        have limit := ready.toInstalled.stack_limit
        have below := ready.below
        have begun : vm.beginInsn.TensorFree := ⟨ready.tensors, ready.shapes⟩
        have room : vm.beginInsn.PoolsHaveRoom := by
          unfold PoolsHaveRoom
          rw [storage_beginInsn]
          exact Nat.lt_of_le_of_lt ready.storage short
        apply execute_answers inRange begun room
        show vm.state.sp ≤ vm.state.memory.length ∧
          vm.state.layout.stack.limit ≤ vm.state.memory.length
        omega

/-! ## Runs -/

theorem Ready.runToHalt_answers {maxSteps : Nat} (ready : Ready program vm)
    (wellFormed : WellFormed program)
    (fits : LoopAlong host FreeFits maxSteps vm)
    (short : vm.state.trace.length + maxSteps ≤ maxPool) :
    Answers host (runToHalt host maxSteps vm) := by
  induction maxSteps generalizing vm with
  | zero => trivial
  | succ maxSteps induction =>
      obtain ⟨here, later⟩ := fits
      have room : vm.state.trace.length < maxPool := by omega
      refine FailsOnly.bind (ready.step_answers wellFormed room)
        fun answer stepped => ?_
      obtain ⟨result, middle⟩ := answer
      cases result with
      | error code => trivial
      | ok success =>
          cases halted : middle.state.halted with
          | true =>
              simp only [halted, if_true]
              trivial
          | false =>
              have recorded := traceLength_step stepped
              simp only [halted, Bool.false_eq_true, if_false]
              exact induction (ready.step here stepped)
                (later middle stepped halted) (by omega)

theorem Ready.call_answers {request : Call} (ready : Ready program vm)
    (wellFormed : WellFormed program)
    (fits : StepsAlong host FreeFits request vm)
    (short : vm.state.trace.length + request.granted ≤ maxPool) :
    Answers host (call host request vm) := by
  cases request with
  | loadProgram other =>
      rw [call]
      cases vm.loadProgram other <;> trivial
  | setRegister => trivial
  | step =>
      refine FailsOnly.bind (ready.step_answers wellFormed short)
        fun answer _ => ?_
      trivial
  | runToHalt maxSteps =>
      refine FailsOnly.bind (ready.runToHalt_answers wellFormed fits short)
        fun answer _ => ?_
      trivial

theorem Ready.answers_run {calls : List Call} (ready : Ready program vm)
    (wellFormed : WellFormed program)
    (driving : ∀ call ∈ calls, call.driving)
    (fits : Along (call host) (StepsAlong host FreeFits) calls vm)
    (short : vm.state.trace.length + (calls.map Call.granted).sum ≤ maxPool) :
    Answers host (run (call host) calls vm) := by
  induction calls generalizing vm with
  | nil => trivial
  | cons request calls induction =>
      obtain ⟨here, later⟩ := fits
      rw [List.map_cons, List.sum_cons] at short
      have first := ready.call_answers wellFormed here (by omega)
      cases answered : call host request vm with
      | error reason =>
          rw [run_cons_of_error answered]
          exact first.of_error answered
      | ok answer =>
          obtain ⟨reply, middle⟩ := answer
          have drives := driving request List.mem_cons_self
          have recorded := traceLength_call drives answered
          have kept : Ready program middle :=
            (StepsAlong.invariant
              (fun _ _ _ fits ready stepped => Ready.step ready fits stepped)
              (fun _ _ _ _ ready => Ready.setRegister ready)
              drives ready here).2 reply middle answered
          have rest := induction kept
            (fun call member => driving call (List.mem_cons_of_mem _ member))
            (later reply middle answered) (by omega)
          cases finished : run (call host) calls middle with
          | error reason =>
              rw [run_cons_of_rest_error answered finished]
              exact rest.of_error finished
          | ok answer =>
              obtain ⟨replies, last⟩ := answer
              rw [run_cons_of_ok answered finished]
              trivial

/-- A program without `StackFree` releases no frame. -/
theorem freeFits_along_of_noStackFree {loaded : Interpreter}
    {calls : List Call} (loads : Loads program loaded)
    (driving : ∀ call ∈ calls, call.driving)
    (none : ∀ insn ∈ program.insns, insn.opcode ≠ .stackFree) :
    Along (call host) (StepsAlong host FreeFits) calls loaded := by
  have installed := (@run_stepsAlways host (Installed program)
    (fun _ _ _ installed stepped => installed.step stepped)
    (fun _ _ _ _ installed => installed.setRegister) calls driving loaded
    loads.installed).1
  refine installed.mono fun request state steps => steps.mono ?_
  intro vm installed top frees
  obtain ⟨fetches, opcode⟩ := frees
  exact absurd opcode (none _ (installed.member fetches))

/-- The least word incremented, then pushed. -/
def pushIncremented : Program where
  insns := [
    { opcode := .loadImm, a := 0, b := -9223372036854775808, c := 0 },
    { opcode := .inc, a := 0, b := 0, c := 0 },
    { opcode := .push, a := 0, b := 0, c := 0 },
    { opcode := .halt, a := 0, b := 0, c := 0 }]
  axionPolicyText := []
  fits := by decide

end Interpreter

end T81VM.VM
