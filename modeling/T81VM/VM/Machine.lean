import T81VM.VM.Dispatch

/-!
# The machine and its record

`Machine` holds the members the dispatch loop reads; the rest of the object
records the run and never influences it.  `step_alike` makes this precise:
objects with the same machine answer a step alike.
-/

namespace T81VM.VM

open Tisc

/-- The members that determine what an accepted program does next. -/
structure Machine where
  pc : Nat
  halted : Bool
  registers : RegisterFile Int64
  registerTags : RegisterFile ValueTag
  memory : List Int64
  flags : Flags
  layout : MemoryLayout
  sp : Nat
  heapPtr : Nat
  stackFrames : List (Nat × Nat)
  heapFrames : List (Nat × Nat)
  optionPool : List OptionValue
  resultPool : List ResultValue
  enumPool : List EnumValue
  tensorPool : List TensorValue
  shapePool : List (List Int64)
  callStack : List Nat
  policy : Option Policy

/-- The members that only record the run. -/
structure Record where
  trace : List TraceEntry
  axionLog : List AxionEvent
  lastTrapPayload : Option TrapPayload
  gcCycles : Nat
  steps : Nat
  currentWriteReg : Option Nat
  currentWriteValue : Option Int64
  currentWriteTag : Option ValueTag

namespace Interpreter

def machine (vm : Interpreter) : Machine where
  pc := vm.state.pc
  halted := vm.state.halted
  registers := vm.state.registers
  registerTags := vm.state.registerTags
  memory := vm.state.memory
  flags := vm.state.flags
  layout := vm.state.layout
  sp := vm.state.sp
  heapPtr := vm.state.heapPtr
  stackFrames := vm.state.stackFrames
  heapFrames := vm.state.heapFrames
  optionPool := vm.state.optionPool
  resultPool := vm.state.resultPool
  enumPool := vm.state.enumPool
  tensorPool := vm.state.tensorPool
  shapePool := vm.state.shapePool
  callStack := vm.callStack
  policy := vm.state.policy

/-- The same machine with another record. -/
def withRecord (vm : Interpreter) (record : Record) : Interpreter :=
  { vm with
    state := { vm.state with
      trace := record.trace
      axionLog := record.axionLog
      lastTrapPayload := record.lastTrapPayload
      gcCycles := record.gcCycles }
    steps := record.steps
    currentWriteReg := record.currentWriteReg
    currentWriteValue := record.currentWriteValue
    currentWriteTag := record.currentWriteTag }

/-- Two objects that differ in their record at most. -/
structure SameMachine (left right : Interpreter) : Prop where
  program_eq : left.program = right.program
  preloadTrap_eq : left.preloadTrap = right.preloadTrap
  machine_eq : left.machine = right.machine

theorem SameMachine.trans {left middle right : Interpreter}
    (first : SameMachine left middle) (second : SameMachine middle right) :
    SameMachine left right :=
  ⟨first.program_eq.trans second.program_eq,
    first.preloadTrap_eq.trans second.preloadTrap_eq,
    first.machine_eq.trans second.machine_eq⟩

/-- An object with the same machine is the first one with another record. -/
theorem SameMachine.exists_record {left right : Interpreter}
    (same : SameMachine left right) :
    ∃ record, right = left.withRecord record := by
  obtain ⟨program, state, preloadTrap, steps, callStack, reg, value, tag⟩ :=
    right
  obtain ⟨programs, preloads, machines⟩ := same
  simp only [machine, Machine.mk.injEq] at machines
  obtain ⟨pcs, halts, registers, tags, memories, flags, layouts, sps, heaps,
    stackFrames, heapFrames, options, results, enums, tensors, shapes,
    callStacks, policies⟩ := machines
  refine ⟨⟨state.trace, state.axionLog, state.lastTrapPayload,
    state.gcCycles, steps, reg, value, tag⟩, ?_⟩
  simp only [withRecord, programs, preloads, pcs, halts, registers, tags,
    memories, flags, layouts, sps, heaps, stackFrames, heapFrames, options,
    results, enums, tensors, shapes, callStacks, policies]

/-- Two answers alike: the same result, the same machine and, for a trap, the
same payload. -/
inductive Alike : Outcome → Outcome → Prop where
  | done {left right : Interpreter} (same : SameMachine left right) :
      Alike (.ok (.ok (), left)) (.ok (.ok (), right))
  | trapped {left right : Interpreter} (code : Trap)
      (same : SameMachine left right)
      (payload : left.state.lastTrapPayload = right.state.lastTrapPayload) :
      Alike (.ok (.error code, left)) (.ok (.error code, right))
  | stuck (reason : Stuck) : Alike (.error reason) (.error reason)

namespace Alike

theorem agree {left right : Outcome} (alike : Alike left right) :
    PartialSystem.Agree SameMachine left right := by
  cases alike with
  | done same => exact ⟨rfl, same⟩
  | trapped code same => exact ⟨rfl, same⟩
  | stuck reason => rfl

variable {α : Type}

/-- Reading the same value first. -/
theorem bind {read : Except Stuck α} {left right : α → Outcome}
    (rest : ∀ value, read = .ok value → Alike (left value) (right value)) :
    Alike (read >>= left) (read >>= right) := by
  cases read with
  | ok value => exact rest value rfl
  | error reason => exact .stuck reason

/-- Deciding the same condition first. -/
theorem ite {condition : Prop} [Decidable condition]
    {left right leftElse rightElse : Outcome}
    (yes : condition → Alike left right)
    (no : ¬ condition → Alike leftElse rightElse) :
    Alike (if condition then left else leftElse)
      (if condition then right else rightElse) := by
  by_cases holds : condition
  · rw [if_pos holds, if_pos holds]
    exact yes holds
  · rw [if_neg holds, if_neg holds]
    exact no holds

end Alike

variable {host : Host} {vm : Interpreter} {insn : Insn} {pc : Nat}
  (record : Record)

theorem setRegisterValue_bind {idx value : Int64} {tag : ValueTag}
    {next : Interpreter → Outcome} :
    (vm.setRegisterValue idx value tag >>= next) =
      registerIndex idx >>= fun reg => next (vm.writeRegister reg value tag) := by
  unfold setRegisterValue
  cases registerIndex idx <;> rfl

theorem finishWrite_eq {value : Int64} {tag : ValueTag} :
    vm.finishWrite insn pc value tag =
      registerIndex insn.a >>= fun reg =>
        .ok (vm.wrote insn pc reg value tag) := by
  cases index : registerIndex insn.a with
  | error reason =>
      simp only [finishWrite, setRegisterValue, index]
      rfl
  | ok reg => exact finishWrite_eq_ok.mpr ⟨reg, index, rfl⟩

theorem finishWrite_alike {value : Int64} {tag : ValueTag} :
    Alike (vm.finishWrite insn pc value tag)
      ((vm.withRecord record).finishWrite insn pc value tag) := by
  rw [finishWrite_eq, finishWrite_eq]
  exact .bind fun reg _ => .done ⟨rfl, rfl, rfl⟩

theorem finish_alike :
    Alike (vm.finish insn pc) ((vm.withRecord record).finish insn pc) :=
  .done ⟨rfl, rfl, rfl⟩

theorem trap_alike {code : Trap} {opcode : Opcode}
    {segment : MemorySegmentKind} {detail : Text} :
    Alike (.ok (vm.trap code opcode pc segment detail))
      (.ok ((vm.withRecord record).trap code opcode pc segment detail)) :=
  .trapped code ⟨rfl, rfl, rfl⟩ rfl

/-- Logging a segment access changes the record only. -/
theorem logged_alike {left right : Interpreter} {kind : MemorySegmentKind}
    (same : SameMachine left right) :
    Alike ((left.logSegmentEvent insn.opcode kind).finish insn pc)
      ((right.logSegmentEvent insn.opcode kind).finish insn pc) := by
  obtain ⟨record, rfl⟩ := same.exists_record
  unfold logSegmentEvent
  by_cases unknown : kind = .unknown
  · rw [if_pos unknown, if_pos unknown]
    exact finish_alike record
  · rw [if_neg unknown, if_neg unknown]
    exact .done ⟨rfl, rfl, rfl⟩

theorem setMemory_bind {addr : Nat} {value : Int64}
    {next : Interpreter → Outcome} :
    (vm.setMemory addr value >>= next) =
      if addr < vm.state.memory.length then
        next { vm with
          state := { vm.state with
            memory := vm.state.memory.set addr value } }
      else .error (.memoryIndex addr) := by
  unfold setMemory
  split <;> rfl

/-! ## Branches over registers and memory -/

theorem executeLoadImm_alike :
    Alike (vm.executeLoadImm insn pc)
      ((vm.withRecord record).executeLoadImm insn pc) := by
  unfold executeLoadImm
  rw [setRegisterValue_bind, setRegisterValue_bind]
  exact .bind fun reg _ => .done ⟨rfl, rfl, rfl⟩

theorem executeLoad_alike :
    Alike (vm.executeLoad insn pc)
      ((vm.withRecord record).executeLoad insn pc) := by
  refine .ite (fun _ => ?_) fun _ => ?_
  · exact .trapped _ ⟨rfl, rfl, rfl⟩ rfl
  · exact .bind fun value _ => finishWrite_alike record

theorem executeArithmetic_alike :
    Alike (vm.executeArithmetic host insn pc)
      ((vm.withRecord record).executeArithmetic host insn pc) := by
  refine .bind fun lhs _ => .bind fun rhs _ => ?_
  refine .ite (fun _ => trap_alike record) fun _ => ?_
  refine .bind fun result _ => ?_
  rw [setRegisterValue_bind, setRegisterValue_bind]
  exact .bind fun reg _ => .done ⟨rfl, rfl, rfl⟩

theorem executeStore_alike :
    Alike (vm.executeStore insn pc)
      ((vm.withRecord record).executeStore insn pc) := by
  refine .ite (fun _ => ?_) fun _ => ?_
  · exact .trapped _ ⟨rfl, rfl, rfl⟩ rfl
  · refine .bind fun value _ => ?_
    rw [setMemory_bind, setMemory_bind]
    exact .ite (fun _ => logged_alike ⟨rfl, rfl, rfl⟩) fun _ => .stuck _

theorem executeMove_alike :
    Alike (vm.executeMove insn pc)
      ((vm.withRecord record).executeMove insn pc) :=
  .bind fun _ _ => .bind fun _ _ => finishWrite_alike record

theorem executeBump_alike {op : Int64 → SignedOp} :
    Alike (vm.executeBump host insn pc op)
      ((vm.withRecord record).executeBump host insn pc op) :=
  .bind fun _ _ => .bind fun _ _ => .bind fun _ _ => .done ⟨rfl, rfl, rfl⟩

theorem executeCmp_alike :
    Alike (vm.executeCmp host insn pc)
      ((vm.withRecord record).executeCmp host insn pc) :=
  .bind fun _ _ => .bind fun _ _ => .bind fun _ _ => .done ⟨rfl, rfl, rfl⟩

theorem executeNeg_alike :
    Alike (vm.executeNeg host insn pc)
      ((vm.withRecord record).executeNeg host insn pc) :=
  .bind fun _ _ => .bind fun _ _ => finishWrite_alike record

theorem executeTNot_alike :
    Alike (vm.executeTNot host insn pc)
      ((vm.withRecord record).executeTNot host insn pc) :=
  .bind fun _ _ => .bind fun _ _ => finishWrite_alike record

theorem executeTrit_alike :
    Alike (vm.executeTrit host insn pc)
      ((vm.withRecord record).executeTrit host insn pc) :=
  .bind fun _ _ => .bind fun _ _ => .bind fun _ _ => finishWrite_alike record

theorem executeCompare_alike :
    Alike (vm.executeCompare insn pc)
      ((vm.withRecord record).executeCompare insn pc) :=
  .bind fun _ _ => .bind fun _ _ => finishWrite_alike record

theorem executeSetF_alike :
    Alike (vm.executeSetF insn pc)
      ((vm.withRecord record).executeSetF insn pc) :=
  .bind fun _ _ => finishWrite_alike record

theorem executeWeightsLoad_alike :
    Alike (vm.executeWeightsLoad host insn pc)
      ((vm.withRecord record).executeWeightsLoad host insn pc) := by
  refine .bind fun handle _ => ?_
  rw [setRegisterValue_bind, setRegisterValue_bind]
  refine .bind fun reg _ => ?_
  exact .bind fun written _ => .done ⟨rfl, rfl, rfl⟩

theorem executePush_eq :
    vm.executePush insn pc =
      (if vm.state.sp = 0 ∨ vm.state.sp - 1 < vm.state.layout.stack.start then
        .ok ((vm.logBoundsFault insn.opcode .stack (ofSize vm.state.sp)
          (text "stack push")).trap .stackFault insn.opcode pc .stack
          (text "stack push"))
      else do
        let value ← vm.register insn.a
        let stored ← ({ vm with
          state := { vm.state with sp := vm.state.sp - 1 } }).setMemory
            (vm.state.sp - 1) value
        stored.finish insn pc) := by
  unfold executePush pushRegister
  split
  · rfl
  · simp only [bind_assoc, pure_bind]

theorem executePush_alike :
    Alike (vm.executePush insn pc)
      ((vm.withRecord record).executePush insn pc) := by
  rw [executePush_eq, executePush_eq]
  refine .ite (fun _ => .trapped _ ⟨rfl, rfl, rfl⟩ rfl) fun _ => ?_
  refine .bind fun value _ => ?_
  rw [setMemory_bind, setMemory_bind]
  exact .ite (fun _ => .done ⟨rfl, rfl, rfl⟩) fun _ => .stuck _

theorem executePop_eq :
    vm.executePop insn pc =
      (if vm.state.sp ≥ vm.state.layout.stack.limit then
        .ok ((vm.logBoundsFault insn.opcode .stack (ofSize vm.state.sp)
          (text "stack pop")).trap .stackFault insn.opcode pc .stack
          (text "stack pop"))
      else do
        let value ← vm.memoryAt vm.state.sp
        let reg ← registerIndex insn.a
        let assigned := vm.assignRegister reg value .int
        let popped := { assigned with
          state := { assigned.state with sp := vm.state.sp + 1 } }
        let written ← popped.register insn.a
        (popped.setFlags written).finish insn pc) := by
  unfold executePop popRegister
  split
  · rfl
  · simp only [bind_assoc, pure_bind]

theorem executePop_alike :
    Alike (vm.executePop insn pc)
      ((vm.withRecord record).executePop insn pc) := by
  rw [executePop_eq, executePop_eq]
  refine .ite (fun _ => .trapped _ ⟨rfl, rfl, rfl⟩ rfl) fun _ => ?_
  refine .bind fun value _ => .bind fun reg _ => ?_
  exact .bind fun written _ => .done ⟨rfl, rfl, rfl⟩

theorem checkJumpTarget_alike {target : Int64} :
    Alike (vm.checkJumpTarget insn pc target)
      ((vm.withRecord record).checkJumpTarget insn pc target) :=
  .ite (fun _ => trap_alike record) fun _ => .done ⟨rfl, rfl, rfl⟩

theorem executeJumpIf_alike {condition : Bool} :
    Alike (vm.executeJumpIf insn pc condition)
      ((vm.withRecord record).executeJumpIf insn pc condition) :=
  .ite (fun _ => checkJumpTarget_alike record) fun _ => finish_alike record

theorem executeCall_alike :
    Alike (vm.executeCall insn pc)
      ((vm.withRecord record).executeCall insn pc) :=
  .bind fun _ _ =>
    .ite (fun _ => trap_alike record) fun _ => .done ⟨rfl, rfl, rfl⟩

theorem executeRet_alike :
    Alike (vm.executeRet insn pc)
      ((vm.withRecord record).executeRet insn pc) := by
  have stack : (vm.withRecord record).callStack = vm.callStack := rfl
  unfold executeRet
  rw [stack]
  cases vm.callStack with
  | nil => exact trap_alike record
  | cons back callers => exact .done ⟨rfl, rfl, rfl⟩

theorem executeAxRead_alike :
    Alike (vm.executeAxRead insn pc)
      ((vm.withRecord record).executeAxRead insn pc) :=
  .ite (fun _ => .trapped _ ⟨rfl, rfl, rfl⟩ rfl) fun _ => by
    rw [finishWrite_eq, finishWrite_eq]
    exact .bind fun _ _ => .done ⟨rfl, rfl, rfl⟩

theorem executeAxSet_alike :
    Alike (vm.executeAxSet insn pc)
      ((vm.withRecord record).executeAxSet insn pc) :=
  .bind fun _ _ => .bind fun _ _ =>
    .ite (fun _ => .trapped _ ⟨rfl, rfl, rfl⟩ rfl) fun _ =>
      .done ⟨rfl, rfl, rfl⟩

theorem executeAxVerify_alike :
    Alike (vm.executeAxVerify insn pc)
      ((vm.withRecord record).executeAxVerify insn pc) :=
  .ite (fun _ => .trapped _ ⟨rfl, rfl, rfl⟩ rfl) fun _ => by
    rw [finishWrite_eq, finishWrite_eq]
    exact .bind fun _ _ => .done ⟨rfl, rfl, rfl⟩

theorem executeStackAlloc_alike :
    Alike (vm.executeStackAlloc insn pc)
      ((vm.withRecord record).executeStackAlloc insn pc) := by
  refine .ite (fun _ => trap_alike record) fun _ => ?_
  refine .ite (fun _ => .trapped _ ⟨rfl, rfl, rfl⟩ rfl) fun _ => ?_
  rw [setRegisterValue_bind, setRegisterValue_bind]
  exact .bind fun _ _ => .done ⟨rfl, rfl, rfl⟩

theorem executeStackFree_alike :
    Alike (vm.executeStackFree insn pc)
      ((vm.withRecord record).executeStackFree insn pc) := by
  have stack : (vm.withRecord record).state.stackFrames =
      vm.state.stackFrames := rfl
  unfold executeStackFree
  rw [stack]
  cases vm.state.stackFrames with
  | nil => exact trap_alike record
  | cons top frames =>
      exact .bind fun _ _ =>
        .ite (fun _ => trap_alike record) fun _ => .done ⟨rfl, rfl, rfl⟩

theorem executeHeapAlloc_alike :
    Alike (vm.executeHeapAlloc insn pc)
      ((vm.withRecord record).executeHeapAlloc insn pc) := by
  refine .ite (fun _ => trap_alike record) fun _ => ?_
  refine .ite (fun _ => .trapped _ ⟨rfl, rfl, rfl⟩ rfl) fun _ => ?_
  rw [setRegisterValue_bind, setRegisterValue_bind]
  exact .bind fun _ _ => .done ⟨rfl, rfl, rfl⟩

theorem executeHeapFree_alike :
    Alike (vm.executeHeapFree insn pc)
      ((vm.withRecord record).executeHeapFree insn pc) := by
  have heap : (vm.withRecord record).state.heapFrames =
      vm.state.heapFrames := rfl
  unfold executeHeapFree
  rw [heap]
  cases vm.state.heapFrames with
  | nil => exact trap_alike record
  | cons top frames =>
      exact .bind fun _ _ =>
        .ite (fun _ => trap_alike record) fun _ => .done ⟨rfl, rfl, rfl⟩

/-! ## Branches over the pools -/

/-- Interning a value and writing its handle, with an update of the object
that ignores its record. -/
theorem interned_alike {α : Type} {pool : List α} {value : α}
    {left right : List α → Interpreter} {tag : ValueTag}
    (same : ∀ grown, SameMachine (left grown) (right grown)) :
    Alike
      (do
        let (handle, vm) ← (do
          let grown ← appendPool pool value
          return (ofSize grown.length, left grown))
        vm.finishWrite insn pc handle tag)
      (do
        let (handle, vm) ← (do
          let grown ← appendPool pool value
          return (ofSize grown.length, right grown))
        vm.finishWrite insn pc handle tag) := by
  cases appendPool pool value with
  | error reason => exact .stuck reason
  | ok grown =>
      obtain ⟨record, related⟩ := (same grown).exists_record
      show Alike ((left grown).finishWrite insn pc _ tag)
        ((right grown).finishWrite insn pc _ tag)
      rw [related]
      exact finishWrite_alike record

theorem executeMakeOptionSome_alike :
    Alike (vm.executeMakeOptionSome insn pc)
      ((vm.withRecord record).executeMakeOptionSome insn pc) :=
  .bind fun _ _ => interned_alike fun _ => ⟨rfl, rfl, rfl⟩

theorem executeMakeOptionNone_alike :
    Alike (vm.executeMakeOptionNone insn pc)
      ((vm.withRecord record).executeMakeOptionNone insn pc) :=
  interned_alike fun _ => ⟨rfl, rfl, rfl⟩

theorem executeMakeResult_alike {isOk : Bool} :
    Alike (vm.executeMakeResult insn pc isOk)
      ((vm.withRecord record).executeMakeResult insn pc isOk) :=
  .bind fun _ _ => interned_alike fun _ => ⟨rfl, rfl, rfl⟩

theorem executeMakeEnumVariant_alike :
    Alike (vm.executeMakeEnumVariant insn pc)
      ((vm.withRecord record).executeMakeEnumVariant insn pc) :=
  interned_alike fun _ => ⟨rfl, rfl, rfl⟩

theorem executeMakeEnumVariantPayload_alike :
    Alike (vm.executeMakeEnumVariantPayload insn pc)
      ((vm.withRecord record).executeMakeEnumVariantPayload insn pc) :=
  .ite (fun _ => trap_alike record) fun _ =>
    .bind fun _ _ => interned_alike fun _ => ⟨rfl, rfl, rfl⟩

theorem withHandle_alike {α : Type} {tag : ValueTag}
    {lookup : Int64 → Option α} {inspect : α → Option (Int64 × ValueTag)} :
    Alike (vm.withHandle insn pc tag lookup inspect)
      ((vm.withRecord record).withHandle insn pc tag lookup inspect) := by
  refine .bind fun tagged _ => .ite (fun _ => trap_alike record) fun _ => ?_
  refine .bind fun handle _ => ?_
  cases (lookup handle).bind inspect with
  | none => exact trap_alike record
  | some written => exact finishWrite_alike record

/-! ## Branches over tensors -/

theorem finishTensor_alike {shape data : List Int64} :
    Alike (vm.finishTensor insn pc shape data)
      ((vm.withRecord record).finishTensor insn pc shape data) :=
  interned_alike fun _ => ⟨rfl, rfl, rfl⟩

theorem withTensorPair_alike
    {left right : TensorValue → TensorValue → Outcome}
    (computes : ∀ lhs rhs, Alike (left lhs rhs) (right lhs rhs)) :
    Alike (vm.withTensorPair insn pc left)
      ((vm.withRecord record).withTensorPair insn pc right) := by
  have pointer : (vm.withRecord record).tensorPtr = vm.tensorPtr := rfl
  unfold withTensorPair
  refine .bind fun tagged _ => .ite (fun _ => trap_alike record) fun _ => ?_
  refine .bind fun lhs _ => .bind fun rhs _ => ?_
  rw [pointer]
  cases vm.tensorPtr lhs with
  | none => exact trap_alike record
  | some first =>
      cases vm.tensorPtr rhs with
      | none => exact trap_alike record
      | some second => exact computes first second

theorem withTensor_alike {left right : TensorValue → Outcome}
    (computes : ∀ input, Alike (left input) (right input)) :
    Alike (vm.withTensor insn pc left)
      ((vm.withRecord record).withTensor insn pc right) := by
  have pointer : (vm.withRecord record).tensorPtr = vm.tensorPtr := rfl
  unfold withTensor
  refine .bind fun tagged _ => .ite (fun _ => trap_alike record) fun _ => ?_
  refine .bind fun handle _ => ?_
  rw [pointer]
  cases vm.tensorPtr handle with
  | none => exact trap_alike record
  | some input => exact computes input

theorem executeVector_alike :
    Alike (vm.executeVector host insn pc)
      ((vm.withRecord record).executeVector host insn pc) :=
  withTensorPair_alike record fun _ _ =>
    .ite (fun _ => trap_alike record) fun _ =>
      .bind fun _ _ => finishTensor_alike record

theorem executeTMatMul_alike :
    Alike (vm.executeTMatMul host insn pc)
      ((vm.withRecord record).executeTMatMul host insn pc) := by
  refine withTensorPair_alike record fun lhs rhs => ?_
  split
  · exact .ite (fun _ => trap_alike record) fun _ =>
      .bind fun _ _ => finishTensor_alike record
  · exact trap_alike record

theorem executeTTenDot_alike :
    Alike (vm.executeTTenDot host insn pc)
      ((vm.withRecord record).executeTTenDot host insn pc) :=
  withTensorPair_alike record fun _ _ =>
    .ite (fun _ => trap_alike record) fun _ =>
      .bind fun _ _ => finishTensor_alike record

theorem executeTTranspose_alike :
    Alike (vm.executeTTranspose insn pc)
      ((vm.withRecord record).executeTTranspose insn pc) := by
  refine withTensor_alike record fun input => ?_
  split
  · exact .ite (fun _ => trap_alike record) fun _ =>
      .bind fun _ _ => finishTensor_alike record
  · exact trap_alike record

theorem executeActivation_alike :
    Alike (vm.executeActivation host insn pc)
      ((vm.withRecord record).executeActivation host insn pc) := by
  refine withTensor_alike record fun input => .bind fun out _ => ?_
  cases out with
  | none => exact trap_alike record
  | some out => exact finishTensor_alike record

theorem executeChkShape_alike :
    Alike (vm.executeChkShape insn pc)
      ((vm.withRecord record).executeChkShape insn pc) := by
  have tensors : (vm.withRecord record).tensorPtr = vm.tensorPtr := rfl
  have shapes : (vm.withRecord record).shapePtr = vm.shapePtr := rfl
  unfold executeChkShape
  refine .bind fun tagged _ => .ite (fun _ => trap_alike record) fun _ => ?_
  refine .bind fun tensor _ => .bind fun shape _ => ?_
  rw [tensors, shapes]
  cases vm.tensorPtr tensor with
  | none => exact trap_alike record
  | some first =>
      cases vm.shapePtr shape with
      | none => exact trap_alike record
      | some second => exact finishWrite_alike record

/-! ## The switch and the step -/

/-- The record of an object does not influence an instruction. -/
theorem execute_alike :
    Alike (vm.execute host insn pc)
      ((vm.withRecord record).execute host insn pc) := by
  unfold execute
  cases insn.opcode
  case nop => exact finish_alike record
  case halt => exact .done ⟨rfl, rfl, rfl⟩
  case trap | undefined => exact trap_alike record
  case loadImm => exact executeLoadImm_alike record
  case load => exact executeLoad_alike record
  case store => exact executeStore_alike record
  case add | sub | mul | div | mod | fAdd | fSub | fMul | fDiv | fracAdd |
    fracSub | fracMul | fracDiv =>
    exact executeArithmetic_alike record
  case mov | i2F | f2I | i2Frac | frac2I => exact executeMove_alike record
  case inc | dec => exact executeBump_alike record
  case cmp => exact executeCmp_alike record
  case neg => exact executeNeg_alike record
  case tNot => exact executeTNot_alike record
  case tAnd | tOr | tXor => exact executeTrit_alike record
  case less | lessEqual | greater | greaterEqual | equal | notEqual =>
    exact executeCompare_alike record
  case push => exact executePush_alike record
  case pop => exact executePop_alike record
  case jump => exact checkJumpTarget_alike record
  case jumpIfZero | jumpIfNotZero | jumpIfNegative | jumpIfPositive =>
    exact executeJumpIf_alike record
  case call => exact executeCall_alike record
  case ret => exact executeRet_alike record
  case axRead => exact executeAxRead_alike record
  case axSet => exact executeAxSet_alike record
  case axVerify => exact executeAxVerify_alike record
  case tVecAdd | tVecMul => exact executeVector_alike record
  case tMatMul => exact executeTMatMul_alike record
  case tTenDot => exact executeTTenDot_alike record
  case tTranspose => exact executeTTranspose_alike record
  case tExp | tSqrt | tSiLU | tSoftmax | tRMSNorm | tRoPE =>
    exact executeActivation_alike record
  case chkShape => exact executeChkShape_alike record
  case weightsLoad => exact executeWeightsLoad_alike record
  case setF => exact executeSetF_alike record
  case makeOptionSome => exact executeMakeOptionSome_alike record
  case makeOptionNone => exact executeMakeOptionNone_alike record
  case makeResultOk | makeResultErr => exact executeMakeResult_alike record
  case makeEnumVariant => exact executeMakeEnumVariant_alike record
  case makeEnumVariantPayload =>
    exact executeMakeEnumVariantPayload_alike record
  case optionIsSome | optionUnwrap | resultIsOk | resultUnwrapOk |
    resultUnwrapErr | enumIsVariant | enumUnwrapPayload =>
    exact withHandle_alike record
  case stackAlloc => exact executeStackAlloc_alike record
  case stackFree => exact executeStackFree_alike record
  case heapAlloc => exact executeHeapAlloc_alike record
  case heapFree => exact executeHeapFree_alike record

/-- Objects with the same machine answer a step alike. -/
theorem step_alike {left right : Interpreter}
    (same : SameMachine left right) :
    Alike (left.step host) (right.step host) := by
  obtain ⟨record, rfl⟩ := same.exists_record
  unfold step
  refine .ite (fun _ => .done ⟨rfl, rfl, rfl⟩) fun _ => ?_
  have preload : (left.withRecord record).preloadTrap = left.preloadTrap :=
    rfl
  have fetch : (left.withRecord record).program.insns[
      (left.withRecord record).state.pc]? =
    left.program.insns[left.state.pc]? := rfl
  rw [preload, fetch]
  cases left.preloadTrap with
  | some code => exact trap_alike record
  | none =>
      cases left.program.insns[left.state.pc]? with
      | none => exact trap_alike record
      | some insn =>
          have begun : SameMachine left.beginInsn
              (left.withRecord record).beginInsn := ⟨rfl, rfl, rfl⟩
          obtain ⟨later, related⟩ := begun.exists_record
          show Alike (left.beginInsn.execute host insn left.state.pc)
            ((left.withRecord record).beginInsn.execute host insn
              left.state.pc)
          rw [related]
          exact execute_alike later

end Interpreter

end T81VM.VM
