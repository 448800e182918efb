import T81VM.VM.Interpreter
import T81VM.VM.Tensor

/-!
# The dispatch loop

`execute` runs one fetched instruction; `step` fetches it.  Every branch
follows the source: guards first, then the updates, then the trace entry.
Opcodes that share a branch of the source share a definition here.
-/

namespace T81VM.VM

open Tisc

namespace Interpreter

variable (host : Host) (vm : Interpreter) (insn : Insn) (pc : Nat)

/-- `++state_.pc; return trace_ok(...)`. -/
def finish : Outcome :=
  .ok (vm.advance.traceOk insn.opcode pc)

/-- Write the destination, set the flags from it and finish. -/
def finishWrite (value : Int64) (tag : ValueTag) : Outcome := do
  let vm ← vm.setRegisterValue insn.a value tag
  let written ← vm.register insn.a
  (vm.setFlags written).finish insn pc

def executeLoadImm : Outcome := do
  let vm ← vm.setRegisterValue insn.a insn.b .int
  (vm.setFlags insn.b).finish insn pc

def executeLoad : Outcome :=
  if !vm.validMem insn.b then
    .ok ((vm.logBoundsFault insn.opcode .unknown insn.b (text "memory load")).trap
      .boundsFault insn.opcode pc .unknown (text "memory load"))
  else do
    let value ← vm.memoryAt (toSize insn.b)
    vm.finishWrite insn pc value .int

def executeStore : Outcome :=
  if !vm.validMem insn.a then
    .ok ((vm.logBoundsFault insn.opcode .unknown insn.a (text "memory store")).trap
      .boundsFault insn.opcode pc .unknown (text "memory store"))
  else do
    let value ← vm.register insn.b
    let stored ← vm.setMemory (toSize insn.a) value
    (stored.logSegmentEvent insn.opcode (vm.segmentOf (toSize insn.a))).finish
      insn pc

/-- The opcodes that trap on a zero divisor. -/
def divides : Opcode → Bool
  | .div | .mod | .fDiv | .fracDiv => true
  | _ => false

/-- The inner switch of the arithmetic opcodes. -/
def arithmeticResult (opcode : Opcode) (lhs rhs : Int64) :
    Except Stuck Int64 :=
  match opcode with
  | .add | .fAdd | .fracAdd => host.signed (.add lhs rhs)
  | .sub | .fSub | .fracSub => host.signed (.sub lhs rhs)
  | .mul | .fMul | .fracMul => host.signed (.mul lhs rhs)
  | .div | .fDiv | .fracDiv => host.signed (.div lhs rhs)
  | .mod => host.signed (.mod lhs rhs)
  | _ => .ok 0

def executeArithmetic : Outcome := do
  let lhs ← vm.register insn.b
  let rhs ← vm.register insn.c
  if divides insn.opcode && rhs == 0 then
    .ok (vm.trap .divisionFault insn.opcode pc .unknown
      (text "division by zero"))
  else do
    let result ← arithmeticResult host insn.opcode lhs rhs
    let vm ← vm.setRegisterValue insn.a result .int
    (vm.setFlags result).finish insn pc

/-- `Mov` and the scalar conversions. -/
def executeMove : Outcome := do
  let value ← vm.register insn.b
  let tag ← vm.registerTag insn.b
  vm.finishWrite insn pc value tag

/-- `Inc` and `Dec`, by the operation applied to the register. -/
def executeBump (op : Int64 → SignedOp) : Outcome := do
  let old ← vm.register insn.a
  let value ← host.signed (op old)
  let reg ← registerIndex insn.a
  ((vm.assignRegister reg value .int).setFlags value).finish insn pc

def executeCmp : Outcome := do
  let lhs ← vm.register insn.a
  let rhs ← vm.register insn.b
  let difference ← host.signed (.sub lhs rhs)
  (vm.setFlags difference).finish insn pc

def executeNeg : Outcome := do
  let value ← vm.register insn.b
  let negated ← host.signed (.neg value)
  vm.finishWrite insn pc negated .int

def executeTNot : Outcome := do
  let value ← vm.register insn.b
  let negated ← host.signed (.neg (clampTrit value))
  vm.finishWrite insn pc negated .int

/-- The three-valued result of `TAnd`, `TOr` or `TXor`. -/
def tritResult (opcode : Opcode) (lhs rhs : Int64) : Except Stuck Int64 :=
  match opcode with
  | .tAnd => .ok (if lhs < rhs then lhs else rhs)
  | .tOr => .ok (if lhs > rhs then lhs else rhs)
  | _ => do
      let difference ← host.signed (.sub lhs rhs)
      let lowered := if difference > 1 then -1 else difference
      return if lowered < -1 then 1 else lowered

def executeTrit : Outcome := do
  let lhs ← vm.register insn.b
  let rhs ← vm.register insn.c
  let result ← tritResult host insn.opcode (clampTrit lhs) (clampTrit rhs)
  vm.finishWrite insn pc result .int

def compareResult (opcode : Opcode) (lhs rhs : Int64) : Bool :=
  match opcode with
  | .less => lhs < rhs
  | .lessEqual => lhs ≤ rhs
  | .greater => lhs > rhs
  | .greaterEqual => lhs ≥ rhs
  | .equal => lhs == rhs
  | .notEqual => lhs != rhs
  | _ => false

def executeCompare : Outcome := do
  let lhs ← vm.register insn.b
  let rhs ← vm.register insn.c
  vm.finishWrite insn pc
    (if compareResult insn.opcode lhs rhs then 1 else 0) .int

def executePush : Outcome := do
  match ← vm.pushRegister insn.a with
  | none =>
      .ok ((vm.logBoundsFault insn.opcode .stack (ofSize vm.state.sp)
        (text "stack push")).trap .stackFault insn.opcode pc .stack
        (text "stack push"))
  | some pushed => pushed.finish insn pc

def executePop : Outcome := do
  match ← vm.popRegister insn.a with
  | none =>
      .ok ((vm.logBoundsFault insn.opcode .stack (ofSize vm.state.sp)
        (text "stack pop")).trap .stackFault insn.opcode pc .stack
        (text "stack pop"))
  | some popped => do
      let value ← popped.register insn.a
      (popped.setFlags value).finish insn pc

/-- `check_jump_target`: leave for a target inside the program. -/
def checkJumpTarget (target : Int64) : Outcome :=
  if target < 0 ∨ toSize target ≥ vm.program.insns.length then
    .ok (vm.trap .decodeFault insn.opcode pc)
  else
    .ok (({ vm with state := { vm.state with pc := toSize target } }).traceOk
      insn.opcode pc)

/-- A jump that is taken under a condition. -/
def executeJumpIf (condition : Bool) : Outcome :=
  if condition then vm.checkJumpTarget insn pc insn.a
  else vm.finish insn pc

def executeCall : Outcome := do
  let target ← vm.register insn.a
  if target < 0 ∨ toSize target ≥ vm.program.insns.length then
    .ok (vm.trap .decodeFault insn.opcode pc)
  else
    .ok (({ vm with
      callStack := (pc + 1) :: vm.callStack
      state := { vm.state with pc := toSize target } }).traceOk
        insn.opcode pc)

def executeRet : Outcome :=
  match vm.callStack with
  | [] => .ok (vm.trap .stackFault insn.opcode pc)
  | back :: callers =>
      .ok (({ vm with
        callStack := callers
        state := { vm.state with pc := back } }).traceOk insn.opcode pc)

def executeAxRead : Outcome :=
  let kind := vm.guardSegment insn.b
  let denied := vm.axionDenied
  let vm := vm.logAxionGuard insn.opcode (text "AxRead guard") kind insn.b denied
  if denied then
    .ok (vm.trap .securityFault insn.opcode pc kind (text "axion deny read"))
  else
    vm.finishWrite insn pc insn.b .int

def executeAxSet : Outcome := do
  let value ← vm.register insn.b
  let addr ← vm.register insn.a
  let kind := vm.guardSegment addr
  let denied := vm.axionDenied
  let vm := vm.logAxionGuard insn.opcode (text "AxSet guard") kind addr denied
    (some value)
  if denied then
    .ok (vm.trap .securityFault insn.opcode pc kind (text "axion deny set"))
  else
    vm.finish insn pc

def executeAxVerify : Outcome :=
  let denied := vm.axionDenied
  let vm := vm.logAxionGuard insn.opcode (text "AxVerify guard") .metaSegment
    (ofSize pc) denied
  if denied then
    .ok (vm.trap .securityFault insn.opcode pc .metaSegment
      (text "axion deny verify"))
  else
    vm.finishWrite insn pc 0 .int

/-- Intern a tensor and write its handle. -/
def finishTensor (shape data : List Int64) : Outcome := do
  let (handle, vm) ← vm.internTensor shape data
  vm.finishWrite insn pc handle .tensorHandle

/-- The operand `idx` carries the tag `tag`. -/
def tagIs (idx : Int64) (tag : ValueTag) : Except Stuck Bool := do
  let actual ← vm.registerTag idx
  return actual == tag

/-- The operands `b` and `c` carry the given tags; as in `||`, the tag of `c`
is read only when that of `b` fits. -/
def tagsAre (left right : ValueTag) : Except Stuck Bool := do
  let fits ← vm.tagIs insn.b left
  if fits then vm.tagIs insn.c right else .ok false

/-- The guards of a binary tensor opcode, then its computation. -/
def withTensorPair
    (compute : TensorValue → TensorValue → Outcome) : Outcome := do
  let tagged ← vm.tagsAre insn .tensorHandle .tensorHandle
  if !tagged then
    .ok (vm.trap .typeFault insn.opcode pc)
  else do
    let lhs ← vm.register insn.b
    let rhs ← vm.register insn.c
    match vm.tensorPtr lhs, vm.tensorPtr rhs with
    | some lhs, some rhs => compute lhs rhs
    | _, _ => .ok (vm.trap .decodeFault insn.opcode pc)

/-- The guards of a unary tensor opcode, then its computation. -/
def withTensor (compute : TensorValue → Outcome) : Outcome := do
  let tagged ← vm.tagIs insn.b .tensorHandle
  if !tagged then
    .ok (vm.trap .typeFault insn.opcode pc)
  else do
    let handle ← vm.register insn.b
    match vm.tensorPtr handle with
    | some input => compute input
    | none => .ok (vm.trap .decodeFault insn.opcode pc)

def shapeFault : Outcome :=
  .ok (vm.trap .shapeFault insn.opcode pc)

/-- `TVecAdd` and `TVecMul`. -/
def executeVector : Outcome :=
  vm.withTensorPair insn pc fun lhs rhs =>
    if lhs.shape.length ≠ 1 ∨ rhs.shape.length ≠ 1 ∨ lhs.shape ≠ rhs.shape
        ∨ lhs.data.length ≠ rhs.data.length then
      vm.shapeFault insn pc
    else do
      let out ← vectorCombine host
        (if insn.opcode = .tVecAdd then .add else .mul) lhs.data rhs.data
      vm.finishTensor insn pc lhs.shape out

def executeTMatMul : Outcome :=
  vm.withTensorPair insn pc fun lhs rhs =>
    match lhs.shape, rhs.shape with
    | [rows, inner], [rhsInner, cols] =>
        let rows := toSize rows
        let inner := toSize inner
        let rhsInner := toSize rhsInner
        let cols := toSize cols
        if inner ≠ rhsInner ∨ lhs.data.length ≠ wrapSize (rows * inner)
            ∨ rhs.data.length ≠ wrapSize (rhsInner * cols) then
          vm.shapeFault insn pc
        else do
          let out ← matMulData host lhs.data rhs.data rows inner cols
          vm.finishTensor insn pc [ofSize rows, ofSize cols] out
    | _, _ => vm.shapeFault insn pc

def executeTTenDot : Outcome :=
  vm.withTensorPair insn pc fun lhs rhs =>
    if lhs.data.length ≠ rhs.data.length then
      vm.shapeFault insn pc
    else do
      let sum ← tenDotData host lhs.data rhs.data
      vm.finishTensor insn pc [1] [sum]

def executeTTranspose : Outcome :=
  vm.withTensor insn pc fun input =>
    match input.shape with
    | [rows, cols] =>
        let rows := toSize rows
        let cols := toSize cols
        if input.data.length ≠ wrapSize (rows * cols) then
          vm.shapeFault insn pc
        else do
          let out ← transposeData input.data rows cols
          vm.finishTensor insn pc [ofSize cols, ofSize rows] out
    | _ => vm.shapeFault insn pc

/-- The data of an activation, or `none` where it raises `ShapeFault`. -/
def activationData (opcode : Opcode) (data : List Int64) :
    Except Stuck (Option (List Int64)) :=
  match opcode with
  | .tExp => .ok (some (data.map fun v => host.roundedExp (clampExponent v)))
  | .tSqrt =>
      .ok (some (data.map fun v => host.roundedSqrt (if v < 0 then 0 else v)))
  | .tSiLU => .ok (some (data.map host.roundedSiLU))
  | .tSoftmax =>
      if data.isEmpty then .ok none
      else if host.softmaxVanishes data then .ok none
      else .ok (some (data.mapIdx fun i _ => host.roundedSoftmax data i))
  | .tRMSNorm =>
      if data.isEmpty then .ok none
      else if host.rmsVanishes data then .ok (some (data.map fun _ => 0))
      else .ok (some (data.map (host.roundedRms data)))
  | .tRoPE =>
      if data.length % 2 ≠ 0 then .ok none
      else do
        let turned ← rotatePairs host data
        return some turned
  | _ => .ok (some data)

/-- `TExp`, `TSqrt`, `TSiLU`, `TSoftmax`, `TRMSNorm` and `TRoPE`. -/
def executeActivation : Outcome :=
  vm.withTensor insn pc fun input => do
    match ← activationData host insn.opcode input.data with
    | none => vm.shapeFault insn pc
    | some out => vm.finishTensor insn pc input.shape out

def executeChkShape : Outcome := do
  let tagged ← vm.tagsAre insn .tensorHandle .shapeHandle
  if !tagged then
    .ok (vm.trap .typeFault insn.opcode pc)
  else do
    let tensor ← vm.register insn.b
    let shape ← vm.register insn.c
    match vm.tensorPtr tensor, vm.shapePtr shape with
    | some tensor, some shape =>
        vm.finishWrite insn pc (if tensor.shape = shape then 1 else 0) .int
    | _, _ => .ok (vm.trap .decodeFault insn.opcode pc)

/-- The handle `WeightsLoad` writes. -/
def weightsHandle : Except Stuck Int64 :=
  if insn.b > 0 then .ok insn.b
  else host.signed (.add 1000 (ofSize pc))

def executeWeightsLoad : Outcome := do
  let handle ← weightsHandle host insn pc
  let vm ← vm.setRegisterValue insn.a handle .weightsTensorHandle
  let vm := vm.logEvent insn.opcode (text "weights handle loaded")
  let written ← vm.register insn.a
  (vm.setFlags written).finish insn pc

def executeSetF : Outcome := do
  let value ← vm.register insn.b
  vm.finishWrite insn pc value .int

/-- Read the tag and the value an option, result or enum is made of. -/
def payloadOf (idx : Int64) : Except Stuck (ValueTag × Int64) := do
  let tag ← vm.registerTag idx
  let value ← vm.register idx
  return (tag, value)

def executeMakeOptionSome : Outcome := do
  let (tag, value) ← vm.payloadOf insn.b
  let (handle, vm) ← vm.internOption true tag value
  vm.finishWrite insn pc handle .optionHandle

def executeMakeOptionNone : Outcome := do
  let (handle, vm) ← vm.internOption false .int 0
  vm.finishWrite insn pc handle .optionHandle

/-- `MakeResultOk` and `MakeResultErr`. -/
def executeMakeResult (isOk : Bool) : Outcome := do
  let (tag, value) ← vm.payloadOf insn.b
  let (handle, vm) ← vm.internResult isOk tag value
  vm.finishWrite insn pc handle .resultHandle

def executeMakeEnumVariant : Outcome := do
  let (handle, vm) ← vm.internEnum insn.b false .int 0
  vm.finishWrite insn pc handle .enumHandle

def executeMakeEnumVariantPayload : Outcome :=
  if insn.c < 0 then
    .ok (vm.trap .decodeFault insn.opcode pc)
  else do
    let (tag, value) ← vm.payloadOf insn.b
    let (handle, vm) ← vm.internEnum insn.c true tag value
    vm.finishWrite insn pc handle .enumHandle

/-- The guards of an opcode that inspects a structured value, then what it
writes; `none` stands for the wrong constructor. -/
def withHandle {α : Type} (tag : ValueTag) (lookup : Int64 → Option α)
    (inspect : α → Option (Int64 × ValueTag)) : Outcome := do
  let tagged ← vm.tagIs insn.b tag
  if !tagged then
    .ok (vm.trap .typeFault insn.opcode pc)
  else do
    let handle ← vm.register insn.b
    match (lookup handle).bind inspect with
    | some (value, valueTag) => vm.finishWrite insn pc value valueTag
    | none => .ok (vm.trap .decodeFault insn.opcode pc)

def executeOptionIsSome : Outcome :=
  vm.withHandle insn pc .optionHandle vm.optionPtr fun option =>
    some (if option.hasValue then 1 else 0, .int)

def executeOptionUnwrap : Outcome :=
  vm.withHandle insn pc .optionHandle vm.optionPtr fun option =>
    if option.hasValue then some (option.payload, option.payloadTag) else none

def executeResultIsOk : Outcome :=
  vm.withHandle insn pc .resultHandle vm.resultPtr fun result =>
    some (if result.isOk then 1 else 0, .int)

def executeResultUnwrapOk : Outcome :=
  vm.withHandle insn pc .resultHandle vm.resultPtr fun result =>
    if result.isOk then some (result.payload, result.payloadTag) else none

def executeResultUnwrapErr : Outcome :=
  vm.withHandle insn pc .resultHandle vm.resultPtr fun result =>
    if result.isOk then none else some (result.payload, result.payloadTag)

def executeEnumIsVariant : Outcome :=
  vm.withHandle insn pc .enumHandle vm.enumPtr fun enumValue =>
    some (if enumValue.variantId = insn.c then 1 else 0, .int)

def executeEnumUnwrapPayload : Outcome :=
  vm.withHandle insn pc .enumHandle vm.enumPtr fun enumValue =>
    if enumValue.hasPayload then
      some (enumValue.payload, enumValue.payloadTag)
    else none

def executeStackAlloc : Outcome :=
  if insn.b ≤ 0 then
    .ok (vm.trap .stackFault insn.opcode pc .stack
      (text "invalid stack alloc size"))
  else
    let bytes := toSize insn.b
    if bytes > vm.state.sp ∨ vm.state.sp - bytes < vm.state.layout.stack.start then
      .ok ((vm.logBoundsFault insn.opcode .stack insn.b
        (text "stack frame allocate")).trap .stackFault insn.opcode pc .stack
        (text "stack frame allocate"))
    else do
      let sp := vm.state.sp - bytes
      let vm := { vm with
        state := { vm.state with
          sp
          stackFrames := (sp, bytes) :: vm.state.stackFrames } }
      let vm ← vm.setRegisterValue insn.a (ofSize sp) .int
      (vm.logEvent insn.opcode (text "stack frame allocated")).finish insn pc

/-- The size a release names; a size that is not positive reads as zero. -/
def requestedSize (size : Int64) : Nat :=
  if size > 0 then toSize size else 0

def executeStackFree : Outcome :=
  match vm.state.stackFrames with
  | [] =>
      .ok (vm.trap .stackFault insn.opcode pc .stack
        (text "stack frame free empty"))
  | top :: frames => do
      let expected ← vm.register insn.a
      if toSize expected ≠ top.1 ∨ requestedSize insn.b ≠ top.2 then
        .ok (vm.trap .stackFault insn.opcode pc .stack
          (text "stack frame free mismatch"))
      else
        let vm := { vm with
          state := { vm.state with
            stackFrames := frames
            sp := wrapSize (vm.state.sp + top.2) } }
        (vm.logEvent insn.opcode (text "stack frame freed")).finish insn pc

def executeHeapAlloc : Outcome :=
  if insn.b ≤ 0 then
    .ok (vm.trap .decodeFault insn.opcode pc .heap
      (text "invalid heap alloc size"))
  else
    let bytes := toSize insn.b
    if wrapSize (vm.state.heapPtr + bytes) > vm.state.layout.heap.limit then
      .ok ((vm.logBoundsFault insn.opcode .heap insn.b
        (text "heap block allocate")).trap .boundsFault insn.opcode pc .heap
        (text "heap block allocate"))
    else do
      let addr := vm.state.heapPtr
      let vm := { vm with
        state := { vm.state with
          heapPtr := wrapSize (addr + bytes)
          heapFrames := (addr, bytes) :: vm.state.heapFrames } }
      let vm ← vm.setRegisterValue insn.a (ofSize addr) .int
      (vm.logEvent insn.opcode (text "heap block allocated")).finish insn pc

def executeHeapFree : Outcome :=
  match vm.state.heapFrames with
  | [] =>
      .ok (vm.trap .decodeFault insn.opcode pc .heap
        (text "heap block free empty"))
  | top :: frames => do
      let expected ← vm.register insn.a
      if toSize expected ≠ top.1 ∨ requestedSize insn.b ≠ top.2 then
        .ok (vm.trap .decodeFault insn.opcode pc .heap
          (text "heap block free mismatch"))
      else
        let vm := { vm with
          state := { vm.state with
            heapFrames := frames
            heapPtr := top.1 } }
        (vm.logEvent insn.opcode (text "heap block freed")).finish insn pc

def executeHalt : Outcome :=
  ({ vm with
    state := { vm.state with
      halted := true
      lastTrapPayload := none } }).finish insn pc

/-- The switch of `Interpreter::step`. -/
def execute : Outcome :=
  match insn.opcode with
  | .nop => vm.finish insn pc
  | .halt => vm.executeHalt insn pc
  | .loadImm => vm.executeLoadImm insn pc
  | .load => vm.executeLoad insn pc
  | .store => vm.executeStore insn pc
  | .add | .sub | .mul | .div | .mod
  | .fAdd | .fSub | .fMul | .fDiv
  | .fracAdd | .fracSub | .fracMul | .fracDiv =>
      vm.executeArithmetic host insn pc
  | .mov => vm.executeMove insn pc
  | .inc => vm.executeBump host insn pc (.add · 1)
  | .dec => vm.executeBump host insn pc (.sub · 1)
  | .cmp => vm.executeCmp host insn pc
  | .neg => vm.executeNeg host insn pc
  | .tNot => vm.executeTNot host insn pc
  | .tAnd | .tOr | .tXor => vm.executeTrit host insn pc
  | .i2F | .f2I | .i2Frac | .frac2I => vm.executeMove insn pc
  | .less | .lessEqual | .greater | .greaterEqual | .equal | .notEqual =>
      vm.executeCompare insn pc
  | .push => vm.executePush insn pc
  | .pop => vm.executePop insn pc
  | .jump => vm.checkJumpTarget insn pc insn.a
  | .jumpIfZero => vm.executeJumpIf insn pc vm.state.flags.zero
  | .jumpIfNotZero => vm.executeJumpIf insn pc (!vm.state.flags.zero)
  | .jumpIfNegative => vm.executeJumpIf insn pc vm.state.flags.negative
  | .jumpIfPositive => vm.executeJumpIf insn pc vm.state.flags.positive
  | .call => vm.executeCall insn pc
  | .ret => vm.executeRet insn pc
  | .trap => .ok (vm.trap .trapInstruction insn.opcode pc)
  | .axRead => vm.executeAxRead insn pc
  | .axSet => vm.executeAxSet insn pc
  | .axVerify => vm.executeAxVerify insn pc
  | .tVecAdd | .tVecMul => vm.executeVector host insn pc
  | .tMatMul => vm.executeTMatMul host insn pc
  | .tTenDot => vm.executeTTenDot host insn pc
  | .tTranspose => vm.executeTTranspose insn pc
  | .tExp | .tSqrt | .tSiLU | .tSoftmax | .tRMSNorm | .tRoPE =>
      vm.executeActivation host insn pc
  | .chkShape => vm.executeChkShape insn pc
  | .weightsLoad => vm.executeWeightsLoad host insn pc
  | .setF => vm.executeSetF insn pc
  | .makeOptionSome => vm.executeMakeOptionSome insn pc
  | .makeOptionNone => vm.executeMakeOptionNone insn pc
  | .makeResultOk => vm.executeMakeResult insn pc true
  | .makeResultErr => vm.executeMakeResult insn pc false
  | .optionIsSome => vm.executeOptionIsSome insn pc
  | .optionUnwrap => vm.executeOptionUnwrap insn pc
  | .resultIsOk => vm.executeResultIsOk insn pc
  | .resultUnwrapOk => vm.executeResultUnwrapOk insn pc
  | .resultUnwrapErr => vm.executeResultUnwrapErr insn pc
  | .makeEnumVariant => vm.executeMakeEnumVariant insn pc
  | .makeEnumVariantPayload => vm.executeMakeEnumVariantPayload insn pc
  | .enumIsVariant => vm.executeEnumIsVariant insn pc
  | .enumUnwrapPayload => vm.executeEnumUnwrapPayload insn pc
  | .stackAlloc => vm.executeStackAlloc insn pc
  | .stackFree => vm.executeStackFree insn pc
  | .heapAlloc => vm.executeHeapAlloc insn pc
  | .heapFree => vm.executeHeapFree insn pc
  | .undefined _ => .ok (vm.trap .decodeFault insn.opcode pc)

/-- The work of `step` between the fetch and the switch. -/
def beginInsn : Interpreter :=
  { vm with
    steps := vm.steps + 1
    state := { vm.state with
      gcCycles :=
        if (vm.steps + 1) % deterministicGcInterval = 0 then
          vm.state.gcCycles + 1
        else vm.state.gcCycles }
    currentWriteReg := none
    currentWriteValue := none
    currentWriteTag := none }

def step : Outcome :=
  if vm.state.halted then
    .ok (.ok (), vm)
  else
    match vm.preloadTrap with
    | some code => .ok (vm.trap code vm.currentOpcode vm.state.pc)
    | none =>
        match vm.program.insns[vm.state.pc]? with
        | none => .ok (vm.trap .decodeFault .nop vm.state.pc)
        | some insn => vm.beginInsn.execute host insn vm.state.pc

/-- The loop of `run_to_halt`, by the number of steps left. -/
def runToHalt : Nat → Interpreter → Outcome
  | 0, vm => .ok (.error .trapInstruction, vm)
  | maxSteps + 1, vm => do
      let (result, vm) ← vm.step host
      match result with
      | .error code => return (.error code, vm)
      | .ok () =>
          if vm.state.halted then return (.ok (), vm)
          else runToHalt maxSteps vm

/-- `set_register`: an index outside the register file is ignored. -/
def setRegister (idx : Int32) (value : Int64) (tag : ValueTag) : Interpreter :=
  if inRange : 0 ≤ idx.toInt ∧ idx.toInt.toNat < 243 then
    vm.writeRegister ⟨idx.toInt.toNat, inRange.2⟩ value tag
  else vm

/-- `load_program`; the members `current_write_*` keep their values. -/
def loadProgram (program : Program) : Except StdException Interpreter := do
  let loaded ← loadProgramImage program
  return { vm with
    program := loaded.program
    state := { loaded.initialState with
      registerTags := fun _ => .int
      optionPool := []
      resultPool := []
      enumPool := []
      tensorPool := []
      shapePool := []
      lastTrapPayload := none }
    preloadTrap := loaded.preloadTrap
    steps := 0
    callStack := [] }

end Interpreter

end T81VM.VM
