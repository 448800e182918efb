import T81VM.VM.Arithmetic
import T81VM.VM.Loader

/-!
# The interpreter object

The private members of `Interpreter` beside its state, and the helper
functions its dispatch loop is written with.  A helper that indexes the
register file or the memory fails when the index is out of range.
-/

namespace T81VM.VM

open Tisc

/-- `std::expected<void, Trap>`. -/
abbrev Expected := Except Trap Unit

structure Interpreter where
  program : Program :=
    { insns := [], axionPolicyText := [], fits := Nat.zero_le maxInsns }
  state : State := {}
  preloadTrap : Option Trap := none
  steps : Nat := 0
  /-- The most recent return address first. -/
  callStack : List Nat := []
  currentWriteReg : Option Nat := none
  currentWriteValue : Option Int64 := none
  currentWriteTag : Option ValueTag := none

/-- What a call returns together with the object it leaves, unless it does
not return. -/
abbrev Outcome := Except Stuck (Expected × Interpreter)

def deterministicGcInterval : Nat := 64
def tritMax : Int64 := 1
def tritMin : Int64 := -1

/-- The longest pool; handles are positions in a pool cast to signed words. -/
def maxPool : Nat := ptrdiffMax

/-- The register cell an operand indexes. -/
def registerIndex (idx : Int64) : Except Stuck (Fin 243) :=
  if inRange : toSize idx < 243 then .ok ⟨toSize idx, inRange⟩
  else .error (.registerIndex idx)

def clampTrit (value : Int64) : Int64 :=
  if value > tritMax then tritMax
  else if value < tritMin then tritMin
  else value

namespace Interpreter

variable (vm : Interpreter)

def register (idx : Int64) : Except Stuck Int64 := do
  let reg ← registerIndex idx
  return vm.state.registers reg

def registerTag (idx : Int64) : Except Stuck ValueTag := do
  let reg ← registerIndex idx
  return vm.state.registerTags reg

/-- Read a cell of `memory`. -/
def memoryAt (addr : Nat) : Except Stuck Int64 :=
  match vm.state.memory[addr]? with
  | some value => .ok value
  | none => .error (.memoryIndex addr)

/-- Write a cell of `memory`. -/
def setMemory (addr : Nat) (value : Int64) : Except Stuck Interpreter :=
  if addr < vm.state.memory.length then
    .ok { vm with
      state := { vm.state with memory := vm.state.memory.set addr value } }
  else
    .error (.memoryIndex addr)

/-- Assign a register and its tag. -/
def assignRegister (reg : Fin 243) (value : Int64) (tag : ValueTag) :
    Interpreter :=
  { vm with
    state := { vm.state with
      registers := Function.update vm.state.registers reg value
      registerTags := Function.update vm.state.registerTags reg tag } }

/-- Remember a write for the next trace entry. -/
def recordWrite (reg : Fin 243) (value : Int64) (tag : ValueTag) :
    Interpreter :=
  { vm with
    currentWriteReg := some reg
    currentWriteValue := some value
    currentWriteTag := some tag }

/-- `set_register_value` once its index is known to be in range. -/
def writeRegister (reg : Fin 243) (value : Int64) (tag : ValueTag) :
    Interpreter :=
  (vm.assignRegister reg value tag).recordWrite reg value tag

def setRegisterValue (idx : Int64) (value : Int64) (tag : ValueTag) :
    Except Stuck Interpreter := do
  let reg ← registerIndex idx
  return vm.writeRegister reg value tag

def setFlags (value : Int64) : Interpreter :=
  { vm with
    state := { vm.state with
      flags := {
        zero := value == 0
        negative := value < 0
        positive := value > 0 } } }

/-- `++state_.pc`. -/
def advance : Interpreter :=
  { vm with state := { vm.state with pc := vm.state.pc + 1 } }

def segmentOf (addr : Nat) : MemorySegmentKind :=
  if vm.state.layout.code.contains addr then .code
  else if vm.state.layout.stack.contains addr then .stack
  else if vm.state.layout.heap.contains addr then .heap
  else if vm.state.layout.tensor.contains addr then .tensor
  else if vm.state.layout.metaSegment.contains addr then .metaSegment
  else .unknown

def validMem (idx : Int64) : Bool :=
  if idx < 0 then false
  else if toSize idx ≥ vm.state.memory.length then false
  else vm.segmentOf (toSize idx) != .unknown

def logEvent (opcode : Opcode) (reason : Text) : Interpreter :=
  { vm with
    state := { vm.state with
      axionLog := vm.state.axionLog ++ [{ opcode, reason }] } }

def logSegmentEvent (opcode : Opcode) (kind : MemorySegmentKind) :
    Interpreter :=
  if kind = .unknown then vm
  else vm.logEvent opcode (text "segment access " ++ kind.name)

def logBoundsFault (opcode : Opcode) (segment : MemorySegmentKind)
    (addr : Int64) (action : Text) : Interpreter :=
  vm.logEvent opcode
    (text "bounds fault segment=" ++ segment.name
      ++ text " addr=" ++ Decimal.integer addr.toInt
      ++ text " action=" ++ action)

def axionDenied : Bool :=
  match vm.state.policy with
  | some policy => policy.tier == 0
  | none => false

def logAxionGuard (opcode : Opcode) (label : Text)
    (segment : MemorySegmentKind) (addr : Int64) (denied : Bool)
    (value : Option Int64 := none) : Interpreter :=
  vm.logEvent opcode
    (label ++ text " segment=" ++ segment.name
      ++ text " addr=" ++ Decimal.integer addr.toInt
      ++ (match value with
          | some value => text " value=" ++ Decimal.integer value.toInt
          | none => [])
      ++ (if denied then text " deny=tier0" else text " allow"))

/-- The memory segment an Axion guard names for an address. -/
def guardSegment (addr : Int64) : MemorySegmentKind :=
  if addr ≥ 0 then vm.segmentOf (toSize addr) else .unknown

def currentOpcode : Opcode :=
  match vm.program.insns[vm.state.pc]? with
  | some insn => insn.opcode
  | none => .nop

/-- A trace entry with the write remembered since the last fetch. -/
def traceEntry (opcode : Opcode) (pc : Nat) (trap : Option Trap) :
    TraceEntry :=
  { pc, opcode, trap
    writeReg := vm.currentWriteReg
    writeValue := vm.currentWriteValue
    writeTag := vm.currentWriteTag }

def traceOk (opcode : Opcode) (pc : Nat) : Expected × Interpreter :=
  (.ok (), { vm with
    state := { vm.state with
      trace := vm.state.trace ++ [vm.traceEntry opcode pc none] } })

/-- The operands a trap payload reports: those of the instruction at `pc`,
when it has the opcode the trap names. -/
def faultOperands (opcode : Opcode) (pc : Nat) : Int64 × Int64 × Int64 :=
  match vm.program.insns[pc]? with
  | some insn =>
      if insn.opcode = opcode then (insn.a, insn.b, insn.c) else (0, 0, 0)
  | none => (0, 0, 0)

def trapPayload (code : Trap) (opcode : Opcode) (pc : Nat)
    (segment : MemorySegmentKind) (detail : Text) : TrapPayload :=
  let (a, b, c) := vm.faultOperands opcode pc
  { trap := code, pc, opcode, a, b, c, segment, detail }

def trap (code : Trap) (opcode : Opcode) (pc : Nat)
    (segment : MemorySegmentKind := .unknown) (detail : Text := []) :
    Expected × Interpreter :=
  (.error code, { vm with
    state := { vm.state with
      lastTrapPayload := some (vm.trapPayload code opcode pc segment detail)
      trace := vm.state.trace ++ [vm.traceEntry opcode pc (some code)] }
    preloadTrap := none })

/-- Store a register on the stack; `none` when there is no room. -/
def pushRegister (idx : Int64) : Except Stuck (Option Interpreter) :=
  if vm.state.sp = 0 ∨ vm.state.sp - 1 < vm.state.layout.stack.start then
    .ok none
  else do
    let value ← vm.register idx
    let moved := { vm with state := { vm.state with sp := vm.state.sp - 1 } }
    let stored ← moved.setMemory (vm.state.sp - 1) value
    return some stored

/-- Load a register from the stack; `none` when the stack is empty. -/
def popRegister (idx : Int64) : Except Stuck (Option Interpreter) :=
  if vm.state.sp ≥ vm.state.layout.stack.limit then
    .ok none
  else do
    let value ← vm.memoryAt vm.state.sp
    let reg ← registerIndex idx
    let assigned := vm.assignRegister reg value .int
    return some { assigned with
      state := { assigned.state with sp := vm.state.sp + 1 } }

/-- `push_back` on a pool. -/
def appendPool {α : Type} (pool : List α) (value : α) :
    Except Stuck (List α) :=
  if pool.length < maxPool then .ok (pool ++ [value])
  else .error (.exception .lengthError)

def internOption (hasValue : Bool) (payloadTag : ValueTag) (payload : Int64) :
    Except Stuck (Int64 × Interpreter) := do
  let pool ← appendPool vm.state.optionPool { hasValue, payloadTag, payload }
  return (ofSize pool.length,
    { vm with state := { vm.state with optionPool := pool } })

def internResult (isOk : Bool) (payloadTag : ValueTag) (payload : Int64) :
    Except Stuck (Int64 × Interpreter) := do
  let pool ← appendPool vm.state.resultPool { isOk, payloadTag, payload }
  return (ofSize pool.length,
    { vm with state := { vm.state with resultPool := pool } })

def internEnum (variantId : Int64) (hasPayload : Bool)
    (payloadTag : ValueTag) (payload : Int64) :
    Except Stuck (Int64 × Interpreter) := do
  let pool ← appendPool vm.state.enumPool
    { variantId, hasPayload, payloadTag, payload }
  return (ofSize pool.length,
    { vm with state := { vm.state with enumPool := pool } })

def internTensor (shape data : List Int64) :
    Except Stuck (Int64 × Interpreter) := do
  let pool ← appendPool vm.state.tensorPool { shape, data }
  return (ofSize pool.length,
    { vm with state := { vm.state with tensorPool := pool } })

end Interpreter

/-- The pool entry a handle denotes, the first one having handle one. -/
def poolEntry {α : Type} (pool : List α) (handle : Int64) : Option α :=
  if handle ≤ 0 ∨ toSize handle > pool.length then none
  else pool[toSize handle - 1]?

namespace Interpreter

variable (vm : Interpreter)

def optionPtr (handle : Int64) : Option OptionValue :=
  poolEntry vm.state.optionPool handle

def resultPtr (handle : Int64) : Option ResultValue :=
  poolEntry vm.state.resultPool handle

def enumPtr (handle : Int64) : Option EnumValue :=
  poolEntry vm.state.enumPool handle

def tensorPtr (handle : Int64) : Option TensorValue :=
  poolEntry vm.state.tensorPool handle

def shapePtr (handle : Int64) : Option (List Int64) :=
  poolEntry vm.state.shapePool handle

end Interpreter

end T81VM.VM
