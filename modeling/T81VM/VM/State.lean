import T81VM.Tisc.Program

/-!
# Machine state

The observable state of the virtual machine and the data it is made of.
-/

namespace T81VM.VM

open Tisc

inductive Trap where
  | none | decodeFault | typeFault | boundsFault | stackFault
  | divisionFault | securityFault | shapeFault | trapInstruction
  deriving DecidableEq, Repr

/-- `to_string(Trap)`. -/
def Trap.name : Trap → Text
  | .none => text "None"
  | .decodeFault => text "DecodeFault"
  | .typeFault => text "TypeFault"
  | .boundsFault => text "BoundsFault"
  | .stackFault => text "StackFault"
  | .divisionFault => text "DivisionFault"
  | .securityFault => text "SecurityFault"
  | .shapeFault => text "ShapeFault"
  | .trapInstruction => text "TrapInstruction"

inductive ValueTag where
  | int | tensorHandle | shapeHandle | weightsTensorHandle
  | optionHandle | resultHandle | enumHandle
  deriving DecidableEq, Repr

/-- `to_string(ValueTag)`. -/
def ValueTag.name : ValueTag → Text
  | .int => text "Int"
  | .tensorHandle => text "TensorHandle"
  | .shapeHandle => text "ShapeHandle"
  | .weightsTensorHandle => text "WeightsTensorHandle"
  | .optionHandle => text "OptionHandle"
  | .resultHandle => text "ResultHandle"
  | .enumHandle => text "EnumHandle"

structure TraceEntry where
  pc : Nat
  opcode : Opcode
  writeReg : Option Nat
  writeValue : Option Int64
  writeTag : Option ValueTag
  trap : Option Trap
  deriving DecidableEq

structure Flags where
  zero : Bool := false
  negative : Bool := false
  positive : Bool := false
  deriving DecidableEq

inductive MemorySegmentKind where
  | unknown | code | stack | heap | tensor | metaSegment
  deriving DecidableEq, Repr

/-- `to_string(MemorySegmentKind)`. -/
def MemorySegmentKind.name : MemorySegmentKind → Text
  | .code => text "code"
  | .stack => text "stack"
  | .heap => text "heap"
  | .tensor => text "tensor"
  | .metaSegment => text "meta"
  | .unknown => text "unknown"

/-- A half-open address interval. -/
structure MemorySegment where
  start : Nat := 0
  limit : Nat := 0
  deriving DecidableEq

def MemorySegment.valid (segment : MemorySegment) : Bool :=
  segment.limit > segment.start

def MemorySegment.contains (segment : MemorySegment) (addr : Nat) : Bool :=
  segment.valid && addr ≥ segment.start && addr < segment.limit

theorem MemorySegment.contains_iff (segment : MemorySegment) (addr : Nat) :
    segment.contains addr = true ↔
      segment.start ≤ addr ∧ addr < segment.limit := by
  simp only [contains, valid, Bool.and_eq_true, decide_eq_true_eq]
  omega

structure MemoryLayout where
  code : MemorySegment := {}
  stack : MemorySegment := {}
  heap : MemorySegment := {}
  tensor : MemorySegment := {}
  metaSegment : MemorySegment := {}
  deriving DecidableEq

def MemoryLayout.totalSize (layout : MemoryLayout) : Nat :=
  layout.metaSegment.limit

structure AxionEvent where
  opcode : Opcode
  reason : Text
  deriving DecidableEq

structure Policy where
  tier : Int32 := 0
  deriving DecidableEq

structure OptionValue where
  hasValue : Bool
  payloadTag : ValueTag
  payload : Int64
  deriving DecidableEq

structure ResultValue where
  isOk : Bool
  payloadTag : ValueTag
  payload : Int64
  deriving DecidableEq

structure EnumValue where
  variantId : Int64
  hasPayload : Bool
  payloadTag : ValueTag
  payload : Int64
  deriving DecidableEq

structure TensorValue where
  shape : List Int64
  data : List Int64
  deriving DecidableEq

structure TrapPayload where
  trap : Trap
  pc : Nat
  opcode : Opcode
  a : Int64
  b : Int64
  c : Int64
  segment : MemorySegmentKind
  detail : Text
  deriving DecidableEq

/-- The register file holds 243 cells. -/
abbrev RegisterFile (α : Type) := Fin 243 → α

/-- The stacks `stackFrames` and `heapFrames` list the most recent entry
first; every other vector is listed from its first element. -/
structure State where
  pc : Nat := 0
  halted : Bool := false
  registers : RegisterFile Int64 := fun _ => 0
  registerTags : RegisterFile ValueTag := fun _ => .int
  memory : List Int64 := []
  trace : List TraceEntry := []
  axionLog : List AxionEvent := []
  flags : Flags := {}
  layout : MemoryLayout := {}
  sp : Nat := 0
  heapPtr : Nat := 0
  stackFrames : List (Nat × Nat) := []
  heapFrames : List (Nat × Nat) := []
  optionPool : List OptionValue := []
  resultPool : List ResultValue := []
  enumPool : List EnumValue := []
  tensorPool : List TensorValue := []
  shapePool : List (List Int64) := []
  lastTrapPayload : Option TrapPayload := none
  policy : Option Policy := none
  gcCycles : Nat := 0

end T81VM.VM
