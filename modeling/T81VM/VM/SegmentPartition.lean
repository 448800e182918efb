import T81VM.VM.Installed

/-!
# The segments of the memory

The segments of a loaded program lie behind one another and cover its memory,
so an address is inside the memory exactly if some segment has it.
-/

namespace T81VM.VM

open Tisc PartialSystem

/-- The segment of a kind; no address is in the unknown one. -/
def MemoryLayout.segment (layout : MemoryLayout) :
    MemorySegmentKind → MemorySegment
  | .code => layout.code
  | .stack => layout.stack
  | .heap => layout.heap
  | .tensor => layout.tensor
  | .metaSegment => layout.metaSegment
  | .unknown => {}

/-- The address is not below the end of the last segment. -/
def OutOfBounds (size : Nat) (addr : Int64) : Prop :=
  addr < 0 ∨ (size + 1536 : Nat) ≤ addr.toInt

namespace Interpreter

variable {host : Host} {program : Program} {vm final : Interpreter}
  {insn : Insn} {result : Expected} {size addr : Nat}

/-- The segments divide the memory of a program of the given size. -/
structure Partitioned (size : Nat) (vm : Interpreter) : Prop where
  memory : vm.state.memory.length = size + 1536
  total : vm.state.layout.totalSize = size + 1536
  inside : ∀ addr, addr < size + 1536 →
    vm.segmentOf addr ≠ .unknown ∧
      ∀ kind, (vm.state.layout.segment kind).contains addr = true ↔
        vm.segmentOf addr = kind
  outside : ∀ addr, size + 1536 ≤ addr →
    vm.segmentOf addr = .unknown ∧
      ∀ kind, (vm.state.layout.segment kind).contains addr = false

/-- A `Load` faults outside the memory and reads its cell otherwise. -/
structure LoadsExactly (host : Host) (size : Nat) (vm : Interpreter)
    (insn : Insn) : Prop where
  faults : (∃ final, vm.step host = .ok (.error .boundsFault, final)) ↔
    OutOfBounds size insn.b
  reads : ¬ OutOfBounds size insn.b →
    ∃ reg value final, registerIndex insn.a = .ok reg ∧
      vm.state.memory[insn.b.toInt.toNat]? = some value ∧
      vm.step host = .ok (.ok (), final) ∧
      final.state.registers = Function.update vm.state.registers reg value ∧
      final.state.memory = vm.state.memory

/-- A `Store` faults outside the memory and writes its cell otherwise. -/
structure StoresExactly (host : Host) (size : Nat) (vm : Interpreter)
    (insn : Insn) : Prop where
  faults : (∃ final, vm.step host = .ok (.error .boundsFault, final)) ↔
    OutOfBounds size insn.a
  writes : ¬ OutOfBounds size insn.a →
    ∃ reg final, registerIndex insn.b = .ok reg ∧
      insn.a.toInt.toNat < vm.state.memory.length ∧
      vm.step host = .ok (.ok (), final) ∧
      final.state.memory = vm.state.memory.set insn.a.toInt.toNat
        (vm.state.registers reg) ∧
      final.state.registers = vm.state.registers

/-- The segments divide the memory, and the memory opcodes fault exactly
outside them. -/
structure SegmentsPartition (host : Host) (program : Program)
    (vm : Interpreter) : Prop where
  partitioned : Partitioned program.insns.length vm
  loads : ∀ insn, vm.Fetches insn → insn.opcode = .load →
    LoadsExactly host program.insns.length vm insn
  stores : ∀ insn, vm.Fetches insn → insn.opcode = .store →
    StoresExactly host program.insns.length vm insn

/-! ## The classification of addresses -/

/-- The segments from the lowest to the highest. -/
theorem Installed.segmentOf_eq (installed : Installed program vm)
    (addr : Nat) :
    vm.segmentOf addr =
      if addr < program.insns.length then .code
      else if addr < program.insns.length + 256 then .stack
      else if addr < program.insns.length + 1024 then .heap
      else if addr < program.insns.length + 1280 then .tensor
      else if addr < program.insns.length + 1536 then .metaSegment
      else .unknown := by
  simp only [segmentOf, installed.layout_eq, MemorySegment.contains_iff,
    initialLayout, defaultStackSize, defaultHeapSize, defaultTensorSize,
    defaultMetaSize]
  split_ifs <;> first | rfl | omega

/-- An address is in the segment it is classified by and in no other. -/
theorem Installed.contains_segment_iff (installed : Installed program vm)
    {kind : MemorySegmentKind} :
    (vm.state.layout.segment kind).contains addr = true ↔
      vm.segmentOf addr = kind ∧ kind ≠ .unknown := by
  rw [installed.segmentOf_eq, installed.layout_eq,
    MemorySegment.contains_iff]
  cases kind <;>
    simp only [MemoryLayout.segment, initialLayout, defaultStackSize,
      defaultHeapSize, defaultTensorSize, defaultMetaSize] <;>
    split_ifs <;> simp <;> omega

theorem Installed.segmentOf_eq_unknown_iff
    (installed : Installed program vm) :
    vm.segmentOf addr = .unknown ↔ program.insns.length + 1536 ≤ addr := by
  rw [installed.segmentOf_eq]
  split_ifs <;> simp <;> omega

theorem Installed.partitioned (installed : Installed program vm) :
    Partitioned program.insns.length vm := by
  refine ⟨installed.memory_length, ?_, ?_, ?_⟩
  · rw [installed.layout_eq]
    rfl
  · intro addr inside
    have known : vm.segmentOf addr ≠ .unknown := by
      intro unknown
      have outside := installed.segmentOf_eq_unknown_iff.mp unknown
      omega
    refine ⟨known, fun kind => ?_⟩
    rw [installed.contains_segment_iff]
    constructor
    · intro classified
      exact classified.1
    · intro classified
      exact ⟨classified, classified ▸ known⟩
  · intro addr outside
    have unknown := installed.segmentOf_eq_unknown_iff.mpr outside
    refine ⟨unknown, fun kind => ?_⟩
    rw [Bool.eq_false_iff]
    intro inside
    obtain ⟨classified, known⟩ := installed.contains_segment_iff.mp inside
    exact known (classified.symm.trans unknown)

theorem Installed.beginInsn (installed : Installed program vm) :
    Installed program vm.beginInsn :=
  ⟨installed.program_eq, installed.layout_eq, installed.memory_length⟩

/-- `valid_mem` accepts the addresses of the memory. -/
theorem Installed.validMem_iff (installed : Installed program vm)
    {address : Int64} :
    vm.validMem address = true ↔
      ¬ OutOfBounds program.insns.length address := by
  have size := installed.memory_length
  rw [initialLayout_totalSize] at size
  rw [Interpreter.validMem_iff, OutOfBounds, not_or, Int64.not_lt]
  constructor
  · intro valid
    obtain ⟨nonneg, inside, _⟩ := valid
    have cast := toSize_of_nonneg nonneg
    exact ⟨nonneg, by omega⟩
  · intro valid
    obtain ⟨nonneg, inside⟩ := valid
    have cast := toSize_of_nonneg nonneg
    refine ⟨nonneg, by omega, fun unknown => ?_⟩
    have outside := installed.segmentOf_eq_unknown_iff.mp unknown
    omega

/-- The cell of an address inside the memory. -/
theorem Installed.cell_of_inside (installed : Installed program vm)
    {address : Int64} (inside : ¬ OutOfBounds program.insns.length address) :
    toSize address = address.toInt.toNat ∧
      address.toInt.toNat < vm.state.memory.length := by
  have size := installed.memory_length
  rw [initialLayout_totalSize] at size
  rw [OutOfBounds, not_or, Int64.not_lt] at inside
  have cast := toSize_of_nonneg inside.1
  omega

/-! ## The memory opcodes -/

theorem Installed.loadsExactly (installed : Installed program vm)
    (accepted : validateProgram program = none) (fetches : vm.Fetches insn)
    (opcode : insn.opcode = .load) :
    LoadsExactly host program.insns.length vm insn := by
  have executes : vm.step host =
      vm.beginInsn.executeLoad insn vm.state.pc := by
    rw [step_of_fetches fetches, execute, opcode]
  have allowed : vm.beginInsn.validMem insn.b = true ↔
      ¬ OutOfBounds program.insns.length insn.b :=
    installed.beginInsn.validMem_iff
  by_cases outside : OutOfBounds program.insns.length insn.b
  · have rejected : vm.beginInsn.validMem insn.b = false :=
      Bool.eq_false_iff.mpr fun valid => allowed.mp valid outside
    have faulted : ∃ final,
        vm.step host = .ok (.error .boundsFault, final) := by
      rw [executes, executeLoad, rejected]
      exact ⟨_, rfl⟩
    exact ⟨iff_of_true faulted outside, fun inside => absurd outside inside⟩
  · have valid := installed.validOperands accepted fetches
    rw [VM.validOperands, opcode] at valid
    obtain ⟨reg, index⟩ := registerIndex_of_validReg valid
    obtain ⟨cast, small⟩ := installed.cell_of_inside outside
    have read : vm.state.memory[insn.b.toInt.toNat]? = some _ :=
      List.getElem?_eq_getElem small
    have completed : vm.step host = .ok (vm.beginInsn.wrote insn vm.state.pc
        reg vm.state.memory[insn.b.toInt.toNat] .int) := by
      rw [executes, executeLoad, allowed.mpr outside, cast]
      refine bind_eq_ok.mpr ⟨_, memoryAt_eq_ok.mpr read, ?_⟩
      exact finishWrite_eq_ok.mpr ⟨reg, index, rfl⟩
    refine ⟨iff_of_false ?_ outside, fun _ => ?_⟩
    · intro faults
      obtain ⟨final, faulted⟩ := faults
      rw [completed] at faulted
      cases faulted
    · exact ⟨reg, _, _, index, read, completed, rfl, rfl⟩

theorem Installed.storesExactly (installed : Installed program vm)
    (accepted : validateProgram program = none) (fetches : vm.Fetches insn)
    (opcode : insn.opcode = .store) :
    StoresExactly host program.insns.length vm insn := by
  have executes : vm.step host =
      vm.beginInsn.executeStore insn vm.state.pc := by
    rw [step_of_fetches fetches, execute, opcode]
  have allowed : vm.beginInsn.validMem insn.a = true ↔
      ¬ OutOfBounds program.insns.length insn.a :=
    installed.beginInsn.validMem_iff
  by_cases outside : OutOfBounds program.insns.length insn.a
  · have rejected : vm.beginInsn.validMem insn.a = false :=
      Bool.eq_false_iff.mpr fun valid => allowed.mp valid outside
    have faulted : ∃ final,
        vm.step host = .ok (.error .boundsFault, final) := by
      rw [executes, executeStore, rejected]
      exact ⟨_, rfl⟩
    exact ⟨iff_of_true faulted outside, fun inside => absurd outside inside⟩
  · have valid := installed.validOperands accepted fetches
    rw [VM.validOperands, opcode] at valid
    obtain ⟨reg, index⟩ := registerIndex_of_validReg valid
    obtain ⟨cast, small⟩ := installed.cell_of_inside outside
    have known : vm.beginInsn.segmentOf insn.a.toInt.toNat ≠ .unknown := by
      have checked := Interpreter.validMem_iff.mp (allowed.mpr outside)
      rw [cast] at checked
      exact checked.2.2
    have completed : ∃ events, vm.step host = .ok
        (({ vm.beginInsn with
          state := { vm.beginInsn.state with
            memory := vm.state.memory.set insn.a.toInt.toNat
              (vm.state.registers reg) } }.appendLog events).finished insn
          vm.state.pc) := by
      refine ⟨[{
        opcode := insn.opcode
        reason := text "segment access " ++
          (vm.beginInsn.segmentOf insn.a.toInt.toNat).name }], ?_⟩
      rw [executes, executeStore, allowed.mpr outside, cast]
      refine bind_eq_ok.mpr ⟨_, register_eq_ok.mpr ⟨reg, index, rfl⟩, ?_⟩
      refine bind_eq_ok.mpr ⟨_, setMemory_eq_ok.mpr ⟨small, rfl⟩, ?_⟩
      rw [logSegmentEvent, if_neg known]
      rfl
    obtain ⟨events, completed⟩ := completed
    refine ⟨iff_of_false ?_ outside, fun _ => ?_⟩
    · intro faults
      obtain ⟨final, faulted⟩ := faults
      rw [completed] at faulted
      cases faulted
    · exact ⟨reg, _, index, small, completed, rfl, rfl⟩

/-- In every reachable state of an accepted program the segments divide the
memory, and `Load` and `Store` fault exactly outside it. -/
theorem segmentsPartition (accepted : validateProgram program = none)
    (reached : Reachable host program vm) :
    SegmentsPartition host program vm := by
  have installed := reached.installed
  refine ⟨installed.partitioned, ?_, ?_⟩
  · intro insn fetches opcode
    exact installed.loadsExactly accepted fetches opcode
  · intro insn fetches opcode
    exact installed.storesExactly accepted fetches opcode

/-- A `Load` of the first address behind the memory. -/
def loadPastEnd : Program where
  insns := [{ opcode := .load, a := 0, b := 1537, c := 0 }]
  axionPolicyText := []
  fits := by decide

theorem segmentsPartition_loadPastEnd :
    SegmentsPartition strictHost loadPastEnd (freshlyLoaded loadPastEnd) :=
  segmentsPartition rfl
    ⟨_, [], [], loads_freshlyLoaded rfl, by simp, rfl⟩

end Interpreter

end T81VM.VM
