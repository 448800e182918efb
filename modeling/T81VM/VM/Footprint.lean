import T81VM.VM.CodeSegment
import T81VM.VM.StepSites
import T81VM.VM.WriteDeltas

/-!
# The footprint of a step

A completed instruction changes its destination register at most, one memory
cell at most, and the pointers and pools of its own opcode.  A load therefore
reads what the last store or push left in its cell.
-/

namespace T81VM.VM

open Tisc PartialSystem

/-- The opcodes that change no register. -/
def keepsRegisters : Opcode → Bool
  | .nop | .halt | .store | .cmp | .push | .stackFree | .heapFree | .axSet
  | .jump | .jumpIfZero | .jumpIfNotZero | .jumpIfNegative | .jumpIfPositive
  | .call | .ret => true
  | _ => false

/-- The opcodes that move the stack pointer. -/
def movesStack : Opcode → Bool
  | .push | .pop | .stackAlloc | .stackFree => true
  | _ => false

/-- The opcodes that move the heap pointer. -/
def movesHeap : Opcode → Bool
  | .heapAlloc | .heapFree => true
  | _ => false

/-- Nothing, or one entry at the end. -/
def OneMore {α : Type} (before after : List α) : Prop :=
  after = before ∨ ∃ entry, after = before ++ [entry]

namespace Interpreter

variable {host : Host} {program : Program} {loaded vm final : Interpreter}
  {insn : Insn} {result : Expected}

/-- All that a completed instruction may have changed. -/
structure BoundedFootprint (vm : Interpreter) (insn : Insn)
    (final : Interpreter) : Prop where
  registers : ∀ reg,
    final.state.registers reg ≠ vm.state.registers reg ∨
      final.state.registerTags reg ≠ vm.state.registerTags reg →
    registerIndex insn.a = .ok reg ∧ keepsRegisters insn.opcode = false
  memory : ∀ addr : Nat, final.state.memory[addr]? ≠ vm.state.memory[addr]? →
    insn.opcode = .store ∧ (addr : Int) = insn.a.toInt ∨
      insn.opcode = .push ∧ addr = final.state.sp
  sp : final.state.sp ≠ vm.state.sp → movesStack insn.opcode = true
  heapPtr : final.state.heapPtr ≠ vm.state.heapPtr →
    movesHeap insn.opcode = true
  optionPool : OneMore vm.state.optionPool final.state.optionPool
  resultPool : OneMore vm.state.resultPool final.state.resultPool
  enumPool : OneMore vm.state.enumPool final.state.enumPool
  tensorPool : OneMore vm.state.tensorPool final.state.tensorPool
  shapePool : OneMore vm.state.shapePool final.state.shapePool
  layout : final.state.layout = vm.state.layout
  memorySize : final.state.memory.length = vm.state.memory.length
  policy : final.state.policy = vm.state.policy
  program : final.program = vm.program

/-! ## What an answer leaves alone -/

theorem assigns_of_keepsRegisters {opcode : Opcode}
    (keeps : keepsRegisters opcode = true) : assigns opcode = false := by
  cases opcode <;> first | rfl | cases keeps

theorem movesStack_of_role {opcode : Opcode}
    (moves : role opcode = .pushes ∨ role opcode = .pops ∨
      role opcode = .stackAllocates ∨ role opcode = .stackFrees) :
    movesStack opcode = true := by
  cases opcode <;> first | rfl | simp [role] at moves

theorem movesHeap_of_role {opcode : Opcode}
    (moves : role opcode = .heapAllocates ∨ role opcode = .heapFrees) :
    movesHeap opcode = true := by
  cases opcode <;> first | rfl | simp [role] at moves

section

variable {pc : Nat} {answer : Expected × Interpreter}

/-- An answer changes no register but the one its instruction assigns. -/
theorem registers_of_transition (clean : vm.Unwritten)
    (transition : Transition vm insn pc answer) {reg : Fin 243}
    (changed : answer.2.cells reg ≠ vm.cells reg) :
    registerIndex insn.a = .ok reg ∧ assigns insn.opcode = true := by
  have updated : ∀ (other : Fin 243) (cell : Int64 × ValueTag),
      answer.2.cells = Function.update vm.cells other cell → reg = other := by
    intro other cell set
    by_contra apart
    rw [set, Function.update_of_ne apart] at changed
    exact changed rfl
  cases Noted.of_transition clean transition with
  | trapped _ _ _ kept => exact absurd (congrFun kept reg) changed
  | unchanged _ _ _ _ kept => exact absurd (congrFun kept reg) changed
  | recorded assigned _ _ index _ _ _ set =>
      rw [updated _ _ set]
      exact ⟨index, assigned⟩
  | unrecorded bumpsOrPops index _ _ _ set =>
      rw [updated _ _ set]
      refine ⟨index, ?_⟩
      rcases bumpsOrPops with bumps | ⟨pops, _⟩
      · rw [assigns, bumps]
      · rw [assigns, pops]

theorem sp_of_transition (transition : Transition vm insn pc answer)
    (changed : answer.2.state.sp ≠ vm.state.sp) :
    movesStack insn.opcode = true := by
  cases transition with
  | pushed pushes => exact movesStack_of_role (.inl pushes)
  | popped pops => exact movesStack_of_role (.inr (.inl pops))
  | stackAllocated allocates =>
      exact movesStack_of_role (.inr (.inr (.inl allocates)))
  | stackFreed releases =>
      exact movesStack_of_role (.inr (.inr (.inr releases)))
  | _ => exact absurd rfl changed

theorem heapPtr_of_transition (transition : Transition vm insn pc answer)
    (changed : answer.2.state.heapPtr ≠ vm.state.heapPtr) :
    movesHeap insn.opcode = true := by
  cases transition with
  | heapAllocated allocates => exact movesHeap_of_role (.inl allocates)
  | heapFreed releases => exact movesHeap_of_role (.inr releases)
  | _ => exact absurd rfl changed

/-- What an answer does to the pools. -/
structure PoolsGrow (before after : State) : Prop where
  optionPool : OneMore before.optionPool after.optionPool
  resultPool : OneMore before.resultPool after.resultPool
  enumPool : OneMore before.enumPool after.enumPool
  tensorPool : OneMore before.tensorPool after.tensorPool
  shapePool : OneMore before.shapePool after.shapePool

/-- An answer appends to one pool at most. -/
theorem pools_of_transition (transition : Transition vm insn pc answer) :
    PoolsGrow vm.state answer.2.state := by
  cases transition with
  | madeOption =>
      exact ⟨.inr ⟨_, rfl⟩, .inl rfl, .inl rfl, .inl rfl, .inl rfl⟩
  | madeResult =>
      exact ⟨.inl rfl, .inr ⟨_, rfl⟩, .inl rfl, .inl rfl, .inl rfl⟩
  | madeEnum =>
      exact ⟨.inl rfl, .inl rfl, .inr ⟨_, rfl⟩, .inl rfl, .inl rfl⟩
  | madeTensor =>
      exact ⟨.inl rfl, .inl rfl, .inl rfl, .inr ⟨_, rfl⟩, .inl rfl⟩
  | _ => exact ⟨.inl rfl, .inl rfl, .inl rfl, .inl rfl, .inl rfl⟩

/-- An answer changes the cell that its instruction writes, and no other. -/
theorem cell_of_transition (transition : Transition vm insn pc answer)
    {addr : Nat}
    (changed : answer.2.state.memory[addr]? ≠ vm.state.memory[addr]?) :
    insn.opcode = .store ∧ (addr : Int) = insn.a.toInt ∨
      insn.opcode = .push ∧ addr = answer.2.state.sp := by
  have written : ∀ (cell : Nat) (value : Int64),
      answer.2.state.memory = vm.state.memory.set cell value →
        addr = cell := by
    intro cell value set
    by_contra apart
    rw [set, List.getElem?_set_ne (fun same => apart same.symm)] at changed
    exact changed rfl
  cases transition with
  | stored stores _ inside =>
      have opcode : insn.opcode = .store :=
        opcode_of_role (by rw [stores, Role.soleOpcode])
      have nonneg : 0 ≤ insn.a := (validMem_iff.mp inside).1
      refine .inl ⟨opcode, ?_⟩
      rw [written _ _ rfl]
      exact toSize_of_nonneg nonneg
  | pushed pushes =>
      have opcode : insn.opcode = .push :=
        opcode_of_role (by rw [pushes, Role.soleOpcode])
      exact .inr ⟨opcode, written _ _ rfl⟩
  | _ => exact absurd rfl changed

end

/-- Every completed instruction has a bounded footprint. -/
theorem step_boundedFootprint (fetches : vm.Fetches insn)
    (stepped : vm.step host = .ok (.ok (), final)) :
    BoundedFootprint vm insn final := by
  cases step_stepped stepped with
  | resting halted =>
      rw [fetches.running] at halted
      cases halted
  | executed again transition =>
      rw [again.unique fetches] at transition
      have pools := pools_of_transition transition
      refine ⟨?_, fun addr => cell_of_transition transition,
        sp_of_transition transition, heapPtr_of_transition transition,
        pools.optionPool, pools.resultPool, pools.enumPool, pools.tensorPool,
        pools.shapePool, transition.layout_eq, transition.memory_length,
        transition.policy_eq, transition.program_eq⟩
      intro reg changed
      have cell : final.cells reg ≠ vm.cells reg := by
        intro same
        rcases changed with value | tag
        · exact value (congrArg Prod.fst same)
        · exact tag (congrArg Prod.snd same)
      obtain ⟨index, assigned⟩ :=
        registers_of_transition ⟨rfl, rfl, rfl⟩ transition cell
      refine ⟨index, ?_⟩
      by_contra keeps
      rw [Bool.not_eq_false] at keeps
      rw [assigns_of_keepsRegisters keeps] at assigned
      cases assigned

/-! ## Reading back -/

/-- The operand naming the register that a store or a push writes. -/
def writtenOperand (insn : Insn) : Int64 :=
  match insn.opcode with
  | .store => insn.b
  | _ => insn.a

/-- The next step completes and writes a value to the memory cell `addr`. -/
def WritesValue (host : Host) (vm : Interpreter) (addr : Nat)
    (value : Int64) : Prop :=
  ∃ insn final reg, vm.Fetches insn ∧
    vm.step host = .ok (.ok (), final) ∧
    vm.writtenCell insn = some addr ∧
    registerIndex (writtenOperand insn) = .ok reg ∧
    value = vm.state.registers reg

/-- The last of the steps to write the cell wrote this value. -/
def LastWritten (host : Host) (sites : List Interpreter) (addr : Nat)
    (value : Int64) : Prop :=
  ∃ earlier site later, sites = earlier ++ site :: later ∧
    WritesValue host site addr value ∧
    ∀ other ∈ later, ¬ Writes host other addr

/-- The value the steps leave in a cell that was zero. -/
def Remembers (host : Host) (sites : List Interpreter) (addr : Nat)
    (value : Int64) : Prop :=
  LastWritten host sites addr value ∨
    (∀ site ∈ sites, ¬ Writes host site addr) ∧ value = 0

/-- The memory holds what the steps left in it. -/
def MemoryAccounted (host : Host) (sites : List Interpreter)
    (vm : Interpreter) : Prop :=
  ∀ (addr : Nat) (value : Int64), vm.state.memory[addr]? = some value →
    Remembers host sites addr value

/-- A load leaves in its destination what the steps left in its cell. -/
def ReadsBack (host : Host) (sites : List Interpreter) (insn : Insn)
    (final : Interpreter) : Prop :=
  ∃ reg, registerIndex insn.a = .ok reg ∧
    Remembers host sites (toSize insn.b) (final.state.registers reg)

theorem role_of_writtenCell {addr : Nat}
    (cell : vm.writtenCell insn = some addr) :
    role insn.opcode = .stores ∨ role insn.opcode = .pushes := by
  unfold writtenCell at cell
  split at cell
  · rename_i opcode
    rw [opcode]
    exact .inl rfl
  · rename_i opcode
    rw [opcode]
    exact .inr rfl
  · cases cell

/-- A step that writes a cell leaves the value there. -/
theorem memory_of_writes {addr : Nat} (writes : Writes host vm addr)
    (stepped : vm.step host = .ok (result, final)) :
    ∃ value, WritesValue host vm addr value ∧
      final.state.memory[addr]? = some value := by
  obtain ⟨insn, last, fetches, completed, cell⟩ := writes
  rw [completed] at stepped
  cases stepped
  have writing : role insn.opcode = .stores ∨ role insn.opcode = .pushes :=
    role_of_writtenCell cell
  cases step_stepped completed with
  | resting halted =>
      rw [fetches.running] at halted
      cases halted
  | executed again transition =>
      rw [again.unique fetches] at transition
      cases transition with
      | @stored reg _ stores index inside =>
          have opcode : insn.opcode = .store :=
            opcode_of_role (by rw [stores, Role.soleOpcode])
          have small : toSize insn.a < vm.state.memory.length :=
            (validMem_iff.mp inside).2.1
          have same : addr = toSize insn.a := by
            rw [writtenCell, opcode] at cell
            exact (Option.some.inj cell).symm
          refine ⟨vm.state.registers reg,
            ⟨insn, _, reg, fetches, completed, cell, ?_, rfl⟩, ?_⟩
          · rw [writtenOperand, opcode]
            exact index
          · rw [same]
            exact List.getElem?_set_self small
      | @pushed reg pushes index _ _ inside =>
          have opcode : insn.opcode = .push :=
            opcode_of_role (by rw [pushes, Role.soleOpcode])
          have small : vm.state.sp - 1 < vm.state.memory.length := inside
          have same : addr = vm.state.sp - 1 := by
            rw [writtenCell, opcode] at cell
            exact (Option.some.inj cell).symm
          refine ⟨vm.state.registers reg,
            ⟨insn, _, reg, fetches, completed, cell, ?_, rfl⟩, ?_⟩
          · rw [writtenOperand, opcode]
            exact index
          · rw [same]
            exact List.getElem?_set_self small
      | _ =>
          rw [‹role insn.opcode = _›] at writing
          rcases writing with stores | pushes
          · cases stores
          · cases pushes

/-- Every step carries the account of the memory on. -/
theorem MemoryAccounted.step {sites : List Interpreter}
    (accounted : MemoryAccounted host sites vm)
    (stepped : vm.step host = .ok (result, final)) :
    MemoryAccounted host (sites ++ [vm]) final := by
  intro addr value cell
  by_cases writes : Writes host vm addr
  · obtain ⟨written, writesValue, stored⟩ := memory_of_writes writes stepped
    rw [stored] at cell
    cases cell
    exact .inl ⟨sites, vm, [], rfl, writesValue, by simp⟩
  · rw [memory_of_not_writes writes stepped] at cell
    rcases accounted addr value cell with last | never
    · obtain ⟨earlier, site, later, split, writesValue, spared⟩ := last
      refine .inl ⟨earlier, site, later ++ [vm], by simp [split], writesValue,
        ?_⟩
      intro other member
      rcases List.mem_append.mp member with before | here
      · exact spared other before
      · rw [List.mem_singleton.mp here]
        exact writes
    · obtain ⟨spared, zero⟩ := never
      refine .inr ⟨?_, zero⟩
      intro site member
      rcases List.mem_append.mp member with before | here
      · exact spared site before
      · rw [List.mem_singleton.mp here]
        exact writes

theorem MemoryAccounted.setRegister {sites : List Interpreter} {idx : Int32}
    {value : Int64} {tag : ValueTag}
    (accounted : MemoryAccounted host sites vm) :
    MemoryAccounted host sites (vm.setRegister idx value tag) := by
  unfold Interpreter.setRegister
  split <;> exact accounted

theorem Loads.memoryAccounted (loads : Loads program vm) :
    MemoryAccounted host [] vm := by
  intro addr value cell
  obtain ⟨policy, same⟩ := loads.state_eq
  rw [same] at cell
  have zero : value = 0 :=
    List.eq_of_mem_replicate (List.mem_of_getElem? cell)
  exact .inr ⟨by simp, zero⟩

/-- A load copies its memory cell. -/
theorem load_reads (fetches : vm.Fetches insn) (opcode : insn.opcode = .load)
    (stepped : vm.step host = .ok (.ok (), final)) :
    ∃ reg value, registerIndex insn.a = .ok reg ∧
      vm.state.memory[toSize insn.b]? = some value ∧
      final.state.registers reg = value := by
  have executed : vm.beginInsn.executeLoad insn vm.state.pc =
      .ok (.ok (), final) := by
    rw [step_of_fetches fetches, execute, opcode] at stepped
    exact stepped
  rw [executeLoad] at executed
  by_cases inside : vm.beginInsn.validMem insn.b = true
  · simp only [inside, Bool.not_true, Bool.false_eq_true, if_false] at executed
    obtain ⟨value, read, rest⟩ := bind_eq_ok.mp executed
    obtain ⟨reg, index, same⟩ := finishWrite_eq_ok.mp rest
    refine ⟨reg, value, index, memoryAt_eq_ok.mp read, ?_⟩
    have written : final = (vm.beginInsn.wrote insn vm.state.pc reg value
      .int).2 := congrArg Prod.snd same
    rw [written]
    exact Function.update_self _ _ _
  · rw [Bool.not_eq_true] at inside
    simp only [inside, Bool.not_false, if_true] at executed
    cases executed

/-- What the footprints of the steps of a program amount to. -/
structure FootprintBounded (host : Host) (program : Program) : Prop where
  steps : ∀ vm insn final, Reachable host program vm → vm.Fetches insn →
    vm.step host = .ok (.ok (), final) → BoundedFootprint vm insn final
  reads : ∀ loaded calls, Loads program loaded →
    (∀ call ∈ calls, Call.driving call) →
    ∀ earlier site later,
      runSites host calls loaded = earlier ++ site :: later →
    ∀ insn final, site.Fetches insn → insn.opcode = .load →
      site.step host = .ok (.ok (), final) →
        ReadsBack host earlier insn final

/-- Every completed step of every program has a bounded footprint, and loads
read back what was last stored or pushed. -/
theorem footprintBounded (host : Host) (program : Program) :
    FootprintBounded host program := by
  refine ⟨?_, ?_⟩
  · intro vm insn final _ fetches stepped
    exact step_boundedFootprint fetches stepped
  · intro loaded calls loads driving earlier site later split insn final
      fetches opcode stepped
    have held : SitesHold (MemoryAccounted host) []
        (runSites host calls loaded) :=
      runSites_hold (fun _ _ _ _ accounted stepped => accounted.step stepped)
        (fun _ _ _ _ _ accounted => accounted.setRegister) driving
        loads.memoryAccounted
    have accounted := held earlier site later split
    obtain ⟨reg, value, index, cell, copied⟩ :=
      load_reads fetches opcode stepped
    refine ⟨reg, index, ?_⟩
    rw [copied]
    exact accounted _ _ cell

end Interpreter

end T81VM.VM
