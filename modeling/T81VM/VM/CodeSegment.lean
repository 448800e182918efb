import T81VM.VM.Installed

/-!
# The code segment

`Store` and `Push` are the only instructions that write memory.  A push stays
above the code segment; a store only asks for an address of some segment, so
a store to an address of the code segment changes it.
-/

namespace T81VM.VM

open Tisc PartialSystem

namespace Interpreter

variable {host : Host} {program : Program} {loaded vm final : Interpreter}
  {insn : Insn} {result : Expected}

/-- The memory cell that an executed instruction writes. -/
def writtenCell (vm : Interpreter) (insn : Insn) : Option Nat :=
  match insn.opcode with
  | .store => some (toSize insn.a)
  | .push => some (vm.state.sp - 1)
  | _ => none

/-- The next step completes and writes the memory cell `addr`. -/
def Writes (host : Host) (vm : Interpreter) (addr : Nat) : Prop :=
  ∃ insn final, vm.Fetches insn ∧ vm.step host = .ok (.ok (), final) ∧
    vm.writtenCell insn = some addr

/-- The cells of the code segment hold what they held after the load. -/
def CodeIntact (loaded vm : Interpreter) : Prop :=
  ∀ addr, vm.state.layout.code.contains addr = true →
    vm.state.memory[addr]? = loaded.state.memory[addr]?

/-- The code segment is intact and the next step does not write it. -/
structure CodeReadOnly (host : Host) (loaded vm : Interpreter) : Prop where
  intact : CodeIntact loaded vm
  unwritten : ∀ addr, Writes host vm addr →
    vm.state.layout.code.contains addr = false

/-- The code segment is read-only wherever the calls take a step, and intact
where they end. -/
structure CodeReadOnlyAlong (host : Host) (loaded : Interpreter)
    (calls : List Call) : Prop where
  steps : Along (call host) (StepsAlong host (CodeReadOnly host loaded)) calls
    loaded
  last : ∀ replies vm, run (call host) calls loaded = .ok (replies, vm) →
    CodeIntact loaded vm

/-- The next step is no store to an address of the code segment. -/
def AvoidsCodeStore (vm : Interpreter) : Prop :=
  ∀ insn, vm.Fetches insn → insn.opcode = .store →
    vm.state.layout.code.contains (toSize insn.a) = false

/-! ## What a step does to the memory -/

/-- An answer leaves the memory alone or writes one cell. -/
theorem memory_of_transition {pc : Nat} {answer : Expected × Interpreter}
    (transition : Transition vm insn pc answer) :
    answer.2.state.memory = vm.state.memory ∨
      answer.1 = .ok () ∧ ∃ addr reg, vm.writtenCell insn = some addr ∧
        answer.2.state.memory =
          vm.state.memory.set addr (vm.state.registers reg) := by
  cases transition with
  | @stored reg events stores =>
      have opcode : insn.opcode = .store :=
        opcode_of_role (by rw [stores, Role.soleOpcode])
      have cell : vm.writtenCell insn = some (toSize insn.a) := by
        rw [writtenCell, opcode]
      exact .inr ⟨rfl, toSize insn.a, reg, cell, rfl⟩
  | @pushed reg pushes =>
      have opcode : insn.opcode = .push :=
        opcode_of_role (by rw [pushes, Role.soleOpcode])
      have cell : vm.writtenCell insn = some (vm.state.sp - 1) := by
        rw [writtenCell, opcode]
      exact .inr ⟨rfl, vm.state.sp - 1, reg, cell, rfl⟩
  | _ => exact .inl rfl

/-- A step changes no memory cell but the one it writes. -/
theorem memory_of_not_writes {addr : Nat} (spared : ¬ Writes host vm addr)
    (stepped : vm.step host = .ok (result, final)) :
    final.state.memory[addr]? = vm.state.memory[addr]? := by
  cases step_stepped stepped with
  | resting | rejected | overrun => rfl
  | @executed insn answer fetches transition =>
      have begun : vm.beginInsn.state.memory = vm.state.memory := rfl
      rcases memory_of_transition transition with same |
        ⟨completed, cell, reg, writes, stored⟩
      · have kept : final.state.memory = vm.state.memory := same
        rw [kept]
      · have completed : result = .ok () := completed
        have stored : final.state.memory = vm.state.memory.set cell
          (vm.state.registers reg) := stored
        have apart : cell ≠ addr := by
          intro same
          apply spared
          subst completed
          exact ⟨insn, final, fetches, stepped, same ▸ writes⟩
        rw [stored, List.getElem?_set_ne apart]

/-- A push writes above the code segment. -/
theorem Installed.push_above (installed : Installed program vm)
    (fetches : vm.Fetches insn) (opcode : insn.opcode = .push)
    (stepped : vm.step host = .ok (.ok (), final)) :
    program.insns.length ≤ vm.state.sp - 1 := by
  have executed : vm.beginInsn.executePush insn vm.state.pc =
      .ok (.ok (), final) := by
    rw [step_of_fetches fetches, execute, opcode] at stepped
    exact stepped
  obtain ⟨outcome, pushed, rest⟩ := bind_eq_ok.mp executed
  cases outcome with
  | none => cases rest
  | some moved =>
      obtain ⟨_, above, _⟩ := pushRegister_eq_some.mp pushed
      have above : vm.state.layout.stack.start ≤ vm.state.sp - 1 := above
      rw [installed.layout_eq, initialLayout_stack] at above
      exact above

/-- Steps that avoid such stores do not write the code segment. -/
theorem AvoidsCodeStore.unwritten (avoids : AvoidsCodeStore vm)
    (installed : Installed program vm) {addr : Nat}
    (writes : Writes host vm addr) :
    vm.state.layout.code.contains addr = false := by
  obtain ⟨insn, final, fetches, stepped, cell⟩ := writes
  unfold writtenCell at cell
  split at cell
  · rename_i opcode
    cases cell
    exact avoids insn fetches opcode
  · rename_i opcode
    cases cell
    have above := installed.push_above fetches opcode stepped
    apply Bool.eq_false_iff.mpr
    intro inside
    rw [installed.layout_eq, initialLayout_code] at inside
    have below := ((MemorySegment.contains_iff _ _).mp inside).2
    exact Nat.lt_irrefl _ (Nat.lt_of_lt_of_le below above)
  · cases cell

theorem CodeIntact.step (intact : CodeIntact loaded vm)
    (unwritten : ∀ addr, Writes host vm addr →
      vm.state.layout.code.contains addr = false)
    (installed : Installed program vm)
    (stepped : vm.step host = .ok (result, final)) :
    CodeIntact loaded final := by
  intro addr inside
  have layout : final.state.layout = vm.state.layout :=
    (installed.step stepped).layout_eq.trans installed.layout_eq.symm
  rw [layout] at inside
  have spared : ¬ Writes host vm addr := by
    intro writes
    have outside := unwritten addr writes
    rw [inside] at outside
    cases outside
  rw [memory_of_not_writes spared stepped]
  exact intact addr inside

theorem CodeIntact.setRegister {idx : Int32} {value : Int64} {tag : ValueTag}
    (intact : CodeIntact loaded vm) :
    CodeIntact loaded (vm.setRegister idx value tag) := by
  unfold Interpreter.setRegister
  split <;> exact intact

/-- A store to an address of the code segment completes. -/
theorem writes_of_codeStore (accepted : validateProgram program = none)
    (installed : Installed program vm) (fetches : vm.Fetches insn)
    (opcode : insn.opcode = .store)
    (inside : vm.state.layout.code.contains (toSize insn.a) = true) :
    Writes host vm (toSize insn.a) := by
  have valid := installed.validOperands accepted fetches
  rw [validOperands, opcode] at valid
  obtain ⟨reg, index⟩ := registerIndex_of_validReg valid
  have small := program.length_lt
  have cell := inside
  rw [installed.layout_eq, initialLayout_code] at cell
  have below : toSize insn.a < program.insns.length :=
    ((MemorySegment.contains_iff _ _).mp cell).2
  have size := installed.memory_length
  rw [initialLayout_totalSize] at size
  have inMemory : toSize insn.a < vm.beginInsn.state.memory.length := by
    show toSize insn.a < vm.state.memory.length
    omega
  have nonneg : 0 ≤ insn.a := by
    by_contra negative
    have large := toSize_of_neg (Int64.not_le.mp negative)
    omega
  have known : vm.beginInsn.segmentOf (toSize insn.a) ≠ .unknown := by
    show (if vm.state.layout.code.contains (toSize insn.a)
      then MemorySegmentKind.code else _) ≠ .unknown
    rw [if_pos inside]
    decide
  have allowed : vm.beginInsn.validMem insn.a = true :=
    validMem_iff.mpr ⟨nonneg, inMemory, known⟩
  have read : vm.beginInsn.register insn.b = .ok (vm.state.registers reg) :=
    register_eq_ok.mpr ⟨reg, index, rfl⟩
  have written : ∃ stored, vm.beginInsn.setMemory (toSize insn.a)
      (vm.state.registers reg) = .ok stored :=
    ⟨_, setMemory_eq_ok.mpr ⟨inMemory, rfl⟩⟩
  obtain ⟨stored, written⟩ := written
  have executed : ∃ final,
      vm.beginInsn.executeStore insn vm.state.pc = .ok (.ok (), final) := by
    rw [executeStore, allowed, read]
    simp only [bind, Except.bind, written]
    exact ⟨_, rfl⟩
  obtain ⟨final, completed⟩ := executed
  refine ⟨insn, final, fetches, ?_, ?_⟩
  · rw [step_of_fetches fetches, execute, opcode]
    exact completed
  · rw [writtenCell, opcode]

/-! ## Whole runs -/

/-- The code segment of an accepted program is read-only in a run exactly
when no step of the run is a store to an address of it. -/
theorem codeReadOnlyAlong_iff {calls : List Call}
    (accepted : validateProgram program = none)
    (loads : Loads program loaded)
    (driving : ∀ call ∈ calls, call.driving) :
    CodeReadOnlyAlong host loaded calls ↔
      Along (call host) (StepsAlong host AvoidsCodeStore) calls loaded := by
  constructor
  · intro readOnly
    have installed := (run_stepsAlong
      (fun _ _ _ _ installed stepped => installed.step stepped)
      (fun _ _ _ _ installed => installed.setRegister) driving
      loads.installed readOnly.steps).1
    refine installed.mono fun request state steps => steps.mono ?_
    intro vm ⟨here, installed⟩ insn fetches opcode
    apply Bool.eq_false_iff.mpr
    intro inside
    have outside := here.unwritten _
      (writes_of_codeStore accepted installed fetches opcode inside)
    rw [inside] at outside
    cases outside
  · intro avoids
    have initial : Installed program loaded ∧ CodeIntact loaded loaded :=
      ⟨loads.installed, fun _ _ => rfl⟩
    have steps : ∀ vm result final, AvoidsCodeStore vm →
        Installed program vm ∧ CodeIntact loaded vm →
        vm.step host = .ok (result, final) →
          Installed program final ∧ CodeIntact loaded final := by
      intro vm result final avoids ⟨installed, intact⟩ stepped
      have unwritten := fun addr => @avoids.unwritten host _ _ installed addr
      exact ⟨installed.step stepped,
        intact.step unwritten installed stepped⟩
    have kept := run_stepsAlong steps
      (fun _ _ _ _ holds => ⟨holds.1.setRegister, holds.2.setRegister⟩)
      driving initial avoids
    refine ⟨kept.1.mono fun request state steps => steps.mono ?_,
      fun replies vm finished => (kept.2 replies vm finished).2⟩
    intro vm ⟨avoids, installed, intact⟩
    exact ⟨intact, fun _ => avoids.unwritten installed⟩

/-- A constant, and then a store of it to address 0. -/
def storeIntoCode : Program where
  insns := [
    { opcode := .loadImm, a := 0, b := 7, c := 0 },
    { opcode := .store, a := 0, b := 0, c := 0 }]
  axionPolicyText := []
  fits := by decide

/-- Before the store the code segment is read-only. -/
theorem codeReadOnlyAlong_iff_storeIntoCode :
    CodeReadOnlyAlong strictHost (freshlyLoaded storeIntoCode) [.step] ↔
      Along (call strictHost) (StepsAlong strictHost AvoidsCodeStore) [.step]
        (freshlyLoaded storeIntoCode) :=
  codeReadOnlyAlong_iff rfl (loads_freshlyLoaded rfl) (by simp [Call.driving])

set_option maxRecDepth 20000 in
/-- The store changes the first cell of the code segment. -/
theorem not_codeIntact_storeIntoCode :
    ¬ ∀ host program loaded calls replies vm,
      validateProgram program = none → Loads program loaded →
      (∀ call ∈ calls, Call.driving call) →
      run (call host) calls loaded = .ok (replies, vm) →
        CodeIntact loaded vm := by
  intro readOnly
  have finished : ∃ replies vm, run (call strictHost) [.step, .step]
      (freshlyLoaded storeIntoCode) = .ok (replies, vm) ∧
      vm.state.layout.code.contains 0 = true ∧
      vm.state.memory[0]? = some 7 := ⟨_, _, rfl, rfl, rfl⟩
  obtain ⟨replies, vm, finished, inside, changed⟩ := finished
  have intact := readOnly strictHost storeIntoCode _ _ replies vm rfl
    (loads_freshlyLoaded rfl) (by simp [Call.driving]) finished 0 inside
  have initial : (freshlyLoaded storeIntoCode).state.memory[0]? = some 0 :=
    rfl
  rw [changed, initial] at intact
  cases intact

end Interpreter

end T81VM.VM
