import T81VM.VM.Dispatch

/-!
# What a loaded program fixes

Between two loads no call changes the program, the memory layout, the size of
the memory or the policy.
-/

namespace T81VM.VM

open Tisc PartialSystem

namespace Transition

variable {vm : Interpreter} {insn : Insn} {pc : Nat}
  {answer : Expected × Interpreter}

theorem program_eq (transition : Transition vm insn pc answer) :
    answer.2.program = vm.program := by
  cases transition <;> rfl

theorem layout_eq (transition : Transition vm insn pc answer) :
    answer.2.state.layout = vm.state.layout := by
  cases transition <;> rfl

theorem policy_eq (transition : Transition vm insn pc answer) :
    answer.2.state.policy = vm.state.policy := by
  cases transition <;> rfl

theorem memory_length (transition : Transition vm insn pc answer) :
    answer.2.state.memory.length = vm.state.memory.length := by
  cases transition with
  | stored | pushed => exact List.length_set
  | _ => rfl

/-- A trap forgets the verdict of the loader; nothing else touches it. -/
theorem preloadTrap_eq (transition : Transition vm insn pc answer)
    (accepted : vm.preloadTrap = none) : answer.2.preloadTrap = none := by
  cases transition with
  | faulted => rfl
  | _ => exact accepted

end Transition

namespace Interpreter

variable {host : Host} {program : Program} {vm : Interpreter}

/-- The members a load of `program` fixes, for one of its policies. -/
structure Installed (program : Program) (vm : Interpreter) : Prop where
  program_eq : vm.program = program
  layout_eq : vm.state.layout = initialLayout program.insns.length
  memory_length :
    vm.state.memory.length = (initialLayout program.insns.length).totalSize

/-- A successful load, by the policy it found. -/
theorem loadProgram_eq_ok {old : Interpreter} :
    old.loadProgram program = .ok vm ↔
      ∃ policy, parsePolicy program.axionPolicyText = .ok policy ∧
        vm = { old with
          program
          state := initialState program policy
          preloadTrap := validateProgram program
          steps := 0
          callStack := [] } := by
  rw [loadProgram, bind_eq_ok]
  constructor
  · rintro ⟨loaded, image, same⟩
    obtain ⟨policy, parsed, rfl⟩ := loadProgramImage_eq_ok.mp image
    exact ⟨policy, parsed, (Except.ok.inj same).symm⟩
  · rintro ⟨policy, parsed, rfl⟩
    exact ⟨_, loadProgramImage_eq_ok.mpr ⟨policy, parsed, rfl⟩, rfl⟩

/-- A new object that loaded a program without a policy tier. -/
def freshlyLoaded (program : Program) : Interpreter :=
  { program
    state := initialState program none
    preloadTrap := validateProgram program }

theorem loads_freshlyLoaded (plain : program.axionPolicyText = []) :
    Loads program (freshlyLoaded program) := by
  refine ⟨{}, ?_⟩
  rw [loadProgram_eq_ok]
  exact ⟨none, plain ▸ parsePolicy_nil, rfl⟩

theorem Loads.state_eq (loads : Loads program vm) :
    ∃ policy, vm.state = initialState program policy := by
  obtain ⟨old, loaded⟩ := loads
  rw [loadProgram_eq_ok] at loaded
  obtain ⟨policy, _, rfl⟩ := loaded
  exact ⟨policy, rfl⟩

theorem Loads.preloadTrap_eq (loads : Loads program vm) :
    vm.preloadTrap = validateProgram program := by
  obtain ⟨old, loaded⟩ := loads
  rw [loadProgram_eq_ok] at loaded
  obtain ⟨policy, _, rfl⟩ := loaded
  rfl

theorem Loads.callStack_eq (loads : Loads program vm) :
    vm.callStack = [] := by
  obtain ⟨old, loaded⟩ := loads
  rw [loadProgram_eq_ok] at loaded
  obtain ⟨policy, _, rfl⟩ := loaded
  rfl

theorem Loads.installed (loads : Loads program vm) : Installed program vm := by
  obtain ⟨old, loaded⟩ := loads
  rw [loadProgram_eq_ok] at loaded
  obtain ⟨policy, _, rfl⟩ := loaded
  exact ⟨rfl, rfl, List.length_replicate⟩

theorem Stepped.program_eq {answer : Expected × Interpreter}
    (stepped : Stepped vm answer) : answer.2.program = vm.program := by
  cases stepped with
  | resting | rejected | overrun => rfl
  | executed fetches transition => exact transition.program_eq

theorem Stepped.policy_eq {answer : Expected × Interpreter}
    (stepped : Stepped vm answer) :
    answer.2.state.policy = vm.state.policy := by
  cases stepped with
  | resting | rejected | overrun => rfl
  | executed fetches transition => exact transition.policy_eq

theorem Stepped.preloadTrap_eq {answer : Expected × Interpreter}
    (stepped : Stepped vm answer) (accepted : vm.preloadTrap = none) :
    answer.2.preloadTrap = none := by
  cases stepped with
  | resting => exact accepted
  | rejected | overrun => rfl
  | executed fetches transition => exact transition.preloadTrap_eq accepted

/-- Without a verdict to raise, steps keep the program and raise none. -/
theorem iterate_kept {count : Nat} {last : Interpreter}
    (accepted : vm.preloadTrap = none)
    (reached : iterate (step host) count vm = .ok last) :
    last.preloadTrap = none ∧ last.program = vm.program :=
  @iterate_invariant _ _ _ _
    (fun state => state.preloadTrap = none ∧ state.program = vm.program)
    (fun _ _ _ kept stepped =>
      have answer := step_stepped stepped
      ⟨answer.preloadTrap_eq kept.1, answer.program_eq.trans kept.2⟩)
    _ _ _ ⟨accepted, rfl⟩ reached

theorem Stepped.installed {answer : Expected × Interpreter}
    (installed : Installed program vm) (stepped : Stepped vm answer) :
    Installed program answer.2 := by
  cases stepped with
  | resting => exact installed
  | rejected | overrun =>
      exact ⟨installed.program_eq, installed.layout_eq,
        installed.memory_length⟩
  | executed fetches transition =>
      exact ⟨transition.program_eq.trans installed.program_eq,
        transition.layout_eq.trans installed.layout_eq,
        transition.memory_length.trans installed.memory_length⟩

theorem Installed.step {result : Expected} {final : Interpreter}
    (installed : Installed program vm)
    (stepped : vm.step host = .ok (result, final)) :
    Installed program final :=
  (step_stepped stepped).installed installed

theorem Installed.setRegister {idx : Int32} {value : Int64} {tag : ValueTag}
    (installed : Installed program vm) :
    Installed program (vm.setRegister idx value tag) := by
  unfold Interpreter.setRegister
  split
  · exact ⟨installed.program_eq, installed.layout_eq,
      installed.memory_length⟩
  · exact installed

/-- An accepted program is installed, and its first fetch is not barred. -/
structure Accepted (program : Program) (vm : Interpreter) : Prop
    extends Installed program vm where
  preloadTrap_eq : vm.preloadTrap = none

theorem Loads.accepted (loads : Loads program vm)
    (accepted : validateProgram program = none) : Accepted program vm :=
  ⟨loads.installed, loads.preloadTrap_eq.trans accepted⟩

theorem Accepted.step {result : Expected} {final : Interpreter}
    (accepted : Accepted program vm)
    (stepped : vm.step host = .ok (result, final)) :
    Accepted program final := by
  exact ⟨accepted.toInstalled.step stepped,
    (step_stepped stepped).preloadTrap_eq accepted.preloadTrap_eq⟩

theorem Accepted.setRegister {idx : Int32} {value : Int64} {tag : ValueTag}
    (accepted : Accepted program vm) :
    Accepted program (vm.setRegister idx value tag) := by
  refine ⟨accepted.toInstalled.setRegister, ?_⟩
  unfold Interpreter.setRegister
  split <;> exact accepted.preloadTrap_eq

theorem Reachable.accepted (reached : Reachable host program vm)
    (accepted : validateProgram program = none) : Accepted program vm :=
  reached.invariant (fun _ loads => loads.accepted accepted)
    (fun _ _ _ accepted stepped => accepted.step stepped)
    (fun _ _ _ _ accepted => accepted.setRegister)

theorem Reachable.installed (reached : Reachable host program vm) :
    Installed program vm :=
  reached.invariant (fun _ loads => loads.installed)
    (fun _ _ _ installed stepped => installed.step stepped)
    (fun _ _ _ _ installed => installed.setRegister)

/-! ## Fetched instructions -/

theorem registerIndex_of_validReg {idx : Int64} (valid : validReg idx = true) :
    ∃ reg, registerIndex idx = .ok reg := by
  rw [registerIndex, dif_pos (validReg_iff.mp valid)]
  exact ⟨_, rfl⟩

theorem Installed.member {insn : Insn} (installed : Installed program vm)
    (fetches : vm.Fetches insn) : insn ∈ program.insns := by
  rw [← installed.program_eq]
  exact List.mem_of_getElem? fetches.fetched

/-- The validator has checked the operands of a fetched instruction. -/
theorem Installed.validOperands {insn : Insn}
    (installed : Installed program vm)
    (accepted : validateProgram program = none)
    (fetches : vm.Fetches insn) :
    validOperands program.insns.length insn = true :=
  (validateProgram_eq_none_iff.mp accepted insn
    (installed.member fetches)).2

end Interpreter

end T81VM.VM
