import T81VM.VM.Faults
import T81VM.VM.TrapAtomicity

/-!
# Rejected programs

The verdict of the loader bars the first step only: `trap` forgets it.  A
rejected program therefore stays unexecuted only while one call is made, or
when its first instruction raises a decode fault of its own.
-/

namespace T81VM.VM

open Tisc PartialSystem Interpreter

/-- The calls that make the guest take a step. -/
def Call.runs : Call → Prop
  | .step => True
  | .runToHalt maxSteps => 1 ≤ maxSteps
  | .loadProgram _ | .setRegister .. => False

/-- At every point of the call sequence, each call made so far returned a
decode fault and the machine is the loaded one. -/
def NeverExecutes (host : Host) (loaded : Interpreter)
    (calls : List Call) : Prop :=
  ∀ earlier later, calls = earlier ++ later → ∃ replies vm,
    run (call host) earlier loaded = .ok (replies, vm) ∧
      (∀ reply ∈ replies, reply = .result (.error .decodeFault)) ∧
      vm.machine = loaded.machine

/-- The instruction raises a decode fault on the initial machine of a program
with `size` instructions. -/
def FaultsAtOnce (size : Nat) (insn : Insn) : Prop :=
  match insn.opcode with
  | .undefined _ | .heapFree => True
  | .jump | .jumpIfNotZero => insn.a < 0 ∨ toSize insn.a ≥ size
  | .makeEnumVariantPayload => insn.c < 0
  | .heapAlloc => insn.b ≤ 0
  | _ => False

/-- The initial machine of a program, with no verdict left to raise. -/
structure AtStart (program : Program) (vm : Interpreter) : Prop where
  program_eq : vm.program = program
  preloadTrap_eq : vm.preloadTrap = none
  machine_eq : ∃ policy, vm.machine =
    ({ state := initialState program policy } : Interpreter).machine

namespace AtStart

variable {host : Host} {program : Program} {vm other : Interpreter}

theorem congr (start : AtStart program vm) (same : SameMachine vm other) :
    AtStart program other := by
  obtain ⟨policy, machines⟩ := start.machine_eq
  exact ⟨same.program_eq.symm.trans start.program_eq,
    same.preloadTrap_eq.symm.trans start.preloadTrap_eq,
    policy, same.machine_eq.symm.trans machines⟩

theorem pc_eq (start : AtStart program vm) : vm.state.pc = 0 := by
  obtain ⟨policy, machines⟩ := start.machine_eq
  exact congrArg Machine.pc machines

theorem halted_eq (start : AtStart program vm) : vm.state.halted = false := by
  obtain ⟨policy, machines⟩ := start.machine_eq
  exact congrArg Machine.halted machines

theorem registers_eq (start : AtStart program vm) :
    vm.state.registers = fun _ => 0 := by
  obtain ⟨policy, machines⟩ := start.machine_eq
  exact congrArg Machine.registers machines

theorem registerTags_eq (start : AtStart program vm) :
    vm.state.registerTags = fun _ => .int := by
  obtain ⟨policy, machines⟩ := start.machine_eq
  exact congrArg Machine.registerTags machines

theorem flags_eq (start : AtStart program vm) : vm.state.flags = {} := by
  obtain ⟨policy, machines⟩ := start.machine_eq
  exact congrArg Machine.flags machines

theorem heapFrames_eq (start : AtStart program vm) :
    vm.state.heapFrames = [] := by
  obtain ⟨policy, machines⟩ := start.machine_eq
  exact congrArg Machine.heapFrames machines

/-- No register of the initial machine carries a handle. -/
theorem tagIs_ne (start : AtStart program vm) {idx : Int64} {tag : ValueTag}
    (handle : tag ≠ .int) : vm.tagIs idx tag ≠ .ok true := by
  intro tagged
  obtain ⟨reg, _, same⟩ := tagIs_eq_true.mp tagged
  rw [start.registerTags_eq] at same
  exact handle same.symm

theorem fetches (start : AtStart program vm) {insn : Insn} {rest : List Insn}
    (first : program.insns = insn :: rest) : vm.Fetches insn where
  running := start.halted_eq
  accepted := start.preloadTrap_eq
  fetched := by simp [start.program_eq, start.pc_eq, first]

/-- On the initial machine only these guards end in a decode fault. -/
theorem faultsAtOnce (start : AtStart program vm) {insn : Insn}
    (inhabited : 0 < program.insns.length)
    (guard : vm.MayDecodeFault insn) :
    FaultsAtOnce program.insns.length insn := by
  have flags := start.flags_eq
  have tags := fun {tag} => @tagIs_ne program vm start insn.b tag
  unfold MayDecodeFault at guard
  unfold FaultsAtOnce
  cases opcode : insn.opcode <;> rw [opcode] at guard
  case undefined | heapFree => trivial
  case makeEnumVariantPayload | heapAlloc => exact guard
  case jump | jumpIfNotZero =>
    obtain ⟨_, invalid⟩ := guard
    rw [start.program_eq, validTarget_iff] at invalid
    by_contra stays
    exact invalid (not_leaves_iff.mp stays)
  case jumpIfZero | jumpIfNegative | jumpIfPositive =>
    obtain ⟨taken, _⟩ := guard
    simp [jumpTaken, flags] at taken
  case call =>
    obtain ⟨target, read, invalid⟩ := guard
    obtain ⟨reg, _, rfl⟩ := register_eq_ok.mp read
    rw [start.program_eq, start.registers_eq] at invalid
    exact invalid (validTarget_iff.mpr ⟨Int64.le_refl 0, inhabited⟩)
  all_goals
    first
    | exact guard.elim
    | exact tags (by decide) guard

/-- Such an instruction traps on the initial machine. -/
theorem step_of_faultsAtOnce (start : AtStart program vm) {insn : Insn}
    {rest : List Insn} (first : program.insns = insn :: rest)
    (faults : FaultsAtOnce program.insns.length insn) :
    ∃ final, vm.step host = .ok (.error .decodeFault, final) := by
  have flags := start.flags_eq
  have heap : vm.beginInsn.state.heapFrames = [] := start.heapFrames_eq
  have size : vm.beginInsn.program.insns.length = program.insns.length := by
    rw [← start.program_eq]
    rfl
  rw [step_of_fetches (start.fetches first)]
  unfold FaultsAtOnce at faults
  unfold execute
  cases opcode : insn.opcode <;> rw [opcode] at faults
  case undefined => exact ⟨_, rfl⟩
  case makeEnumVariantPayload | heapAlloc => exact ⟨_, if_pos faults⟩
  case heapFree =>
    simp only [executeHeapFree, heap]
    exact ⟨_, rfl⟩
  case jump =>
    simp only [checkJumpTarget, size]
    exact ⟨_, if_pos faults⟩
  case jumpIfNotZero =>
    have taken : (!vm.beginInsn.state.flags.zero) = true := by
      show (!vm.state.flags.zero) = true
      simp [flags]
    simp only [executeJumpIf, taken, checkJumpTarget, size]
    exact ⟨_, if_pos faults⟩
  all_goals exact faults.elim

end AtStart

namespace Interpreter

variable {host : Host} {program : Program} {loaded vm : Interpreter}

/-- A call answers the trap of its first step. -/
theorem call_of_trap {call : Call} {code : Trap} {final : Interpreter}
    (runs : call.runs) (trapped : vm.step host = .ok (.error code, final)) :
    Interpreter.call host call vm =
      .ok (.result (.error code), final) := by
  cases call with
  | loadProgram | setRegister => exact runs.elim
  | step => exact call_step_eq_ok.mpr ⟨_, trapped, rfl⟩
  | runToHalt maxSteps =>
      cases maxSteps with
      | zero => exact absurd runs (Nat.not_succ_le_zero 0)
      | succ maxSteps =>
          refine call_runToHalt_eq_ok.mpr ⟨_, ?_, rfl⟩
          exact runToHalt_succ_eq_ok.mpr
            ⟨_, final, trapped, .inl ⟨code, rfl, rfl⟩⟩

/-- A trap that `run_to_halt` reports was raised by one of its steps, or by
the exhausted budget. -/
theorem runToHalt_eq_error {maxSteps : Nat} {code : Trap}
    {last : Interpreter}
    (finished : runToHalt host maxSteps vm = .ok (.error code, last)) :
    code = .trapInstruction ∨
      ∃ count before, iterate (step host) count vm = .ok before ∧
        before.step host = .ok (.error code, last) := by
  induction maxSteps generalizing vm with
  | zero =>
      cases finished
      exact .inl rfl
  | succ maxSteps induction =>
      obtain ⟨result, middle, stepped, rest⟩ :=
        runToHalt_succ_eq_ok.mp finished
      rcases rest with ⟨other, rfl, same⟩ | ⟨_, _, impossible⟩ |
        ⟨_, _, later⟩
      · cases same
        exact .inr ⟨0, vm, rfl, stepped⟩
      · cases impossible
      · rcases induction later with exhausted | ⟨count, before, reached, last⟩
        · exact .inl exhausted
        · exact .inr ⟨count + 1, before,
            iterate_succ_eq_ok.mpr ⟨result, middle, stepped, reached⟩, last⟩

/-- The first call on a rejected program raises the verdict and leaves the
initial machine behind, with no verdict left. -/
theorem call_rejected {call : Call} {code : Trap}
    (rejected : validateProgram program = some code)
    (loads : Loads program loaded) (runs : call.runs) :
    ∃ barred, Interpreter.call host call loaded =
        .ok (.result (.error .decodeFault), barred) ∧
      barred.machine = loaded.machine ∧ AtStart program barred := by
  have verdict : loaded.preloadTrap = some .decodeFault := by
    rw [loads.preloadTrap_eq, rejected, validateInsns_eq_some rejected]
  obtain ⟨policy, initial⟩ := loads.state_eq
  have running : loaded.state.halted = false := by rw [initial]; rfl
  have barred : loaded.step host =
      .ok (loaded.trap .decodeFault loaded.currentOpcode loaded.state.pc) := by
    simp only [step, running, verdict]
    rfl
  refine ⟨_, call_of_trap runs barred, rfl,
    ⟨loads.installed.program_eq, rfl, policy, ?_⟩⟩
  have machines : loaded.machine =
      ({ state := initialState program policy } : Interpreter).machine := by
    simp only [machine, initial, loads.callStack_eq]
  exact machines

/-- A call that answers a decode fault and keeps the initial machine began
with a step that raised it. -/
theorem step_of_call_decodeFault {call : Call} {final : Interpreter}
    (start : AtStart program vm) (runs : call.runs)
    (answered : Interpreter.call host call vm =
      .ok (.result (.error .decodeFault), final))
    (unchanged : final.machine = vm.machine) :
    ∃ next, vm.step host = .ok (.error .decodeFault, next) := by
  cases call with
  | loadProgram | setRegister => exact runs.elim
  | step =>
      obtain ⟨result, stepped, same⟩ := call_step_eq_ok.mp answered
      cases same
      exact ⟨final, stepped⟩
  | runToHalt maxSteps =>
      obtain ⟨result, finished, same⟩ := call_runToHalt_eq_ok.mp answered
      cases same
      rcases runToHalt_eq_error finished with impossible |
        ⟨count, before, reached, last⟩
      · contradiction
      · -- The last step trapped on the initial machine, as the first one does.
        obtain ⟨barred, kept⟩ := iterate_kept start.preloadTrap_eq reached
        have left := step_sameMachine_of_error barred last
        have same : SameMachine before vm :=
          ⟨kept, barred.trans start.preloadTrap_eq.symm,
            left.machine_eq.trans unchanged⟩
        obtain ⟨next, trapped, _⟩ := step_error_of_sameMachine same last
        exact ⟨next, trapped⟩

/-- When the first instruction raises a decode fault, so does every call. -/
theorem run_of_trap {calls : List Call} {code : Trap} {next : Interpreter}
    (accepted : vm.preloadTrap = none)
    (trapped : vm.step host = .ok (.error code, next))
    (runs : ∀ call ∈ calls, call.runs) :
    ∃ replies last, run (call host) calls vm = .ok (replies, last) ∧
      (∀ reply ∈ replies, reply = .result (.error code)) ∧
      last.machine = vm.machine := by
  induction calls generalizing vm next with
  | nil => exact ⟨[], vm, rfl, by simp, rfl⟩
  | cons first calls induction =>
      have same := step_sameMachine_of_error accepted trapped
      obtain ⟨again, trappedAgain, _⟩ :=
        step_error_of_sameMachine same trapped
      have runsFirst := runs first List.mem_cons_self
      obtain ⟨replies, last, rest, faults, kept⟩ := induction
        (same.preloadTrap_eq.symm.trans accepted) trappedAgain
        fun call member => runs call (List.mem_cons_of_mem _ member)
      refine ⟨_, last, run_cons_eq_ok.mpr ⟨_, next, replies,
        call_of_trap runsFirst trapped, rest, rfl⟩, ?_,
        kept.trans same.machine_eq.symm⟩
      intro reply member
      rcases List.mem_cons.mp member with rfl | member
      · rfl
      · exact faults reply member

/-- The initial machine raises a decode fault exactly when the first
instruction does. -/
theorem step_decodeFault_iff {insn : Insn} {rest : List Insn}
    (first : program.insns = insn :: rest) (start : AtStart program vm) :
    (∃ next, vm.step host = .ok (.error .decodeFault, next)) ↔
      FaultsAtOnce program.insns.length insn := by
  constructor
  · rintro ⟨next, trapped⟩
    have inhabited : 0 < program.insns.length := by simp [first]
    rw [step_of_fetches (start.fetches first)] at trapped
    have begun : AtStart program vm.beginInsn := start.congr ⟨rfl, rfl, rfl⟩
    exact begun.faultsAtOnce inhabited (mayDecodeFault_of_execute trapped)
  · exact start.step_of_faultsAtOnce first

/-- A first call that changes nothing can be left out. -/
theorem neverExecutes_cons {first : Call} {calls : List Call}
    {barred : Interpreter}
    (answered : call host first loaded =
      .ok (.result (.error .decodeFault), barred))
    (unchanged : barred.machine = loaded.machine) :
    NeverExecutes host loaded (first :: calls) ↔
      NeverExecutes host barred calls := by
  constructor
  · intro never earlier later split
    obtain ⟨replies, vm, finished, faults, kept⟩ :=
      never (first :: earlier) later (by rw [split]; rfl)
    obtain ⟨reply, middle, tail, head, rest, rfl⟩ :=
      run_cons_eq_ok.mp finished
    rw [answered] at head
    cases head
    exact ⟨tail, vm, rest,
      fun reply member => faults reply (List.mem_cons_of_mem _ member),
      kept.trans unchanged.symm⟩
  · intro never earlier later split
    cases earlier with
    | nil => exact ⟨[], loaded, rfl, by simp, rfl⟩
    | cons head earlier =>
        obtain ⟨rfl, rest⟩ := List.cons.inj split
        obtain ⟨replies, vm, finished, faults, kept⟩ :=
          never earlier later rest
        refine ⟨_, vm, run_cons_eq_ok.mpr
          ⟨_, barred, replies, answered, finished, rfl⟩, ?_,
          kept.trans unchanged⟩
        intro reply member
        rcases List.mem_cons.mp member with rfl | member
        · rfl
        · exact faults reply member

/-- Once the verdict is raised, the initial machine stays unexecuted exactly
when no call follows or the first instruction faults by itself. -/
theorem neverExecutes_barred_iff {insn : Insn} {rest : List Insn}
    {calls : List Call} (first : program.insns = insn :: rest)
    (start : AtStart program vm) (runs : ∀ call ∈ calls, call.runs) :
    NeverExecutes host vm calls ↔
      calls = [] ∨ FaultsAtOnce program.insns.length insn := by
  constructor
  · intro never
    cases calls with
    | nil => exact .inl rfl
    | cons second calls =>
        obtain ⟨replies, last, finished, faults, kept⟩ :=
          never [second] calls rfl
        obtain ⟨reply, middle, tail, answered, done, rfl⟩ :=
          run_cons_eq_ok.mp finished
        cases done
        rw [faults reply List.mem_cons_self] at answered
        have trapped := step_of_call_decodeFault start
          (runs second List.mem_cons_self) answered kept
        exact .inr ((step_decodeFault_iff first start).mp trapped)
  · rintro (rfl | faults) earlier later split
    · obtain ⟨rfl, rfl⟩ := List.nil_eq_append_iff.mp split
      exact ⟨[], vm, rfl, by simp, rfl⟩
    · obtain ⟨next, trapped⟩ :=
        (@step_decodeFault_iff host program vm insn rest first start).mpr
          faults
      refine run_of_trap start.preloadTrap_eq trapped fun call member => ?_
      exact runs call (split ▸ List.mem_append_left later member)

/-- A rejected program stays unexecuted through a sequence of calls exactly
when the sequence has at most one call, or the first instruction raises a
decode fault by itself. -/
theorem neverExecutes_iff {code : Trap} {calls : List Call}
    (rejected : validateProgram program = some code)
    (loads : Loads program loaded) (runs : ∀ call ∈ calls, call.runs) :
    NeverExecutes host loaded calls ↔
      calls.length ≤ 1 ∨ ∃ insn rest, program.insns = insn :: rest ∧
        FaultsAtOnce program.insns.length insn := by
  obtain ⟨insn, rest, first⟩ : ∃ insn rest, program.insns = insn :: rest := by
    cases insns : program.insns with
    | nil => simp [validateProgram, insns, validateInsns] at rejected
    | cons insn rest => exact ⟨insn, rest, rfl⟩
  have firstFaults : (∃ insn rest, program.insns = insn :: rest ∧
      FaultsAtOnce program.insns.length insn) ↔
      FaultsAtOnce program.insns.length insn := by
    constructor
    · rintro ⟨other, others, same, faults⟩
      rw [first] at same
      obtain ⟨rfl, _⟩ := List.cons.inj same
      exact faults
    · exact fun faults => ⟨insn, rest, first, faults⟩
  rw [firstFaults]
  cases calls with
  | nil =>
      refine ⟨fun _ => .inl (Nat.zero_le 1), fun _ earlier later split => ?_⟩
      obtain ⟨rfl, rfl⟩ := List.nil_eq_append_iff.mp split
      exact ⟨[], loaded, rfl, by simp, rfl⟩
  | cons call calls =>
      obtain ⟨barred, answered, unchanged, start⟩ :=
        @call_rejected host program loaded call code rejected loads
          (runs call List.mem_cons_self)
      rw [neverExecutes_cons answered unchanged,
        neverExecutes_barred_iff first start
          fun call member => runs call (List.mem_cons_of_mem _ member)]
      simp

/-- `Nop` before an instruction that names register 999. -/
def secondRejected : Program where
  insns := [
    { opcode := .nop, a := 0, b := 0, c := 0 },
    { opcode := .loadImm, a := 999, b := 1, c := 0 }]
  axionPolicyText := []
  fits := by decide

/-- One call on the rejected program executes nothing. -/
theorem neverExecutes_iff_secondRejected :
    NeverExecutes strictHost (freshlyLoaded secondRejected) [.runToHalt 5] ↔
      [Call.runToHalt 5].length ≤ 1 ∨
        ∃ insn rest, secondRejected.insns = insn :: rest ∧
          FaultsAtOnce secondRejected.insns.length insn :=
  neverExecutes_iff rfl (loads_freshlyLoaded rfl) (by simp [Call.runs])

/-- The second step on the rejected program executes its first instruction. -/
theorem not_neverExecutes_secondRejected :
    ¬ ∀ (host : Host) (program : Program) (loaded : Interpreter)
        (calls : List Call), validateProgram program ≠ none →
      Loads program loaded → (∀ call ∈ calls, call.runs) →
      NeverExecutes host loaded calls := by
  intro never
  obtain ⟨replies, vm, finished, faults, _⟩ := never strictHost secondRejected
    (freshlyLoaded secondRejected) [.step, .step] (by decide)
    (loads_freshlyLoaded rfl) (by simp [Call.runs]) [.step, .step] [] rfl
  have executed : run (call strictHost) [.step, .step]
      (freshlyLoaded secondRejected) =
        .ok ([.result (.error .decodeFault), .result (.ok ())], _) := rfl
  rw [executed] at finished
  cases finished
  have impossible := faults (.result (.ok ())) (by simp)
  contradiction

end Interpreter

end T81VM.VM
