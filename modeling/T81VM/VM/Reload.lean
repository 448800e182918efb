import T81VM.VM.Summary
import T81VM.VM.WriteDeltas

/-!
# Reloading an object

`load_program` assigns every member but the write that was recorded since the
last fetch.  The first fetch clears it, so only a program that traps before
its first fetch shows what the object did earlier.
-/

namespace T81VM.VM

open Tisc PartialSystem

namespace Interpreter

variable {host : Host} {program : Program}
  {old loaded fresh left right : Interpreter}

/-- What a host can see of two objects is the same. -/
def SameState (left right : Interpreter) : Prop :=
  left.state = right.state ∧ stateHash left.state = stateHash right.state

/-- No sequence of calls without a load tells the objects apart: the replies,
the states and their hashes are the same, and one sequence returns if and only
if the other does. -/
def Isolated (host : Host) (left right : Interpreter) : Prop :=
  ∀ calls, (∀ call ∈ calls, Call.driving call) →
    Agree SameState (run (call host) calls left)
      (run (call host) calls right)

/-- Equal objects, or objects that differ in the recorded write alone and are
about to fetch an instruction. -/
inductive Reloaded : Interpreter → Interpreter → Prop where
  | same (vm : Interpreter) : Reloaded vm vm
  | pending {vm : Interpreter} {insn : Insn} (fetches : vm.Fetches insn)
      (reg : Option Nat) (value : Option Int64) (tag : Option ValueTag) :
      Reloaded
        { vm with
          currentWriteReg := reg
          currentWriteValue := value
          currentWriteTag := tag } vm

theorem Reloaded.sameState (reloaded : Reloaded left right) :
    SameState left right := by
  cases reloaded with
  | same => exact ⟨rfl, rfl⟩
  | pending => exact ⟨rfl, rfl⟩

/-- Fetching clears the recorded write, so the steps are equal. -/
theorem step_pending {vm : Interpreter} {insn : Insn}
    (fetches : vm.Fetches insn) {reg : Option Nat} {value : Option Int64}
    {tag : Option ValueTag} :
    step host { vm with
      currentWriteReg := reg
      currentWriteValue := value
      currentWriteTag := tag } = vm.step host := by
  have pendingFetches : Fetches { vm with
      currentWriteReg := reg
      currentWriteValue := value
      currentWriteTag := tag } insn :=
    ⟨fetches.running, fetches.accepted, fetches.fetched⟩
  rw [step_of_fetches fetches, step_of_fetches pendingFetches]
  rfl

/-- A call on reloaded objects has the same answer. -/
theorem call_reloaded (request : Call) (left right : Interpreter)
    (driving : request.driving) (reloaded : Reloaded left right) :
    Agree Reloaded (call host request left) (call host request right) := by
  cases reloaded with
  | same => exact Agree.refl Reloaded.same _
  | @pending _ insn fetches reg value tag =>
      cases request with
      | loadProgram => exact driving.elim
      | step =>
          rw [call, call, step_pending fetches]
          exact Agree.refl Reloaded.same _
      | runToHalt maxSteps =>
          cases maxSteps with
          | zero => exact ⟨rfl, .pending fetches reg value tag⟩
          | succ maxSteps =>
              rw [call, call, runToHalt, runToHalt, step_pending fetches]
              exact Agree.refl Reloaded.same _
      | setRegister idx written writtenTag =>
          refine ⟨rfl, ?_⟩
          by_cases inRange : 0 ≤ idx.toInt ∧ idx.toInt.toNat < 243
          · -- The host's write is recorded in the place of the pending one.
            rw [setRegister, setRegister, dif_pos inRange, dif_pos inRange]
            exact .same _
          · rw [setRegister, setRegister, dif_neg inRange, dif_neg inRange]
            exact .pending fetches reg value tag

theorem Reloaded.isolated (reloaded : Reloaded left right) :
    Isolated host left right := by
  intro calls driving
  have agree := run_agree (@call_reloaded host) driving reloaded
  exact agree.mono fun _ _ reloaded => reloaded.sameState

/-- A trap before the first fetch shows the recorded write. -/
theorem unwritten_of_isolated {code otherCode : Trap}
    {opcode otherOpcode : Opcode} {pc otherPc : Nat}
    (isolated : Isolated host left right)
    (leftTraps : left.step host = .ok (left.trap code opcode pc))
    (rightTraps : right.step host =
      .ok (right.trap otherCode otherOpcode otherPc))
    (clean : right.Unwritten) : left.Unwritten := by
  have agree := isolated [.step] (by simp [Call.driving])
  rw [run, run, call, call, leftTraps, rightTraps] at agree
  obtain ⟨_, same, _⟩ := agree
  have traces : left.state.trace ++ [left.traceEntry opcode pc (some code)] =
      right.state.trace ++
        [right.traceEntry otherOpcode otherPc (some otherCode)] :=
    congrArg State.trace same
  have entries := congrArg List.getLast? traces
  simp only [List.getLast?_concat, Option.some.injEq, traceEntry,
    TraceEntry.mk.injEq] at entries
  obtain ⟨_, _, reg, value, tag, _⟩ := entries
  exact ⟨reg.trans clean.1, value.trans clean.2.1, tag.trans clean.2.2⟩

/-- A load leaves the new object of the program but for the recorded write. -/
theorem loadProgram_eq_fresh (reloads : old.loadProgram program = .ok loaded) :
    ∃ fresh, ({} : Interpreter).loadProgram program = .ok fresh ∧
      fresh.Unwritten ∧
      loaded = { fresh with
        currentWriteReg := old.currentWriteReg
        currentWriteValue := old.currentWriteValue
        currentWriteTag := old.currentWriteTag } := by
  obtain ⟨policy, parsed, rfl⟩ := loadProgram_eq_ok.mp reloads
  exact ⟨_, loadProgram_eq_ok.mpr ⟨policy, parsed, rfl⟩, ⟨rfl, rfl, rfl⟩, rfl⟩

theorem Loads.step_rejected {vm : Interpreter} {code : Trap}
    (loads : Loads program vm) (verdict : validateProgram program = some code) :
    vm.step host = .ok (vm.trap code vm.currentOpcode vm.state.pc) := by
  have preload := loads.preloadTrap_eq.trans verdict
  obtain ⟨policy, state⟩ := loads.state_eq
  have running : vm.state.halted = false := by rw [state]; rfl
  simp [step, running, preload]

theorem Loads.step_empty {vm : Interpreter} (loads : Loads program vm)
    (accepted : validateProgram program = none) (empty : program.insns = []) :
    vm.step host = .ok (vm.trap .decodeFault .nop vm.state.pc) := by
  have preload := loads.preloadTrap_eq.trans accepted
  obtain ⟨policy, state⟩ := loads.state_eq
  have running : vm.state.halted = false := by rw [state]; rfl
  have none : vm.program.insns = [] := by
    rw [loads.installed.program_eq, empty]
  simp [step, running, preload, none]

theorem Loads.fetches {vm : Interpreter} {insn : Insn} {rest : List Insn}
    (loads : Loads program vm) (accepted : validateProgram program = none)
    (cons : program.insns = insn :: rest) : vm.Fetches insn := by
  obtain ⟨policy, state⟩ := loads.state_eq
  have first : vm.state.pc = 0 := by rw [state]; rfl
  have running : vm.state.halted = false := by rw [state]; rfl
  refine ⟨running, loads.preloadTrap_eq.trans accepted, ?_⟩
  rw [loads.installed.program_eq, cons, first]
  rfl

/-- A program is isolated from the history of the object that loads it
exactly when it is accepted and not empty, or the object has no recorded
write. -/
theorem isolated_iff (reloads : old.loadProgram program = .ok loaded) :
    ∃ fresh, ({} : Interpreter).loadProgram program = .ok fresh ∧
      (Isolated host loaded fresh ↔
        (validateProgram program = none ∧ program.insns ≠ []) ∨
          old.Unwritten) := by
  obtain ⟨fresh, created, clean, same⟩ := loadProgram_eq_fresh reloads
  have reloaded : Loads program loaded := ⟨old, reloads⟩
  have new : Loads program fresh := ⟨{}, created⟩
  have recorded : loaded.Unwritten → old.Unwritten := by
    rw [same]
    exact id
  refine ⟨fresh, created, ?_, ?_⟩
  · intro isolated
    cases verdict : validateProgram program with
    | some code =>
        have unwritten := unwritten_of_isolated isolated
          (reloaded.step_rejected verdict) (new.step_rejected verdict) clean
        exact .inr (recorded unwritten)
    | none =>
        by_cases empty : program.insns = []
        · have unwritten := unwritten_of_isolated isolated
            (reloaded.step_empty verdict empty)
            (new.step_empty verdict empty) clean
          exact .inr (recorded unwritten)
        · exact .inl ⟨rfl, empty⟩
  · intro condition
    apply Reloaded.isolated
    rw [same]
    rcases condition with ⟨accepted, nonempty⟩ | ⟨reg, value, tag⟩
    · obtain ⟨insn, rest, cons⟩ := List.exists_cons_of_ne_nil nonempty
      exact .pending (new.fetches accepted cons) _ _ _
    · have unchanged : { fresh with
          currentWriteReg := old.currentWriteReg
          currentWriteValue := old.currentWriteValue
          currentWriteTag := old.currentWriteTag } = fresh := by
        rw [reg, value, tag, ← clean.1, ← clean.2.1, ← clean.2.2]
      rw [unchanged]
      exact .same fresh

/-- A program that writes 7 to register 0. -/
def loadSeven : Program where
  insns := [{ opcode := .loadImm, a := 0, b := 7, c := 0 }]
  axionPolicyText := []
  fits := by decide

/-- A program that names register 999 is rejected. -/
def loadOutside : Program where
  insns := [{ opcode := .loadImm, a := 999, b := 7, c := 0 }]
  axionPolicyText := []
  fits := by decide

/-- Reloading the accepted program after a step of it. -/
theorem isolated_iff_loadSeven :
    ∃ replies old loaded, run (call strictHost) [.loadProgram loadSeven, .step]
        {} = .ok (replies, old) ∧
      old.loadProgram loadSeven = .ok loaded ∧
      ∃ fresh, ({} : Interpreter).loadProgram loadSeven = .ok fresh ∧
        (Isolated strictHost loaded fresh ↔
          (validateProgram loadSeven = none ∧ loadSeven.insns ≠ []) ∨
            old.Unwritten) := by
  have finished : run (call strictHost) [.loadProgram loadSeven, .step] {} =
      .ok (_, _) := rfl
  exact ⟨_, _, _, finished, rfl, isolated_iff rfl⟩

/-- After the same step the rejected program shows the write of register 0 in
the trace entry of its trap. -/
theorem not_isolated_loadOutside :
    ¬ ∀ (host : Host) (history : List Call) (replies : List Reply)
        (old : Interpreter) (program : Program) (loaded fresh : Interpreter),
      run (call host) history {} = .ok (replies, old) →
      old.loadProgram program = .ok loaded →
      ({} : Interpreter).loadProgram program = .ok fresh →
      Isolated host loaded fresh := by
  intro isolates
  have finished : run (call strictHost) [.loadProgram loadSeven, .step] {} =
      .ok (_, _) := rfl
  have isolated := isolates strictHost _ _ _ loadOutside _ _ finished rfl rfl
  have agree := isolated [.step] (by simp [Call.driving])
  have traces := congrArg State.trace agree.2.1
  have written : some 0 = (none : Option Nat) :=
    congrArg (fun trace => trace.head?.bind TraceEntry.writeReg) traces
  cases written

end Interpreter

end T81VM.VM
