import T81VM.VM.Installed
import T81VM.VM.Machine

/-!
# Traps are atomic and terminal

A step that traps leaves the machine as it was, so the next step fetches the
same instruction and traps alike.
-/

namespace T81VM.VM

open Tisc PartialSystem Interpreter

/-- A transition that traps changes the record only. -/
theorem Transition.sameMachine_of_error {vm : Interpreter} {insn : Insn}
    {pc : Nat} {code : Trap} {answer : Expected × Interpreter}
    (transition : Transition vm insn pc answer)
    (accepted : vm.preloadTrap = none) (failed : answer.1 = .error code) :
    SameMachine vm answer.2 := by
  cases transition with
  | faulted => exact ⟨rfl, accepted, rfl⟩
  | _ => cases failed

namespace Interpreter

variable {host : Host} {program : Program} {vm final : Interpreter}
  {code : Trap}

/-- A step that traps changes the record only. -/
theorem step_sameMachine_of_error (accepted : vm.preloadTrap = none)
    (trapped : vm.step host = .ok (.error code, final)) :
    SameMachine vm final := by
  generalize answered : (Except.error code, final) = answer at trapped
  have failed : answer.1 = .error code := by rw [← answered]
  have left : answer.2 = final := by rw [← answered]
  rw [← left]
  cases step_stepped trapped with
  | resting => cases failed
  | rejected _ preload =>
      rw [accepted] at preload
      contradiction
  | overrun => exact ⟨rfl, accepted, rfl⟩
  | executed fetches transition =>
      have begun : SameMachine vm vm.beginInsn := ⟨rfl, rfl, rfl⟩
      exact begun.trans (transition.sameMachine_of_error accepted failed)

/-- An object with the machine of one that traps traps with the same code
and the same payload. -/
theorem step_error_of_sameMachine {other : Interpreter}
    (same : SameMachine vm other)
    (trapped : vm.step host = .ok (.error code, final)) :
    ∃ next, other.step host = .ok (.error code, next) ∧
      final.state.lastTrapPayload = next.state.lastTrapPayload := by
  have alike := @step_alike host vm other same
  rw [trapped] at alike
  cases answer : other.step host with
  | error reason =>
      rw [answer] at alike
      contradiction
  | ok reply =>
      rw [answer] at alike
      cases alike with
      | trapped _ _ payload => exact ⟨_, rfl, payload⟩

/-- Once an accepted program traps, every later step finds the machine
unchanged and traps again. -/
theorem iterate_after_trap (accepted : vm.preloadTrap = none)
    (trapped : vm.step host = .ok (.error code, final)) (count : Nat) :
    ∃ later, iterate (step host) count final = .ok later ∧
      SameMachine vm later ∧
      later.state.lastTrapPayload = final.state.lastTrapPayload := by
  induction count with
  | zero =>
      exact ⟨final, rfl, step_sameMachine_of_error accepted trapped, rfl⟩
  | succ count induction =>
      obtain ⟨later, reached, same, payload⟩ := induction
      obtain ⟨next, again, payloads⟩ :=
        step_error_of_sameMachine same trapped
      have barred : later.preloadTrap = none :=
        same.preloadTrap_eq.symm.trans accepted
      have unchanged := step_sameMachine_of_error barred again
      exact ⟨next, iterate_succ_last.mpr ⟨later, _, reached, again⟩,
        same.trans unchanged, payloads.symm⟩

/-- Every later step traps with the same code and the same payload and leaves
the machine as it is. -/
def TrapsForever (host : Host) (code : Trap) (vm : Interpreter) : Prop :=
  ∀ count, ∃ later next,
    iterate (step host) count vm = .ok later ∧
    later.machine = vm.machine ∧
    later.step host = .ok (.error code, next) ∧
    next.machine = vm.machine ∧
    next.state.lastTrapPayload = vm.state.lastTrapPayload

/-- Traps are atomic and terminal in every reachable state of an accepted
program. -/
theorem trap_atomic_and_terminal
    (accepted : validateProgram program = none)
    (reached : Reachable host program vm)
    (trapped : vm.step host = .ok (.error code, final)) :
    final.machine = vm.machine ∧ TrapsForever host code final := by
  have preload := (reached.accepted accepted).preloadTrap_eq
  have same := step_sameMachine_of_error preload trapped
  refine ⟨same.machine_eq.symm, fun count => ?_⟩
  obtain ⟨later, iterated, unchanged, payload⟩ :=
    iterate_after_trap preload trapped count
  obtain ⟨next, again, payloads⟩ :=
    step_error_of_sameMachine unchanged trapped
  have barred : later.preloadTrap = none :=
    unchanged.preloadTrap_eq.symm.trans preload
  have kept := unchanged.trans (step_sameMachine_of_error barred again)
  exact ⟨later, next, iterated,
    unchanged.machine_eq.symm.trans same.machine_eq, again,
    kept.machine_eq.symm.trans same.machine_eq, payloads.symm⟩

/-- `Div 0 0 1` divides by the zero in register 1. -/
def divideByZero : Program where
  insns := [{ opcode := .div, a := 0, b := 0, c := 1 }]
  axionPolicyText := []
  fits := by decide

/-- With register 0 set by the host, the division traps for ever. -/
theorem trap_atomic_and_terminal_divideByZero :
    ∃ vm final,
      run (call strictHost) [.setRegister 0 5 .int]
        (freshlyLoaded divideByZero) = .ok ([.done], vm) ∧
      vm.step strictHost = .ok (.error .divisionFault, final) ∧
      final.machine = vm.machine ∧
      TrapsForever strictHost .divisionFault final := by
  have finished : run (call strictHost) [.setRegister 0 5 .int]
      (freshlyLoaded divideByZero) = .ok (_, _) := rfl
  have reached : Reachable strictHost divideByZero _ :=
    ⟨_, _, _, loads_freshlyLoaded rfl, by simp [Call.driving], finished⟩
  exact ⟨_, _, finished, rfl, trap_atomic_and_terminal rfl reached rfl⟩

end Interpreter

end T81VM.VM
