import T81VM.VM.RunLoop

/-!
# What a step leaves on record

A trap records a payload, `Halt` clears it, and every other step leaves it
alone.  What is on record is a trap.
-/

namespace T81VM.VM

open Tisc

/-- An instruction that neither traps nor halts leaves the record alone. -/
theorem Transition.trapRecord_eq {vm final : Interpreter} {insn : Insn}
    {pc : Nat} {success : Unit}
    (transition : Transition vm insn pc (.ok success, final))
    (others : role insn.opcode ≠ .halts) :
    final.state.halted = vm.state.halted ∧
      final.state.lastTrapPayload = vm.state.lastTrapPayload := by
  cases transition with
  | halted same => exact absurd same others
  | _ => exact ⟨rfl, rfl⟩

namespace Interpreter

variable {host : Host} {program : Program} {vm final : Interpreter}
  {result : Expected}

/-- A step rests, traps and records the trap, halts and clears the record, or
goes on and leaves the record alone. -/
inductive TrapRecord (vm : Interpreter) : Expected → Interpreter → Prop where
  | rests (halted : vm.state.halted = true) : TrapRecord vm (.ok ()) vm
  | traps {final : Interpreter} {code : Trap} {payload : TrapPayload}
      (running : final.state.halted = false)
      (recorded : final.state.lastTrapPayload = some payload)
      (named : payload.trap = code) : TrapRecord vm (.error code) final
  | halts {final : Interpreter} {insn : Insn} (fetches : vm.Fetches insn)
      (opcode : insn.opcode = .halt) (halted : final.state.halted = true)
      (cleared : final.state.lastTrapPayload = none) :
      TrapRecord vm (.ok ()) final
  | goesOn {final : Interpreter} {insn : Insn} (fetches : vm.Fetches insn)
      (opcode : insn.opcode ≠ .halt) (running : final.state.halted = false)
      (kept : final.state.lastTrapPayload = vm.state.lastTrapPayload) :
      TrapRecord vm (.ok ()) final

theorem step_trapRecord (stepped : vm.step host = .ok (result, final)) :
    TrapRecord vm result final := by
  cases result with
  | error code =>
      have running := running_of_step stepped
      obtain ⟨payload, recorded, named⟩ := (recorded_of_step stepped).payload
      exact .traps running recorded named
  | ok success =>
      cases step_stepped stepped with
      | resting halted => exact .rests halted
      | @executed insn _ fetches transition =>
          have running : vm.beginInsn.state.halted = false := fetches.running
          by_cases halts : role insn.opcode = .halts
          · have opcode : insn.opcode = .halt :=
              opcode_of_role (by rw [halts, Role.soleOpcode])
            cases transition with
            | halted => exact .halts fetches opcode rfl rfl
            | _ => simp_all
          · have opcode : insn.opcode ≠ .halt := by
              intro same
              rw [same] at halts
              exact halts rfl
            have kept := transition.trapRecord_eq halts
            exact .goesOn fetches opcode (kept.1.trans running) kept.2

/-- The traps on record and in wait are traps. -/
structure TrapsReal (vm : Interpreter) : Prop where
  preload : ∀ code, vm.preloadTrap = some code → code = .decodeFault
  payload : ∀ payload, vm.state.lastTrapPayload = some payload →
    payload.trap ≠ .none

theorem none_not_mem_faultCodes (opcode : Opcode) :
    Trap.none ∉ faultCodes opcode := by
  intro listed
  cases opcode with
  | undefined excess =>
      have decode : Trap.none ∈ [Trap.decodeFault] := listed
      exact absurd decode (by decide)
  | _ => exact absurd listed (by decide)

theorem TrapsReal.code_ne_none {code : Trap} (real : TrapsReal vm)
    (stepped : vm.step host = .ok (.error code, final)) : code ≠ .none := by
  cases step_stepped stepped with
  | rejected running preload =>
      rw [real.preload _ preload]
      decide
  | overrun => decide
  | @executed insn _ fetches transition =>
      rw [step_of_fetches fetches] at stepped
      intro same
      subst same
      exact none_not_mem_faultCodes _
        (execute_faultCodes .none final stepped)

theorem TrapsReal.step (real : TrapsReal vm)
    (stepped : vm.step host = .ok (result, final)) : TrapsReal final := by
  constructor
  · cases step_stepped stepped with
    | resting => exact real.preload
    | rejected | overrun =>
        intro code preload
        cases preload
    | executed fetches transition =>
        intro code preload
        rw [transition.preloadTrap_eq fetches.accepted] at preload
        cases preload
  · intro payload recorded
    cases step_trapRecord stepped with
    | rests => exact real.payload payload recorded
    | traps running again named =>
        rw [again] at recorded
        cases recorded
        rw [named]
        exact real.code_ne_none stepped
    | halts fetches opcode halted cleared =>
        rw [cleared] at recorded
        cases recorded
    | goesOn fetches opcode running kept =>
        rw [kept] at recorded
        exact real.payload payload recorded

theorem Loads.trapsReal (loads : Loads program vm) : TrapsReal vm := by
  obtain ⟨policy, same⟩ := loads.state_eq
  refine ⟨loads.trapOpcodeOnly.preload, fun payload recorded => ?_⟩
  rw [same] at recorded
  cases recorded

end Interpreter

end T81VM.VM
