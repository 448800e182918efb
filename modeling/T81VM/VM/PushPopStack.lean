import T81VM.Library.BoundedStack
import T81VM.VM.Footprint
import T81VM.VM.StackSafety

/-!
# Pushing and popping

As long as a guest allocates no stack frames and stores nothing into the
stack segment, `Push` and `Pop` are the operations of a stack of at most 256
values, and nothing else touches it.
-/

namespace T81VM.VM

open Tisc PartialSystem BoundedStack

namespace Interpreter

variable {host : Host} {program : Program} {loaded vm final : Interpreter}
  {insn : Insn} {result : Expected} {contents : List Int64}

/-- The next instruction allocates and releases no stack frame and stores
nothing into the stack segment. -/
def LeavesStack (vm : Interpreter) : Prop :=
  ∀ insn, vm.Fetches insn →
    insn.opcode ≠ .stackAlloc ∧ insn.opcode ≠ .stackFree ∧
      (insn.opcode = .store →
        vm.state.layout.stack.contains (toSize insn.a) = false)

/-- The stack pointer and the cells above it hold the list. -/
structure HoldsStack (vm : Interpreter) (contents : List Int64) : Prop where
  bounded : contents.length ≤ 256
  represents : Represents vm.state.memory vm.state.sp
    vm.state.layout.stack.limit contents

/-- The moves of the abstract stack. -/
inductive StackMove (vm : Interpreter) (contents : List Int64) :
    Expected → Interpreter → List Int64 → Prop where
  | pushed {insn : Insn} {reg : Fin 243} {final : Interpreter}
      (fetches : vm.Fetches insn) (opcode : insn.opcode = .push)
      (index : registerIndex insn.a = .ok reg)
      (room : contents.length < 256) :
      StackMove vm contents (.ok ()) final (vm.state.registers reg :: contents)
  | full {insn : Insn} {final : Interpreter}
      (fetches : vm.Fetches insn) (opcode : insn.opcode = .push)
      (noRoom : contents.length = 256) :
      StackMove vm contents (.error .stackFault) final contents
  | popped {insn : Insn} {reg : Fin 243} {value : Int64} {rest : List Int64}
      {final : Interpreter}
      (fetches : vm.Fetches insn) (opcode : insn.opcode = .pop)
      (index : registerIndex insn.a = .ok reg)
      (same : contents = value :: rest)
      (written : final.state.registers reg = value)
      (tagged : final.state.registerTags reg = .int) :
      StackMove vm contents (.ok ()) final rest
  | empty {insn : Insn} {final : Interpreter}
      (fetches : vm.Fetches insn) (opcode : insn.opcode = .pop)
      (same : contents = []) :
      StackMove vm contents (.error .stackFault) final contents
  | other {result : Expected} {final : Interpreter}
      (neither : ∀ insn, vm.Fetches insn →
        insn.opcode ≠ .push ∧ insn.opcode ≠ .pop) :
      StackMove vm contents result final contents

/-! ## One step -/

/-- A machine with an accepted program that holds the list. -/
structure StackHeld (program : Program) (vm : Interpreter)
    (contents : List Int64) : Prop extends Accepted program vm where
  holds : HoldsStack vm contents

/-- The pointer is below the limit by the length of the list. -/
theorem StackHeld.pointer (held : StackHeld program vm contents) :
    vm.state.sp + contents.length = program.insns.length + 256 := by
  have total := held.holds.represents.cursor_eq
  rw [held.toInstalled.stack_limit] at total
  exact total

theorem Loads.stackHeld (loads : Loads program vm)
    (accepted : validateProgram program = none) :
    StackHeld program vm [] := by
  refine ⟨loads.accepted accepted, Nat.zero_le _, ?_⟩
  obtain ⟨policy, same⟩ := loads.state_eq
  rw [same]
  exact Represents.empty

/-- A push finds room exactly when the list is shorter than 256 values. -/
theorem StackHeld.push (held : StackHeld program vm contents)
    (fetches : vm.Fetches insn) (opcode : insn.opcode = .push)
    (stepped : vm.step host = .ok (result, final)) :
    ∃ later, StackMove vm contents result final later ∧
      HoldsStack final later := by
  have executed : vm.beginInsn.executePush insn vm.state.pc =
      .ok (result, final) := by
    rw [step_of_fetches fetches, execute, opcode] at stepped
    exact stepped
  have pointer := held.pointer
  have start := held.toInstalled.stack_start
  have bounded := held.holds.bounded
  obtain ⟨outcome, pushed, rest⟩ := bind_eq_ok.mp executed
  cases outcome with
  | none =>
      have refused := pushRegister_eq_none.mp pushed
      have noRoom : vm.state.sp = 0 ∨
          vm.state.sp - 1 < vm.state.layout.stack.start := refused
      cases rest
      exact ⟨contents, .full fetches opcode (by omega),
        bounded, held.holds.represents⟩
  | some moved =>
      obtain ⟨nonzero, above, inside, reg, index, same⟩ :=
        pushRegister_eq_some.mp pushed
      have nonzero : vm.state.sp ≠ 0 := nonzero
      have above : vm.state.layout.stack.start ≤ vm.state.sp - 1 := above
      have completed := finish_eq_ok.mp rest
      rw [same] at completed
      cases completed
      refine ⟨vm.state.registers reg :: contents,
        .pushed fetches opcode index (by omega), ?_, ?_⟩
      · rw [List.length_cons]
        omega
      · exact held.holds.represents.push nonzero inside

/-- A pop finds a value exactly when the list is not empty. -/
theorem StackHeld.pop (held : StackHeld program vm contents)
    (fetches : vm.Fetches insn) (opcode : insn.opcode = .pop)
    (stepped : vm.step host = .ok (result, final)) :
    ∃ later, StackMove vm contents result final later ∧
      HoldsStack final later := by
  have executed : vm.beginInsn.executePop insn vm.state.pc =
      .ok (result, final) := by
    rw [step_of_fetches fetches, execute, opcode] at stepped
    exact stepped
  have holds := held.holds
  have pointer := held.pointer
  have limit := held.toInstalled.stack_limit
  obtain ⟨outcome, taken, rest⟩ := bind_eq_ok.mp executed
  cases outcome with
  | none =>
      have refused := popRegister_eq_none.mp taken
      have low : vm.state.layout.stack.limit ≤ vm.state.sp := refused
      cases rest
      exact ⟨contents, .empty fetches opcode
        (holds.represents.eq_nil_iff.mpr low), holds.bounded,
        holds.represents⟩
  | some moved =>
      obtain ⟨room, reg, value, index, cell, same⟩ :=
        popRegister_eq_some.mp taken
      have room : vm.state.sp < vm.state.layout.stack.limit := room
      have cell : vm.state.memory[vm.state.sp]? = some value := cell
      obtain ⟨written, read, last⟩ := bind_eq_ok.mp rest
      have completed := finish_eq_ok.mp last
      rw [same] at completed
      cases completed
      cases contents with
      | nil =>
          have low := holds.represents.eq_nil_iff.mp rfl
          omega
      | cons head tail =>
          have top := holds.represents.top
          rw [cell] at top
          cases top
          refine ⟨tail, .popped fetches opcode index rfl ?_ ?_, ?_, ?_⟩
          · exact Function.update_self _ _ _
          · exact Function.update_self _ _ _
          · have bounded := holds.bounded
            rw [List.length_cons] at bounded
            omega
          · exact holds.represents.pop

/-- Every other instruction that leaves the stack alone keeps the list. -/
theorem StackHeld.other (held : StackHeld program vm contents)
    (leaves : vm.LeavesStack)
    (neither : ∀ insn, vm.Fetches insn →
      insn.opcode ≠ .push ∧ insn.opcode ≠ .pop)
    (stepped : vm.step host = .ok (result, final)) :
    HoldsStack final contents := by
  refine ⟨held.holds.bounded, ?_⟩
  have represents := held.holds.represents
  have pointer := held.pointer
  have bounded := held.holds.bounded
  have start := held.toInstalled.stack_start
  have limit := held.toInstalled.stack_limit
  cases step_stepped stepped with
  | resting | rejected | overrun => exact represents
  | executed fetches transition =>
      obtain ⟨noAlloc, noFree, noStore⟩ := leaves _ fetches
      obtain ⟨noPush, noPop⟩ := neither _ fetches
      cases transition with
      | stored stores =>
          have opcode : _ = Opcode.store :=
            opcode_of_role (by rw [stores, Role.soleOpcode])
          have outside := Bool.eq_false_iff.mp (noStore opcode)
          rw [ne_eq, MemorySegment.contains_iff, not_and_or, not_le, not_lt,
            start, limit] at outside
          apply represents.set_outside
          omega
      | pushed pushes =>
          exact absurd (opcode_of_role (by rw [pushes, Role.soleOpcode])) noPush
      | popped pops =>
          exact absurd (opcode_of_role (by rw [pops, Role.soleOpcode])) noPop
      | stackAllocated allocates =>
          exact absurd (opcode_of_role (by rw [allocates, Role.soleOpcode]))
            noAlloc
      | stackFreed releases =>
          exact absurd (opcode_of_role (by rw [releases, Role.soleOpcode]))
            noFree
      | _ => exact represents

/-- Every step that leaves the stack alone is a move of the list. -/
theorem StackHeld.step (held : StackHeld program vm contents)
    (leaves : vm.LeavesStack)
    (stepped : vm.step host = .ok (result, final)) :
    ∃ later, StackMove vm contents result final later ∧
      StackHeld program final later := by
  have accepted := held.toAccepted.step stepped
  have moves : ∃ later, StackMove vm contents result final later ∧
      HoldsStack final later := by
    by_cases pushes : ∃ insn, vm.Fetches insn ∧ insn.opcode = .push
    · obtain ⟨insn, fetches, opcode⟩ := pushes
      exact held.push fetches opcode stepped
    · by_cases pops : ∃ insn, vm.Fetches insn ∧ insn.opcode = .pop
      · obtain ⟨insn, fetches, opcode⟩ := pops
        exact held.pop fetches opcode stepped
      · have neither : ∀ insn, vm.Fetches insn →
            insn.opcode ≠ .push ∧ insn.opcode ≠ .pop := by
          intro insn fetches
          exact ⟨fun opcode => pushes ⟨insn, fetches, opcode⟩,
            fun opcode => pops ⟨insn, fetches, opcode⟩⟩
        exact ⟨contents, .other neither, held.other leaves neither stepped⟩
  obtain ⟨later, move, holds⟩ := moves
  exact ⟨later, move, accepted, holds⟩

/-! ## Whole runs -/

/-- In a guest run of an accepted program that leaves the stack alone, `Push`
and `Pop` are the operations of a list of at most 256 values that the stack
pointer and the cells above it hold. -/
theorem pushPop_refines (accepted : validateProgram program = none)
    (loads : Loads program loaded) {calls : List Call}
    {replies : List Reply} (guest : ∀ call ∈ calls, call.guest)
    (finished : run (call host) calls loaded = .ok (replies, vm)) :
    ∃ count, iterate (step host) count loaded = .ok vm ∧
      (Before (step host) loaded count LeavesStack →
        ∃ track, track 0 = [] ∧
          Tracks (step host) HoldsStack StackMove loaded count track) := by
  obtain ⟨count, reached⟩ := run_guest_iterate guest finished
  refine ⟨count, reached, ?_⟩
  intro leaves
  obtain ⟨track, empty, tracks⟩ := exists_tracks
    (fun _ _ _ _ held here stepped => held.step here stepped)
    (loads.stackHeld accepted) leaves
  refine ⟨track, empty, ?_, tracks.moves⟩
  intro index small state there
  exact (tracks.related index small state there).holds

/-- A push, a pop of what was pushed, and a pop of nothing. -/
def pushAndPop : Program where
  insns := [
    { opcode := .loadImm, a := 0, b := 7, c := 0 },
    { opcode := .push, a := 0, b := 0, c := 0 },
    { opcode := .pop, a := 1, b := 0, c := 0 },
    { opcode := .pop, a := 2, b := 0, c := 0 }]
  axionPolicyText := []
  fits := by decide

set_option maxRecDepth 20000 in
/-- The program runs into the trap of its last pop. -/
theorem pushPop_refines_pushAndPop :
    ∃ replies vm, run (call strictHost) [.step, .runToHalt 5]
        (freshlyLoaded pushAndPop) = .ok (replies, vm) ∧
      ∃ count, iterate (step strictHost) count (freshlyLoaded pushAndPop) =
          .ok vm ∧
        (Before (step strictHost) (freshlyLoaded pushAndPop) count
            LeavesStack →
          ∃ track, track 0 = [] ∧
            Tracks (step strictHost) HoldsStack StackMove
              (freshlyLoaded pushAndPop) count track) := by
  have finished : run (call strictHost) [.step, .runToHalt 5]
      (freshlyLoaded pushAndPop) = .ok (_, _) := rfl
  exact ⟨_, _, finished, pushPop_refines rfl (loads_freshlyLoaded rfl)
    (by simp [Call.guest]) finished⟩

end Interpreter

end T81VM.VM
