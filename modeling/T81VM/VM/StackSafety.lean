import T81VM.VM.OperandRoles

/-!
# The stack pointer

Push, Pop and StackAlloc keep the stack pointer inside the stack segment.
StackFree adds the size of the released frame to it, so it leaves the segment
when the guest has popped below the base of the frame.
-/

namespace T81VM.VM

open Tisc PartialSystem Fallible

namespace Interpreter

/-- An address of a memory cell inside the stack segment. -/
def StackCell (vm : Interpreter) (addr : Nat) : Prop :=
  vm.state.layout.stack.contains addr = true ∧
    addr < vm.state.memory.length

/-- The stack pointer lies in the stack segment, and every push and every pop
touches a cell of that segment. -/
structure StackSafe (vm : Interpreter) : Prop where
  above : vm.state.layout.stack.start ≤ vm.state.sp
  below : vm.state.sp ≤ vm.state.layout.stack.limit
  pushes : ∀ idx pushed, vm.pushRegister idx = .ok (some pushed) →
    StackCell vm pushed.state.sp ∧
      ∃ value, pushed.state.memory =
        vm.state.memory.set pushed.state.sp value
  pops : ∀ idx popped, vm.popRegister idx = .ok (some popped) →
    StackCell vm vm.state.sp ∧
      ∃ reg value, registerIndex idx = .ok reg ∧
        vm.state.memory[vm.state.sp]? = some value ∧
        popped.state.registers =
          Function.update vm.state.registers reg value
  inMemory : ∀ idx addr,
    vm.pushRegister idx ≠ .error (.memoryIndex addr) ∧
      vm.popRegister idx ≠ .error (.memoryIndex addr)

/-- The next step releases the stack frame `top`. -/
inductive Frees (vm : Interpreter) (top : Nat × Nat) : Prop where
  | intro {insn : Insn} {reg : Fin 243} {frames : List (Nat × Nat)}
      (fetches : vm.Fetches insn)
      (opcode : insn.opcode = .stackFree)
      (stack : vm.state.stackFrames = top :: frames)
      (index : registerIndex insn.a = .ok reg)
      (base : toSize (vm.state.registers reg) = top.1)
      (size : requestedSize insn.b = top.2)

/-- A frame that the next step releases fits between the stack pointer and
the end of the stack segment. -/
def FreeFits (vm : Interpreter) : Prop :=
  ∀ top, vm.Frees top →
    vm.state.sp + top.2 ≤ vm.state.layout.stack.limit

/-- Recorded frames are no larger than the segment reaches. -/
structure FramesBounded (program : Program) (vm : Interpreter) : Prop
    extends Installed program vm where
  frames : ∀ frame ∈ vm.state.stackFrames,
    frame.2 ≤ program.insns.length + 256

/-- The bounds the stack opcodes keep. -/
structure StackBounded (program : Program) (vm : Interpreter) : Prop
    extends FramesBounded program vm where
  above : program.insns.length ≤ vm.state.sp
  below : vm.state.sp ≤ program.insns.length + 256

variable {host : Host} {program : Program} {vm : Interpreter}

theorem Installed.stack_start (installed : Installed program vm) :
    vm.state.layout.stack.start = program.insns.length := by
  rw [installed.layout_eq, initialLayout_stack]

theorem Installed.stack_limit (installed : Installed program vm) :
    vm.state.layout.stack.limit = program.insns.length + 256 := by
  rw [installed.layout_eq, initialLayout_stack]

/-- Inside the bounds an address of the segment is a memory cell. -/
theorem Installed.stackCell (installed : Installed program vm) {addr : Nat}
    (above : program.insns.length ≤ addr)
    (below : addr < program.insns.length + 256) : StackCell vm addr := by
  have size := installed.memory_length
  rw [initialLayout_totalSize] at size
  refine ⟨(MemorySegment.contains_iff _ _).mpr ?_, by omega⟩
  rw [installed.stack_start, installed.stack_limit]
  exact ⟨above, below⟩

theorem register_failsOnly {idx : Int64} :
    FailsOnly (fun stuck => stuck = .registerIndex idx) (registerIndex idx) := by
  unfold registerIndex
  split <;> trivial

/-- A push that gets stuck has no register to read or no cell to write. -/
theorem pushRegister_failsOnly {idx : Int64} :
    FailsOnly (fun stuck => stuck = .registerIndex idx ∨
      vm.state.memory.length ≤ vm.state.sp - 1) (vm.pushRegister idx) := by
  have index : FailsOnly (fun stuck => stuck = .registerIndex idx ∨
      vm.state.memory.length ≤ vm.state.sp - 1) (registerIndex idx) :=
    failsOnly_of_error fun stuck failed =>
      .inl (register_failsOnly.of_error failed)
  unfold pushRegister
  split
  · trivial
  · refine FailsOnly.bind (index.bind fun _ _ => trivial) fun value _ => ?_
    refine FailsOnly.bind ?_ fun _ _ => trivial
    unfold setMemory
    split
    · trivial
    · rename_i outside
      exact .inr (Nat.le_of_not_gt outside)

/-- A pop that gets stuck has no cell to read or no register to write. -/
theorem popRegister_failsOnly {idx : Int64} :
    FailsOnly (fun stuck => stuck = .registerIndex idx ∨
      vm.state.memory.length ≤ vm.state.sp) (vm.popRegister idx) := by
  unfold popRegister
  split
  · trivial
  · refine FailsOnly.bind ?_ fun value _ => FailsOnly.bind ?_
      fun _ _ => trivial
    · unfold memoryAt
      split
      · trivial
      · rename_i missing
        exact .inr (List.getElem?_eq_none_iff.mp missing)
    · exact failsOnly_of_error fun stuck failed =>
        .inl (register_failsOnly.of_error failed)

/-- Inside the bounds every stack access is safe. -/
theorem StackBounded.stackSafe (bounded : StackBounded program vm) :
    StackSafe vm := by
  have start := bounded.toInstalled.stack_start
  have limit := bounded.toInstalled.stack_limit
  have size := bounded.memory_length
  rw [initialLayout_totalSize] at size
  have above := bounded.above
  have below := bounded.below
  refine ⟨by omega, by omega, ?_, ?_, ?_⟩
  · intro idx pushed succeeded
    obtain ⟨nonzero, room, _, reg, _, rfl⟩ :=
      pushRegister_eq_some.mp succeeded
    have lower : program.insns.length ≤ vm.state.sp - 1 := by omega
    have upper : vm.state.sp - 1 < program.insns.length + 256 := by omega
    exact ⟨bounded.stackCell lower upper, vm.state.registers reg, rfl⟩
  · intro idx popped succeeded
    obtain ⟨room, reg, value, index, read, rfl⟩ :=
      popRegister_eq_some.mp succeeded
    exact ⟨bounded.stackCell above (by omega), reg, value, index, read, rfl⟩
  · intro idx addr
    constructor
    · intro failed
      rcases pushRegister_failsOnly.of_error failed with index | outside
      · contradiction
      · omega
    · intro failed
      rcases popRegister_failsOnly.of_error failed with index | outside
      · contradiction
      · omega

theorem Loads.stackBounded (loads : Loads program vm) :
    StackBounded program vm := by
  obtain ⟨policy, same⟩ := loads.state_eq
  refine ⟨⟨loads.installed, ?_⟩, ?_, ?_⟩
  · intro frame member
    rw [same] at member
    contradiction
  · rw [same]
    exact Nat.le_add_right _ _
  · rw [same]
    exact Nat.le_refl _

/-- A frame is allocated below the stack pointer, so below the limit. -/
theorem FramesBounded.step {result : Expected} {final : Interpreter}
    (bounded : FramesBounded program vm)
    (below : vm.state.sp ≤ program.insns.length + 256)
    (stepped : vm.step host = .ok (result, final)) :
    FramesBounded program final := by
  refine ⟨bounded.toInstalled.step stepped, ?_⟩
  have frames := bounded.frames
  cases step_stepped stepped with
  | resting | rejected | overrun => exact frames
  | executed fetches transition =>
      cases transition with
      | stackAllocated _ _ _ fits =>
          have fits : toSize _ ≤ vm.state.sp := fits
          intro frame member
          rcases List.mem_cons.mp member with rfl | member
          · exact fits.trans below
          · exact frames frame member
      | stackFreed _ _ stack =>
          have stack : vm.state.stackFrames = _ :: _ := stack
          intro frame member
          exact frames frame (stack ▸ List.mem_cons_of_mem _ member)
      | _ => exact frames

/-- Sizes near the stack segment do not wrap around. -/
theorem FramesBounded.wrapSize_eq {top : Nat × Nat}
    (bounded : FramesBounded program vm)
    (below : vm.state.sp ≤ program.insns.length + 256)
    (member : top ∈ vm.state.stackFrames) :
    wrapSize (vm.state.sp + top.2) = vm.state.sp + top.2 := by
  have frame := bounded.frames top member
  have small := program.length_lt
  exact Nat.mod_eq_of_lt (by omega)

/-- A step keeps the bounds when the frame it releases fits. -/
theorem StackBounded.step {result : Expected} {final : Interpreter}
    (bounded : StackBounded program vm) (fits : FreeFits vm)
    (stepped : vm.step host = .ok (result, final)) :
    StackBounded program final := by
  have frames := bounded.toFramesBounded.step bounded.below stepped
  have start := bounded.toInstalled.stack_start
  have limit := bounded.toInstalled.stack_limit
  have above := bounded.above
  have below := bounded.below
  suffices inside : program.insns.length ≤ final.state.sp ∧
      final.state.sp ≤ program.insns.length + 256 from
    ⟨frames, inside.1, inside.2⟩
  cases step_stepped stepped with
  | resting | rejected | overrun => exact ⟨above, below⟩
  | executed fetches transition =>
      cases transition with
      | pushed _ _ _ room =>
          have room : vm.state.layout.stack.start ≤ vm.state.sp - 1 := room
          show _ ≤ vm.state.sp - 1 ∧ vm.state.sp - 1 ≤ _
          omega
      | popped _ _ room =>
          have room : vm.state.sp < vm.state.layout.stack.limit := room
          show _ ≤ vm.state.sp + 1 ∧ vm.state.sp + 1 ≤ _
          omega
      | stackAllocated _ _ _ _ room =>
          have room : vm.state.layout.stack.start ≤
            vm.state.sp - toSize _ := room
          show _ ≤ vm.state.sp - toSize _ ∧ vm.state.sp - toSize _ ≤ _
          omega
      | @stackFreed reg top rest _ releases index stack base size =>
          have stack : vm.state.stackFrames = top :: rest := stack
          have room : vm.state.sp + top.2 ≤ vm.state.layout.stack.limit :=
            fits top ⟨fetches, role_stackFrees releases, stack, index, base,
              size⟩
          show _ ≤ wrapSize (vm.state.sp + top.2) ∧
            wrapSize (vm.state.sp + top.2) ≤ _
          rw [bounded.wrapSize_eq below (by simp [stack])]
          omega
      | _ => exact ⟨above, below⟩

/-- Releasing a frame adds its size to the stack pointer. -/
theorem step_of_frees {top : Nat × Nat} (frees : vm.Frees top) :
    ∃ final, vm.step host = .ok (.ok (), final) ∧
      final.state.sp = wrapSize (vm.state.sp + top.2) := by
  obtain ⟨fetches, opcode, stack, index, base, size⟩ := frees
  rename_i insn reg frames
  have read : vm.beginInsn.register insn.a = .ok (vm.state.registers reg) :=
    register_eq_ok.mpr ⟨reg, index, rfl⟩
  have matching : ¬ (toSize (vm.state.registers reg) ≠ top.1 ∨
      requestedSize insn.b ≠ top.2) := by simp [base, size]
  rw [step_of_fetches fetches, execute, opcode]
  simp only [executeStackFree]
  split
  · rename_i empty
    have none : vm.state.stackFrames = [] := empty
    rw [stack] at none
    contradiction
  · rename_i first rest nonempty
    have same : vm.state.stackFrames = first :: rest := nonempty
    rw [stack] at same
    cases same
    rw [read]
    exact ⟨_, if_neg matching, rfl⟩

/-- A release that ends inside the segment fitted there. -/
theorem freeFits_of_step {result : Expected} {final : Interpreter}
    (bounded : FramesBounded program vm) (safe : StackSafe vm)
    (after : StackSafe final) (stepped : vm.step host = .ok (result, final)) :
    FreeFits vm := by
  intro top frees
  obtain ⟨next, released, pointer⟩ := @step_of_frees host vm top frees
  have same : final = next := by
    rw [released] at stepped
    cases stepped
    rfl
  subst same
  have limit := (bounded.toInstalled.step stepped).stack_limit
  have below := safe.below
  rw [bounded.toInstalled.stack_limit] at below ⊢
  have member : top ∈ vm.state.stackFrames := by
    obtain ⟨_, _, stack, _, _, _⟩ := frees
    simp [stack]
  rw [bounded.wrapSize_eq below member] at pointer
  have inside := after.below
  omega

/-- The stack is safe in every state of a guest run exactly when every frame
the run releases fits below the end of the stack segment. -/
theorem stackSafe_throughout_iff {loaded : Interpreter} {calls : List Call}
    {replies : List Reply} (loads : Loads program loaded)
    (guest : ∀ call ∈ calls, call.guest)
    (finished : run (call host) calls loaded = .ok (replies, vm)) :
    ∃ count, iterate (step host) count loaded = .ok vm ∧
      (Throughout (step host) loaded count StackSafe ↔
        Before (step host) loaded count FreeFits) := by
  obtain ⟨count, reached⟩ := run_guest_iterate guest finished
  have initial := loads.stackBounded
  refine ⟨count, reached, ?_, ?_⟩
  · intro safe
    have frames : Throughout (step host) loaded count
        (FramesBounded program) :=
      throughout_of_before (FramesBounded program) StackSafe
        (fun state _ _ bounded safe stepped =>
          bounded.step (bounded.toInstalled.stack_limit ▸ safe.below)
            stepped)
        initial.toFramesBounded safe.before
    exact before_of_throughout
      (fun _ _ _ before after stepped =>
        freeFits_of_step before.1 before.2 after.2 stepped)
      reached (frames.and safe)
  · intro fits
    have bounded := throughout_of_before (StackBounded program) FreeFits
      (fun _ _ _ bounded fits stepped => bounded.step fits stepped)
      initial fits
    exact bounded.mono fun _ bounded => bounded.stackSafe

/-- Allocate one cell, pop it and release it: the pointer ends one past the
segment. -/
def freeAfterPop : Program where
  insns := [
    { opcode := .stackAlloc, a := 0, b := 1, c := 0 },
    { opcode := .pop, a := 1, b := 0, c := 0 },
    { opcode := .stackFree, a := 0, b := 1, c := 0 },
    { opcode := .push, a := 1, b := 0, c := 0 }]
  axionPolicyText := []
  fits := by decide

/-- The first two steps stay inside the segment. -/
theorem stackSafe_throughout_iff_freeAfterPop :
    ∃ replies vm, run (call strictHost) [.step, .runToHalt 1]
        (freshlyLoaded freeAfterPop) = .ok (replies, vm) ∧
      ∃ count, iterate (step strictHost) count
          (freshlyLoaded freeAfterPop) = .ok vm ∧
        (Throughout (step strictHost) (freshlyLoaded freeAfterPop) count
            StackSafe ↔
          Before (step strictHost) (freshlyLoaded freeAfterPop) count
            FreeFits) := by
  have finished : run (call strictHost) [.step, .runToHalt 1]
      (freshlyLoaded freeAfterPop) = .ok (_, _) := rfl
  exact ⟨_, _, finished, stackSafe_throughout_iff (loads_freshlyLoaded rfl)
    (by simp [Call.guest]) finished⟩

/-- An accepted program with all operands in range reaches a state whose
stack pointer is past the stack segment. -/
theorem not_stackSafe_freeAfterPop :
    ¬ ∀ host program, validateProgram program = none → WellFormed program →
      ∀ vm, GuestReachable host program vm → StackSafe vm := by
  intro safe
  have accepted : validateProgram freeAfterPop = none := rfl
  have wellFormed : WellFormed freeAfterPop :=
    wellFormed_iff.mpr ⟨validateProgram_eq_none_iff_otherwise.mp accepted,
      by unfold ConversionsInRange; decide⟩
  obtain ⟨vm, reached, limit, pointer⟩ : ∃ vm,
      iterate (step strictHost) 3 (freshlyLoaded freeAfterPop) = .ok vm ∧
      vm.state.layout.stack.limit = 260 ∧ vm.state.sp = 261 :=
    ⟨_, rfl, rfl, rfl⟩
  have below := (safe strictHost freeAfterPop accepted wellFormed vm
    (guestReachable_iff_iterate.mpr
      ⟨_, 3, loads_freshlyLoaded rfl, reached⟩)).below
  omega

end Interpreter

end T81VM.VM
